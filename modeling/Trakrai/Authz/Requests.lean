import Trakrai.Lib.Except
import Trakrai.Authz.Statements

namespace Trakrai.Authz
open List Lib Backend

theorem isolated_statement_bind {F : List AuthzObject} {post : World → Prop}
    {f : World → Except TrpcError (α × World)} {k : α → Task β} {w : World} (hw : Consistent w)
    (herr : post w)
    (hok : ∀ {a w'}, f w = .ok (a, w') → slicing.Guar F w w' ∧ Consistent w' ∧
      slicing.Local true F (k a) w' ∧ post ((k a).exec w').2) :
    slicing.Isolated F post (statement f >>= k) w := by
  cases hf : f w with
  | ok r =>
    obtain ⟨a, w'⟩ := r
    obtain ⟨hg, hi, hl, hp⟩ := hok hf
    apply Slicing.Isolated.atomic_bind
    · simpa only [hf] using hg
    · simp only [hf]
      exact hi
    · intro a' ha'
      simp only [hf] at ha' ⊢
      cases ha'
      exact ⟨hl, hp⟩
    · intro e he
      simp only [hf] at he
      cases he
  | error e =>
    apply Slicing.Isolated.atomic_bind
    · simpa only [hf] using Slicing.Guar.refl w
    · simp only [hf]
      exact hw
    · intro a ha
      simp only [hf] at ha
      cases ha
    · intro _ _
      simpa only [hf] using herr

theorem local_read_done {F : List AuthzObject} {f : World → α} {k : α → Task β} {w : World}
    (hk : ∀ a, (k a).isDone) : slicing.Local true F (query f >>= k) w :=
  Slicing.Local.atomic_bind_done (fun t ht hinv => ⟨Slicing.Guar.refl t, hinv, ht⟩) hk

theorem exec_read_done {f : World → α} {k : α → Task β} {w : World} (hk : ∀ a, (k a).isDone) :
    ((query f >>= k).exec w).2 = w := by
  rw [Prog.exec_bind, exec_query]
  exact Prog.exec_of_isDone (hk _) w

section
variable (strict : Bool) {objectType parentType : AuthzType} {objectId parentId : String}

theorem fine_setObjectParentRelation
    (ha : isAllowed ⟨⟨objectType, objectId⟩, .parent, ⟨parentType, parentId⟩⟩)
    (ha' : isAllowed ⟨⟨parentType, parentId⟩, .child, ⟨objectType, objectId⟩⟩)
    (hne : objectType ≠ parentType) (hm : Mirrored ⟨objectType, objectId⟩ w)
    (hc : objectType = .device → ∀ c, ⟨⟨objectType, objectId⟩, .child, c⟩ ∈ w.tuples →
      ∃ r ∈ w.installationsOf objectId, c = ⟨.deviceComponent, r.id⟩)
    (hp : w.parentOf ⟨objectType, objectId⟩ = some ⟨parentType, parentId⟩) :
    ∃ tuples, (setObjectParentRelation objectType objectId parentType parentId).exec w =
        (.ok (), { w with tuples := tuples }) ∧
      Fine strict ⟨objectType, objectId⟩ { w with tuples := tuples } := by
  obtain ⟨tuples, hexec, hmem⟩ := exec_setObjectParentRelation ha ha' hm
  have hp' : ({ w with tuples := tuples } : World).parentOf ⟨objectType, objectId⟩ =
    some ⟨parentType, parentId⟩ := hp
  refine ⟨tuples, hexec, ?_, ?_, ?_⟩
  · intro t ht
    rw [hp', hmem]
    simp [ht]
  · intro hdev c hmem'
    rcases (hmem _).1 hmem' with ⟨hold, _⟩ | he | he
    · exact hc hdev c hold
    · cases he
    · exact (hne (congrArg (·.object.type) he)).elim
  · intro _ _ hn
    cases hp'.symm.trans hn

/-- A request that sets a parent and goes on with `k`. -/
theorem setObjectParentRelation_bind {F : List AuthzObject} {post : World → Prop} {k : Task β}
    {w : World} (hw : Consistent w) (hF : ⟨objectType, objectId⟩ ∈ F)
    (ha : isAllowed ⟨⟨objectType, objectId⟩, .parent, ⟨parentType, parentId⟩⟩)
    (ha' : isAllowed ⟨⟨parentType, parentId⟩, .child, ⟨objectType, objectId⟩⟩)
    (hdev : objectType ≠ .deviceComponent) (hpar : parentType ≠ .device)
    (hne : objectType ≠ parentType) (hm : Mirrored ⟨objectType, objectId⟩ w)
    (hc : objectType = .device → ∀ c, ⟨⟨objectType, objectId⟩, .child, c⟩ ∈ w.tuples →
      ∃ r ∈ w.installationsOf objectId, c = ⟨.deviceComponent, r.id⟩)
    (hp : w.parentOf ⟨objectType, objectId⟩ = some ⟨parentType, parentId⟩)
    (hk : ∀ {tuples}, Consistent { w with tuples := tuples } →
      slicing.Guar [⟨objectType, objectId⟩] w { w with tuples := tuples } →
      Fine strict ⟨objectType, objectId⟩ { w with tuples := tuples } →
      slicing.Local true F k { w with tuples := tuples } ∧
        post (k.exec { w with tuples := tuples }).2) :
    slicing.Local true F
        (setObjectParentRelation objectType objectId parentType parentId >>= fun _ => k) w ∧
      post ((setObjectParentRelation objectType objectId parentType parentId >>=
        fun _ => k).exec w).2 := by
  obtain ⟨tuples, hexec, hfine⟩ := fine_setObjectParentRelation strict ha ha' hne hm hc hp
  have hlocal {F : List AuthzObject} (hF : ⟨objectType, objectId⟩ ∈ F) : slicing.Local false F
      (setObjectParentRelation objectType objectId parentType parentId) w :=
    local_setObjectParentRelation hw hF hdev hpar
  obtain ⟨hg, hi⟩ := (hlocal (mem_singleton_self _)).exec hw
  rw [hexec] at hg hi
  obtain ⟨hl, hpost⟩ := hk hi hg hfine
  constructor
  · refine Slicing.Local.bind (hlocal hF) hw ?_
    intro a t hex _
    rw [hexec] at hex
    cases hex
    exact hl
  · rw [Prog.exec_bind, hexec]
    exact hpost

end

theorem allowed_department (departmentId factoryId : String) :
    isAllowed ⟨⟨.department, departmentId⟩, .parent, ⟨.factory, factoryId⟩⟩ ∧
      isAllowed ⟨⟨.factory, factoryId⟩, .child, ⟨.department, departmentId⟩⟩ := ⟨rfl, rfl⟩

theorem allowed_device (deviceId departmentId : String) :
    isAllowed ⟨⟨.device, deviceId⟩, .parent, ⟨.department, departmentId⟩⟩ ∧
      isAllowed ⟨⟨.department, departmentId⟩, .child, ⟨.device, deviceId⟩⟩ := ⟨rfl, rfl⟩

theorem allowed_component (componentId deviceId : String) :
    isAllowed ⟨⟨.deviceComponent, componentId⟩, .parent, ⟨.device, deviceId⟩⟩ ∧
      isAllowed ⟨⟨.device, deviceId⟩, .child, ⟨.deviceComponent, componentId⟩⟩ := ⟨rfl, rfl⟩

def AllFine (strict : Bool) (F : List AuthzObject) (w : World) : Prop := ∀ o ∈ F, Fine strict o w

section
variable {strict : Bool} {w w' : World}

theorem finishDepartment_fine {row : DepartmentRow} (hw' : Consistent w')
    (hm : Mirrored ⟨.department, row.id⟩ w')
    (hp : w'.parentOf ⟨.department, row.id⟩ = some ⟨.factory, row.factoryId⟩) :
    slicing.Local true [⟨.department, row.id⟩] (finishDepartment row) w' ∧
      AllFine strict [⟨.department, row.id⟩] ((finishDepartment row).exec w').2 := by
  refine setObjectParentRelation_bind strict hw' (mem_singleton_self _)
    (allowed_department ..).1 (allowed_department ..).2 (by decide) (by decide) (by decide) hm
    (by simp) hp ?_
  intro tuples _ _ hfine
  refine ⟨trivial, fun o ho => ?_⟩
  rw [mem_singleton.1 ho]
  exact hfine

theorem allFine_singleton {o : AuthzObject} : AllFine strict [o] w ↔ Fine strict o w := by
  simp [AllFine]

theorem insertDepartment_isolated (row : DepartmentRow) (hw : Consistent w)
    (hf : Fine strict ⟨.department, row.id⟩ w) :
    slicing.Isolated [⟨.department, row.id⟩] (AllFine strict [⟨.department, row.id⟩])
      (insertDepartment row >>= finishDepartment) w := by
  refine isolated_statement_bind hw (allFine_singleton.2 hf) ?_
  intro row' w' hok
  split at hok
  · cases hok
  · rename_i hc
    cases hok
    simp only [Bool.or_eq_true, Bool.not_eq_true', not_or, Bool.not_eq_false] at hc
    have hw' := hw.insertDepartment hc.1 hc.2
    refine ⟨⟨fun o ho => ?_, rfl⟩, hw', ?_⟩
    · exact sameAt_insertDepartment fun he => ho (mem_singleton.2 he)
    · exact finishDepartment_fine hw' hf.mirrored (parentOf_insertDepartment hc.1)

theorem updateDepartmentRow_isolated {id : String} {set : DepartmentRow → DepartmentRow}
    (hset : ∀ row, (set row).id = row.id) (hw : Consistent w)
    (hf : Fine strict ⟨.department, id⟩ w) :
    slicing.Isolated [⟨.department, id⟩] (AllFine strict [⟨.department, id⟩])
      (updateDepartmentRow id set >>= finishUpdateDepartment) w := by
  refine isolated_statement_bind hw (allFine_singleton.2 hf) ?_
  intro updated w' hok
  split at hok
  · cases hok
    exact ⟨Slicing.Guar.refl _, hw, trivial, allFine_singleton.2 hf⟩
  · rename_i row hrow
    split at hok
    · rename_i hfk
      cases hok
      obtain ⟨hmem, hid⟩ := mem_of_find?_key hrow
      have hw' : Consistent (w.setDepartment id set) := by
        apply hw.setDepartment hset
        intro r hr hrid
        rw [inj_on_of_nodup_map hw.departmentIds hr hmem (hrid.trans hid.symm)]
        exact hfk
      refine ⟨⟨fun o ho => ?_, rfl⟩, hw', ?_⟩
      · exact sameAt_setDepartment hset fun he => ho (mem_singleton.2 he)
      · have hp := parentOf_setDepartment hset hrow
        obtain rfl : (set row).id = id := (hset row).trans hid
        exact finishDepartment_fine hw' hf.mirrored hp
    · cases hok

theorem textId_ok {field value id : String} (h : textId field value = .ok id) : id = jsTrim value := by
  rw [textId] at h
  split at h
  · cases h
  · cases h
    rfl

theorem permitted_ok (h : permitted message role input = .ok input') : input' = input := by
  obtain ⟨_, _, h⟩ := bind_ok h
  cases h
  rfl

theorem createDepartment_isolated (hw : Consistent w) (hf : Fine strict ⟨.department, departmentId⟩ w) :
    slicing.Isolated [⟨.department, departmentId⟩] (AllFine strict [⟨.department, departmentId⟩])
      (createDepartment role input departmentId) w := by
  refine Slicing.Isolated.ofExcept_bind (allFine_singleton.2 hf) fun input _ => ?_
  exact insertDepartment_isolated ⟨departmentId, _, _, _⟩ hw hf

theorem updateDepartment_isolated {role : Option String} {id : String} {input : DepartmentInput}
    (hw : Consistent w) (hf : Fine strict ⟨.department, jsTrim id⟩ w) :
    slicing.Isolated [⟨.department, jsTrim id⟩] (AllFine strict [⟨.department, jsTrim id⟩])
      (updateDepartment role id input) w := by
  refine Slicing.Isolated.ofExcept_bind (allFine_singleton.2 hf) ?_
  rintro ⟨id', input⟩ hparse
  obtain ⟨_, _, hparse⟩ := bind_ok hparse
  obtain ⟨id₁, hid, hparse⟩ := bind_ok hparse
  cases permitted_ok hparse
  rw [← textId_ok hid] at hf ⊢
  apply updateDepartmentRow_isolated _ hw hf
  exact fun _ => rfl

theorem joined_done (joined : Option JoinedDevice) : (match joined with
      | none => Prog.fail (.internal message)
      | some joined => pure joined : Task JoinedDevice).isDone := by
  cases joined with
  | none => rfl
  | some joined => rfl

theorem Fine.childrenOf {id : String} (hf : Fine strict ⟨.device, id⟩ w) (c : AuthzObject)
    (hc : ⟨⟨.device, id⟩, .child, c⟩ ∈ w.tuples) :
    ∃ r ∈ w.installationsOf id, c = ⟨.deviceComponent, r.id⟩ :=
  hf.children rfl c hc

theorem finishUpdateDevice_fine (hw' : Consistent w') (hm : Mirrored ⟨.device, row.id⟩ w')
    (hc : ∀ c, ⟨⟨.device, row.id⟩, .child, c⟩ ∈ w'.tuples →
      ∃ r ∈ w'.installationsOf row.id, c = ⟨.deviceComponent, r.id⟩)
    (hp : w'.parentOf ⟨.device, row.id⟩ = some ⟨.department, row.departmentId⟩) :
    slicing.Local true [⟨.device, row.id⟩] (finishUpdateDevice (some row)) w' ∧
      AllFine strict [⟨.device, row.id⟩] ((finishUpdateDevice (some row)).exec w').2 := by
  refine setObjectParentRelation_bind strict hw' (mem_singleton_self _)
    (allowed_device ..).1 (allowed_device ..).2 (by decide) (by decide) (by decide) hm
    (fun _ => hc) hp ?_
  intro tuples _ _ hfine
  refine ⟨local_read_done joined_done, ?_⟩
  rw [readJoinedDevice, exec_read_done]
  · exact allFine_singleton.2 hfine
  · exact joined_done

theorem updateDeviceRow_isolated {id : String} {set : DeviceRow → DeviceRow}
    (hset : ∀ row, (set row).id = row.id) (hw : Consistent w) (hf : Fine strict ⟨.device, id⟩ w) :
    slicing.Isolated [⟨.device, id⟩] (AllFine strict [⟨.device, id⟩])
      (updateDeviceRow id set >>= finishUpdateDevice) w := by
  refine isolated_statement_bind hw (allFine_singleton.2 hf) ?_
  intro updated w' hok
  split at hok
  · cases hok
    exact ⟨Slicing.Guar.refl _, hw, trivial, allFine_singleton.2 hf⟩
  · rename_i row hrow
    split at hok
    · rename_i hfk
      cases hok
      obtain ⟨hmem, hid⟩ := mem_of_find?_key hrow
      have hw' : Consistent (w.setDevice id set) := by
        apply hw.setDevice hset
        intro r hr hrid
        rw [inj_on_of_nodup_map hw.deviceIds hr hmem (hrid.trans hid.symm)]
        exact hfk
      refine ⟨⟨fun o ho => ?_, rfl⟩, hw', ?_⟩
      · exact sameAt_setDevice hset fun he => ho (mem_singleton.2 he)
      · have hp := parentOf_setDevice hset hrow
        obtain rfl : (set row).id = id := (hset row).trans hid
        exact finishUpdateDevice_fine hw' hf.mirrored hf.childrenOf hp
    · cases hok

theorem UpdateDeviceInput.parse_id {input input' : UpdateDeviceInput}
    (h : input.parse = .ok input') : input'.id = jsTrim input.id := by
  obtain ⟨_, _, h⟩ := bind_ok h
  obtain ⟨_, _, h⟩ := bind_ok h
  obtain ⟨id, hid, h⟩ := bind_ok h
  obtain ⟨_, _, h⟩ := bind_ok h
  cases h
  exact textId_ok hid

theorem updateDevice_isolated {role : Option String} {input : UpdateDeviceInput}
    (hw : Consistent w) (hf : Fine strict ⟨.device, jsTrim input.id⟩ w) :
    slicing.Isolated [⟨.device, jsTrim input.id⟩] (AllFine strict [⟨.device, jsTrim input.id⟩])
      (updateDevice role input) w := by
  refine Slicing.Isolated.ofExcept_bind (allFine_singleton.2 hf) ?_
  intro input' hparse
  obtain ⟨parsed, hparse, hperm⟩ := bind_ok hparse
  cases permitted_ok hperm
  rw [← UpdateDeviceInput.parse_id hparse] at hf ⊢
  apply updateDeviceRow_isolated _ hw hf
  exact fun _ => rfl

end

end Trakrai.Authz
