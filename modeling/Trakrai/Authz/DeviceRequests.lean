import Trakrai.Authz.Requests

namespace Trakrai.Authz
open List Lib Backend

section
variable {strict : Bool} {w w' : World}

theorem mem_installationTuples : t ∈ installationTuples rows ↔ ∃ row ∈ rows,
      t = ⟨componentOf row, .parent, deviceOf row⟩ ∨ t = ⟨deviceOf row, .child, componentOf row⟩ := by
  simp [installationTuples, createObjectParentTupleKeys, createAuthzObject, componentOf, deviceOf]

theorem installationTuples_allowed (t : TupleKey) (ht : t ∈ installationTuples rows): isAllowed t := by
  obtain ⟨row, _, rfl | rfl⟩ := mem_installationTuples.1 ht
  · exact (allowed_component ..).1
  · exact (allowed_component ..).2

theorem installationTuples_relation (t : TupleKey) (ht : t ∈ installationTuples rows): t.relation = .parent ∨ t.relation = .child := by
  obtain ⟨row, _, rfl | rfl⟩ := mem_installationTuples.1 ht
  · exact .inl rfl
  · exact .inr rfl

theorem isLink_parent : isLink o ⟨o', .parent, q⟩ ↔ o' = o := by
  simp [isLink]

theorem isLink_child : isLink o ⟨q, .child, o'⟩ ↔ o' = o := by
  simp [isLink]

theorem parentOf_install_of_new (ho : ∀ row ∈ rows, o ≠ componentOf row): (w.install rows).parentOf o = w.parentOf o := by
  obtain ⟨type, k⟩ := o
  refine parentOf_congr (fun _ => rfl) (fun _ => rfl) (fun ht => ?_)
  cases ht
  exact find?_key_append fun row hr he => ho row hr (by rw [componentOf, he])

theorem Fine.install (hf : Fine strict o w) (ha : w.acceptsInstallations rows)
    (ht : ∀ t, t ∈ tuples ↔ t ∈ w.tuples ∨ t ∈ installationTuples rows) :
    Fine strict o { w.install rows with tuples := tuples } := by
  have hparent (o : AuthzObject) :
      ({ w.install rows with tuples := tuples } : World).parentOf o = (w.install rows).parentOf o :=
    rfl
  refine ⟨fun t hl => ?_, fun hdev c hc => ?_, fun hs hp hn t hmem he => ?_⟩
  · rw [ht, hparent]
    by_cases ho : ∃ row ∈ rows, o = componentOf row
    · obtain ⟨row, hrow, rfl⟩ := ho
      have hnone : w.parentOf (componentOf row) = none := by
        rw [componentOf, parentOf_component_eq_none, any_key_iff]
        rintro ⟨r, hr, hid⟩
        exact (acceptsInstallations_new ha hrow).1 r hr hid
      have hold : t ∉ w.tuples := by
        rw [hf.links t hl, hnone]
        simp
      rw [parentOf_install ha hrow, mem_installationTuples]
      simp only [hold, false_or, Option.some.injEq, exists_eq_left']
      constructor
      · rintro ⟨row', hrow', he⟩
        have hsame : componentOf row' = componentOf row := by
          rcases he with rfl | rfl
          · exact isLink_parent.1 hl
          · exact isLink_child.1 hl
        have hrows : row' = row := inj_on_of_nodup_map (acceptsInstallations_ids ha) hrow' hrow
          (congrArg AuthzObject.id hsame)
        exact hrows ▸ he
      · exact fun he => ⟨row, hrow, he⟩
    · have hnew : ∀ row ∈ rows, o ≠ componentOf row := fun row hrow he => ho ⟨row, hrow, he⟩
      have hnot : t ∉ installationTuples rows := by
        rw [mem_installationTuples]
        rintro ⟨row, hrow, rfl | rfl⟩
        · exact hnew row hrow (isLink_parent.1 hl).symm
        · exact hnew row hrow (isLink_child.1 hl).symm
      rw [parentOf_install_of_new hnew, ← hf.links t hl]
      simp [hnot]
  · have hof := installationsOf_install (w := w) rows o.id
    rcases (ht _).1 hc with hc | hc
    · obtain ⟨r, hr, he⟩ := hf.children hdev c hc
      exact ⟨r, hof ▸ mem_append_left _ hr, he⟩
    · obtain ⟨row, hrow, he | he⟩ := mem_installationTuples.1 hc
      · cases he
      · cases he
        refine ⟨row, hof ▸ mem_append_right _ (mem_filter.2 ⟨hrow, ?_⟩), rfl⟩
        simp [deviceOf]
  · rw [hparent] at hn
    have hnew : ∀ row ∈ rows, o ≠ componentOf row := by
      rintro row hrow rfl
      rw [parentOf_install ha hrow] at hn
      cases hn
    rw [parentOf_install_of_new hnew] at hn
    rcases (ht t).1 hmem with hmem | hmem
    · exact hf.clean hs hp hn t hmem he
    · obtain ⟨row, hrow, rfl | rfl⟩ := mem_installationTuples.1 hmem
      · exact hnew row hrow he.symm
      · exact hnew row hrow he.symm

def installDefaults (deviceId : String) (uuid : Nat → String) (catalog : List CatalogRow) :
    Task Unit :=
  if catalog.length > 0 then
    insertInstallations (defaultInstallations deviceId uuid catalog) >>= fun rows =>
      writeAuthzTuples (installationTuples rows)
  else pure ()

theorem finishCreateDevice_eq (created : DeviceRow) (uuid : Nat → String) :
    finishCreateDevice created uuid =
      (setObjectParentRelation .device created.id .department created.departmentId >>= fun _ =>
        query (·.catalog) >>= fun catalog => installDefaults created.id uuid catalog >>= fun _ =>
          readJoinedDevice created.id >>= fun joined =>
            match joined with
            | none => Prog.fail (.internal "Failed to load created device.")
            | some joined => pure joined) := by
  rw [finishCreateDevice]
  congr 1
  funext _
  congr 1
  funext catalog
  rw [installDefaults]
  split
  · exact (Prog.bind_assoc _ _ _).symm
  · rfl

theorem exec_insertInstallations (rows : List InstallationRow) (w : World) :
    (insertInstallations rows).exec w =
      if w.acceptsInstallations rows then (.ok rows, w.install rows)
      else (.error constraintViolated, w) := by
  rw [insertInstallations, statement, Prog.exec_atomic]
  by_cases ha : w.acceptsInstallations rows
  · simp only [ha, if_true]
    rfl
  · simp only [ha, Bool.false_eq_true, if_false]

theorem SameAt.install (rows : List InstallationRow) (h : SameAt o w w') :
    SameAt o (w.install rows) (w'.install rows) := by
  obtain ⟨type, k⟩ := o
  refine ⟨?_, fun ht => ?_, h.tuples⟩
  · have hp := h.parentOf
    cases type with
    | user => rfl
    | factory => rfl
    | department => exact hp
    | device => exact hp
    | deviceComponent =>
      simp only [World.parentOf, World.install, List.find?_append, Option.map_or] at hp ⊢
      rw [hp]
  · rw [installationsOf_install, installationsOf_install, h.installationsOf ht]

theorem local_insertInstallations (hF : ∀ row ∈ rows, componentOf row ∈ F ∧ deviceOf row ∈ F):
    slicing.Local false F (insertInstallations rows) w := by
  apply Slicing.Local.atomic
  intro t ht hinv
  have hacc : t.acceptsInstallations rows = w.acceptsInstallations rows :=
    acceptsInstallations_congr
      (fun row hrow => ⟨ht.1 _ (hF row hrow).1, ht.1 _ (hF row hrow).2⟩) ht.2
  by_cases ha : w.acceptsInstallations rows
  · rw [ha] at hacc
    simp only [hacc, ha, if_true]
    refine ⟨⟨fun o ho => ?_, rfl⟩, hinv.install hacc, ⟨fun o ho => ?_, ht.2⟩, fun _ => trivial⟩
    · apply sameAt_install
      intro row hrow
      exact ⟨fun he => ho (he ▸ (hF row hrow).1), fun he => ho (he ▸ (hF row hrow).2)⟩
    · exact (ht.1 o ho).install rows
  · simp only [hacc, ha, Bool.false_eq_true, if_false]
    exact ⟨Slicing.Guar.refl t, hinv, ht, fun _ => trivial⟩

theorem owned_installationTuples
    (hF : ∀ row ∈ rows, componentOf row ∈ F ∧ deviceOf row ∈ F) (t : TupleKey)
    (ht : t ∈ installationTuples rows) : Owned F t := by
  obtain ⟨row, hrow, rfl | rfl⟩ := mem_installationTuples.1 ht
  · exact owned_parent (hF row hrow).1 _
  · exact owned_child (hF row hrow).1 fun _ => (hF row hrow).2

theorem exec_install (rows : List InstallationRow) (w : World) :
    ((insertInstallations rows >>= fun rows =>
      writeAuthzTuples (installationTuples rows)).exec w).2 = w ∨
    w.acceptsInstallations rows ∧ ∃ tuples, ((insertInstallations rows >>= fun rows =>
        writeAuthzTuples (installationTuples rows)).exec w).2 =
          { w.install rows with tuples := tuples } ∧
      ∀ t, t ∈ tuples ↔ t ∈ w.tuples ∨ t ∈ installationTuples rows := by
  rw [Prog.exec_bind, exec_insertInstallations]
  by_cases ha : w.acceptsInstallations rows
  · obtain ⟨tuples, hexec, hmem⟩ := exec_writeAuthzTuples (installationTuples rows)
      (w.install rows) installationTuples_allowed
    simp only [if_pos ha, hexec]
    exact .inr ⟨ha, tuples, rfl, hmem⟩
  · simp only [if_neg ha]
    exact .inl trivial

/-- The objects that `devices.create` makes. -/
def createdObjects (deviceId : String) (uuid : Nat → String) (w : World) : List AuthzObject :=
  ⟨.device, deviceId⟩ :: (List.range w.catalog.length).map fun n => ⟨.deviceComponent, uuid n⟩

theorem mem_createdObjects (deviceId : String) (uuid : Nat → String) (w : World)
    (row : InstallationRow) (h : row ∈ defaultInstallations deviceId uuid w.catalog) :
    componentOf row ∈ createdObjects deviceId uuid w ∧
      deviceOf row ∈ createdObjects deviceId uuid w := by
  obtain ⟨⟨entry, n⟩, hmem, rfl⟩ := mem_map.1 h
  have hn : n < w.catalog.length := by
    have := snd_lt_of_mem_zipIdx hmem
    simpa using this
  exact ⟨mem_cons_of_mem _ (mem_map.2 ⟨n, mem_range.2 hn, rfl⟩), mem_cons_self ..⟩

theorem installDefaults_fine (hw : Consistent w)
    (hf : AllFine strict (createdObjects deviceId uuid w) w) :
    slicing.Local false (createdObjects deviceId uuid w)
        (installDefaults deviceId uuid w.catalog) w ∧
      ∀ {result w'}, (installDefaults deviceId uuid w.catalog).exec w = (result, w') →
        AllFine strict (createdObjects deviceId uuid w) w' := by
  rw [installDefaults]
  split
  · have hF := mem_createdObjects deviceId uuid w
    constructor
    · refine Slicing.Local.bind (local_insertInstallations hF) hw ?_
      intro rows w' hexec hw'
      have hrows : rows = defaultInstallations deviceId uuid w.catalog := by
        rw [exec_insertInstallations] at hexec
        split at hexec
        · cases hexec
          rfl
        · cases hexec
      subst hrows
      exact local_writeAuthzTuples hw' (owned_installationTuples hF) installationTuples_relation
    · intro result w' hexec o ho
      have hw' := congrArg Prod.snd hexec
      simp only at hw'
      rcases exec_install (defaultInstallations deviceId uuid w.catalog) w with
        he | ⟨ha, tuples, he, hmem⟩
      · rw [he] at hw'
        exact hw' ▸ hf o ho
      · rw [he] at hw'
        exact hw' ▸ (hf o ho).install ha hmem
  · refine ⟨trivial, fun hexec => ?_⟩
    cases hexec
    exact hf

theorem finishCreateDevice_fine (hw : Consistent w) (hm : Mirrored ⟨.device, created.id⟩ w)
    (hc : ∀ c, ⟨⟨.device, created.id⟩, .child, c⟩ ∈ w.tuples →
      ∃ r ∈ w.installationsOf created.id, c = ⟨.deviceComponent, r.id⟩)
    (hp : w.parentOf ⟨.device, created.id⟩ = some ⟨.department, created.departmentId⟩)
    (hf : ∀ o ∈ createdObjects created.id uuid w, o ≠ ⟨.device, created.id⟩ → Fine strict o w) :
    slicing.Local true (createdObjects created.id uuid w) (finishCreateDevice created uuid) w ∧
      AllFine strict (createdObjects created.id uuid w)
        ((finishCreateDevice created uuid).exec w).2 := by
  rw [finishCreateDevice_eq]
  refine setObjectParentRelation_bind strict hw (mem_cons_self ..)
    (allowed_device ..).1 (allowed_device ..).2 (by decide) (by decide) (by decide) hm
    (fun _ => hc) hp ?_
  intro tuples hw₁ hg hfine
  generalize hw₁' : ({ w with tuples := tuples } : World) = w₁ at *
  have hcat : w₁.catalog = w.catalog := hw₁' ▸ rfl
  have hsame : createdObjects created.id uuid w = createdObjects created.id uuid w₁ := by
    rw [createdObjects, createdObjects, hcat]
  have hall : AllFine strict (createdObjects created.id uuid w₁) w₁ := by
    intro o ho
    by_cases hdev : o = ⟨.device, created.id⟩
    · exact hdev ▸ hfine
    · exact (hf o (hsame ▸ ho) hdev).stable (hg.1 o (by simpa using hdev))
  rw [hsame]
  obtain ⟨hlocal, hdone⟩ := installDefaults_fine hw₁ hall
  constructor
  · refine Slicing.Local.bind (local_query fun _ t ht _ => ht.2) hw₁ ?_
    intro catalog w₂ hexec _
    rw [exec_query] at hexec
    cases hexec
    refine Slicing.Local.bind hlocal hw₁ ?_
    intro _ _ _ _
    exact local_read_done joined_done
  · rw [Prog.exec_bind, exec_query]
    simp only
    rw [Prog.exec_bind]
    cases hexec : (installDefaults created.id uuid w₁.catalog).exec w₁ with
    | mk result w₂ =>
      have hfine₂ := hdone hexec
      cases result with
      | error e => exact hfine₂
      | ok _ =>
        simp only
        rw [readJoinedDevice, exec_read_done]
        · exact hfine₂
        · exact joined_done

theorem insertDevice_isolated (row : DeviceRow) (hw : Consistent w)
    (hf : AllFine strict (createdObjects row.id uuid w) w) :
    slicing.Isolated (createdObjects row.id uuid w) (AllFine strict (createdObjects row.id uuid w))
      (insertDevice row >>= fun created => finishCreateDevice created uuid) w := by
  refine isolated_statement_bind hw hf ?_
  intro row' w' hok
  split at hok
  · cases hok
  · rename_i hc
    cases hok
    simp only [Bool.or_eq_true, Bool.not_eq_true', not_or, Bool.not_eq_false] at hc
    have hw' := hw.insertDevice hc.1.1 hc.2
    have hdev := hf _ (mem_cons_self ..)
    refine ⟨⟨fun o ho => ?_, rfl⟩, hw', ?_⟩
    · exact sameAt_insertDevice fun he => ho (he ▸ mem_cons_self ..)
    · apply finishCreateDevice_fine hw' hdev.mirrored hdev.childrenOf
        (parentOf_insertDevice hc.1.1)
      intro o ho hne
      exact (hf o ho).stable (sameAt_insertDevice hne)

theorem createDevice_isolated (hw : Consistent w)
    (hf : AllFine strict (createdObjects deviceId uuid w) w) :
    slicing.Isolated (createdObjects deviceId uuid w)
      (AllFine strict (createdObjects deviceId uuid w))
      (createDevice role input deviceId accessToken uuid) w := by
  refine Slicing.Isolated.ofExcept_bind hf fun input _ => ?_
  exact insertDevice_isolated ⟨deviceId, _, _, _, _, _⟩ hw hf

/-- The objects that `devices.delete` removes. -/
def deletedObjects (id : String) (w : World) : List AuthzObject :=
  ⟨.device, id⟩ :: (w.installationsOf id).map componentOf

theorem exec_deleteObjectAuthzRelations_subset (objectType : AuthzType) (objectId : String)
    (w : World) : ∀ t ∈ ((deleteObjectAuthzRelations objectType objectId).exec w).2.tuples,
      t ∈ w.tuples := by
  rw [deleteObjectAuthzRelations_eq, readTuplesForObject, Prog.exec_bind, exec_query]
  simp only
  split
  · exact fun t ht => ht
  · rw [exec_clientWrite w (by simp)]
    intro t ht
    rcases mem_writeTuples.1 ht with ⟨ht, _⟩ | ht
    · exact ht
    · cases ht

theorem not_component_child (ha : ∀ t ∈ w.tuples, isAllowed t) (row : InstallationRow)
    (o : AuthzObject) : ⟨componentOf row, .child, o⟩ ∉ w.tuples := by
  intro hmem
  have := ha _ hmem
  rw [isAllowed, componentOf, directTypes_component_child] at this
  cases this

theorem exec_forEach_delete (rows : List InstallationRow) (w : World)
    (ha : ∀ t ∈ w.tuples, isAllowed t) (hm : ∀ row ∈ rows, Mirrored (componentOf row) w) :
    ∃ tuples, (forEach rows fun row => deleteObjectAuthzRelations .deviceComponent row.id).exec w =
        (.ok (), { w with tuples := tuples }) ∧
      ∀ t, t ∈ tuples ↔ t ∈ w.tuples ∧
        ∀ row ∈ rows, t.object ≠ componentOf row ∧ ¬ isLink (componentOf row) t := by
  induction rows generalizing w with
  | nil => exact ⟨w.tuples, rfl, by simp⟩
  | cons row rows ih =>
    obtain ⟨tuples, hexec, hmem⟩ :=
      exec_deleteObjectAuthzRelations (hm row (mem_cons_self ..))
    have hm' : ∀ row' ∈ rows, Mirrored (componentOf row') { w with tuples := tuples } := by
      intro row' hrow' q
      have hq := hm row' (mem_cons_of_mem _ hrow') q
      show _ ∈ tuples ↔ _ ∈ tuples
      rw [hmem, hmem, isLink_parent, isLink_child, hq]
      apply and_congr_right
      intro hchild
      have hobj : q ≠ ⟨.deviceComponent, row.id⟩ := by
        rintro rfl
        exact not_component_child ha row _ hchild
      simp [hobj]
    obtain ⟨tuples', hexec', hmem'⟩ := ih { w with tuples := tuples }
      (fun t ht => ha t ((hmem t).1 ht).1) hm'
    refine ⟨tuples', ?_, fun t => ?_⟩
    · rw [exec_forEach_cons, hexec]
      exact hexec'
    · rw [hmem', hmem, forall_mem_cons, and_assoc]
      rfl

theorem fine_of_removed (hp : w.parentOf o = none)
    (ht : ∀ t ∈ w.tuples, t.object ≠ o ∧ ¬ isLink o t) : Fine strict o w := by
  refine ⟨fun t hl => ?_, fun _ c hc => ((ht _ hc).1 rfl).elim, fun _ _ _ t hmem he => ?_⟩
  · rw [hp]
    simpa using fun hmem => (ht t hmem).2 hl
  · rw [tupleTarget] at he
    split at he
    · rename_i hr
      exact (ht t hmem).2 (by simp [isLink, hr, he])
    · exact (ht t hmem).1 he

theorem mem_installationsOf {id : String} {row : InstallationRow} :
    row ∈ w.installationsOf id ↔ row ∈ w.installations ∧ row.deviceId = id := by
  simp [World.installationsOf]

theorem parentOf_componentOf (hw : Consistent w) {id : String} {row : InstallationRow}
    (h : row ∈ w.installationsOf id) : w.parentOf (componentOf row) = some ⟨.device, id⟩ := by
  obtain ⟨hmem, rfl⟩ := mem_installationsOf.1 h
  simp only [World.parentOf, componentOf, find?_key_of_mem hw.installationIds hmem rfl,
    Option.map_some]

theorem parentOf_eq_device {o : AuthzObject} {id : String}
    (h : w.parentOf o = some ⟨.device, id⟩) : o ∈ (w.installationsOf id).map componentOf := by
  obtain ⟨type, k⟩ := o
  cases type with
  | user => cases h
  | factory => cases h
  | department => simp [World.parentOf] at h
  | device => simp [World.parentOf] at h
  | deviceComponent =>
    simp only [World.parentOf, Option.map_eq_some_iff, AuthzObject.mk.injEq, true_and] at h
    obtain ⟨row, hrow, hid⟩ := h
    obtain ⟨hmem, rfl⟩ := mem_of_find?_key hrow
    exact mem_map.2 ⟨row, mem_installationsOf.2 ⟨hmem, hid⟩, rfl⟩

/-- What `devices.delete` does to a device that exists. -/
def removeDeviceObjects (id : String) (rows : List InstallationRow) (joined : JoinedDevice) :
    Task JoinedDevice :=
  (forEach rows fun row => deleteObjectAuthzRelations .deviceComponent row.id) >>= fun _ =>
    deleteObjectAuthzRelations .device id >>= fun _ =>
      deleteDeviceRow id >>= fun _ => pure joined

theorem finishDeleteDevice_eq (id : String) (joined : Option JoinedDevice) :
    finishDeleteDevice id joined = (query (·.installationsOf id) >>= fun rows =>
      match joined with
      | none => Prog.fail (.notFound "Device not found.")
      | some joined => removeDeviceObjects id rows joined) := rfl

section
variable {id : String} (hw : Consistent w) (hf : AllFine strict (deletedObjects id w) w)
include hw hf

theorem local_deleteComponent (hrow : row ∈ w.installationsOf id)
    (hw' : Consistent w') (hsub : ∀ t ∈ w'.tuples, t ∈ w.tuples) :
    slicing.Local false (deletedObjects id w)
      (deleteObjectAuthzRelations .deviceComponent row.id) w' := by
  have hF : componentOf row ∈ deletedObjects id w :=
    mem_cons_of_mem _ (mem_map_of_mem hrow)
  refine local_deleteObjectAuthzRelations hw' hF (.inr rfl) ?_ ?_
  · intro t ht hobj
    obtain ⟨o, r, u⟩ := t
    cases hobj
    have hr : r ≠ .child := by
      rintro rfl
      exact not_component_child hw'.allowed row u ht
    refine owned_iff.2 ⟨?_, by simp⟩
    simp only [tupleTarget, hr, if_false]
    exact hF
  · intro q hq _
    have hlink : isLink (componentOf row) ⟨componentOf row, .parent, q⟩ := isLink_parent.2 rfl
    obtain ⟨p, hp, he⟩ := ((hf _ hF).links _ hlink).1 (hsub _ hq)
    rw [parentOf_componentOf hw hrow] at hp
    rcases he with he | he
    · cases hp
      cases he
      exact mem_cons_self ..
    · cases he

omit hw in
theorem local_deleteDeviceTuples (hw' : Consistent w') (hsub : ∀ t ∈ w'.tuples, t ∈ w.tuples) :
    slicing.Local false (deletedObjects id w) (deleteObjectAuthzRelations .device id) w' := by
  have hF : ⟨.device, id⟩ ∈ deletedObjects id w := mem_cons_self ..
  refine local_deleteObjectAuthzRelations hw' hF (.inl rfl) ?_ ?_
  · intro t ht hobj
    obtain ⟨o, r, u⟩ := t
    cases hobj
    refine owned_iff.2 ⟨?_, fun _ => hF⟩
    by_cases hr : r = .child
    · subst hr
      obtain ⟨row, hrow, rfl⟩ := (hf _ hF).childrenOf u (hsub _ ht)
      exact mem_cons_of_mem _ (mem_map_of_mem hrow)
    · simp only [tupleTarget, hr, if_false]
      exact hF
  · intro q hq htype
    rcases parentType_cases _ _ (hw'.allowed _ hq) with ⟨ht, _⟩ | ⟨_, ht⟩ | ⟨ht, _⟩
    · cases ht
    · cases ht.symm.trans htype
    · cases ht

theorem exec_deleteTuples : ∃ tuples, ((forEach (w.installationsOf id) fun row =>
        deleteObjectAuthzRelations .deviceComponent row.id) >>= fun _ =>
      deleteObjectAuthzRelations .device id).exec w = (.ok (), { w with tuples := tuples }) ∧
    ∀ t, t ∈ tuples ↔ t ∈ w.tuples ∧ ∀ o ∈ deletedObjects id w, t.object ≠ o ∧ ¬ isLink o t := by
  obtain ⟨tuples, hexec, hmem⟩ := exec_forEach_delete (w.installationsOf id) w hw.allowed
    fun row hrow => (hf _ (mem_cons_of_mem _ (mem_map_of_mem hrow))).mirrored
  have hm : Mirrored ⟨.device, id⟩ { w with tuples := tuples } := by
    intro q
    show _ ∈ tuples ↔ _ ∈ tuples
    rw [hmem, hmem, (hf _ (mem_cons_self ..)).mirrored q]
    apply and_congr_right
    intro hchild
    refine forall₂_congr fun row _ => ?_
    have hobj : q ≠ componentOf row := by
      rintro rfl
      exact not_component_child hw.allowed row _ hchild
    have hdev : (⟨.device, id⟩ : AuthzObject) ≠ componentOf row := by simp [componentOf]
    simp [isLink_parent, isLink_child, hobj, hdev]
  obtain ⟨tuples', hexec', hmem'⟩ := exec_deleteObjectAuthzRelations hm
  refine ⟨tuples', ?_, fun t => ?_⟩
  · rw [Prog.exec_bind, hexec]
    exact hexec'
  · rw [hmem', hmem, deletedObjects, forall_mem_cons, forall_mem_map, and_assoc]
    tauto

omit hf in
theorem fine_removeDevice
    (hmem : ∀ t ∈ tuples, ∀ o ∈ deletedObjects id w, t.object ≠ o ∧ ¬ isLink o t) :
    AllFine strict (deletedObjects id w) (({ w with tuples := tuples } : World).removeDevice id) := by
  intro o ho
  refine fine_of_removed ?_ fun t ht => hmem t ht o ho
  rcases mem_cons.1 ho with rfl | ho
  · exact parentOf_removeDevice _ id
  · obtain ⟨row, hrow, rfl⟩ := mem_map.1 ho
    have hp : (w.removeDevice id).parentOf (componentOf row) = none := by
      rw [componentOf, parentOf_removeDevice_component hw, ← componentOf,
        parentOf_componentOf hw hrow]
      simp [Option.filter]
    exact hp

end

theorem SameAt.symm (h : SameAt o w w') : SameAt o w' w :=
  ⟨h.parentOf.symm, fun ho => (h.installationsOf ho).symm, h.tuples.symm⟩

theorem installationsOf_removeDevice (w : World) (id : String) :
    (w.removeDevice id).installationsOf id = [] := by
  simp [World.installationsOf, World.removeDevice]

theorem SameAt.removeDevice (h : SameAt o w w') (hw : Consistent w)
    (hw' : Consistent w') (id : String) : SameAt o (w.removeDevice id) (w'.removeDevice id) := by
  by_cases ho : o = ⟨.device, id⟩
  · subst ho
    refine ⟨?_, fun _ => ?_, h.tuples⟩
    · rw [parentOf_removeDevice, parentOf_removeDevice]
    · rw [installationsOf_removeDevice, installationsOf_removeDevice]
  · by_cases hc : w.parentOf o = some ⟨.device, id⟩
    · obtain ⟨row, _, rfl⟩ := mem_map.1 (parentOf_eq_device hc)
      refine ⟨?_, by simp [componentOf], h.tuples⟩
      rw [componentOf, parentOf_removeDevice_component hw, parentOf_removeDevice_component hw',
        ← componentOf, h.parentOf]
    · have hc' : w'.parentOf o ≠ some ⟨.device, id⟩ := h.parentOf ▸ hc
      have hback := (sameAt_removeDevice hw ho hc).symm
      exact slicing.same_trans (slicing.same_trans hback h) (sameAt_removeDevice hw' ho hc')

theorem local_deleteDeviceRow {id : String} (hw : Consistent w) :
    slicing.Local false (deletedObjects id w) (deleteDeviceRow id) w := by
  apply Slicing.Local.atomic
  intro t ht hinv
  have hof : t.installationsOf id = w.installationsOf id :=
    (ht.1 _ (mem_cons_self ..)).installationsOf rfl
  refine ⟨⟨fun o ho => ?_, rfl⟩, hinv.removeDevice id, ⟨fun o ho => ?_, ht.2⟩, fun _ => rfl⟩
  · apply sameAt_removeDevice hinv
    · rintro rfl
      exact ho (mem_cons_self ..)
    · intro hp
      exact ho (mem_cons_of_mem _ (hof ▸ parentOf_eq_device hp))
  · exact (ht.1 o ho).removeDevice hw hinv id

theorem exec_deleteDeviceRow (id : String) (w : World) :
    (deleteDeviceRow id).exec w = (.ok (), w.removeDevice id) :=
  Prog.exec_atomic _ _

theorem removeDeviceObjects_fine {id : String} (joined : JoinedDevice) (hw : Consistent w)
    (hf : AllFine strict (deletedObjects id w) w) :
    slicing.Local true (deletedObjects id w)
        (removeDeviceObjects id (w.installationsOf id) joined) w ∧
      AllFine strict (deletedObjects id w)
        ((removeDeviceObjects id (w.installationsOf id) joined).exec w).2 := by
  obtain ⟨tuples, hexec, hmem⟩ := exec_deleteTuples hw hf
  obtain ⟨tuples₁, hexec₁, hmem₁⟩ := exec_forEach_delete (w.installationsOf id) w hw.allowed
    fun row hrow => (hf _ (mem_cons_of_mem _ (mem_map_of_mem hrow))).mirrored
  rw [removeDeviceObjects, ← Prog.bind_assoc]
  constructor
  · refine Slicing.Local.bind ?_ hw ?_
    · refine Slicing.Local.bind
        (local_forEach (fun w' => ∀ t ∈ w'.tuples, t ∈ w.tuples) hw (fun t ht => ht) ?_ ?_) hw ?_
      · intro row hrow w' hw' hsub
        exact local_deleteComponent hw hf hrow hw' hsub
      · intro row w' hsub t ht
        exact hsub t (exec_deleteObjectAuthzRelations_subset _ _ _ t ht)
      · intro _ w' hexec' hw'
        rw [hexec₁] at hexec'
        cases hexec'
        exact local_deleteDeviceTuples hf hw' fun t ht => ((hmem₁ t).1 ht).1
    · intro _ w' hexec' hw'
      rw [hexec] at hexec'
      cases hexec'
      refine Slicing.Local.bind (local_deleteDeviceRow hw') hw' ?_
      intro _ _ _ _
      trivial
  · rw [Prog.exec_bind, hexec]
    simp only
    rw [Prog.exec_bind, exec_deleteDeviceRow]
    exact fine_removeDevice hw fun t ht => ((hmem t).1 ht).2

theorem finishDeleteDevice_fine {id : String} {joined : Option JoinedDevice} (hw : Consistent w)
    (hf : AllFine strict (deletedObjects id w) w) :
    slicing.Local true (deletedObjects id w) (finishDeleteDevice id joined) w ∧
      AllFine strict (deletedObjects id w) ((finishDeleteDevice id joined).exec w).2 := by
  have hread : slicing.Local false (deletedObjects id w) (query (·.installationsOf id)) w :=
    local_query fun _ t ht _ => (ht.1 _ (mem_cons_self ..)).installationsOf rfl
  rw [finishDeleteDevice_eq]
  cases joined with
  | none => exact ⟨hread.bind hw fun _ _ => trivial, hf⟩
  | some joined =>
    obtain ⟨hlocal, hfine⟩ := removeDeviceObjects_fine joined hw hf
    constructor
    · refine hread.bind hw ?_
      intro rows w' hexec _
      rw [exec_query] at hexec
      cases hexec
      exact hlocal
    · rw [Prog.exec_bind, exec_query]
      exact hfine

theorem deleteDevice_isolated {role : Option String} {id : String} (hw : Consistent w)
    (hf : AllFine strict (deletedObjects (jsTrim id) w) w) :
    slicing.Isolated (deletedObjects (jsTrim id) w) (AllFine strict (deletedObjects (jsTrim id) w))
      (deleteDevice role id) w := by
  refine Slicing.Isolated.ofExcept_bind hf ?_
  intro id' hparse
  obtain ⟨parsed, hid, hperm⟩ := bind_ok hparse
  cases permitted_ok hperm
  rw [← textId_ok hid] at hf ⊢
  refine Slicing.Isolated.atomic_bind (Slicing.Guar.refl w) hw ?_ ?_
  · intro joined _
    exact finishDeleteDevice_fine hw hf
  · intro e he
    cases he

end

end Trakrai.Authz
