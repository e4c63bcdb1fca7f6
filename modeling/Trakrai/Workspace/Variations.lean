import Mathlib.Data.Fintype.EquivFin
import Trakrai.Authz.Laws
import Trakrai.Workspace.Visibility

namespace Trakrai.Workspace
open List Lib Backend Authz

theorem exists_fresh (names : List String) : ∃ x, x ∉ names := by
  simpa using Infinite.exists_notMem_finset names.toFinset

structure Fresh (w : World) (x : String) : Prop where
  factories : ∀ f ∈ w.factories, f.id ≠ x
  departments : ∀ d ∈ w.departments, d.id ≠ x
  devices : ∀ v ∈ w.devices, v.id ≠ x
  accessTokens : ∀ v ∈ w.devices, v.accessToken ≠ x
  catalog : ∀ entry ∈ w.catalog, entry.key ≠ x
  installations : ∀ i ∈ w.installations, i.id ≠ x
  tuples : ∀ t ∈ w.tuples, t.object.id ≠ x

theorem exists_fresh_name (w : World) (avoid : List String) : ∃ x, Fresh w x ∧ x ∉ avoid := by
  obtain ⟨x, hx⟩ := exists_fresh (w.factories.map (·.id) ++ w.departments.map (·.id) ++
    w.devices.map (·.id) ++ w.devices.map (·.accessToken) ++ w.catalog.map (·.key) ++
    w.installations.map (·.id) ++ w.tuples.map (·.object.id) ++ avoid)
  simp only [mem_append, mem_map, not_or, not_exists, not_and] at hx
  obtain ⟨⟨⟨⟨⟨⟨⟨hf, hd⟩, hv⟩, ha⟩, hc⟩, hi⟩, ht⟩, havoid⟩ := hx
  exact ⟨x, ⟨hf, hd, hv, ha, hc, hi, ht⟩, havoid⟩

section
variable (s : Snapshot)

def Snapshot.addFactory (x : String) : Snapshot :=
  { s with factories := s.factories ++ [⟨x, x, none⟩] }

def Snapshot.addDepartment (x factoryId : String) : Snapshot :=
  { s with departments := s.departments ++ [⟨x, factoryId, x, none⟩] }

/-- A device with the id `id`, and `x` for its name and its token. -/
def Snapshot.addDevice (id departmentId x : String) : Snapshot :=
  { s with devices := s.devices ++ [⟨id, departmentId, x, none, x, true⟩] }

def Snapshot.addComponent (x deviceId : String) : Snapshot :=
  { s with
    catalog := s.catalog ++ [⟨x, x, x, x, none, none, none, 0, true, [], []⟩]
    installations := s.installations ++ [⟨x, deviceId, x, true⟩] }

def Snapshot.link (o p : AuthzObject) : Snapshot :=
  { s with tuples := s.tuples ++ [⟨o, .parent, p⟩, ⟨p, .child, o⟩] }

def Snapshot.setFactory (id : String) (set : FactoryRow → FactoryRow) : Snapshot :=
  { s with factories := s.factories.map (setWhere (·.id) id set) }

def Snapshot.setDepartment (id : String) (set : DepartmentRow → DepartmentRow) :
    Snapshot :=
  { s with departments := s.departments.map (setWhere (·.id) id set) }

def Snapshot.removeDevice (id : String) : Snapshot :=
  { s with toWorld := s.toWorld.removeDevice id }

end

section
variable {s s' : Snapshot} {x : String}

theorem Constrained.addFactory (hw : Constrained s.toWorld) (hx : ∀ f ∈ s.factories, f.id ≠ x) :
    Constrained (s.addFactory x).toWorld :=
  { hw with
    factoryIds := nodup_append_row hw.factoryIds (not_any_key hx)
    departmentFactory := fun d hd => any_append_left (hw.departmentFactory d hd) }

theorem Constrained.addDepartment (hw : Constrained s.toWorld)
    (hx : ∀ d ∈ s.departments, d.id ≠ x) (hf : s.hasFactory factoryId) :
    Constrained (s.addDepartment x factoryId).toWorld :=
  { hw with
    departmentIds := nodup_append_row hw.departmentIds (not_any_key hx)
    departmentFactory := fun d hd => by
      rcases mem_append.1 hd with hd | hd
      · exact hw.departmentFactory d hd
      · rw [mem_singleton.1 hd]
        exact hf
    deviceDepartment := fun v hv => any_append_left (hw.deviceDepartment v hv) }

theorem Constrained.addDevice {id departmentId : String} (hw : Constrained s.toWorld)
    (hid : ∀ v ∈ s.devices, v.id ≠ id) (hx : ∀ v ∈ s.devices, v.accessToken ≠ x)
    (hd : s.hasDepartment departmentId) : Constrained (s.addDevice id departmentId x).toWorld :=
  { hw with
    deviceIds := nodup_append_row hw.deviceIds (not_any_key hid)
    accessTokens := nodup_append_row hw.accessTokens (not_any_key hx)
    deviceDepartment := fun v hv => by
      rcases mem_append.1 hv with hv | hv
      · exact hw.deviceDepartment v hv
      · rw [mem_singleton.1 hv]
        exact hd
    installationDevice := fun i hi => any_append_left (hw.installationDevice i hi) }

theorem Fresh.installation_key (hx : Fresh s.toWorld x) (hw : Constrained s.toWorld) :
    ∀ i ∈ s.installations, i.componentKey ≠ x := by
  intro i hi hk
  obtain ⟨entry, hentry, hkey⟩ := any_key_iff.1 (hw.installationCatalog i hi)
  exact hx.catalog entry hentry (hkey.trans hk)

theorem Constrained.addComponent (hw : Constrained s.toWorld)
    (hx : Fresh s.toWorld x) (hv : s.hasDevice deviceId) :
    Constrained (s.addComponent x deviceId).toWorld :=
  { hw with
    catalogKeys := nodup_append_row hw.catalogKeys (not_any_key hx.catalog)
    installationIds := nodup_append_row hw.installationIds (not_any_key hx.installations)
    deviceComponents := by
      apply nodup_append_row hw.deviceComponents
      exact not_any_key fun i hi he => hx.installation_key hw i hi (Prod.mk.inj he).2
    installationDevice := fun i hi => by
      rcases mem_append.1 hi with hi | hi
      · exact hw.installationDevice i hi
      · rw [mem_singleton.1 hi]
        exact hv
    installationCatalog := fun i hi => by
      rcases mem_append.1 hi with hi | hi
      · exact any_append_left (hw.installationCatalog i hi)
      · rw [mem_singleton.1 hi]
        simp [Snapshot.addComponent] }

theorem Constrained.link (hw : Constrained s.toWorld) (ht : ParentTypes o.type p.type): Constrained (s.link o p).toWorld :=
  { hw with
    allowed := fun t hmem => by
      rcases mem_append.1 hmem with hmem | hmem
      · exact hw.allowed t hmem
      · obtain ⟨type, id⟩ := o
        obtain ⟨parentType, parentId⟩ := p
        simp only [mem_cons, not_mem_nil, or_false] at hmem
        rcases ht with ⟨ht, ht'⟩ | ⟨ht, ht'⟩ | ⟨ht, ht'⟩ <;> cases ht <;> cases ht' <;>
          rcases hmem with rfl | rfl <;> rfl }

theorem Constrained.setFactory {id : String} {set : FactoryRow → FactoryRow}
    (hw : Constrained s.toWorld) (hset : ∀ f, (set f).id = f.id) :
    Constrained (s.setFactory id set).toWorld :=
  { hw with
    factoryIds := by
      rw [Snapshot.setFactory, map_key_setWhere hset]
      exact hw.factoryIds
    departmentFactory := fun d hd => by
      rw [World.hasFactory, Snapshot.setFactory, any_key_setWhere hset]
      exact hw.departmentFactory d hd }

theorem Constrained.setDepartment {id : String} {set : DepartmentRow → DepartmentRow}
    (hw : Constrained s.toWorld) (hset : ∀ d, (set d).id = d.id)
    (hf : ∀ d ∈ s.departments, d.id = id → s.hasFactory (set d).factoryId) :
    Constrained (s.setDepartment id set).toWorld :=
  { hw with
    departmentIds := by
      rw [Snapshot.setDepartment, map_key_setWhere hset]
      exact hw.departmentIds
    departmentFactory := fun d hd => by
      rcases mem_setWhere hd with hd | ⟨old, hold, hid, rfl⟩
      · exact hw.departmentFactory d hd
      · exact hf old hold hid
    deviceDepartment := fun v hv => by
      rw [World.hasDepartment, Snapshot.setDepartment, any_key_setWhere hset]
      exact hw.deviceDepartment v hv }

theorem Constrained.removeDevice (hw : Constrained s.toWorld) (id : String) :
    Constrained (s.removeDevice id).toWorld :=
  { hw with
    deviceIds := hw.deviceIds.sublist (filter_sublist.map _)
    accessTokens := hw.accessTokens.sublist (filter_sublist.map _)
    installationIds := hw.installationIds.sublist (filter_sublist.map _)
    deviceComponents := hw.deviceComponents.sublist (filter_sublist.map _)
    deviceDepartment := fun v hv => hw.deviceDepartment v (mem_filter.1 hv).1
    installationDevice := fun i hi => by
      obtain ⟨hi, hne⟩ := mem_filter.1 hi
      obtain ⟨v, hv, hid⟩ := any_key_iff.1 (hw.installationDevice i hi)
      refine any_key_iff.2 ⟨v, mem_filter.2 ⟨hv, ?_⟩, hid⟩
      rw [hid]
      exact hne
    installationCatalog := fun i hi => hw.installationCatalog i (mem_filter.1 hi).1 }

theorem restrict_addFactory (hp : p ⟨.factory, x⟩ = false) :
    (s.addFactory x).restrict p = s.restrict p := by
  simp [Snapshot.addFactory, Snapshot.restrict, filter_append, hp]

theorem restrict_addDepartment (hp : p ⟨.department, x⟩ = false) :
    (s.addDepartment x factoryId).restrict p = s.restrict p := by
  simp [Snapshot.addDepartment, Snapshot.restrict, filter_append, hp]

theorem restrict_addDevice {id departmentId : String} (hp : p ⟨.device, id⟩ = false) :
    (s.addDevice id departmentId x).restrict p = s.restrict p := by
  simp [Snapshot.addDevice, Snapshot.restrict, filter_append, hp]

theorem restrict_addComponent (hw : Constrained s.toWorld)
    (hx : Fresh s.toWorld x) (hp : p ⟨.deviceComponent, x⟩ = false) :
    (s.addComponent x deviceId).restrict p = s.restrict p := by
  have hnew : ¬ ∃ i ∈ s.installations, i.componentKey = x ∧ p ⟨.deviceComponent, i.id⟩ = true := by
    rintro ⟨i, hi, hk, -⟩
    exact hx.installation_key hw i hi hk
  simp [Snapshot.addComponent, Snapshot.restrict, filter_append, hp, hnew]

theorem restrict_setFactory {id : String} {set : FactoryRow → FactoryRow}
    (hset : ∀ f, (set f).id = f.id) (hp : p ⟨.factory, id⟩ = false) :
    (s.setFactory id set).restrict p = s.restrict p := by
  simp only [Snapshot.setFactory, Snapshot.restrict]
  rw [filter_setWhere (q := fun k => p ⟨.factory, k⟩) hset hp]

theorem restrict_setDepartment {id : String} {set : DepartmentRow → DepartmentRow}
    (hset : ∀ d, (set d).id = d.id) (hp : p ⟨.department, id⟩ = false) :
    (s.setDepartment id set).restrict p = s.restrict p := by
  simp only [Snapshot.setDepartment, Snapshot.restrict]
  rw [filter_setWhere (q := fun k => p ⟨.department, k⟩) hset hp]

theorem restrict_removeDevice {id : String} (hp : p ⟨.device, id⟩ = false)
    (hi : ∀ i ∈ s.installations, i.deviceId = id → p ⟨.deviceComponent, i.id⟩ = false) :
    (s.removeDevice id).restrict p = s.restrict p := by
  have hdevices : (s.devices.filter (·.id != id)).filter (fun v => p ⟨.device, v.id⟩) =
      s.devices.filter fun v => p ⟨.device, v.id⟩ := by
    apply filter_filter_of_imp
    intro v _ hv
    rw [bne_iff_ne]
    intro he
    rw [he, hp] at hv
    cases hv
  have hkept : ∀ i ∈ s.installations, p ⟨.deviceComponent, i.id⟩ → i.deviceId != id := by
    intro i hmem hv
    rw [bne_iff_ne]
    intro he
    rw [hi i hmem he] at hv
    cases hv
  have hinstallations : (s.installations.filter (·.deviceId != id)).filter
      (fun i => p ⟨.deviceComponent, i.id⟩) =
        s.installations.filter fun i => p ⟨.deviceComponent, i.id⟩ :=
    filter_filter_of_imp hkept
  have hany (entry : CatalogRow) : (s.installations.filter (·.deviceId != id)).any
      (fun i => i.componentKey == entry.key && p ⟨.deviceComponent, i.id⟩) =
        s.installations.any fun i => i.componentKey == entry.key && p ⟨.deviceComponent, i.id⟩ := by
    rw [Bool.eq_iff_iff, any_eq_true, any_eq_true]
    constructor
    · rintro ⟨i, hmem, hc⟩
      exact ⟨i, (mem_filter.1 hmem).1, hc⟩
    · rintro ⟨i, hmem, hc⟩
      exact ⟨i, mem_filter.2 ⟨hmem, hkept i hmem (Bool.and_eq_true_iff.1 hc).2⟩, hc⟩
  simp only [Snapshot.removeDevice, World.removeDevice, Snapshot.restrict, hdevices,
    hinstallations, hany]

end

section
variable {s s' : Snapshot} {user : User} {x : String}

theorem sight_eq_false {objectType : AuthzType} {id : String}
    (h : ¬ Can s user .canNavigate objectType id) : sight s user ⟨objectType, id⟩ = false :=
  eq_false_of_ne_true fun hs => h (sight_iff.1 hs)

theorem Fresh.not_can (hx : Fresh s.toWorld x) : ¬ Can s user relation objectType x := by
  intro h
  obtain ⟨t, ht, hobject⟩ := exists_tuple_of_check h
  exact hx.tuples t ht (by rw [hobject])

theorem Agree.of_relations (hrel : ∀ relation o,
      check (· ∈ s'.tuples) (createAuthzUser user.id) relation o ↔
        check (· ∈ s.tuples) (createAuthzUser user.id) relation o)
    (hrows : s'.restrict (sight s user) = s.restrict (sight s user)) : Agree user s s' := by
  have hsight : sight s' user = sight s user := by
    funext o
    rw [Bool.eq_iff_iff]
    exact sight_iff.trans ((hrel _ _).trans sight_iff.symm)
  refine ⟨fun relation o => (hrel relation o).symm, ?_⟩
  rw [Snapshot.seenBy, Snapshot.seenBy, hsight, hrows]

theorem Agree.of_rows (ht : s'.tuples = s.tuples)
    (hrows : s'.restrict (sight s user) = s.restrict (sight s user)) : Agree user s s' :=
  Agree.of_relations (fun _ _ => by rw [ht]) hrows

theorem Agree.trans (h : Agree user s s') (h' : Agree user s' s'') : Agree user s s'' :=
  ⟨fun relation o => (h.relations relation o).trans (h'.relations relation o), h.rows.trans h'.rows⟩

theorem Agree.link (ht : ParentTypes o.type p.type)
    (hr : ¬ Can s user .canRead p.type p.id) (hn : ¬ Can s user .canNavigate o.type o.id) :
    Agree user s (s.link o p) := by
  have ho : o.type ≠ .user := by
    rcases ht with ⟨ht, -⟩ | ⟨ht, -⟩ | ⟨ht, -⟩ <;> rw [ht] <;> decide
  have hp : p.type.isContainer := by
    rcases ht with ⟨-, ht⟩ | ⟨-, ht⟩ | ⟨-, ht⟩ <;> rw [ht] <;> rfl
  apply Agree.of_relations
  · intro relation x
    have hstore : (· ∈ (s.link o p).tuples) = linked (· ∈ s.tuples) o p := by
      funext t
      simp [Snapshot.link, linked]
    rw [hstore]
    exact check_linked_iff rfl ho hp hr hn
  · rfl

theorem Records.mono (h : Records w o p) (hsub : ∀ t ∈ w.tuples, t ∈ w'.tuples): Records w' o p :=
  ⟨hsub _ h.1, hsub _ h.2⟩

theorem mem_link_of_mem : ∀ t ∈ s.tuples, t ∈ (s.link o p).tuples :=
  fun _ ht => mem_append_left _ ht

theorem records_link (o p : AuthzObject) : Records (s.link o p).toWorld o p := by
  simp [Records, Snapshot.link]

theorem Linked.addFactory (h : Linked s.toWorld) : Linked (s.addFactory x).toWorld :=
  ⟨h.departments, h.devices, h.installations⟩

theorem Linked.addDepartment (h : Linked s.toWorld) :
    Linked ((s.addDepartment x factoryId).link ⟨.department, x⟩ ⟨.factory, factoryId⟩).toWorld := by
  refine ⟨fun d hd => ?_, fun v hv => (h.devices v hv).mono mem_link_of_mem,
    fun i hi => (h.installations i hi).mono mem_link_of_mem⟩
  rcases mem_append.1 hd with hd | hd
  · exact (h.departments d hd).mono mem_link_of_mem
  · rw [mem_singleton.1 hd]
    exact records_link _ _

theorem Linked.addDevice {id departmentId : String} (h : Linked s.toWorld) :
    Linked ((s.addDevice id departmentId x).link ⟨.device, id⟩
      ⟨.department, departmentId⟩).toWorld := by
  refine ⟨fun d hd => (h.departments d hd).mono mem_link_of_mem, fun v hv => ?_,
    fun i hi => (h.installations i hi).mono mem_link_of_mem⟩
  rcases mem_append.1 hv with hv | hv
  · exact (h.devices v hv).mono mem_link_of_mem
  · rw [mem_singleton.1 hv]
    exact records_link _ _

theorem Linked.addComponent (h : Linked s.toWorld) :
    Linked ((s.addComponent x deviceId).link ⟨.deviceComponent, x⟩ ⟨.device, deviceId⟩).toWorld := by
  refine ⟨fun d hd => (h.departments d hd).mono mem_link_of_mem,
    fun v hv => (h.devices v hv).mono mem_link_of_mem, fun i hi => ?_⟩
  rcases mem_append.1 hi with hi | hi
  · exact (h.installations i hi).mono mem_link_of_mem
  · rw [mem_singleton.1 hi]
    exact records_link _ _

theorem Linked.removeDevice (h : Linked s.toWorld) (id : String) :
    Linked (s.removeDevice id).toWorld :=
  ⟨h.departments, fun v hv => h.devices v (mem_filter.1 hv).1,
    fun i hi => h.installations i (mem_filter.1 hi).1⟩

/-- A legal state that agrees with `s`, and records the parents of its rows if `s` does. -/
structure Variant (user : User) (s s' : Snapshot) : Prop where
  constrained : Constrained s'.toWorld
  linked : Linked s.toWorld → Linked s'.toWorld
  agree : Agree user s s'

theorem Variant.trans (h : Variant user s s') (h' : Variant user s' s'') : Variant user s s'' :=
  ⟨h'.constrained, fun hl => h'.linked (h.linked hl), h.agree.trans h'.agree⟩

theorem variant_factory (hw : Constrained s.toWorld) (hx : ∀ f ∈ s.factories, f.id ≠ x)
    (hn : ¬ Can s user .canNavigate .factory x) : Variant user s (s.addFactory x) :=
  ⟨hw.addFactory hx, Linked.addFactory, Agree.of_rows rfl (restrict_addFactory (sight_eq_false hn))⟩

theorem variant_department {factoryId : String} (hw : Constrained s.toWorld)
    (hx : ∀ d ∈ s.departments, d.id ≠ x) (hf : s.hasFactory factoryId)
    (hn : ¬ Can s user .canNavigate .department x) (hr : ¬ Can s user .canRead .factory factoryId) :
    Variant user s
      ((s.addDepartment x factoryId).link ⟨.department, x⟩ ⟨.factory, factoryId⟩) := by
  have hrow : Agree user s (s.addDepartment x factoryId) :=
    Agree.of_rows rfl (restrict_addDepartment (sight_eq_false hn))
  have htypes : ParentTypes .department .factory := .inl ⟨rfl, rfl⟩
  refine ⟨(hw.addDepartment hx hf).link htypes, Linked.addDepartment, hrow.trans (.link htypes ?_ ?_)⟩
  · exact fun h => hr (hrow.can_iff.2 h)
  · exact fun h => hn (hrow.can_iff.2 h)

theorem variant_device {id departmentId : String} (hw : Constrained s.toWorld)
    (hid : ∀ v ∈ s.devices, v.id ≠ id) (hx : ∀ v ∈ s.devices, v.accessToken ≠ x)
    (hd : s.hasDepartment departmentId) (hn : ¬ Can s user .canNavigate .device id)
    (hr : ¬ Can s user .canRead .department departmentId) :
    Variant user s
      ((s.addDevice id departmentId x).link ⟨.device, id⟩ ⟨.department, departmentId⟩) := by
  have hrow : Agree user s (s.addDevice id departmentId x) :=
    Agree.of_rows rfl (restrict_addDevice (sight_eq_false hn))
  have htypes : ParentTypes .device .department := .inr (.inl ⟨rfl, rfl⟩)
  refine ⟨(hw.addDevice hid hx hd).link htypes, Linked.addDevice, hrow.trans (.link htypes ?_ ?_)⟩
  · exact fun h => hr (hrow.can_iff.2 h)
  · exact fun h => hn (hrow.can_iff.2 h)

theorem variant_component {deviceId : String} (hw : Constrained s.toWorld)
    (hx : Fresh s.toWorld x) (hv : s.hasDevice deviceId)
    (hr : ¬ Can s user .canRead .device deviceId) :
    Variant user s
      ((s.addComponent x deviceId).link ⟨.deviceComponent, x⟩ ⟨.device, deviceId⟩) := by
  have hn : ¬ Can s user .canNavigate .deviceComponent x := hx.not_can
  have hrow : Agree user s (s.addComponent x deviceId) :=
    Agree.of_rows rfl (restrict_addComponent hw hx (sight_eq_false hn))
  have htypes : ParentTypes .deviceComponent .device := .inr (.inr ⟨rfl, rfl⟩)
  refine ⟨(hw.addComponent hx hv).link htypes, Linked.addComponent, hrow.trans (.link htypes ?_ ?_)⟩
  · exact fun h => hr (hrow.can_iff.2 h)
  · exact fun h => hn (hrow.can_iff.2 h)

theorem variant_removed {id : String} (hw : Constrained s.toWorld)
    (hn : ¬ Can s user .canNavigate .device id)
    (hi : ∀ i ∈ s.installations, i.deviceId = id →
      ¬ Can s user .canNavigate .deviceComponent i.id) : Variant user s (s.removeDevice id) :=
  ⟨hw.removeDevice id, fun h => h.removeDevice id, Agree.of_rows rfl
    (restrict_removeDevice (sight_eq_false hn) fun i hmem hdev => sight_eq_false (hi i hmem hdev))⟩

theorem variant_new_device {id : String} (hw : Constrained s.toWorld)
    (hid : ∀ v ∈ s.devices, v.id ≠ id) (hn : ¬ Can s user .canNavigate .device id) :
    ∃ s' : Snapshot, Variant user s s' ∧ ∃ v ∈ s'.devices, v.id = id := by
  obtain ⟨x, hx, -⟩ := exists_fresh_name s.toWorld []
  have h₁ : Variant user s (s.addFactory x) := variant_factory hw hx.factories hx.not_can
  have hnone {t : Snapshot} (h : Agree user s t) {relation : AuthzRelation} {type : AuthzType} :
      ¬ Can t user relation type x := fun hc => hx.not_can (h.can_iff.2 hc)
  have hfactory : (s.addFactory x).hasFactory x := by
    simp [World.hasFactory, Snapshot.addFactory]
  have h₂ := h₁.trans (variant_department h₁.constrained hx.departments hfactory
    (hnone h₁.agree) (hnone h₁.agree))
  have hdepartment : (((s.addFactory x).addDepartment x x).link ⟨.department, x⟩
      ⟨.factory, x⟩).hasDepartment x := by
    simp [World.hasDepartment, Snapshot.addDepartment, Snapshot.link]
  have h₃ := h₂.trans (variant_device h₂.constrained hid hx.accessTokens hdepartment
    (fun hc => hn (h₂.agree.can_iff.2 hc)) (hnone h₂.agree))
  exact ⟨_, h₃, ⟨id, x, x, none, x, true⟩, mem_append_right _ (mem_singleton_self _), rfl⟩

end

end Trakrai.Workspace
