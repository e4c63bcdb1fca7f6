import Trakrai.Workspace.Answers

namespace Trakrai.Workspace
open List Lib Backend Authz

/-- A state that agrees with `s` in what the user sees is told from it by the response. -/
def Leaks (services : Services Token) (user : User) (s : Snapshot) (request : Request) : Prop :=
  ∃ s' : Snapshot, Constrained s'.toWorld ∧ Agree user s s' ∧
    services.respond user s' request ≠ services.respond user s request

def SidebarLeaks (services : Services Token) (user : User) (s : Snapshot) : Prop :=
  ∃ s' : Snapshot, Constrained s'.toWorld ∧ Agree user s s' ∧
    listFactoriesNav (services.context user s') s' ≠ listFactoriesNav (services.context user s) s

section
variable {Token : Type} {services : Services Token} {s s' : Snapshot} {user : User} {x : String}
  (hx : services.Exact) (hw : Constrained s.toWorld) (hu : isSysAdminRole user.role = false)
include hx hw hu

theorem sidebarRow_eq (hw' : Constrained s'.toWorld) (ha : Agree user s s')
    (he : listFactoriesNav (services.context user s') s' =
      listFactoriesNav (services.context user s) s) (hf : f ∈ s.factories)
    (hn : Can s user .canNavigate .factory f.id) :
    s'.factorySidebarRow ((services.context user s).authorizedIds .canNavigate .department)
        ((services.context user s).authorizedIds .canNavigate .device) f =
      s.factorySidebarRow ((services.context user s).authorizedIds .canNavigate .department)
        ((services.context user s).authorizedIds .canNavigate .device) f := by
  have hseen (t : Snapshot) (ht : ∀ k, sight t user ⟨.factory, k⟩ =
      listed ((services.context user s).authorizedIds .canNavigate .factory) k) :
      (t.seenBy user).factories = t.factories.filter fun f =>
        listed ((services.context user s).authorizedIds .canNavigate .factory) f.id :=
    filter_congr fun f _ => ht f.id
  have hrows : s'.factories.filter (fun f =>
      listed ((services.context user s).authorizedIds .canNavigate .factory) f.id) =
        s.factories.filter fun f =>
          listed ((services.context user s).authorizedIds .canNavigate .factory) f.id := by
    rw [← hseen s', ← hseen s, ha.rows]
    · intro k
      rw [Bool.eq_iff_iff]
      exact sight_iff.trans (listed_iff hx hw.allowed hu).symm
    · intro k
      rw [Bool.eq_iff_iff]
      exact sight_iff.trans (ha.can_iff.symm.trans (listed_iff hx hw.allowed hu).symm)
  have hne : (services.context user s).authorizedIds .canNavigate .factory ≠ some ∅ := by
    intro hempty
    have hl := (listed_iff hx hw.allowed hu).2 hn
    rw [hempty, listed_some] at hl
    exact absurd hl (Finset.notMem_empty _)
  rw [context_eq hx hw.allowed hw'.allowed ha] at he
  simp only [listFactoriesNav, resolveNavigableFactoryIds, readFactorySidebarRows, hne, if_false,
    hrows] at he
  refine map_inj_left.1 he f (mem_orderBy.2 (mem_filter.2 ⟨hf, ?_⟩))
  exact (listed_iff hx hw.allowed hu).2 hn

section
variable {f : FactoryRow} {v : DeviceRow} {d : DepartmentRow} (hf : f ∈ s.factories)
  (hnf : Can s user .canNavigate .factory f.id) (hv : v ∈ s.devices)
  (hnv : Can s user .canNavigate .device v.id) (hd : d ∈ s.departments)
  (hdv : d.id = v.departmentId) (hnd : ¬ Can s user .canNavigate .department v.departmentId)
include hf hnf hv hnv hd hdv hnd

theorem sidebar_moved_away (hdf : d.factoryId = f.id) :
    SidebarLeaks services user s := by
  obtain ⟨x, hfresh, -⟩ := exists_fresh_name s.toWorld []
  have hset : ∀ d : DepartmentRow, ({ d with factoryId := x } : DepartmentRow).id = d.id :=
    fun _ => rfl
  have hw' : Constrained ((s.addFactory x).setDepartment v.departmentId
      fun d => { d with factoryId := x }).toWorld := by
    refine (hw.addFactory hfresh.factories).setDepartment hset fun _ _ _ => ?_
    simp [World.hasFactory, Snapshot.addFactory]
  have ha : Agree user s ((s.addFactory x).setDepartment v.departmentId
      fun d => { d with factoryId := x }) :=
    Agree.of_rows rfl ((restrict_setDepartment hset (sight_eq_false hnd)).trans
      (restrict_addFactory (sight_eq_false hfresh.not_can)))
  refine ⟨_, hw', ha, fun he => ?_⟩
  have hcount := congrArg FactorySidebarRow.deviceCount (sidebarRow_eq hx hw hu hw' ha he hf hnf)
  refine absurd hcount (Nat.ne_of_lt (countDistinct_lt (k := v.id) ?_ ?_ ?_))
  · intro k
    simp only [some_mem_devices]
    rintro ⟨v', hv', ⟨d', hd', hfid, hdep⟩, hrest⟩
    obtain ⟨old, hold, rfl⟩ := mem_map.1 hd'
    by_cases hk : old.id = v.departmentId
    · rw [setWhere, if_pos hk] at hfid
      exact absurd hfid.symm (hfresh.factories f hf)
    · rw [setWhere, if_neg hk] at hfid hdep
      exact ⟨v', hv', ⟨old, hold, hfid, hdep⟩, hrest⟩
  · exact some_mem_devices.2 ⟨v, hv, ⟨d, hd, hdf, hdv.symm⟩, (listed_iff hx hw.allowed hu).2 hnv, rfl⟩
  · rw [some_mem_devices]
    rintro ⟨v', hv', ⟨d', hd', hfid, hdep⟩, -, hid⟩
    rw [inj_on_of_nodup_map hw.deviceIds hv' hv hid] at hdep
    obtain ⟨old, hold, rfl⟩ := mem_map.1 hd'
    by_cases hk : old.id = v.departmentId
    · rw [setWhere, if_pos hk] at hfid
      exact hfresh.factories f hf hfid.symm
    · rw [setWhere, if_neg hk] at hdep
      exact hk hdep.symm

theorem sidebar_moved_in (hdf : d.factoryId ≠ f.id) :
    SidebarLeaks services user s := by
  have honly : ∀ d' ∈ s.departments, d'.id = v.departmentId → d' = d := fun d' hd' hid =>
    inj_on_of_nodup_map hw.departmentIds hd' hd (hid.trans hdv.symm)
  have hset : ∀ d : DepartmentRow, ({ d with factoryId := f.id } : DepartmentRow).id = d.id :=
    fun _ => rfl
  have hw' : Constrained (s.setDepartment v.departmentId
      fun d => { d with factoryId := f.id }).toWorld :=
    hw.setDepartment hset fun _ _ _ => any_key_iff.2 ⟨f, hf, rfl⟩
  have ha : Agree user s (s.setDepartment v.departmentId fun d => { d with factoryId := f.id }) :=
    Agree.of_rows rfl (restrict_setDepartment hset (sight_eq_false hnd))
  refine ⟨_, hw', ha, fun he => ?_⟩
  have hcount := congrArg FactorySidebarRow.deviceCount (sidebarRow_eq hx hw hu hw' ha he hf hnf)
  refine absurd hcount (Nat.ne_of_gt (countDistinct_lt (k := v.id) ?_ ?_ ?_))
  · intro k
    simp only [some_mem_devices]
    rintro ⟨v', hv', ⟨d', hd', hfid, hdep⟩, hrest⟩
    refine ⟨v', hv', ⟨d', ?_, hfid, hdep⟩, hrest⟩
    have hk : d'.id ≠ v.departmentId := fun hk => hdf (honly d' hd' hk ▸ hfid)
    exact mem_map.2 ⟨d', hd', if_neg hk⟩
  · refine some_mem_devices.2 ⟨v, hv, ⟨{ d with factoryId := f.id }, ?_, rfl, hdv.symm⟩,
      (listed_iff hx hw.allowed hu).2 hnv, rfl⟩
    exact mem_map.2 ⟨d, hd, if_pos hdv⟩
  · rw [some_mem_devices]
    rintro ⟨v', hv', ⟨d', hd', hfid, hdep⟩, -, hid⟩
    rw [inj_on_of_nodup_map hw.deviceIds hv' hv hid] at hdep
    exact hdf (honly d' hd' hdep.symm ▸ hfid)

end

theorem sidebar_leaks (hf : f ∈ s.factories)
    (hnf : Can s user .canNavigate .factory f.id) (hopen : ¬ Enclosed s user) :
    SidebarLeaks services user s := by
  simp only [Enclosed, not_forall] at hopen
  obtain ⟨v, hv, hnv, hnd⟩ := hopen
  obtain ⟨d, hd, hdv⟩ := any_key_iff.1 (hw.deviceDepartment v hv)
  by_cases hdf : d.factoryId = f.id
  · exact sidebar_moved_away hx hw hu hf hnf hv hnv hd hdv hnd hdf
  · exact sidebar_moved_in hx hw hu hf hnf hv hnv hd hdv hnd hdf

omit hx hw hu in
theorem length_readDepartmentSidebarRows (nameLe : String → String → Bool) (factoryId : String)
    (deviceIds : Option (Finset String)) :
    (readDepartmentSidebarRows nameLe s factoryId none deviceIds).length =
      s.departments.countP (·.factoryId == factoryId) := by
  simp [readDepartmentSidebarRows, listed, length_orderBy, countP_eq_length_filter]

omit hx hw hu in
theorem length_readDeviceSidebarRows (nameLe : String → String → Bool) (departmentId : String)
    (componentIds : Option (Finset String)) :
    (readDeviceSidebarRows nameLe s departmentId none componentIds).length =
      s.devices.countP (·.departmentId == departmentId) := by
  simp [readDeviceSidebarRows, listed, length_orderBy, countP_eq_length_filter]

/-- A readable factory shows its departments without looking at them, and every factory where
the devices of hidden departments belong. -/
theorem factoryWorkspace_leaks (hpage : input.toPageInput.parse = .ok page)
    (hid : textId "factoryId" input.factoryId = .ok f.id) (hf : f ∈ s.factories)
    (hn : Can s user .canNavigate .factory f.id)
    (h : ¬ (Enclosed s user ∧ ¬ Can s user .canRead .factory f.id)) :
    Leaks services user s (.getFactoryWorkspace input) := by
  by_cases hopen : Enclosed s user
  · have hr : Can s user .canRead .factory f.id := not_not.1 fun hr => h ⟨hopen, hr⟩
    have hallow := (allows_iff hx hw.allowed hu).2 hr
    obtain ⟨x, hfresh, -⟩ := exists_fresh_name s.toWorld []
    have hw' := hw.addDepartment hfresh.departments (any_key_iff.2 ⟨f, hf, rfl⟩)
    have ha : Agree user s (s.addDepartment x f.id) :=
      Agree.of_rows rfl (restrict_addDepartment (sight_eq_false hfresh.not_can))
    refine ⟨_, hw', ha, fun he => ?_⟩
    have heq := factoryWorkspace_of_respond hpage hid he
    rw [readFactoryWorkspace_ok hx hw' hu hf (ha.can_iff.1 hn), readFactoryWorkspace_ok hx hw hu hf hn,
      context_eq hx hw.allowed hw'.allowed ha] at heq
    have hcount := congrArg (fun w => w.stats.departmentCount) (Except.ok.inj heq)
    simp [factoryWorkspace, factoryStats, Context.departmentScope, hallow, Snapshot.addDepartment,
      scopedDepartmentConditions, listed] at hcount
  · obtain ⟨s', hw', ha, hne⟩ := sidebar_leaks hx hw hu hf hn hopen
    refine ⟨s', hw', ha, fun he => hne ?_⟩
    have heq := factoryWorkspace_of_respond hpage hid he
    rw [readFactoryWorkspace_ok hx hw' hu (ha.factory hf hn) (ha.can_iff.1 hn),
      readFactoryWorkspace_ok hx hw hu hf hn] at heq
    exact congrArg FactoryWorkspace.factories (Except.ok.inj heq)

/-- A readable department shows its devices without looking at them, a readable factory its
departments, and every department the name of its factory. -/
theorem departmentWorkspace_leaks (hpage : input.toPageInput.parse = .ok page)
    (hid : textId "departmentId" input.departmentId = .ok d.id) (hd : d ∈ s.departments)
    (hn : Can s user .canNavigate .department d.id)
    (h : ¬ (Can s user .canNavigate .factory d.factoryId ∧
      ¬ Can s user .canRead .department d.id ∧ ¬ Can s user .canRead .factory d.factoryId)) :
    Leaks services user s (.getDepartmentWorkspace input) := by
  obtain ⟨f, hf, hfd⟩ := any_key_iff.1 (hw.departmentFactory d hd)
  obtain ⟨x, hfresh, hname⟩ := exists_fresh_name s.toWorld [f.name]
  have hok := readDepartmentWorkspace_ok hx hw hu hd hf hfd hn page
  by_cases hr : Can s user .canRead .department d.id
  · have hallow := (allows_iff hx hw.allowed hu).2 hr
    have hw' := hw.addDevice hfresh.devices hfresh.accessTokens (any_key_iff.2 ⟨d, hd, rfl⟩)
    have ha : Agree user s (s.addDevice x d.id x) :=
      Agree.of_rows rfl (restrict_addDevice (sight_eq_false hfresh.not_can))
    refine ⟨_, hw', ha, fun he => ?_⟩
    have heq := departmentWorkspace_of_respond hpage hid he
    rw [readDepartmentWorkspace_ok hx hw' hu hd hf hfd (ha.can_iff.1 hn), hok,
      context_eq hx hw.allowed hw'.allowed ha] at heq
    have hcount := congrArg (fun w => w.stats.deviceCount) (Except.ok.inj heq)
    simp [departmentWorkspace, departmentStats, Context.deviceScope, hallow, Snapshot.addDevice,
      scopedDeviceConditions, listed] at hcount
  · by_cases hrf : Can s user .canRead .factory d.factoryId
    · have hallow := (allows_iff hx hw.allowed hu).2 hrf
      have hw' := hw.addDepartment hfresh.departments (any_key_iff.2 ⟨f, hf, hfd⟩)
      have ha : Agree user s (s.addDepartment x d.factoryId) :=
        Agree.of_rows rfl (restrict_addDepartment (sight_eq_false hfresh.not_can))
      refine ⟨_, hw', ha, fun he => ?_⟩
      have heq := departmentWorkspace_of_respond hpage hid he
      rw [readDepartmentWorkspace_ok hx hw' hu (mem_append_left _ hd) hf hfd (ha.can_iff.1 hn),
        hok, context_eq hx hw.allowed hw'.allowed ha] at heq
      have hcount := congrArg (fun w => w.departments.length) (Except.ok.inj heq)
      simp [departmentWorkspace, Context.visibleDepartmentIds, hallow, Snapshot.addDepartment,
        length_readDepartmentSidebarRows] at hcount
    · have hnf : ¬ Can s user .canNavigate .factory d.factoryId := fun hnf => h ⟨hnf, hr, hrf⟩
      have hset : ∀ f : FactoryRow, ({ f with name := x } : FactoryRow).id = f.id := fun _ => rfl
      have hw' : Constrained (s.setFactory d.factoryId fun f => { f with name := x }).toWorld :=
        hw.setFactory hset
      have ha : Agree user s (s.setFactory d.factoryId fun f => { f with name := x }) :=
        Agree.of_rows rfl (restrict_setFactory hset (sight_eq_false hnf))
      have hf' : ({ f with name := x } : FactoryRow) ∈
          (s.setFactory d.factoryId fun f => { f with name := x }).factories :=
        mem_map.2 ⟨f, hf, if_pos hfd⟩
      refine ⟨_, hw', ha, fun he => ?_⟩
      have heq := departmentWorkspace_of_respond hpage hid he
      rw [readDepartmentWorkspace_ok hx hw' hu hd hf' hfd (ha.can_iff.1 hn), hok] at heq
      have hnames := congrArg (fun w => w.selectedDepartment.factoryName) (Except.ok.inj heq)
      exact hname (mem_singleton.2 hnames)

theorem hidden_device_leaks {id : String} (hn : ¬ Can s user .canNavigate .device id)
    (hb : ¬ Betrayed s user id) : ∃ s' : Snapshot, Variant user s s' ∧
      readDeviceWorkspace (services.context user s') s' id ≠
        readDeviceWorkspace (services.context user s) s id := by
  by_cases hmissing : ∀ v ∈ s.devices, v.id ≠ id
  · obtain ⟨s', hs', v, hv, rfl⟩ := variant_new_device hw hmissing hn
    refine ⟨s', hs', ?_⟩
    rw [readDeviceWorkspace_missing hmissing, readDeviceWorkspace_forbidden hx hs'.constrained hu hv
      fun h => hn (hs'.agree.can_iff.2 h)]
    exact nofun
  · simp only [not_forall, not_not] at hmissing
    obtain ⟨v, hv, rfl⟩ := hmissing
    have hi : ∀ i ∈ s.installations, i.deviceId = v.id →
        ¬ Can s user .canNavigate .deviceComponent i.id :=
      fun i hi hdev hni => hb ⟨hn, i, hi, hdev, hni⟩
    have hremoved : ∀ w ∈ (s.removeDevice v.id).devices, w.id ≠ v.id :=
      fun w hw => bne_iff_ne.1 (mem_filter.1 hw).2
    refine ⟨_, variant_removed hw hn hi, ?_⟩
    rw [readDeviceWorkspace_missing hremoved, readDeviceWorkspace_forbidden hx hw hu hv hn]
    exact nofun

section
variable {v : DeviceRow} (hv : v ∈ s.devices) (hn : Can s user .canNavigate .device v.id)
include hv hn

/-- The names above a device are shown, a readable department shows its devices without looking
at them, and a readable device counts its applications without looking at them. -/
theorem device_leaks (h : ¬ (Can s user .canNavigate .department v.departmentId ∧
      (∀ d ∈ s.departments, d.id = v.departmentId → Can s user .canNavigate .factory d.factoryId) ∧
      ¬ Can s user .canRead .department v.departmentId ∧ ¬ Can s user .canRead .device v.id)) :
    ∃ s' : Snapshot, Constrained s'.toWorld ∧ Agree user s s' ∧
      readDeviceWorkspace (services.context user s') s' v.id ≠
        readDeviceWorkspace (services.context user s) s v.id := by
  obtain ⟨d, hd, hdv⟩ := any_key_iff.1 (hw.deviceDepartment v hv)
  obtain ⟨f, hf, hfd⟩ := any_key_iff.1 (hw.departmentFactory d hd)
  obtain ⟨x, hfresh, hname⟩ := exists_fresh_name s.toWorld [f.name, d.name]
  simp only [mem_cons, not_mem_nil, or_false, not_or] at hname
  obtain ⟨selected, access, hok, hsd, hsn, hsf⟩ := readDeviceWorkspace_ok hx hw hu hv hd hdv hf hfd hn
  by_cases hnd : Can s user .canNavigate .department v.departmentId
  swap
  · have hset : ∀ d : DepartmentRow, ({ d with name := x } : DepartmentRow).id = d.id := fun _ => rfl
    have hw' : Constrained (s.setDepartment v.departmentId fun d => { d with name := x }).toWorld :=
      hw.setDepartment hset fun d hd _ => hw.departmentFactory d hd
    have ha : Agree user s (s.setDepartment v.departmentId fun d => { d with name := x }) :=
      Agree.of_rows rfl (restrict_setDepartment hset (sight_eq_false hnd))
    have hd' : ({ d with name := x } : DepartmentRow) ∈
        (s.setDepartment v.departmentId fun d => { d with name := x }).departments :=
      mem_map.2 ⟨d, hd, if_pos hdv⟩
    obtain ⟨selected', access', hok', -, hsn', -⟩ :=
      readDeviceWorkspace_ok hx hw' hu hv hd' hdv hf hfd (ha.can_iff.1 hn)
    refine ⟨_, hw', ha, fun he => hname.2 ?_⟩
    rw [hok, hok'] at he
    have hnames := congrArg (fun w => w.device.departmentName) (Except.ok.inj he)
    exact hsn'.symm.trans (hnames.trans hsn)
  by_cases hnf : Can s user .canNavigate .factory d.factoryId
  swap
  · have hset : ∀ f : FactoryRow, ({ f with name := x } : FactoryRow).id = f.id := fun _ => rfl
    have hw' : Constrained (s.setFactory d.factoryId fun f => { f with name := x }).toWorld :=
      hw.setFactory hset
    have ha : Agree user s (s.setFactory d.factoryId fun f => { f with name := x }) :=
      Agree.of_rows rfl (restrict_setFactory hset (sight_eq_false hnf))
    have hf' : ({ f with name := x } : FactoryRow) ∈
        (s.setFactory d.factoryId fun f => { f with name := x }).factories :=
      mem_map.2 ⟨f, hf, if_pos hfd⟩
    obtain ⟨selected', access', hok', -, -, hsf'⟩ :=
      readDeviceWorkspace_ok hx hw' hu hv hd hdv hf' hfd (ha.can_iff.1 hn)
    refine ⟨_, hw', ha, fun he => hname.1 ?_⟩
    rw [hok, hok'] at he
    have hnames := congrArg (fun w => w.device.factoryName) (Except.ok.inj he)
    exact hsf'.symm.trans (hnames.trans hsf)
  by_cases hrd : Can s user .canRead .department v.departmentId
  · have hallow := (allows_iff hx hw.allowed hu).2 hrd
    have hw' := hw.addDevice hfresh.devices hfresh.accessTokens (any_key_iff.2 ⟨d, hd, hdv⟩)
    have ha : Agree user s (s.addDevice x v.departmentId x) :=
      Agree.of_rows rfl (restrict_addDevice (sight_eq_false hfresh.not_can))
    obtain ⟨selected', access', hok', hsd', -, -⟩ :=
      readDeviceWorkspace_ok hx hw' hu (mem_append_left _ hv) hd hdv hf hfd (ha.can_iff.1 hn)
    refine ⟨_, hw', ha, fun he => ?_⟩
    rw [hok, hok', context_eq hx hw.allowed hw'.allowed ha] at he
    have hcount := congrArg (fun w => w.devices.length) (Except.ok.inj he)
    simp [deviceWorkspace, hsd, hsd', Context.visibleDeviceIds, hallow, Snapshot.addDevice,
      length_readDeviceSidebarRows] at hcount
  · have hr : Can s user .canRead .device v.id := by
      by_contra hr
      refine h ⟨hnd, fun d' hd' hdv' => ?_, hrd, hr⟩
      rw [inj_on_of_nodup_map hw.departmentIds hd' hd (hdv'.trans hdv.symm)]
      exact hnf
    have hallow := (allows_iff hx hw.allowed hu).2 hr
    have hw' := hw.addComponent hfresh (any_key_iff.2 ⟨v, hv, rfl⟩)
    have ha : Agree user s (s.addComponent x v.id) :=
      Agree.of_rows rfl (restrict_addComponent hw hfresh (sight_eq_false hfresh.not_can))
    obtain ⟨selected', access', hok', -, -, -⟩ :=
      readDeviceWorkspace_ok hx hw' hu hv hd hdv hf hfd (ha.can_iff.1 hn)
    refine ⟨_, hw', ha, fun he => ?_⟩
    rw [hok, hok', context_eq hx hw.allowed hw'.allowed ha] at he
    have hcount := congrArg (fun w => w.stats.totalAppCount) (Except.ok.inj he)
    simp [deviceWorkspace, Context.componentScope, hallow, Snapshot.addComponent, listed] at hcount

theorem beside_leaks (hr : Can s user .canRead .device v.id) (hmem : w ∈ s.devices)
    (hdep : w.departmentId = v.departmentId) (hnw : Can s user .canNavigate .device w.id)
    (hrw : ¬ Can s user .canRead .device w.id) : ∃ s' : Snapshot, Variant user s s' ∧
      readDeviceWorkspace (services.context user s') s' v.id ≠
        readDeviceWorkspace (services.context user s) s v.id := by
  obtain ⟨d, hd, hdv⟩ := any_key_iff.1 (hw.deviceDepartment v hv)
  obtain ⟨f, hf, hfd⟩ := any_key_iff.1 (hw.departmentFactory d hd)
  obtain ⟨x, hfresh, -⟩ := exists_fresh_name s.toWorld []
  have hs' := variant_component hw hfresh (any_key_iff.2 ⟨w, hmem, rfl⟩) hrw
  obtain ⟨selected, access, hok, hsd, -⟩ := readDeviceWorkspace_ok hx hw hu hv hd hdv hf hfd hn
  obtain ⟨selected', access', hok', hsd', -⟩ :=
    readDeviceWorkspace_ok hx hs'.constrained hu hv hd hdv hf hfd (hs'.agree.can_iff.1 hn)
  refine ⟨_, hs', fun he => ?_⟩
  rw [hok, hok', context_eq hx hw.allowed hs'.constrained.allowed hs'.agree] at he
  have hallow := (allows_iff hx hw.allowed hu).2 hr
  have hlisted : listed ((services.context user s).visibleDeviceIds v.departmentId) w.id := by
    unfold Context.visibleDeviceIds
    split
    · rfl
    · exact listed_some.2 ((mem_list_iff hx hw.allowed).2 hnw)
  have hne : (services.context user s).visibleDeviceIds v.departmentId ≠ some ∅ := by
    intro hempty
    rw [hempty, listed_some] at hlisted
    exact absurd hlisted (Finset.notMem_empty _)
  have hrows := congrArg (fun w => w.devices) (Except.ok.inj he)
  simp only [deviceWorkspace, hsd, hsd', readDeviceSidebarRows, hne, if_false,
    Context.componentScope, hallow, if_true] at hrows
  have hrow := map_inj_left.1 hrows w (mem_orderBy.2 (mem_filter.2 ⟨hmem, by
    rw [Bool.and_eq_true, beq_iff_eq]
    exact ⟨hdep, hlisted⟩⟩))
  have hcount := congrArg DeviceSidebarRow.totalAppCount hrow
  simp only [Snapshot.deviceSidebarRow, Snapshot.deviceApps, countP_leftJoin] at hcount
  simp [Snapshot.addComponent, Snapshot.link, listed] at hcount

end

end

end Trakrai.Workspace
