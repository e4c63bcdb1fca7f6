import Trakrai.Workspace.Router

namespace Trakrai.Workspace
open List Lib Backend Authz
open Gateway (Tables Viewer DeviceComponentAccess getDeviceComponentAccessForUser)

/-- The rows of the objects that `p` holds of; the tuples are left out. A catalog entry stays
if one of its installations does. -/
def Snapshot.restrict (p : AuthzObject → Bool) (s : Snapshot) : Snapshot where
  factories := s.factories.filter fun f => p ⟨.factory, f.id⟩
  departments := s.departments.filter fun d => p ⟨.department, d.id⟩
  devices := s.devices.filter fun v => p ⟨.device, v.id⟩
  catalog := s.catalog.filter fun entry =>
    s.installations.any fun i => i.componentKey == entry.key && p ⟨.deviceComponent, i.id⟩
  installations := s.installations.filter fun i => p ⟨.deviceComponent, i.id⟩
  tuples := []
  createdAt o := if p o then s.createdAt o else 0
  updatedAt o := if p o then s.updatedAt o else 0

section
variable {p : AuthzObject → Bool} {s : Snapshot} {nameLe : String → String → Bool}

theorem listed_some {ids : Finset String} {id : String} : listed (some ids) id ↔ id ∈ ids := by
  simp [listed]

theorem some_mem_departments {counts : DepartmentRow → Bool} {f : FactoryRow} {id : String} :
    some id ∈ (s.factoryMembers f).map (fun row => (row.1.filter counts).map (·.id)) ↔
      ∃ d ∈ s.departments, d.factoryId = f.id ∧ counts d ∧ d.id = id := by
  simp only [Snapshot.factoryMembers, mem_map, mem_flatMap, Option.map_eq_some_iff,
    Option.filter_eq_some_iff]
  constructor
  · rintro ⟨row, ⟨department, hmem, device, -, rfl⟩, d, ⟨rfl, hc⟩, hid⟩
    obtain ⟨hd, hf⟩ := some_mem_leftJoin.1 hmem
    exact ⟨d, hd, beq_iff_eq.1 hf, hc, hid⟩
  · rintro ⟨d, hd, hf, hc, hid⟩
    obtain ⟨device, hdevice⟩ := exists_mem_leftJoin
      (fun department v => Option.any (fun d : DepartmentRow => v.departmentId == d.id) department)
      s.devices (some d)
    exact ⟨(some d, device), ⟨some d, some_mem_leftJoin.2 ⟨hd, beq_iff_eq.2 hf⟩, device, hdevice,
      rfl⟩, d, ⟨rfl, hc⟩, hid⟩

theorem some_mem_devices {counts : DeviceRow → Bool} {f : FactoryRow} {id : String} :
    some id ∈ (s.factoryMembers f).map (fun row => (row.2.filter counts).map (·.id)) ↔
      ∃ v ∈ s.devices, (∃ d ∈ s.departments, d.factoryId = f.id ∧ v.departmentId = d.id) ∧
        counts v ∧ v.id = id := by
  simp only [Snapshot.factoryMembers, mem_map, mem_flatMap, Option.map_eq_some_iff,
    Option.filter_eq_some_iff]
  constructor
  · rintro ⟨row, ⟨department, hmem, device, hdevice, rfl⟩, v, ⟨rfl, hc⟩, hid⟩
    obtain ⟨hv, hon⟩ := some_mem_leftJoin.1 hdevice
    obtain ⟨d, rfl, hd⟩ := (Option.any_eq_true _ _).1 hon
    obtain ⟨hdep, hf⟩ := some_mem_leftJoin.1 hmem
    exact ⟨v, hv, ⟨d, hdep, beq_iff_eq.1 hf, beq_iff_eq.1 hd⟩, hc, hid⟩
  · rintro ⟨v, hv, ⟨d, hd, hf, hdep⟩, hc, hid⟩
    refine ⟨(some d, some v), ⟨some d, some_mem_leftJoin.2 ⟨hd, beq_iff_eq.2 hf⟩, some v, ?_, rfl⟩,
      v, ⟨rfl, hc⟩, hid⟩
    exact some_mem_leftJoin.2 ⟨hv, by simpa using hdep⟩

theorem some_mem_departmentDevices {counts : DeviceRow → Bool} {d : DepartmentRow} {id : String} :
    some id ∈ (leftJoin (fun (d : DepartmentRow) (v : DeviceRow) => v.departmentId == d.id) s.devices
        d).map (fun device => (device.filter counts).map (·.id)) ↔
      ∃ v ∈ s.devices, v.departmentId = d.id ∧ counts v ∧ v.id = id := by
  simp only [mem_map, Option.map_eq_some_iff, Option.filter_eq_some_iff]
  constructor
  · rintro ⟨device, hdevice, v, ⟨rfl, hc⟩, hid⟩
    obtain ⟨hv, hon⟩ := some_mem_leftJoin.1 hdevice
    exact ⟨v, hv, beq_iff_eq.1 hon, hc, hid⟩
  · rintro ⟨v, hv, hon, hc, hid⟩
    exact ⟨some v, some_mem_leftJoin.2 ⟨hv, beq_iff_eq.2 hon⟩, v, ⟨rfl, hc⟩, hid⟩

theorem mem_restrict_departments :
    d ∈ (s.restrict p).departments ↔ d ∈ s.departments ∧ p ⟨.department, d.id⟩ :=
  mem_filter

theorem mem_restrict_devices : v ∈ (s.restrict p).devices ↔ v ∈ s.devices ∧ p ⟨.device, v.id⟩ :=
  mem_filter

/-- The counted devices of the factories that `factoryIds` lists lie in departments of `p`. -/
theorem readFactorySidebarRows_restrict
    (hf : ∀ id ∈ factoryIds, p ⟨.factory, id⟩) (hd : ∀ id ∈ departmentIds, p ⟨.department, id⟩)
    (hv : ∀ id ∈ deviceIds, p ⟨.device, id⟩)
    (hup : ∀ f ∈ s.factories, f.id ∈ factoryIds → ∀ v ∈ s.devices, v.id ∈ deviceIds →
      p ⟨.department, v.departmentId⟩) :
    readFactorySidebarRows nameLe (s.restrict p) (some factoryIds) (some departmentIds)
        (some deviceIds) =
      readFactorySidebarRows nameLe s (some factoryIds) (some departmentIds) (some deviceIds) := by
  have hrows : (s.restrict p).factories.filter (fun f => listed (some factoryIds) f.id) =
      s.factories.filter fun f => listed (some factoryIds) f.id :=
    filter_filter_of_imp fun f _ hl => hf f.id (listed_some.1 hl)
  simp only [readFactorySidebarRows, hrows]
  congr 1
  apply map_congr_left
  intro f hmem
  obtain ⟨hf, hl⟩ := mem_filter.1 (mem_orderBy.1 hmem)
  simp only [Snapshot.factorySidebarRow, FactorySidebarRow.mk.injEq, true_and, and_true]
  constructor
  · apply countDistinct_congr
    intro id
    simp only [some_mem_departments, mem_restrict_departments, listed_some]
    constructor
    · rintro ⟨d, ⟨hmem, -⟩, hrest⟩
      exact ⟨d, hmem, hrest⟩
    · rintro ⟨d, hmem, hfid, hc, hid⟩
      exact ⟨d, ⟨hmem, hd _ hc⟩, hfid, hc, hid⟩
  · apply countDistinct_congr
    intro id
    simp only [some_mem_devices, mem_restrict_departments, mem_restrict_devices, listed_some]
    constructor
    · rintro ⟨v, ⟨hmem, -⟩, ⟨d, ⟨hd, -⟩, hfid⟩, hrest⟩
      exact ⟨v, hmem, ⟨d, hd, hfid⟩, hrest⟩
    · rintro ⟨v, hmem, ⟨d, hd, hfid, hdep⟩, hc, hid⟩
      have hpd := hup f hf (listed_some.1 hl) v hmem hc
      rw [hdep] at hpd
      exact ⟨v, ⟨hmem, hv _ hc⟩, ⟨d, ⟨hd, hpd⟩, hfid, hdep⟩, hc, hid⟩

theorem departmentDevices_restrict {counts : DeviceRow → Bool} {d : DepartmentRow}
    (h : ∀ v ∈ s.devices, v.departmentId = d.id → counts v → p ⟨.device, v.id⟩) :
    (s.restrict p).departmentDevices counts d = s.departmentDevices counts d := by
  apply countDistinct_congr
  intro id
  simp only [some_mem_departmentDevices, mem_restrict_devices]
  constructor
  · rintro ⟨v, ⟨hmem, -⟩, hrest⟩
    exact ⟨v, hmem, hrest⟩
  · rintro ⟨v, hmem, hdep, hc, hid⟩
    exact ⟨v, ⟨hmem, h v hmem hdep hc⟩, hdep, hc, hid⟩

theorem deviceApps_restrict
    (h : ∀ i ∈ s.installations, i.deviceId = v.id → counts i → p ⟨.deviceComponent, i.id⟩) :
    (s.restrict p).deviceApps counts v = s.deviceApps counts v := by
  simp only [Snapshot.deviceApps, countP_leftJoin]
  apply countP_filter_of_imp
  intro i hi hc
  rw [Bool.and_eq_true, beq_iff_eq] at hc
  exact h i hi hc.1 hc.2

theorem readDepartmentSidebarRows_restrict
    (hd : ∀ d ∈ s.departments, d.factoryId = factoryId → listed departmentIds d.id →
      p ⟨.department, d.id⟩) (hv : ∀ v ∈ s.devices, listed deviceIds v.id → p ⟨.device, v.id⟩):
    readDepartmentSidebarRows nameLe (s.restrict p) factoryId departmentIds deviceIds =
      readDepartmentSidebarRows nameLe s factoryId departmentIds deviceIds := by
  have hrows : (s.restrict p).departments.filter (fun d =>
      d.factoryId == factoryId && listed departmentIds d.id) =
        s.departments.filter fun d => d.factoryId == factoryId && listed departmentIds d.id := by
    apply filter_filter_of_imp
    intro d hmem hl
    rw [Bool.and_eq_true, beq_iff_eq] at hl
    exact hd d hmem hl.1 hl.2
  have hrow : (s.restrict p).departmentSidebarRow deviceIds = s.departmentSidebarRow deviceIds := by
    funext d
    simp only [Snapshot.departmentSidebarRow]
    rw [departmentDevices_restrict fun v hmem _ hc => hv v hmem (Bool.and_eq_true_iff.1 hc).2,
      departmentDevices_restrict fun v hmem _ hc => hv v hmem hc]
  simp only [readDepartmentSidebarRows, hrows, hrow]

theorem readDeviceSidebarRows_restrict
    (hv : ∀ v ∈ s.devices, v.departmentId = departmentId → listed deviceIds v.id →
      p ⟨.device, v.id⟩)
    (hi : ∀ v ∈ s.devices, v.departmentId = departmentId → listed deviceIds v.id →
      ∀ i ∈ s.installations, i.deviceId = v.id → listed componentIds i.id →
        p ⟨.deviceComponent, i.id⟩) :
    readDeviceSidebarRows nameLe (s.restrict p) departmentId deviceIds componentIds =
      readDeviceSidebarRows nameLe s departmentId deviceIds componentIds := by
  have hrows : (s.restrict p).devices.filter (fun v =>
      v.departmentId == departmentId && listed deviceIds v.id) =
        s.devices.filter fun v => v.departmentId == departmentId && listed deviceIds v.id := by
    apply filter_filter_of_imp
    intro v hmem hl
    rw [Bool.and_eq_true, beq_iff_eq] at hl
    exact hv v hmem hl.1 hl.2
  simp only [readDeviceSidebarRows, hrows]
  congr 1
  apply map_congr_left
  intro v hmem
  obtain ⟨hmem, hl⟩ := mem_filter.1 (mem_orderBy.1 hmem)
  rw [Bool.and_eq_true, beq_iff_eq] at hl
  have happs := hi v hmem hl.1 hl.2
  simp only [Snapshot.deviceSidebarRow]
  rw [deviceApps_restrict fun i hmem hd hc => happs i hmem hd (Bool.and_eq_true_iff.1 hc).2,
    deviceApps_restrict fun i hmem hd hc => happs i hmem hd hc]

section
variable {factoryId : String} {departmentScope deviceScope : Option (Finset String)}
  (hd : ∀ d ∈ s.departments, scopedDepartmentConditions factoryId departmentScope d →
    p ⟨.department, d.id⟩)
  (hv : ∀ v ∈ s.devices, ∀ d ∈ s.departments, d.id = v.departmentId →
    scopedDepartmentConditions factoryId departmentScope d → listed deviceScope v.id →
      p ⟨.device, v.id⟩)
include hd hv

theorem factoryDevices_restrict (hc : ∀ v, counts v → listed deviceScope v.id):
    (s.restrict p).factoryDevices factoryId departmentScope counts =
      s.factoryDevices factoryId departmentScope counts := by
  simp only [Snapshot.factoryDevices, Snapshot.restrict, innerJoin_filter]
  apply countP_filter_of_imp
  rintro ⟨v, d⟩ hmem hrow
  obtain ⟨hvmem, hdmem, hon⟩ := mem_innerJoin.1 hmem
  obtain ⟨hscoped, hcounts⟩ := Bool.and_eq_true_iff.1 hrow
  rw [Bool.and_eq_true]
  exact ⟨hv v hvmem d hdmem (beq_iff_eq.1 hon) hscoped (hc v hcounts), hd d hdmem hscoped⟩

theorem factoryStats_restrict : factoryStats (s.restrict p) factoryId departmentScope deviceScope =
    factoryStats s factoryId departmentScope deviceScope := by
  have hcount : (s.restrict p).departments.countP
      (scopedDepartmentConditions factoryId departmentScope) =
        s.departments.countP (scopedDepartmentConditions factoryId departmentScope) :=
    countP_filter_of_imp hd
  simp only [factoryStats, hcount]
  rw [factoryDevices_restrict hd hv fun v hc => (Bool.and_eq_true_iff.1 hc).2,
    factoryDevices_restrict hd hv fun v hc => hc]

theorem factoryTable_restrict (services : Services Token) (page : Page) :
    factoryTable services (s.restrict p) factoryId page departmentScope deviceScope =
      factoryTable services s factoryId page departmentScope deviceScope := by
  have hrows : (s.restrict p).departments.filter (fun d =>
      scopedDepartmentConditions factoryId departmentScope d &&
        matchesSearch services.ilike (buildSearchPattern page.name) d.name d.description) =
      s.departments.filter fun d => scopedDepartmentConditions factoryId departmentScope d &&
        matchesSearch services.ilike (buildSearchPattern page.name) d.name d.description :=
    filter_filter_of_imp fun d hmem hc => hd d hmem (Bool.and_eq_true_iff.1 hc).1
  simp only [factoryTable, hrows]
  congr 1
  apply map_congr_left
  intro d hmem
  have hpage := mem_of_mem_drop (mem_of_mem_take hmem)
  obtain ⟨hmem, hc⟩ := mem_filter.1 (mem_orderBy.1 hpage)
  have hscoped := (Bool.and_eq_true_iff.1 hc).1
  have hdevices : ∀ v ∈ s.devices, v.departmentId = d.id → listed deviceScope v.id →
      p ⟨.device, v.id⟩ := fun v hv' hdep hl => hv v hv' d hmem hdep.symm hscoped hl
  have htime : (s.restrict p).updatedAt ⟨.department, d.id⟩ = s.updatedAt ⟨.department, d.id⟩ :=
    if_pos (hd d hmem hscoped)
  rw [htime, departmentDevices_restrict fun v hv' hdep hc =>
      hdevices v hv' hdep (Bool.and_eq_true_iff.1 hc).2,
    departmentDevices_restrict hdevices]

end

section
variable {departmentId : String} {deviceScope appScope : Option (Finset String)}
  (hv : ∀ v ∈ s.devices, scopedDeviceConditions departmentId deviceScope v → p ⟨.device, v.id⟩)
  (hi : ∀ i ∈ s.installations, ∀ v ∈ s.devices, v.id = i.deviceId →
    scopedDeviceConditions departmentId deviceScope v → listed appScope i.id →
      p ⟨.deviceComponent, i.id⟩)
include hv hi

theorem departmentStats_restrict :
    departmentStats (s.restrict p) departmentId deviceScope appScope =
      departmentStats s departmentId deviceScope appScope := by
  have hcount : (s.restrict p).devices.countP (scopedDeviceConditions departmentId deviceScope) =
      s.devices.countP (scopedDeviceConditions departmentId deviceScope) :=
    countP_filter_of_imp hv
  have hactive : (s.restrict p).devices.countP (fun v =>
      scopedDeviceConditions departmentId deviceScope v && v.isActive) =
        s.devices.countP fun v => scopedDeviceConditions departmentId deviceScope v && v.isActive :=
    countP_filter_of_imp fun v hmem hc => hv v hmem (Bool.and_eq_true_iff.1 hc).1
  have happs : (innerJoin (fun (i : InstallationRow) (v : DeviceRow) => v.id == i.deviceId)
      (s.restrict p).installations (s.restrict p).devices).countP (fun row =>
        scopedDeviceConditions departmentId deviceScope row.2 && row.1.enabled &&
          listed appScope row.1.id) =
      (innerJoin (fun (i : InstallationRow) (v : DeviceRow) => v.id == i.deviceId)
        s.installations s.devices).countP fun row =>
          scopedDeviceConditions departmentId deviceScope row.2 && row.1.enabled &&
            listed appScope row.1.id := by
    simp only [Snapshot.restrict, innerJoin_filter]
    apply countP_filter_of_imp
    rintro ⟨i, v⟩ hmem hrow
    obtain ⟨himem, hvmem, hon⟩ := mem_innerJoin.1 hmem
    simp only [Bool.and_eq_true] at hrow ⊢
    exact ⟨hi i himem v hvmem (beq_iff_eq.1 hon) hrow.1.1 hrow.2, hv v hvmem hrow.1.1⟩
  simp only [departmentStats, hcount, hactive, happs]

theorem departmentTable_restrict (services : Services Token) (page : Page) :
    departmentTable services (s.restrict p) departmentId page deviceScope appScope =
      departmentTable services s departmentId page deviceScope appScope := by
  have hrows : (s.restrict p).devices.filter (fun v =>
      scopedDeviceConditions departmentId deviceScope v &&
        matchesSearch services.ilike (buildSearchPattern page.name) v.name v.description) =
      s.devices.filter fun v => scopedDeviceConditions departmentId deviceScope v &&
        matchesSearch services.ilike (buildSearchPattern page.name) v.name v.description :=
    filter_filter_of_imp fun v hmem hc => hv v hmem (Bool.and_eq_true_iff.1 hc).1
  simp only [departmentTable, hrows]
  congr 1
  apply map_congr_left
  intro v hmem
  have hpage := mem_of_mem_drop (mem_of_mem_take hmem)
  obtain ⟨hmem, hc⟩ := mem_filter.1 (mem_orderBy.1 hpage)
  have hscoped := (Bool.and_eq_true_iff.1 hc).1
  have happs : ∀ i ∈ s.installations, i.deviceId = v.id → listed appScope i.id →
      p ⟨.deviceComponent, i.id⟩ := fun i hi' hdev hl => hi i hi' v hmem hdev.symm hscoped hl
  have htime : (s.restrict p).updatedAt ⟨.device, v.id⟩ = s.updatedAt ⟨.device, v.id⟩ :=
    if_pos (hv v hmem hscoped)
  rw [htime, deviceApps_restrict fun i hi' hdev hc =>
      happs i hi' hdev (Bool.and_eq_true_iff.1 hc).2,
    deviceApps_restrict happs]

end

theorem find?_factory_restrict {id : String} (h : p ⟨.factory, id⟩) :
    (s.restrict p).factories.find? (·.id == id) = s.factories.find? (·.id == id) := by
  apply find?_filter_of_imp
  intro f _ hid
  rw [beq_iff_eq.1 hid]
  exact h

theorem find?_department_restrict {id : String} (h : p ⟨.department, id⟩) :
    (s.restrict p).departments.find? (·.id == id) = s.departments.find? (·.id == id) := by
  apply find?_filter_of_imp
  intro d _ hid
  rw [beq_iff_eq.1 hid]
  exact h

theorem find?_device_restrict {id : String} (h : p ⟨.device, id⟩) :
    (s.restrict p).devices.find? (·.id == id) = s.devices.find? (·.id == id) := by
  apply find?_filter_of_imp
  intro v _ hid
  rw [beq_iff_eq.1 hid]
  exact h

theorem selectedDepartment_restrict {id : String} (h : p ⟨.department, id⟩)
    (hf : ∀ d ∈ s.departments, d.id = id → p ⟨.factory, d.factoryId⟩) :
    (s.restrict p).selectedDepartment id = s.selectedDepartment id := by
  unfold Snapshot.selectedDepartment
  rw [find?_department_restrict h]
  cases hfind : s.departments.find? (·.id == id) with
  | none => rfl
  | some d =>
    obtain ⟨hmem, hid⟩ := mem_of_find?_key hfind
    simp only [Option.bind_eq_bind, Option.bind_some]
    rw [find?_factory_restrict (hf d hmem hid)]

theorem selectedDevice_restrict {id : String} (h : p ⟨.device, id⟩)
    (hd : ∀ v ∈ s.devices, v.id = id → p ⟨.department, v.departmentId⟩ ∧
      ∀ d ∈ s.departments, d.id = v.departmentId → p ⟨.factory, d.factoryId⟩) :
    (s.restrict p).selectedDevice id = s.selectedDevice id := by
  have hjoined : (s.restrict p).joinedDevice id = s.joinedDevice id := by
    unfold World.joinedDevice
    rw [find?_device_restrict h]
    cases hfind : s.devices.find? (·.id == id) with
    | none => rfl
    | some v =>
      obtain ⟨hmem, hid⟩ := mem_of_find?_key hfind
      obtain ⟨hdep, hfac⟩ := hd v hmem hid
      simp only [Option.bind_eq_bind, Option.bind_some]
      rw [find?_department_restrict hdep]
      cases hfind' : s.departments.find? (·.id == v.departmentId) with
      | none => rfl
      | some d =>
        obtain ⟨hmem', hid'⟩ := mem_of_find?_key hfind'
        simp only [Option.bind_some]
        rw [find?_factory_restrict (hfac d hmem' hid')]
  have hid {joined : JoinedDevice} (hj : s.joinedDevice id = some joined) : joined.id = id := by
    simp only [World.joinedDevice, Option.bind_eq_bind, Option.bind_eq_some_iff] at hj
    obtain ⟨v, hv, d, -, f, -, he⟩ := hj
    cases he
    exact (mem_of_find?_key hv).2
  unfold Snapshot.selectedDevice
  rw [hjoined]
  cases hj : s.joinedDevice id with
  | none => rfl
  | some joined => simp only [Option.map_some, Snapshot.restrict, hid hj, h, if_true]

theorem hasReadAccess_viewer {ctx : Context Token} {id : String}
    {row : InstallationRow × CatalogRow} : (ctx.viewer id).hasReadAccess row =
      (ctx.allows .canRead .device id ||
        listed (ctx.authorizedIds .canRead .deviceComponent) row.1.id) := by
  rw [Viewer.hasReadAccess, Context.allows, Context.authorizedIds]
  by_cases h : ctx.sysadmin
  · simp [Context.viewer, h]
  · simp [Context.viewer, h, listed]

/-- The installations that are shown lie in `p`, and with them their catalog entries. -/
theorem visibleRows_restrict {ctx : Context Token} {id : String}
    (h : ∀ i ∈ s.installations, i.deviceId = id →
      (ctx.allows .canRead .device id || listed (ctx.authorizedIds .canRead .deviceComponent) i.id) →
        p ⟨.deviceComponent, i.id⟩) :
    (ctx.viewer id).visibleRows (s.restrict p).tables id =
      (ctx.viewer id).visibleRows s.tables id := by
  have hrow (i : InstallationRow) (entries : List CatalogRow) (shown : InstallationRow → Bool) :
      (entries.map fun entry => (i, entry)).filter (fun row => shown row.1) =
        if shown i then entries.map fun entry => (i, entry) else [] := by
    rw [filter_map]
    cases hs : shown i with
    | true => simp [Function.comp_def, hs]
    | false => simp [Function.comp_def, hs]
  have hrows (shown : InstallationRow → Bool)
      (hshown : ∀ i ∈ s.installations, i.deviceId = id → shown i → p ⟨.deviceComponent, i.id⟩) :
      ((s.restrict p).tables.installationRows id).filter (fun row => shown row.1) =
        (s.tables.installationRows id).filter fun row => shown row.1 := by
    simp only [Tables.installationRows, Snapshot.tables, Snapshot.restrict, filter_flatMap, hrow]
    rw [filter_comm]
    refine Eq.trans ?_ (flatMap_filter_of_nil (p := fun i => p ⟨.deviceComponent, i.id⟩) ?_)
    · apply flatMap_congr
      intro i hi
      obtain ⟨hmem, hp⟩ := mem_filter.1 hi
      have hcatalog : (s.catalog.filter fun entry => s.installations.any fun i =>
          i.componentKey == entry.key && p ⟨.deviceComponent, i.id⟩).filter
            (fun entry => entry.key == i.componentKey) =
          s.catalog.filter fun entry => entry.key == i.componentKey := by
        apply filter_filter_of_imp
        intro entry _ hkey
        rw [any_eq_true]
        refine ⟨i, (mem_filter.1 hmem).1, ?_⟩
        rw [Bool.and_eq_true, beq_iff_eq]
        exact ⟨(beq_iff_eq.1 hkey).symm, hp⟩
      rw [hcatalog]
    · intro i hi hp
      obtain ⟨hmem, hdev⟩ := mem_filter.1 hi
      have hnot : ¬ shown i := fun hs =>
        Bool.false_ne_true (hp.symm.trans (hshown i hmem (beq_iff_eq.1 hdev) hs))
      exact if_neg hnot
  simp only [Viewer.visibleRows, hasReadAccess_viewer]
  rw [hrows (fun i => i.enabled && (ctx.allows .canRead .device id ||
    listed (ctx.authorizedIds .canRead .deviceComponent) i.id))]
  intro i hmem hdev hs
  exact h i hmem hdev (Bool.and_eq_true_iff.1 hs).2

theorem getDeviceComponentAccessForUser_restrict {ctx : Context Token} {id : String}
    (h : p ⟨.device, id⟩) (hi : ∀ i ∈ s.installations, i.deviceId = id →
      (ctx.allows .canRead .device id || listed (ctx.authorizedIds .canRead .deviceComponent) i.id) →
        p ⟨.deviceComponent, i.id⟩) :
    getDeviceComponentAccessForUser ctx.services.jwt (s.restrict p).tables (ctx.viewer id) id =
      getDeviceComponentAccessForUser ctx.services.jwt s.tables (ctx.viewer id) id := by
  have hfind : (s.restrict p).tables.devices.find? (·.id == id) =
      s.tables.devices.find? (·.id == id) := find?_device_restrict h
  simp only [getDeviceComponentAccessForUser, hfind, visibleRows_restrict hi]

end

end Trakrai.Workspace
