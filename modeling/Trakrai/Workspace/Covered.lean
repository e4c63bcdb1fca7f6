import Mathlib.Tactic.Set
import Trakrai.Workspace.Visibility

namespace Trakrai.Workspace
open Bool List Lib Backend Authz
open Gateway (Tables DeviceComponentAccess getDeviceComponentAccessForUser)

section
variable {Token : Type} {services : Services Token} {s : Snapshot} {user : User}
  (hx : services.Exact) (hs : ∀ t ∈ s.tuples, isAllowed t)
  (hu : isSysAdminRole user.role = false)
include hx hs hu

theorem listFactoriesNav_seenBy
    (h : (∃ f ∈ s.factories, Can s user .canNavigate .factory f.id) → Enclosed s user) :
    listFactoriesNav (services.context user s) (s.seenBy user) =
      listFactoriesNav (services.context user s) s := by
  simp only [listFactoriesNav, resolveNavigableFactoryIds, authorizedIds_eq hu]
  apply readFactorySidebarRows_restrict
  · intro id hid
    exact sight_iff.2 ((mem_list_iff hx hs).1 hid)
  · intro id hid
    exact sight_iff.2 ((mem_list_iff hx hs).1 hid)
  · intro id hid
    exact sight_iff.2 ((mem_list_iff hx hs).1 hid)
  · intro f hf hfid v hv hvid
    have hfactory : ∃ f ∈ s.factories, Can s user .canNavigate .factory f.id :=
      ⟨f, hf, (mem_list_iff hx hs).1 hfid⟩
    exact sight_iff.2 (h hfactory v hv ((mem_list_iff hx hs).1 hvid))

theorem scope_cases (objectType : AuthzType) (id : String) (relation : AuthzRelation)
    (childType : AuthzType) :
    (Can s user .canRead objectType id ∧
      (services.context user s).allows .canRead objectType id = true) ∨
    (¬ Can s user .canRead objectType id ∧
      (services.context user s).allows .canRead objectType id = false ∧
      ∀ k, listed ((services.context user s).authorizedIds relation childType) k ↔
        Can s user relation childType k) := by
  have hiff : (services.context user s).allows .canRead objectType id ↔
      Can s user .canRead objectType id := allows_iff hx hs hu
  cases ha : (services.context user s).allows .canRead objectType id with
  | true => exact .inl ⟨hiff.1 ha, rfl⟩
  | false =>
    refine .inr ⟨fun hr => ?_, rfl, fun k => listed_iff hx hs hu⟩
    rw [hiff.2 hr] at ha
    cases ha

theorem readFactoryWorkspace_seenBy {id : String} (h : CoveredFactory s user id) (page : Page) :
    readFactoryWorkspace (services.context user s) (s.seenBy user) id page =
      readFactoryWorkspace (services.context user s) s id page := by
  set ctx := services.context user s
  unfold readFactoryWorkspace requireNavigableFactory requireNavigable
  by_cases hn : ctx.allows .canNavigate .factory id
  · have hcan := (allows_iff hx hs hu).1 hn
    have hfind : (s.seenBy user).factories.find? (·.id == id) = s.factories.find? (·.id == id) :=
      find?_factory_restrict (sight_iff.2 hcan)
    simp only [if_pos hn, hfind]
    cases hf : s.factories.find? (·.id == id) with
    | none => rfl
    | some f =>
      obtain ⟨hmem, hid⟩ := mem_of_find?_key hf
      obtain ⟨henclosed, hopen⟩ := h hcan ⟨f, hmem, hid⟩
      have hdep : ∀ d ∈ s.departments,
          scopedDepartmentConditions id (ctx.departmentScope id) d →
            Can s user .canNavigate .department d.id := by
        intro d hd hc
        simp only [scopedDepartmentConditions, and_eq_true, beq_iff_eq] at hc
        rcases scope_cases hx hs hu .factory id .canNavigate .department with ⟨hr, -⟩ | ⟨-, ha, hl⟩
        · exact (hopen hr d hd hc.1).1
        · rw [Context.departmentScope, ha, authorizedIds_eq hu] at hc
          rw [authorizedIds_eq hu] at hl
          exact (hl d.id).1 hc.2
      have hdev : ∀ v ∈ s.devices, ∀ d ∈ s.departments, d.id = v.departmentId →
          scopedDepartmentConditions id (ctx.departmentScope id) d →
          listed (ctx.factoryDeviceScope id) v.id →
            Can s user .canNavigate .device v.id := by
        intro v hv d hd hvd hc hlv
        simp only [scopedDepartmentConditions, and_eq_true, beq_iff_eq] at hc
        rcases scope_cases hx hs hu .factory id .canNavigate .device with ⟨hr, -⟩ | ⟨-, ha, hl⟩
        · exact (hopen hr d hd hc.1).2 v hv hvd.symm
        · rw [Context.factoryDeviceScope, ha] at hlv
          exact (hl v.id).1 hlv
      have hside : listFactoriesNav ctx (s.seenBy user) = listFactoriesNav ctx s :=
        listFactoriesNav_seenBy hx hs hu fun _ => henclosed
      simp only [listFactoriesNav] at hside
      have hstats : factoryStats (s.seenBy user) id (ctx.departmentScope id)
          (ctx.factoryDeviceScope id) =
            factoryStats s id (ctx.departmentScope id)
              (ctx.factoryDeviceScope id) :=
        factoryStats_restrict (fun d hd hc => sight_iff.2 (hdep d hd hc))
          fun v hv d hd hvd hc hl => sight_iff.2 (hdev v hv d hd hvd hc hl)
      have htable : factoryTable ctx.services (s.seenBy user) id page
          (ctx.departmentScope id)
          (ctx.factoryDeviceScope id) =
            factoryTable ctx.services s id page
              (ctx.departmentScope id)
              (ctx.factoryDeviceScope id) :=
        factoryTable_restrict (fun d hd hc => sight_iff.2 (hdep d hd hc))
          (fun v hv d hd hvd hc hl => sight_iff.2 (hdev v hv d hd hvd hc hl)) _ page
      have hcreated : (s.seenBy user).createdAt ⟨.factory, f.id⟩ = s.createdAt ⟨.factory, f.id⟩ :=
        if_pos (sight_iff.2 (hid ▸ hcan))
      have hupdated : (s.seenBy user).updatedAt ⟨.factory, f.id⟩ = s.updatedAt ⟨.factory, f.id⟩ :=
        if_pos (sight_iff.2 (hid ▸ hcan))
      simp only [factoryWorkspace, hside, hcreated, hupdated, hstats, htable]
  · simp only [if_neg hn]
    rfl

theorem readDepartmentWorkspace_seenBy {id : String} (h : CoveredDepartment s user id)
    (page : Page) : readDepartmentWorkspace (services.context user s) (s.seenBy user) id page =
      readDepartmentWorkspace (services.context user s) s id page := by
  set ctx := services.context user s
  unfold readDepartmentWorkspace requireNavigableDepartment requireNavigable
  by_cases hn : ctx.allows .canNavigate .department id
  · have hcan := (allows_iff hx hs hu).1 hn
    have hselected : (s.seenBy user).selectedDepartment id = s.selectedDepartment id :=
      selectedDepartment_restrict (sight_iff.2 hcan)
        fun d hd hid => sight_iff.2 (h hcan d hd hid).1
    simp only [if_pos hn, hselected]
    cases hsel : s.selectedDepartment id with
    | none => rfl
    | some selected =>
      obtain ⟨d, hd, hid, hfid⟩ : ∃ d ∈ s.departments, d.id = id ∧
          selected.factoryId = d.factoryId := by
        simp only [Snapshot.selectedDepartment, Option.bind_eq_bind, Option.bind_eq_some_iff] at hsel
        obtain ⟨d, hd, f, hf, he⟩ := hsel
        cases he
        exact ⟨d, (mem_of_find?_key hd).1, (mem_of_find?_key hd).2, (mem_of_find?_key hf).2⟩
      obtain ⟨-, hopen, hbeside⟩ := h hcan d hd hid
      have hdev : ∀ v ∈ s.devices,
          scopedDeviceConditions id (ctx.deviceScope id) v →
            Can s user .canNavigate .device v.id := by
        intro v hv hc
        simp only [scopedDeviceConditions, and_eq_true, beq_iff_eq] at hc
        rcases scope_cases hx hs hu .department id .canNavigate .device with ⟨hr, -⟩ | ⟨-, ha, hl⟩
        · exact (hopen hr v hv hc.1).1
        · rw [Context.deviceScope, ha, authorizedIds_eq hu] at hc
          rw [authorizedIds_eq hu] at hl
          exact (hl v.id).1 hc.2
      have happ : ∀ i ∈ s.installations, ∀ v ∈ s.devices, v.id = i.deviceId →
          scopedDeviceConditions id (ctx.deviceScope id) v →
          listed (ctx.appScope id) i.id →
            Can s user .canNavigate .deviceComponent i.id := by
        intro i hi v hv hvi hc hlv
        simp only [scopedDeviceConditions, and_eq_true, beq_iff_eq] at hc
        rcases scope_cases hx hs hu .department id .canRead .deviceComponent with
          ⟨hr, -⟩ | ⟨-, ha, hl⟩
        · exact (hopen hr v hv hc.1).2 i hi hvi.symm
        · rw [Context.appScope, ha] at hlv
          exact canNavigate_of_canRead ((hl i.id).1 hlv)
      have hside : readDepartmentSidebarRows ctx.services.nameLe
          (s.seenBy user) selected.factoryId
          (ctx.visibleDepartmentIds selected.factoryId)
          (ctx.authorizedIds .canNavigate .device) =
            readDepartmentSidebarRows ctx.services.nameLe s selected.factoryId
              (ctx.visibleDepartmentIds selected.factoryId)
              (ctx.authorizedIds .canNavigate .device) := by
        apply readDepartmentSidebarRows_restrict
        · intro d' hd' hf hl'
          rw [hfid] at hf hl'
          rcases scope_cases hx hs hu .factory d.factoryId .canNavigate .department with
            ⟨hr, -⟩ | ⟨-, ha, hl⟩
          · exact sight_iff.2 (hbeside hr d' hd' hf).1
          · rw [Context.visibleDepartmentIds, ha] at hl'
            exact sight_iff.2 ((hl d'.id).1 hl')
        · intro v hv hl
          exact sight_iff.2 ((listed_iff hx hs hu).1 hl)
      have hstats : departmentStats (s.seenBy user) id (ctx.deviceScope id)
          (ctx.appScope id) =
            departmentStats s id (ctx.deviceScope id)
              (ctx.appScope id) :=
        departmentStats_restrict (fun v hv hc => sight_iff.2 (hdev v hv hc))
          fun i hi v hv hvi hc hl => sight_iff.2 (happ i hi v hv hvi hc hl)
      have htable : departmentTable ctx.services (s.seenBy user) id page
          (ctx.deviceScope id) (ctx.appScope id) =
            departmentTable ctx.services s id page
              (ctx.deviceScope id) (ctx.appScope id) :=
        departmentTable_restrict (fun v hv hc => sight_iff.2 (hdev v hv hc))
          (fun i hi v hv hvi hc hl => sight_iff.2 (happ i hi v hv hvi hc hl)) _ page
      simp only [departmentWorkspace, hside, hstats, htable]
  · simp only [if_neg hn]
    rfl

theorem deviceComponents_visible {id : String} (hopen : Can s user .canRead .device id →
      ∀ i ∈ s.installations, i.deviceId = id → Can s user .canNavigate .deviceComponent i.id) :
    ∀ i ∈ s.installations, i.deviceId = id →
      ((services.context user s).allows .canRead .device id ||
        listed ((services.context user s).authorizedIds .canRead .deviceComponent) i.id) →
      Can s user .canNavigate .deviceComponent i.id := by
  intro i hi hdev hl
  rcases or_eq_true_iff.1 hl with hr | hl
  · exact hopen ((allows_iff hx hs hu).1 hr) i hi hdev
  · exact canNavigate_of_canRead ((listed_iff hx hs hu).1 hl)

omit hx hs hu in
theorem mem_components {ctx : Context Token} {id : String}
    {access : DeviceComponentAccess Token}
    (h : getDeviceComponentAccessForUser ctx.services.jwt s.tables (ctx.viewer id) id = .ok access) :
    ∀ component ∈ access.components, ∃ i ∈ s.installations, i.deviceId = id ∧
      (ctx.allows .canRead .device id || listed (ctx.authorizedIds .canRead .deviceComponent) i.id) ∧
      i.id = component.id := by
  have hcomponents : ∀ component ∈ access.components,
      ∃ row ∈ (ctx.viewer id).visibleRows s.tables id, row.1.id = component.id := by
    unfold getDeviceComponentAccessForUser at h
    split at h
    · cases h
    · split at h
      · cases h
      · cases h
        intro component hmem
        obtain ⟨row, hrow, rfl⟩ := mem_map.1 ((mem_insertionSort _).1 hmem)
        exact ⟨row, hrow, rfl⟩
  intro component hmem
  obtain ⟨row, hrow, hid⟩ := hcomponents component hmem
  obtain ⟨hrow, hshown⟩ := mem_filter.1 hrow
  simp only [Tables.installationRows, mem_flatMap, mem_map] at hrow
  obtain ⟨i, hi, entry, -, rfl⟩ := hrow
  obtain ⟨hi, hdev⟩ := mem_filter.1 hi
  rw [hasReadAccess_viewer] at hshown
  exact ⟨i, hi, beq_iff_eq.1 hdev, (and_eq_true_iff.1 hshown).2, hid⟩

theorem readDeviceWorkspace_seenBy {id : String} (h : CoveredDevice s user id) :
    readDeviceWorkspace (services.context user s) (s.seenBy user) id =
      readDeviceWorkspace (services.context user s) s id := by
  obtain ⟨hcan, hrow⟩ := h
  set ctx := services.context user s
  unfold readDeviceWorkspace
  have hselected : (s.seenBy user).selectedDevice id = s.selectedDevice id :=
    selectedDevice_restrict (sight_iff.2 hcan) fun v hv hid =>
      ⟨sight_iff.2 (hrow v hv hid).1, fun d hd hdv => sight_iff.2 ((hrow v hv hid).2.1 d hd hdv)⟩
  rw [hselected]
  cases hsel : s.selectedDevice id with
  | none => rfl
  | some selected =>
    obtain ⟨v, hv, rfl, hdid⟩ : ∃ v ∈ s.devices, v.id = id ∧
        selected.departmentId = v.departmentId := by
      simp only [Snapshot.selectedDevice, World.joinedDevice, Option.map_eq_some_iff,
        Option.bind_eq_bind, Option.bind_eq_some_iff] at hsel
      obtain ⟨joined, ⟨v, hv, d, hd, f, -, he⟩, rfl⟩ := hsel
      cases he
      exact ⟨v, (mem_of_find?_key hv).1, (mem_of_find?_key hv).2, (mem_of_find?_key hd).2⟩
    obtain ⟨-, -, hopen, happs⟩ := hrow v hv rfl
    have hown : Can s user .canRead .device v.id → ∀ i ∈ s.installations, i.deviceId = v.id →
        Can s user .canNavigate .deviceComponent i.id := fun hr => happs hr v hv rfl hcan
    have haccess : getDeviceComponentAccessForUser ctx.services.jwt
        (s.seenBy user).tables (ctx.viewer v.id) v.id =
          getDeviceComponentAccessForUser ctx.services.jwt s.tables
            (ctx.viewer v.id) v.id :=
      getDeviceComponentAccessForUser_restrict (sight_iff.2 hcan)
        fun i hi hdev hl => sight_iff.2 (deviceComponents_visible hx hs hu hown i hi hdev hl)
    rw [haccess]
    cases ha : getDeviceComponentAccessForUser ctx.services.jwt s.tables
        (ctx.viewer v.id) v.id with
    | error message => rfl
    | ok access =>
      have hshown : ∀ component ∈ access.components,
          Can s user .canNavigate .deviceComponent component.id := by
        intro component hmem
        obtain ⟨i, hi, hdev, hl, hid⟩ := mem_components ha component hmem
        rw [← hid]
        exact deviceComponents_visible hx hs hu hown i hi hdev hl
      have hscope : ∀ w ∈ s.devices, w.departmentId = v.departmentId →
          Can s user .canNavigate .device w.id → ∀ i ∈ s.installations, i.deviceId = w.id →
          listed (ctx.componentScope v.id access.components) i.id →
            Can s user .canNavigate .deviceComponent i.id := by
        intro w hw hdep hnav i hi hdev hl'
        rcases scope_cases hx hs hu .device v.id .canRead .deviceComponent with
          ⟨hr, -⟩ | ⟨-, ha, -⟩
        · exact happs hr w hw hdep hnav i hi hdev
        · rw [Context.componentScope, ha] at hl'
          simp only [false_eq_true, if_false, listed_some, mem_toFinset, mem_map] at hl'
          obtain ⟨component, hmem, hid⟩ := hl'
          rw [← hid]
          exact hshown component hmem
      have hbeside : ∀ w ∈ s.devices, w.departmentId = v.departmentId →
          listed (ctx.visibleDeviceIds v.departmentId) w.id →
            Can s user .canNavigate .device w.id := by
        intro w hw hdep hl'
        rcases scope_cases hx hs hu .department v.departmentId .canNavigate .device with
          ⟨hr, -⟩ | ⟨-, ha, hl⟩
        · exact (hopen hr w hw hdep).1
        · rw [Context.visibleDeviceIds, ha] at hl'
          exact (mem_list_iff hx hs).1 (listed_some.1 hl')
      have hside : readDeviceSidebarRows ctx.services.nameLe (s.seenBy user)
          selected.departmentId (ctx.visibleDeviceIds selected.departmentId)
          (ctx.componentScope v.id access.components) =
            readDeviceSidebarRows ctx.services.nameLe s
              selected.departmentId
              (ctx.visibleDeviceIds selected.departmentId)
              (ctx.componentScope v.id access.components) := by
        rw [hdid]
        apply readDeviceSidebarRows_restrict
        · intro w hw hdep hl
          exact sight_iff.2 (hbeside w hw hdep hl)
        · intro w hw hdep hl i hi hdev hc
          exact sight_iff.2 (hscope w hw hdep (hbeside w hw hdep hl) i hi hdev hc)
      have htotal : (s.seenBy user).installations.countP (fun i => i.deviceId == v.id &&
          listed (ctx.componentScope v.id access.components) i.id) =
            s.installations.countP fun i => i.deviceId == v.id &&
              listed (ctx.componentScope v.id access.components) i.id := by
        apply countP_filter_of_imp
        intro i hi hc
        simp only [and_eq_true, beq_iff_eq] at hc
        exact sight_iff.2 (hscope v hv rfl hcan i hi hc.1 hc.2)
      have henabled : (s.seenBy user).installations.countP (fun i => i.deviceId == v.id &&
          listed (ctx.componentScope v.id access.components) i.id &&
            i.enabled) =
            s.installations.countP fun i => i.deviceId == v.id &&
              listed (ctx.componentScope v.id access.components) i.id &&
                i.enabled := by
        apply countP_filter_of_imp
        intro i hi hc
        simp only [and_eq_true, beq_iff_eq] at hc
        exact sight_iff.2 (hscope v hv rfl hcan i hi hc.1.1 hc.1.2)
      simp only [deviceWorkspace, hside, htotal, henabled]

theorem answer_seenBy (h : Covered s user request) :
    answer (services.context user s) (s.seenBy user) request =
      answer (services.context user s) s request := by
  cases request with
  | listFactoriesNav =>
    simp only [answer, listFactoriesNav_seenBy hx hs hu h]
  | getFactoryWorkspace input =>
    have hget : getFactoryWorkspace (services.context user s) (s.seenBy user) input =
        getFactoryWorkspace (services.context user s) s input :=
      bind_congr_ok fun page hpage => bind_congr_ok fun id hid =>
        readFactoryWorkspace_seenBy hx hs hu (h id ⟨⟨page, hpage⟩, hid⟩) page
    simp only [answer, hget]
  | getDepartmentWorkspace input =>
    have hget : getDepartmentWorkspace (services.context user s) (s.seenBy user) input =
        getDepartmentWorkspace (services.context user s) s input :=
      bind_congr_ok fun page hpage => bind_congr_ok fun id hid =>
        readDepartmentWorkspace_seenBy hx hs hu (h id ⟨⟨page, hpage⟩, hid⟩) page
    simp only [answer, hget]
  | getDeviceWorkspace input =>
    have hget : getDeviceWorkspace (services.context user s) (s.seenBy user) input =
        getDeviceWorkspace (services.context user s) s input :=
      bind_congr_ok fun id hid => readDeviceWorkspace_seenBy hx hs hu (h id hid)
    simp only [answer, hget]

omit hu in
theorem context_eq (hs' : ∀ t ∈ s'.tuples, isAllowed t) (ha : Agree user s s') :
    services.context user s' = services.context user s := by
  have hauthority : services.authority s'.tuples user.id = services.authority s.tuples user.id := by
    ext relation objectType id
    · rw [Bool.eq_iff_iff]
      exact (hx.check_iff hs' _).trans ((ha.relations _ _).symm.trans (hx.check_iff hs _).symm)
    · exact (mem_list_iff hx hs').trans (ha.can_iff.symm.trans (mem_list_iff hx hs).symm)
  rw [Services.context, Services.context, hauthority]

theorem respond_eq_of_covered (hs' : ∀ t ∈ s'.tuples, isAllowed t) (h : Covered s user request) (h' : Covered s' user request)
    (ha : Agree user s s') : services.respond user s' request = services.respond user s request := by
  rw [Services.respond, Services.respond, ← answer_seenBy hx hs' hu h', ← ha.rows,
    context_eq hx hs hs' ha]
  exact answer_seenBy hx hs hu h

end

end Trakrai.Workspace
