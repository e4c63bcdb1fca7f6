import Trakrai.Authz.Laws
import Trakrai.Authz.Sequential
import Trakrai.Lib.Except
import Trakrai.Workspace.Restriction

namespace Trakrai.Workspace
open List Lib Backend Authz

def Can (s : Snapshot) (user : User) (relation : AuthzRelation) (objectType : AuthzType)
    (objectId : String) : Prop :=
  check (· ∈ s.tuples) (createAuthzUser user.id) relation ⟨objectType, objectId⟩

def Sees (s : Snapshot) (user : User) (o : AuthzObject) : Prop :=
  Can s user .canNavigate o.type o.id ∨ Can s user .canRead o.type o.id

open Classical in
noncomputable def sight (s : Snapshot) (user : User) (o : AuthzObject) : Bool :=
  decide (Sees s user o)

noncomputable def Snapshot.seenBy (s : Snapshot) (user : User) : Snapshot :=
  s.restrict (sight s user)

/-- Two databases with tuple stores that agree on everything that the user can navigate to or
read: on his relations, and on the rows of the objects that he sees. -/
structure Agree (user : User) (s s' : Snapshot) : Prop where
  relations : ∀ relation o, check (· ∈ s.tuples) (createAuthzUser user.id) relation o ↔
    check (· ∈ s'.tuples) (createAuthzUser user.id) relation o
  rows : s.seenBy user = s'.seenBy user

/-- OpenFGA and `listUserAuthorizedObjectIds` answer exactly what the tuples of a store imply. -/
structure Services.Exact (services : Services Token) : Prop where
  check_iff : ∀ {tuples : List TupleKey}, (∀ t ∈ tuples, isAllowed t) → ∀ t,
    services.check tuples t = true ↔ Authz.check (· ∈ tuples) t.user t.relation t.object
  mem_list_iff : ∀ {tuples : List TupleKey}, (∀ t ∈ tuples, isAllowed t) →
    ∀ userId relation objectType objectId,
    objectId ∈ services.listUserAuthorizedObjectIds tuples userId relation objectType ↔
      Authz.check (· ∈ tuples) (createAuthzUser userId) relation ⟨objectType, objectId⟩

open Classical in
theorem sight_iff {s : Snapshot} {user : User} {objectType : AuthzType} {id : String} :
    sight s user ⟨objectType, id⟩ ↔ Can s user .canNavigate objectType id := by
  have hsees : Sees s user ⟨objectType, id⟩ ↔ Can s user .canNavigate objectType id := by
    constructor
    · rintro (hn | hr)
      · exact hn
      · exact canNavigate_of_canRead hr
    · exact .inl
  rw [← hsees, sight]
  exact decide_eq_true_iff

section
variable {s s' : Snapshot} {user : User}

theorem Agree.symm (h : Agree user s s') : Agree user s' s :=
  ⟨fun relation o => (h.relations relation o).symm, h.rows.symm⟩

theorem Agree.can_iff (h : Agree user s s') :
    Can s user relation objectType objectId ↔ Can s' user relation objectType objectId :=
  h.relations relation _

theorem mem_of_filter_eq {xs ys : List α} (h : xs.filter p = ys.filter q) (hx : x ∈ xs) (hp : p x) : x ∈ ys :=
  mem_of_mem_filter (h ▸ mem_filter.2 ⟨hx, hp⟩)

theorem Agree.factory (h : Agree user s s') {f : FactoryRow} (hf : f ∈ s.factories)
    (hs : Can s user .canNavigate .factory f.id) : f ∈ s'.factories :=
  mem_of_filter_eq (congrArg (·.factories) h.rows) hf (sight_iff.2 hs)

theorem Agree.department (h : Agree user s s') {d : DepartmentRow} (hd : d ∈ s.departments)
    (hs : Can s user .canNavigate .department d.id) : d ∈ s'.departments :=
  mem_of_filter_eq (congrArg (·.departments) h.rows) hd (sight_iff.2 hs)

theorem Agree.device (h : Agree user s s') {v : DeviceRow} (hv : v ∈ s.devices)
    (hs : Can s user .canNavigate .device v.id) : v ∈ s'.devices :=
  mem_of_filter_eq (congrArg (·.devices) h.rows) hv (sight_iff.2 hs)

theorem Agree.installation (h : Agree user s s') {i : InstallationRow} (hi : i ∈ s.installations)
    (hs : Can s user .canNavigate .deviceComponent i.id) : i ∈ s'.installations :=
  mem_of_filter_eq (congrArg (·.installations) h.rows) hi (sight_iff.2 hs)

end

section
variable (s : Snapshot)

section
variable (user : User)

def Enclosed : Prop :=
  ∀ v ∈ s.devices, Can s user .canNavigate .device v.id →
    Can s user .canNavigate .department v.departmentId

def FactoryOpen (factoryId : String) : Prop :=
  Can s user .canRead .factory factoryId → ∀ d ∈ s.departments, d.factoryId = factoryId →
    Can s user .canNavigate .department d.id ∧
      ∀ v ∈ s.devices, v.departmentId = d.id → Can s user .canNavigate .device v.id

def DepartmentOpen (departmentId : String) : Prop :=
  Can s user .canRead .department departmentId → ∀ v ∈ s.devices, v.departmentId = departmentId →
    Can s user .canNavigate .device v.id ∧
      ∀ i ∈ s.installations, i.deviceId = v.id → Can s user .canNavigate .deviceComponent i.id

/-- The components of the devices that stand beside a readable device are visible. -/
def DeviceOpen (v : DeviceRow) : Prop :=
  Can s user .canRead .device v.id → ∀ w ∈ s.devices, w.departmentId = v.departmentId →
    Can s user .canNavigate .device w.id →
      ∀ i ∈ s.installations, i.deviceId = w.id → Can s user .canNavigate .deviceComponent i.id

def CoveredFactory (id : String) : Prop :=
  Can s user .canNavigate .factory id → (∃ f ∈ s.factories, f.id = id) →
    Enclosed s user ∧ FactoryOpen s user id

def CoveredDepartment (id : String) : Prop :=
  Can s user .canNavigate .department id → ∀ d ∈ s.departments, d.id = id →
    Can s user .canNavigate .factory d.factoryId ∧ DepartmentOpen s user id ∧
      FactoryOpen s user d.factoryId

def CoveredDevice (id : String) : Prop :=
  Can s user .canNavigate .device id ∧ ∀ v ∈ s.devices, v.id = id →
    Can s user .canNavigate .department v.departmentId ∧
      (∀ d ∈ s.departments, d.id = v.departmentId → Can s user .canNavigate .factory d.factoryId) ∧
      DepartmentOpen s user v.departmentId ∧ DeviceOpen s user v

/-- The request passes its schema and is about the object with that id. -/
def Request.selects : Request → String → Prop
  | .listFactoriesNav, _ => False
  | .getFactoryWorkspace input, id =>
    (∃ page, input.toPageInput.parse = .ok page) ∧ textId "factoryId" input.factoryId = .ok id
  | .getDepartmentWorkspace input, id =>
    (∃ page, input.toPageInput.parse = .ok page) ∧ textId "departmentId" input.departmentId = .ok id
  | .getDeviceWorkspace input, id => textId "deviceId" input.deviceId = .ok id

def Covered : Request → Prop
  | .listFactoriesNav =>
    (∃ f ∈ s.factories, Can s user .canNavigate .factory f.id) → Enclosed s user
  | .getFactoryWorkspace input =>
    ∀ id, (Request.getFactoryWorkspace input).selects id → CoveredFactory s user id
  | .getDepartmentWorkspace input =>
    ∀ id, (Request.getDepartmentWorkspace input).selects id → CoveredDepartment s user id
  | .getDeviceWorkspace input =>
    ∀ id, (Request.getDeviceWorkspace input).selects id → CoveredDevice s user id

end

end

section
variable {Token : Type} {services : Services Token} {s : Snapshot} {user : User}
  (hx : services.Exact) (hs : ∀ t ∈ s.tuples, isAllowed t)
  (hu : isSysAdminRole user.role = false)
include hx hs

theorem mem_list_iff {relation : AuthzRelation} {objectType : AuthzType} {id : String} :
    id ∈ (services.context user s).authority.listUserAuthorizedObjectIds relation objectType ↔
      Can s user relation objectType id :=
  hx.mem_list_iff hs user.id relation objectType id

include hu

theorem allows_iff {relation : AuthzRelation} {objectType : AuthzType} {id : String} :
    (services.context user s).allows relation objectType id ↔ Can s user relation objectType id := by
  rw [Context.allows, Context.sysadmin, Services.context, hu, Bool.false_or]
  exact hx.check_iff hs _

omit hx hs in
theorem authorizedIds_eq (relation : AuthzRelation) (objectType : AuthzType) :
    (services.context user s).authorizedIds relation objectType =
      some ((services.context user s).authority.listUserAuthorizedObjectIds relation objectType) :=
  if_neg (by rw [Context.sysadmin, Services.context, hu]; exact Bool.false_ne_true)

theorem listed_iff {relation : AuthzRelation} {objectType : AuthzType} {id : String} :
    listed ((services.context user s).authorizedIds relation objectType) id ↔
      Can s user relation objectType id := by
  rw [authorizedIds_eq hu, listed_some]
  exact mem_list_iff hx hs

end

/-- The type restrictions of the store and the keys of the database. -/
structure Constrained (w : World) : Prop where
  allowed : ∀ t ∈ w.tuples, isAllowed t
  factoryIds : (w.factories.map (·.id)).Nodup
  departmentIds : (w.departments.map (·.id)).Nodup
  deviceIds : (w.devices.map (·.id)).Nodup
  accessTokens : (w.devices.map (·.accessToken)).Nodup
  catalogKeys : (w.catalog.map (·.key)).Nodup
  installationIds : (w.installations.map (·.id)).Nodup
  deviceComponents : (w.installations.map fun i => (i.deviceId, i.componentKey)).Nodup
  departmentFactory : ∀ d ∈ w.departments, w.hasFactory d.factoryId
  deviceDepartment : ∀ v ∈ w.devices, w.hasDepartment v.departmentId
  installationDevice : ∀ i ∈ w.installations, w.hasDevice i.deviceId
  installationCatalog : ∀ i ∈ w.installations, w.catalog.any (·.key == i.componentKey)

def Records (w : World) (o p : AuthzObject) : Prop :=
  ⟨o, .parent, p⟩ ∈ w.tuples ∧ ⟨p, .child, o⟩ ∈ w.tuples

/-- The store records the parent of every row. -/
structure Linked (w : World) : Prop where
  departments : ∀ d ∈ w.departments, Records w ⟨.department, d.id⟩ ⟨.factory, d.factoryId⟩
  devices : ∀ v ∈ w.devices, Records w ⟨.device, v.id⟩ ⟨.department, v.departmentId⟩
  installations : ∀ i ∈ w.installations, Records w ⟨.deviceComponent, i.id⟩ ⟨.device, i.deviceId⟩

section
variable (s : Snapshot)

section
variable (user : User)

def SealedFactory (id : String) : Prop :=
  Can s user .canNavigate .factory id → (∃ f ∈ s.factories, f.id = id) →
    Enclosed s user ∧ ¬ Can s user .canRead .factory id

def SealedDepartment (id : String) : Prop :=
  Can s user .canNavigate .department id → ∀ d ∈ s.departments, d.id = id →
    Can s user .canNavigate .factory d.factoryId ∧ ¬ Can s user .canRead .department id ∧
      ¬ Can s user .canRead .factory d.factoryId

def SealedDevice (id : String) : Prop :=
  Can s user .canNavigate .device id ∧ ∀ v ∈ s.devices, v.id = id →
    Can s user .canNavigate .department v.departmentId ∧
      (∀ d ∈ s.departments, d.id = v.departmentId → Can s user .canNavigate .factory d.factoryId) ∧
      ¬ Can s user .canRead .department v.departmentId ∧ ¬ Can s user .canRead .device id

/-- The user sees a component of the device, and so that there is such a device, although he
cannot navigate to it. -/
def Betrayed (id : String) : Prop :=
  ¬ Can s user .canNavigate .device id ∧
    ∃ i ∈ s.installations, i.deviceId = id ∧ Can s user .canNavigate .deviceComponent i.id

/-- The user may not read the object that the request is about, nor the one above it, and all
that the request shows of the objects above lies in his sight. -/
def Sealed : Request → Prop
  | .listFactoriesNav =>
    (∃ f ∈ s.factories, Can s user .canNavigate .factory f.id) → Enclosed s user
  | .getFactoryWorkspace input =>
    ∀ id, (Request.getFactoryWorkspace input).selects id → SealedFactory s user id
  | .getDepartmentWorkspace input =>
    ∀ id, (Request.getDepartmentWorkspace input).selects id → SealedDepartment s user id
  | .getDeviceWorkspace input =>
    ∀ id, (Request.getDeviceWorkspace input).selects id →
      Betrayed s user id ∨ SealedDevice s user id

def SeparateDevice (id : String) : Prop :=
  Can s user .canNavigate .device id ∧ ∀ v ∈ s.devices, v.id = id →
    Can s user .canRead .device id → ∀ w ∈ s.devices, w.departmentId = v.departmentId →
      Can s user .canNavigate .device w.id → Can s user .canRead .device w.id

def Separate : Request → Prop
  | .listFactoriesNav | .getFactoryWorkspace _ | .getDepartmentWorkspace _ => True
  | .getDeviceWorkspace input =>
    ∀ id, (Request.getDeviceWorkspace input).selects id → SeparateDevice s user id

end

end

section
variable {s s' : Snapshot} {user : User} {request : Request}

theorem Sealed.covered_or_betrayed (h : Sealed s user request) : Covered s user request ∨
    ∃ input id, request = .getDeviceWorkspace input ∧ textId "deviceId" input.deviceId = .ok id ∧
      Betrayed s user id := by
  cases request with
  | listFactoriesNav => exact .inl h
  | getFactoryWorkspace input =>
    refine .inl fun id hid hn hf => ?_
    obtain ⟨henclosed, hr⟩ := h id hid hn hf
    exact ⟨henclosed, fun hr' => (hr hr').elim⟩
  | getDepartmentWorkspace input =>
    refine .inl fun id hid hn d hd hdid => ?_
    obtain ⟨hf, hr, hrf⟩ := h id hid hn d hd hdid
    exact ⟨hf, fun hr' => (hr hr').elim, fun hr' => (hrf hr').elim⟩
  | getDeviceWorkspace input =>
    by_cases hb : ∃ id, textId "deviceId" input.deviceId = .ok id ∧ Betrayed s user id
    · obtain ⟨id, hid, hb⟩ := hb
      exact .inr ⟨input, id, rfl, hid, hb⟩
    · refine .inl fun id hid => ?_
      obtain ⟨hn, hrow⟩ := (h id hid).resolve_left fun hbetrayed => hb ⟨id, hid, hbetrayed⟩
      refine ⟨hn, fun v hv hvid => ?_⟩
      obtain ⟨hd, hf, hrd, hr⟩ := hrow v hv hvid
      exact ⟨hd, hf, fun hr' => (hrd hr').elim, fun hr' => (hr (hvid ▸ hr')).elim⟩

theorem Agree.enclosed (h : Agree user s s') (he : Enclosed s user) : Enclosed s' user :=
  fun v hv hn => h.can_iff.1 (he v (h.symm.device hv hn) (h.can_iff.2 hn))

theorem Agree.betrayed (h : Agree user s s') {id : String} (hb : Betrayed s user id) :
    Betrayed s' user id := by
  obtain ⟨hn, i, hi, hid, hni⟩ := hb
  exact ⟨fun hn' => hn (h.can_iff.2 hn'), i, h.installation hi hni, hid, h.can_iff.1 hni⟩

theorem Sealed.transfer (h : Sealed s user request) (ha : Agree user s s') :
    Sealed s' user request := by
  cases request with
  | listFactoriesNav =>
    rintro ⟨f, hf, hn⟩
    exact ha.enclosed (h ⟨f, ha.symm.factory hf hn, ha.can_iff.2 hn⟩)
  | getFactoryWorkspace input =>
    rintro id hid hn ⟨f, hf, rfl⟩
    obtain ⟨henclosed, hr⟩ := h _ hid (ha.can_iff.2 hn) ⟨f, ha.symm.factory hf hn, rfl⟩
    exact ⟨ha.enclosed henclosed, fun hr' => hr (ha.can_iff.2 hr')⟩
  | getDepartmentWorkspace input =>
    rintro id hid hn d hd rfl
    obtain ⟨hf, hr, hrf⟩ := h _ hid (ha.can_iff.2 hn) d (ha.symm.department hd hn) rfl
    exact ⟨ha.can_iff.1 hf, fun hr' => hr (ha.can_iff.2 hr'), fun hr' => hrf (ha.can_iff.2 hr')⟩
  | getDeviceWorkspace input =>
    intro id hid
    refine (h id hid).imp ha.betrayed ?_
    rintro ⟨hn, hrow⟩
    have hn' := ha.can_iff.1 hn
    refine ⟨hn', ?_⟩
    rintro v hv rfl
    obtain ⟨hd, hf, hrd, hr⟩ := hrow v (ha.symm.device hv hn') rfl
    have hd' := ha.can_iff.1 hd
    refine ⟨hd', fun d hmem hdv => ?_, fun hr' => hrd (ha.can_iff.2 hr'),
      fun hr' => hr (ha.can_iff.2 hr')⟩
    exact ha.can_iff.1 (hf d (ha.symm.department hmem (hdv ▸ hd')) hdv)

theorem Separate.transfer (h : Separate s user request) (ha : Agree user s s') :
    Separate s' user request := by
  cases request with
  | listFactoriesNav => trivial
  | getFactoryWorkspace input => trivial
  | getDepartmentWorkspace input => trivial
  | getDeviceWorkspace input =>
    intro id hid
    obtain ⟨hn, hrow⟩ := h id hid
    have hn' := ha.can_iff.1 hn
    refine ⟨hn', ?_⟩
    rintro v hv rfl hr w hw hdep hnw
    exact ha.can_iff.1 (hrow v (ha.symm.device hv hn') rfl (ha.can_iff.2 hr) w
      (ha.symm.device hw hnw) hdep (ha.can_iff.2 hnw))

theorem Linked.navigate_department (h : Linked s.toWorld) (hv : v ∈ s.devices)
    (hn : Can s user .canNavigate .device v.id) :
    Can s user .canNavigate .department v.departmentId :=
  canNavigate_of_child (.inr (.inl ⟨rfl, rfl⟩)) (h.devices v hv).2 hn

theorem Linked.navigate_factory (h : Linked s.toWorld)
    (hd : d ∈ s.departments) (hn : Can s user .canNavigate .department d.id) :
    Can s user .canNavigate .factory d.factoryId :=
  canNavigate_of_child (.inl ⟨rfl, rfl⟩) (h.departments d hd).2 hn

theorem Linked.read_department (h : Linked s.toWorld)
    (hd : d ∈ s.departments) (hr : Can s user .canRead .factory d.factoryId) :
    Can s user .canRead .department d.id :=
  canRead_of_parent (.inl ⟨rfl, rfl⟩) (h.departments d hd).1 hr

theorem Linked.read_device (h : Linked s.toWorld) (hv : v ∈ s.devices)
    (hr : Can s user .canRead .department v.departmentId) : Can s user .canRead .device v.id :=
  canRead_of_parent (.inr (.inl ⟨rfl, rfl⟩)) (h.devices v hv).1 hr

theorem Linked.read_component (h : Linked s.toWorld)
    (hi : i ∈ s.installations) (hr : Can s user .canRead .device i.deviceId) :
    Can s user .canRead .deviceComponent i.id :=
  canRead_of_parent (.inr (.inr ⟨rfl, rfl⟩)) (h.installations i hi).1 hr

theorem Linked.factoryOpen (h : Linked s.toWorld) (id : String) : FactoryOpen s user id := by
  rintro hr d hd rfl
  have hrd := h.read_department hd hr
  refine ⟨canNavigate_of_canRead hrd, fun v hv hvd => ?_⟩
  exact canNavigate_of_canRead (h.read_device hv (hvd ▸ hrd))

theorem Linked.departmentOpen (h : Linked s.toWorld) (id : String) : DepartmentOpen s user id := by
  rintro hr v hv rfl
  have hrv := h.read_device hv hr
  refine ⟨canNavigate_of_canRead hrv, fun i hi hiv => ?_⟩
  exact canNavigate_of_canRead (h.read_component hi (hiv ▸ hrv))

theorem Separate.covered (h : Separate s user request) (hl : Linked s.toWorld) :
    Covered s user request := by
  have henclosed : Enclosed s user := fun v hv => hl.navigate_department hv
  cases request with
  | listFactoriesNav => exact fun _ => henclosed
  | getFactoryWorkspace input => exact fun id _ _ _ => ⟨henclosed, hl.factoryOpen id⟩
  | getDepartmentWorkspace input =>
    rintro id _ hn d hd rfl
    exact ⟨hl.navigate_factory hd hn, hl.departmentOpen _, hl.factoryOpen _⟩
  | getDeviceWorkspace input =>
    intro id hid
    obtain ⟨hn, hrow⟩ := h id hid
    refine ⟨hn, ?_⟩
    rintro v hv rfl
    have hd := hl.navigate_department hv hn
    refine ⟨hd, fun d hmem hdv => hl.navigate_factory hmem (hdv ▸ hd), hl.departmentOpen _, ?_⟩
    intro hr w hw hdep hnw i hi hiw
    have hrw := hrow v hv rfl hr w hw hdep hnw
    exact canNavigate_of_canRead (hl.read_component hi (hiw ▸ hrw))

end

end Trakrai.Workspace
