import Trakrai.Authz.Routers
import Trakrai.Gateway.Publish
import Trakrai.Lib.Relational
import Trakrai.Lib.Table

namespace Trakrai.Workspace
open Lib Backend Authz
open Gateway (Jwt Tables Viewer DeviceComponentAccessRecord DeviceComponentAccess
  getDeviceComponentAccessForUser)

/-- The database with its tuple store, and the time columns of the rows. -/
structure Snapshot extends World where
  createdAt : AuthzObject → Nat
  updatedAt : AuthzObject → Nat

/-- What the router calls: OpenFGA, the JWT library, and the pattern match and the order of the
database. -/
structure Services (Token : Type) where
  check : List TupleKey → TupleKey → Bool
  listUserAuthorizedObjectIds : List TupleKey → String → AuthzRelation → AuthzType → Finset String
  jwt : Jwt Token
  ilike : String → String → Bool
  nameLe : String → String → Bool

/-- What OpenFGA answers about one user. -/
@[ext]
structure Authority where
  checkUserObjectRelation : AuthzRelation → AuthzType → String → Bool
  listUserAuthorizedObjectIds : AuthzRelation → AuthzType → Finset String

def Services.authority (services : Services Token) (tuples : List TupleKey) (userId : String) :
    Authority where
  checkUserObjectRelation relation objectType objectId :=
    services.check tuples ⟨createAuthzObject objectType objectId, relation, createAuthzUser userId⟩
  listUserAuthorizedObjectIds := services.listUserAuthorizedObjectIds tuples userId

structure Context (Token : Type) where
  services : Services Token
  authority : Authority
  user : User

def Context.sysadmin (ctx : Context Token) : Bool := isSysAdminRole ctx.user.role

def Context.allows (ctx : Context Token) (relation : AuthzRelation) (objectType : AuthzType)
    (objectId : String) : Bool :=
  ctx.sysadmin || ctx.authority.checkUserObjectRelation relation objectType objectId

def Context.authorizedIds (ctx : Context Token) (relation : AuthzRelation)
    (objectType : AuthzType) : Option (Finset String) :=
  if ctx.sysadmin then none
  else some (ctx.authority.listUserAuthorizedObjectIds relation objectType)

/-- `inArray`, without a condition when there are no ids to compare with. -/
def listed (ids : Option (Finset String)) (id : String) : Bool := ids.all (id ∈ ·)

structure PaginationMeta where
  page : Nat
  pageCount : Nat
  perPage : Nat
  totalCount : Nat
deriving DecidableEq

structure Table (Row : Type) extends PaginationMeta where
  rows : List Row
deriving DecidableEq

def toPaginationMeta (page perPage totalCount : Nat) : PaginationMeta where
  page := page
  pageCount := max 1 ((totalCount + perPage - 1) / perPage)
  perPage := perPage
  totalCount := totalCount

def buildSearchPattern (value : String) : Option String :=
  if jsTrim value = "" then none else some ("%" ++ jsTrim value ++ "%")

def matchesSearch (ilike : String → String → Bool) (searchPattern : Option String) (name : String)
    (description : Option String) : Bool :=
  searchPattern.all fun pattern => ilike name pattern || description.any (ilike · pattern)

structure FactorySidebarRow where
  departmentCount : Nat
  description : Option String
  deviceCount : Nat
  id : String
  name : String
deriving DecidableEq

def Snapshot.factoryMembers (s : Snapshot) (f : FactoryRow) :
    List (Option DepartmentRow × Option DeviceRow) :=
  (leftJoin (fun f d => d.factoryId == f.id) s.departments f).flatMap fun department =>
    (leftJoin (fun department v => department.any fun d => v.departmentId == d.id) s.devices
      department).map fun device => (department, device)

def Snapshot.factorySidebarRow (s : Snapshot) (departmentIds deviceIds : Option (Finset String))
    (f : FactoryRow) : FactorySidebarRow where
  departmentCount := countDistinct ((s.factoryMembers f).map fun row =>
    (row.1.filter fun d => listed departmentIds d.id).map (·.id))
  description := f.description
  deviceCount := countDistinct ((s.factoryMembers f).map fun row =>
    (row.2.filter fun v => listed deviceIds v.id).map (·.id))
  id := f.id
  name := f.name

def readFactorySidebarRows (nameLe : String → String → Bool) (s : Snapshot)
    (factoryIds departmentIds deviceIds : Option (Finset String)) : List FactorySidebarRow :=
  if factoryIds = some ∅ then []
  else
    (orderBy nameLe (·.name) (s.factories.filter fun f => listed factoryIds f.id)).map
      (s.factorySidebarRow departmentIds deviceIds)

/-- The distinct devices of a department that pass `counts`, over its left join with them. -/
def Snapshot.departmentDevices (s : Snapshot) (counts : DeviceRow → Bool) (d : DepartmentRow) :
    Nat :=
  countDistinct ((leftJoin (fun d v => v.departmentId == d.id) s.devices d).map fun device =>
    (device.filter counts).map (·.id))

structure DepartmentSidebarRow where
  activeDeviceCount : Nat
  description : Option String
  deviceCount : Nat
  factoryId : String
  id : String
  name : String
deriving DecidableEq

def Snapshot.departmentSidebarRow (s : Snapshot) (deviceIds : Option (Finset String))
    (d : DepartmentRow) : DepartmentSidebarRow where
  activeDeviceCount := s.departmentDevices (fun v => v.isActive && listed deviceIds v.id) d
  description := d.description
  deviceCount := s.departmentDevices (fun v => listed deviceIds v.id) d
  factoryId := d.factoryId
  id := d.id
  name := d.name

def readDepartmentSidebarRows (nameLe : String → String → Bool) (s : Snapshot) (factoryId : String)
    (departmentIds deviceIds : Option (Finset String)) : List DepartmentSidebarRow :=
  if departmentIds = some ∅ then []
  else
    (orderBy nameLe (·.name) (s.departments.filter fun d =>
      d.factoryId == factoryId && listed departmentIds d.id)).map (s.departmentSidebarRow deviceIds)

/-- The installations of a device that pass `counts`, over its left join with them. -/
def Snapshot.deviceApps (s : Snapshot) (counts : InstallationRow → Bool) (v : DeviceRow) : Nat :=
  (leftJoin (fun v i => i.deviceId == v.id) s.installations v).countP (·.any counts)

structure DeviceSidebarRow where
  departmentId : String
  description : Option String
  enabledAppCount : Nat
  id : String
  isActive : Bool
  name : String
  totalAppCount : Nat
deriving DecidableEq

def Snapshot.deviceSidebarRow (s : Snapshot) (componentIds : Option (Finset String))
    (v : DeviceRow) : DeviceSidebarRow where
  departmentId := v.departmentId
  description := v.description
  enabledAppCount := s.deviceApps (fun i => i.enabled && listed componentIds i.id) v
  id := v.id
  isActive := v.isActive
  name := v.name
  totalAppCount := s.deviceApps (fun i => listed componentIds i.id) v

def readDeviceSidebarRows (nameLe : String → String → Bool) (s : Snapshot) (departmentId : String)
    (deviceIds componentIds : Option (Finset String)) : List DeviceSidebarRow :=
  if deviceIds = some ∅ then []
  else
    (orderBy nameLe (·.name) (s.devices.filter fun v =>
      v.departmentId == departmentId && listed deviceIds v.id)).map (s.deviceSidebarRow componentIds)

def requireNavigable (message : String) (objectType : AuthzType) (ctx : Context Token)
    (objectId : String) : Except TrpcError Unit :=
  if ctx.allows .canNavigate objectType objectId then .ok () else .error (.forbidden message)

def factoryForbidden : String := "You do not have access to this factory."

def departmentForbidden : String := "You do not have access to this department."

def requireNavigableFactory (ctx : Context Token) (factoryId : String) : Except TrpcError Unit :=
  requireNavigable factoryForbidden .factory ctx factoryId

def requireNavigableDepartment (ctx : Context Token) (departmentId : String) :
    Except TrpcError Unit :=
  requireNavigable departmentForbidden .department ctx departmentId

def resolveNavigableFactoryIds (ctx : Context Token) : Option (Finset String) :=
  ctx.authorizedIds .canNavigate .factory

def maxPerPage : Nat := 100

def maxSearchLength : Nat := 120

structure PageInput where
  name : Option String
  page : Option Int
  perPage : Option Int

structure Page where
  name : String
  page : Nat
  perPage : Nat

/-- `pageInputSchema`. -/
def PageInput.parse (input : PageInput) : Except TrpcError Page := do
  let name ← shortText "name" maxSearchLength (jsTrim (input.name.getD ""))
  let page := input.page.getD 1
  let perPage := input.perPage.getD 20
  if page < 1 then throw (.badRequest "page")
  if perPage < 1 || maxPerPage < perPage then throw (.badRequest "perPage")
  return ⟨name, page.toNat, perPage.toNat⟩

structure FactoryTableRow where
  activeDeviceCount : Nat
  description : Option String
  deviceCount : Nat
  id : String
  name : String
  updatedAt : Nat
deriving DecidableEq

structure SelectedFactory extends FactoryRow where
  createdAt : Nat
  updatedAt : Nat
deriving DecidableEq

structure FactoryStats where
  activeDeviceCount : Nat
  departmentCount : Nat
  deviceCount : Nat
deriving DecidableEq

structure FactoryWorkspace where
  factories : List FactorySidebarRow
  isSysadmin : Bool
  selectedFactory : SelectedFactory
  stats : FactoryStats
  table : Table FactoryTableRow
deriving DecidableEq

section
variable (ctx : Context Token)

def Context.departmentScope (factoryId : String) : Option (Finset String) :=
  if ctx.allows .canRead .factory factoryId then none
  else some ((ctx.authorizedIds .canNavigate .department).getD ∅)

def Context.factoryDeviceScope (factoryId : String) : Option (Finset String) :=
  if ctx.allows .canRead .factory factoryId then none else ctx.authorizedIds .canNavigate .device

def scopedDepartmentConditions (factoryId : String) (departmentScope : Option (Finset String))
    (d : DepartmentRow) : Bool :=
  d.factoryId == factoryId && listed departmentScope d.id

section
variable (s : Snapshot)

/-- The devices that pass `counts`, joined with the departments in scope. -/
def Snapshot.factoryDevices (factoryId : String)
    (departmentScope : Option (Finset String)) (counts : DeviceRow → Bool) : Nat :=
  (innerJoin (fun v d => d.id == v.departmentId) s.devices s.departments).countP fun row =>
    scopedDepartmentConditions factoryId departmentScope row.2 && counts row.1

def factoryStats (factoryId : String)
    (departmentScope deviceScope : Option (Finset String)) : FactoryStats where
  activeDeviceCount := s.factoryDevices factoryId departmentScope fun v =>
    v.isActive && listed deviceScope v.id
  departmentCount := s.departments.countP (scopedDepartmentConditions factoryId departmentScope)
  deviceCount := s.factoryDevices factoryId departmentScope fun v => listed deviceScope v.id

def factoryTable (services : Services Token) (s : Snapshot) (factoryId : String) (page : Page)
    (departmentScope deviceScope : Option (Finset String)) : Table FactoryTableRow :=
  let searchPattern := buildSearchPattern page.name
  let departments := s.departments.filter fun d =>
    scopedDepartmentConditions factoryId departmentScope d &&
      matchesSearch services.ilike searchPattern d.name d.description
  { toPaginationMeta page.page page.perPage departments.length with
    rows := (pageOf page.page page.perPage (orderBy services.nameLe (·.name) departments)).map
      fun d => {
        activeDeviceCount := s.departmentDevices (fun v => v.isActive && listed deviceScope v.id) d
        description := d.description
        deviceCount := s.departmentDevices (fun v => listed deviceScope v.id) d
        id := d.id
        name := d.name
        updatedAt := s.updatedAt ⟨.department, d.id⟩ } }

def factoryWorkspace (factoryId : String) (page : Page)
    (currentFactory : FactoryRow) : FactoryWorkspace where
  factories := readFactorySidebarRows ctx.services.nameLe s (resolveNavigableFactoryIds ctx)
    (ctx.authorizedIds .canNavigate .department) (ctx.authorizedIds .canNavigate .device)
  isSysadmin := ctx.sysadmin
  selectedFactory := { currentFactory with
    createdAt := s.createdAt ⟨.factory, currentFactory.id⟩
    updatedAt := s.updatedAt ⟨.factory, currentFactory.id⟩ }
  stats := factoryStats s factoryId (ctx.departmentScope factoryId) (ctx.factoryDeviceScope factoryId)
  table := factoryTable ctx.services s factoryId page (ctx.departmentScope factoryId)
    (ctx.factoryDeviceScope factoryId)

def readFactoryWorkspace (factoryId : String) (page : Page) :
    Except TrpcError FactoryWorkspace := do
  requireNavigableFactory ctx factoryId
  match s.factories.find? (·.id == factoryId) with
  | none => .error (.notFound "Factory not found.")
  | some currentFactory =>
    if ctx.departmentScope factoryId = some ∅ then .error (.forbidden factoryForbidden)
    else .ok (factoryWorkspace ctx s factoryId page currentFactory)

structure FactoryWorkspaceInput extends PageInput where
  factoryId : String

def getFactoryWorkspace (input : FactoryWorkspaceInput) :
    Except TrpcError FactoryWorkspace := do
  let page ← input.toPageInput.parse
  let factoryId ← textId "factoryId" input.factoryId
  readFactoryWorkspace ctx s factoryId page

end

end

structure SelectedDepartment where
  description : Option String
  factoryId : String
  factoryName : String
  id : String
  name : String
deriving DecidableEq

def Snapshot.selectedDepartment (s : Snapshot) (departmentId : String) :
    Option SelectedDepartment := do
  let department ← s.departments.find? (·.id == departmentId)
  let factory ← s.factories.find? (·.id == department.factoryId)
  return {
    description := department.description
    factoryId := factory.id
    factoryName := factory.name
    id := department.id
    name := department.name }

structure DepartmentTableRow where
  description : Option String
  enabledAppCount : Nat
  id : String
  isActive : Bool
  name : String
  totalAppCount : Nat
  updatedAt : Nat
deriving DecidableEq

structure DepartmentStats where
  activeDeviceCount : Nat
  deviceCount : Nat
  enabledAppCount : Nat
deriving DecidableEq

structure DepartmentWorkspace where
  departments : List DepartmentSidebarRow
  isSysadmin : Bool
  selectedDepartment : SelectedDepartment
  stats : DepartmentStats
  table : Table DepartmentTableRow
deriving DecidableEq

section
variable (ctx : Context Token)

def Context.deviceScope (departmentId : String) : Option (Finset String) :=
  if ctx.allows .canRead .department departmentId then none
  else some ((ctx.authorizedIds .canNavigate .device).getD ∅)

def Context.appScope (departmentId : String) : Option (Finset String) :=
  if ctx.allows .canRead .department departmentId then none
  else ctx.authorizedIds .canRead .deviceComponent

def Context.visibleDepartmentIds (factoryId : String) : Option (Finset String) :=
  if ctx.allows .canRead .factory factoryId then none
  else ctx.authorizedIds .canNavigate .department

def scopedDeviceConditions (departmentId : String) (deviceScope : Option (Finset String))
    (v : DeviceRow) : Bool :=
  v.departmentId == departmentId && listed deviceScope v.id

section
variable (s : Snapshot)

def departmentStats (departmentId : String)
    (deviceScope appScope : Option (Finset String)) : DepartmentStats where
  activeDeviceCount := s.devices.countP fun v =>
    scopedDeviceConditions departmentId deviceScope v && v.isActive
  deviceCount := s.devices.countP (scopedDeviceConditions departmentId deviceScope)
  enabledAppCount :=
    (innerJoin (fun i v => v.id == i.deviceId) s.installations s.devices).countP fun row =>
      scopedDeviceConditions departmentId deviceScope row.2 && row.1.enabled &&
        listed appScope row.1.id

def departmentTable (services : Services Token) (s : Snapshot) (departmentId : String) (page : Page)
    (deviceScope appScope : Option (Finset String)) : Table DepartmentTableRow :=
  let searchPattern := buildSearchPattern page.name
  let devices := s.devices.filter fun v =>
    scopedDeviceConditions departmentId deviceScope v &&
      matchesSearch services.ilike searchPattern v.name v.description
  { toPaginationMeta page.page page.perPage devices.length with
    rows := (pageOf page.page page.perPage (orderBy services.nameLe (·.name) devices)).map
      fun v => {
        description := v.description
        enabledAppCount := s.deviceApps (fun i => i.enabled && listed appScope i.id) v
        id := v.id
        isActive := v.isActive
        name := v.name
        totalAppCount := s.deviceApps (fun i => listed appScope i.id) v
        updatedAt := s.updatedAt ⟨.device, v.id⟩ } }

def departmentWorkspace (departmentId : String) (page : Page)
    (selected : SelectedDepartment) : DepartmentWorkspace where
  departments := readDepartmentSidebarRows ctx.services.nameLe s selected.factoryId
    (ctx.visibleDepartmentIds selected.factoryId) (ctx.authorizedIds .canNavigate .device)
  isSysadmin := ctx.sysadmin
  selectedDepartment := selected
  stats := departmentStats s departmentId (ctx.deviceScope departmentId) (ctx.appScope departmentId)
  table := departmentTable ctx.services s departmentId page (ctx.deviceScope departmentId)
    (ctx.appScope departmentId)

def readDepartmentWorkspace (departmentId : String)
    (page : Page) : Except TrpcError DepartmentWorkspace := do
  requireNavigableDepartment ctx departmentId
  match s.selectedDepartment departmentId with
  | none => .error (.notFound "Department not found.")
  | some selected =>
    if ctx.deviceScope departmentId = some ∅ then .error (.forbidden departmentForbidden)
    else .ok (departmentWorkspace ctx s departmentId page selected)

structure DepartmentWorkspaceInput extends PageInput where
  departmentId : String

def getDepartmentWorkspace (input : DepartmentWorkspaceInput) :
    Except TrpcError DepartmentWorkspace := do
  let page ← input.toPageInput.parse
  let departmentId ← textId "departmentId" input.departmentId
  readDepartmentWorkspace ctx s departmentId page

def Snapshot.tables : Tables := ⟨s.devices, s.catalog, s.installations⟩

/-- The user, with the answers that decide on the access to a device. -/
def Context.viewer (deviceId : String) : Viewer where
  userId := ctx.user.id
  isSysadmin := ctx.sysadmin
  answers := {
    canNavigate := ctx.authority.checkUserObjectRelation .canNavigate .device deviceId
    canRead := ctx.authority.checkUserObjectRelation .canRead .device deviceId
    canManageUsers := ctx.authority.checkUserObjectRelation .canManageUsers .device deviceId
    readableComponentIds := ctx.authority.listUserAuthorizedObjectIds .canRead .deviceComponent
    writableComponentIds := ctx.authority.listUserAuthorizedObjectIds .canWrite .deviceComponent }

structure SelectedDevice extends JoinedDevice where
  createdAt : Nat
  updatedAt : Nat

def Snapshot.selectedDevice (deviceId : String) : Option SelectedDevice :=
  (s.joinedDevice deviceId).map fun joined => { joined with
    createdAt := s.createdAt ⟨.device, joined.id⟩
    updatedAt := s.updatedAt ⟨.device, joined.id⟩ }

structure WorkspaceDevice where
  accessToken : Option String
  canManageUsers : Bool
  createdAt : Nat
  departmentId : String
  departmentName : String
  description : Option String
  deviceId : String
  factoryId : String
  factoryName : String
  id : String
  isActive : Bool
  name : String
  updatedAt : Nat

structure DeviceStats where
  enabledAppCount : Nat
  totalAppCount : Nat
  visibleAppCount : Nat

structure DeviceWorkspace (Token : Type) where
  canManageUsers : Bool
  components : List DeviceComponentAccessRecord
  device : WorkspaceDevice
  devices : List DeviceSidebarRow
  gatewayAccessToken : Token
  isSysadmin : Bool
  stats : DeviceStats

/-- The components that the app counts of a device's page are about. -/
def Context.componentScope (deviceId : String)
    (components : List DeviceComponentAccessRecord) : Option (Finset String) :=
  if ctx.allows .canRead .device deviceId then none
  else some (components.map (·.id)).toFinset

def Context.visibleDeviceIds (departmentId : String) : Option (Finset String) :=
  if ctx.allows .canRead .department departmentId then none
  else some (ctx.authority.listUserAuthorizedObjectIds .canNavigate .device)

def deviceWorkspace (deviceId : String)
    (selected : SelectedDevice) (access : DeviceComponentAccess Token) : DeviceWorkspace Token :=
  let readableComponentIds := ctx.componentScope deviceId access.components
  { canManageUsers := access.canManageUsers
    components := access.components
    device := {
      accessToken := if ctx.sysadmin then some selected.accessToken else none
      canManageUsers := access.canManageUsers
      createdAt := selected.createdAt
      departmentId := selected.departmentId
      departmentName := selected.departmentName
      description := selected.description
      deviceId := selected.id
      factoryId := selected.factoryId
      factoryName := selected.factoryName
      id := selected.id
      isActive := selected.isActive
      name := selected.name
      updatedAt := selected.updatedAt }
    devices := readDeviceSidebarRows ctx.services.nameLe s selected.departmentId
      (ctx.visibleDeviceIds selected.departmentId) readableComponentIds
    gatewayAccessToken := access.gatewayAccessToken
    isSysadmin := ctx.sysadmin
    stats := {
      enabledAppCount := s.installations.countP fun i =>
        i.deviceId == deviceId && listed readableComponentIds i.id && i.enabled
      totalAppCount := s.installations.countP fun i =>
        i.deviceId == deviceId && listed readableComponentIds i.id
      visibleAppCount := access.components.length } }

def readDeviceWorkspace (deviceId : String) :
    Except TrpcError (DeviceWorkspace Token) :=
  match s.selectedDevice deviceId with
  | none => .error (.notFound "Device not found.")
  | some selected =>
    match getDeviceComponentAccessForUser ctx.services.jwt s.tables (ctx.viewer deviceId) deviceId with
    | .error message => .error (.forbidden message)
    | .ok access => .ok (deviceWorkspace ctx s deviceId selected access)

structure DeviceWorkspaceInput where
  deviceId : String

def getDeviceWorkspace (input : DeviceWorkspaceInput) :
    Except TrpcError (DeviceWorkspace Token) := do
  let deviceId ← textId "deviceId" input.deviceId
  readDeviceWorkspace ctx s deviceId

def listFactoriesNav : List FactorySidebarRow :=
  readFactorySidebarRows ctx.services.nameLe s (resolveNavigableFactoryIds ctx)
    (ctx.authorizedIds .canNavigate .department) (ctx.authorizedIds .canNavigate .device)

/-- The queries of the router that every user may call. -/
inductive Request where
  | listFactoriesNav
  | getFactoryWorkspace (input : FactoryWorkspaceInput)
  | getDepartmentWorkspace (input : DepartmentWorkspaceInput)
  | getDeviceWorkspace (input : DeviceWorkspaceInput)

inductive Response (Token : Type) where
  | factories (rows : List FactorySidebarRow)
  | factoryWorkspace (workspace : FactoryWorkspace)
  | departmentWorkspace (workspace : DepartmentWorkspace)
  | deviceWorkspace (workspace : DeviceWorkspace Token)

/-- The answer to a query, with the authority of its user as an argument. -/
def answer : Request → Except TrpcError (Response Token)
  | .listFactoriesNav => .ok (.factories (listFactoriesNav ctx s))
  | .getFactoryWorkspace input => .factoryWorkspace <$> getFactoryWorkspace ctx s input
  | .getDepartmentWorkspace input => .departmentWorkspace <$> getDepartmentWorkspace ctx s input
  | .getDeviceWorkspace input => .deviceWorkspace <$> getDeviceWorkspace ctx s input

end

end

def Services.context (services : Services Token) (user : User) (s : Snapshot) : Context Token :=
  ⟨services, services.authority s.tuples user.id, user⟩

def Services.respond (services : Services Token) (user : User) (s : Snapshot) (request : Request) :
    Except TrpcError (Response Token) :=
  answer (services.context user s) s request

end Trakrai.Workspace
