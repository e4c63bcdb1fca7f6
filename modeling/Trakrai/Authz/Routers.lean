import Trakrai.Authz.World

namespace Trakrai.Authz
open Lib Backend

/-- `z.string().trim().min(1)`. -/
def textId (field value : String) : Except TrpcError String :=
  if jsTrim value = "" then .error (.badRequest field) else .ok (jsTrim value)

/-- `z.string().trim().min(1).max(limit)`. -/
def boundedText (field : String) (limit : Nat) (value : String) : Except TrpcError String :=
  if jsTrim value = "" ∨ limit < (utf16 (jsTrim value)).length then .error (.badRequest field)
  else .ok (jsTrim value)

/-- `z.string().max(limit)`. -/
def shortText (field : String) (limit : Nat) (value : String) : Except TrpcError String :=
  if limit < (utf16 value).length then .error (.badRequest field) else .ok value

def maxDescriptionLength : Nat := 500

def maxNameLength : Nat := 255

def normalizeOptionalString (value : String) : Option String :=
  if jsTrim value = "" then none else some (jsTrim value)

def normalizeStringArray (values : List String) : List String :=
  ((values.map jsTrim).filter (· != "")).eraseDups

def requireSysAdmin (message : String) (role : Option String) : Except TrpcError Unit :=
  if isSysAdminRole role then .ok () else .error (.forbidden message)

/-- The parsed input, if the user may use it. -/
def permitted (message : String) (role : Option String) (input : α) : Except TrpcError α := do
  requireSysAdmin message role
  return input

def devicesForbidden : String := "Only sysadmins can manage registered devices."

def accessControlForbidden : String := "Only sysadmins can perform this action."

structure JoinedDevice where
  accessToken : String
  departmentId : String
  departmentName : String
  description : Option String
  factoryId : String
  factoryName : String
  id : String
  isActive : Bool
  name : String

/-- `readJoinedDevices` for one id. -/
def World.joinedDevice (w : World) (id : String) : Option JoinedDevice := do
  let device ← w.devices.find? (·.id == id)
  let department ← w.departments.find? (·.id == device.departmentId)
  let factory ← w.factories.find? (·.id == department.factoryId)
  return {
    accessToken := device.accessToken
    departmentId := department.id
    departmentName := department.name
    description := device.description
    factoryId := factory.id
    factoryName := factory.name
    id := device.id
    isActive := device.isActive
    name := device.name }

def readJoinedDevice (id : String) : Task (Option JoinedDevice) := query (·.joinedDevice id)

structure DeviceInput where
  departmentId : String
  description : String
  name : String

def DeviceInput.parse (input : DeviceInput) : Except TrpcError DeviceInput := do
  let departmentId ← textId "departmentId" input.departmentId
  let description ← shortText "description" maxDescriptionLength input.description
  let name ← boundedText "name" maxNameLength input.name
  return ⟨departmentId, description, name⟩

def installationTuples (rows : List InstallationRow) : List TupleKey :=
  rows.flatMap fun row =>
    let keys := createObjectParentTupleKeys .deviceComponent row.id .device row.deviceId
    [keys.1, keys.2]

/-- The rows that a new device gets: one for every catalog entry, with generated ids. -/
def defaultInstallations (deviceId : String) (uuid : Nat → String) (catalog : List CatalogRow) :
    List InstallationRow :=
  catalog.zipIdx.map fun (entry, n) => ⟨uuid n, deviceId, entry.key, entry.defaultEnabled⟩

/-- What `devices.create` does after the insertion of the device. -/
def finishCreateDevice (created : DeviceRow) (uuid : Nat → String) : Task JoinedDevice := do
  setObjectParentRelation .device created.id .department created.departmentId
  let defaultComponents ← query (·.catalog)
  if defaultComponents.length > 0 then
    let createdInstallations ←
      insertInstallations (defaultInstallations created.id uuid defaultComponents)
    writeAuthzTuples (installationTuples createdInstallations)
  match ← readJoinedDevice created.id with
  | none => Prog.fail (.internal "Failed to load created device.")
  | some joined => pure joined

section
variable (role : Option String)

/-- `devices.create`; the id and the token of the device and the ids of its components are
generated. -/
def createDevice (input : DeviceInput) (deviceId accessToken : String)
    (uuid : Nat → String) : Task JoinedDevice := do
  let input ← Prog.ofExcept (input.parse >>= permitted devicesForbidden role)
  let created ← insertDevice
    ⟨deviceId, input.departmentId, input.name, normalizeOptionalString input.description,
      accessToken, true⟩
  finishCreateDevice created uuid

structure UpdateDeviceInput where
  departmentId : String
  description : String
  id : String
  isActive : Bool
  name : String

def UpdateDeviceInput.parse (input : UpdateDeviceInput) : Except TrpcError UpdateDeviceInput := do
  let departmentId ← textId "departmentId" input.departmentId
  let description ← shortText "description" maxDescriptionLength input.description
  let id ← textId "id" input.id
  let name ← boundedText "name" maxNameLength input.name
  return ⟨departmentId, description, id, input.isActive, name⟩

def finishUpdateDevice (updated : Option DeviceRow) : Task JoinedDevice :=
  match updated with
  | none => Prog.fail (.notFound "Device not found.")
  | some row => do
    setObjectParentRelation .device row.id .department row.departmentId
    match ← readJoinedDevice row.id with
    | none => Prog.fail (.internal "Failed to load updated device.")
    | some joined => pure joined

/-- `devices.update`. -/
def updateDevice (input : UpdateDeviceInput) : Task JoinedDevice := do
  let input ← Prog.ofExcept (input.parse >>= permitted devicesForbidden role)
  let updated ← updateDeviceRow input.id fun row =>
    { row with
      departmentId := input.departmentId
      description := normalizeOptionalString input.description
      isActive := input.isActive
      name := input.name }
  finishUpdateDevice updated

/-- What `devices.delete` does once it has found the device. -/
def finishDeleteDevice (id : String) (joined : Option JoinedDevice) : Task JoinedDevice := do
  let installationRows ← query fun w => w.installations.filter (·.deviceId == id)
  match joined with
  | none => Prog.fail (.notFound "Device not found.")
  | some joined =>
    forEach installationRows fun row => deleteObjectAuthzRelations .deviceComponent row.id
    deleteObjectAuthzRelations .device id
    deleteDeviceRow id
    pure joined

/-- `devices.delete`. -/
def deleteDevice (id : String) : Task JoinedDevice := do
  let id ← Prog.ofExcept (textId "id" id >>= permitted devicesForbidden role)
  let joined ← readJoinedDevice id
  finishDeleteDevice id joined

structure DepartmentInput where
  description : String
  factoryId : String
  name : String

def DepartmentInput.parse (input : DepartmentInput) : Except TrpcError DepartmentInput := do
  let description ← shortText "description" maxDescriptionLength input.description
  let factoryId ← textId "factoryId" input.factoryId
  let name ← boundedText "name" maxNameLength input.name
  return ⟨description, factoryId, name⟩

def finishDepartment (row : DepartmentRow) : Task DepartmentRow := do
  setObjectParentRelation .department row.id .factory row.factoryId
  pure row

def createDepartment (input : DepartmentInput) (departmentId : String) : Task DepartmentRow := do
  let input ← Prog.ofExcept (input.parse >>= permitted accessControlForbidden role)
  let created ← insertDepartment
    ⟨departmentId, input.factoryId, input.name, normalizeOptionalString input.description⟩
  finishDepartment created

def finishUpdateDepartment (updated : Option DepartmentRow) : Task DepartmentRow :=
  match updated with
  | none => Prog.fail (.notFound "Department not found.")
  | some row => finishDepartment row

/-- `accessControl.updateDepartment`. -/
def updateDepartment (id : String) (input : DepartmentInput) : Task DepartmentRow := do
  let (id, input) ← Prog.ofExcept do
    let input ← input.parse
    let id ← textId "id" id
    permitted accessControlForbidden role (id, input)
  let updated ← updateDepartmentRow id fun row =>
    { row with
      description := normalizeOptionalString input.description
      factoryId := input.factoryId
      name := input.name }
  finishUpdateDepartment updated

/-- `accessControl.createFactory`. -/
def createFactory (description name factoryId : String) : Task FactoryRow := do
  let (description, name) ←
    Prog.ofExcept do
      let description ← shortText "description" maxDescriptionLength description
      let name ← boundedText "name" maxNameLength name
      permitted accessControlForbidden role (description, name)
  insertFactory ⟨factoryId, name, normalizeOptionalString description⟩

/-- `accessControl.createCatalogEntry`, on an entry that passed its schema. -/
def createCatalogEntry (entry : CatalogRow) (uuid : Nat → String) : Task CatalogRow := do
  let entry ← Prog.ofExcept (permitted accessControlForbidden role entry)
  let created ← insertCatalogRow { entry with
    readActions := normalizeStringArray entry.readActions
    writeActions := normalizeStringArray entry.writeActions }
  let existingDevices ← query (·.devices)
  if existingDevices.length > 0 then
    let createdInstallations ← insertInstallations (existingDevices.zipIdx.map fun (device, n) =>
      ⟨uuid n, device.id, created.key, created.defaultEnabled⟩)
    writeAuthzTuples (installationTuples createdInstallations)
  pure created

/-- `accessControl.setInstallationState`. -/
def setInstallationState (deviceId componentKey : String) (enabled : Bool)
    (installationId : String) : Task (Option InstallationRow) := do
  let (deviceId, componentKey) ←
    Prog.ofExcept do
      let componentKey ← textId "componentKey" componentKey
      let deviceId ← textId "deviceId" deviceId
      permitted accessControlForbidden role (deviceId, componentKey)
  let existing ← query fun w => w.installations.find? fun r =>
    r.deviceId == deviceId && r.componentKey == componentKey
  match existing with
  | none => do
    let created ← insertInstallations [⟨installationId, deviceId, componentKey, enabled⟩]
    writeAuthzTuples (installationTuples created)
    pure created.head?
  | some row => setInstallationEnabled row.id enabled

end

inductive ScopeType where
  | factory
  | department
  | device
  | component
deriving DecidableEq

def ScopeType.authzType : ScopeType → AuthzType
  | .factory => .factory
  | .department => .department
  | .device => .device
  | .component => .deviceComponent

def ScopeType.candidateRelations : ScopeType → List AuthzRelation
  | .factory | .department => [.admin, .viewer]
  | .device => [.viewer]
  | .component => [.reader, .writer]

/-- `role` or `accessLevel` of an assignment: whether it is the stronger one. -/
def ScopeType.nextRelation : ScopeType → Bool → AuthzRelation
  | .factory, strong | .department, strong => if strong then .admin else .viewer
  | .device, _ => .viewer
  | .component, strong => if strong then .writer else .reader

section
variable (openfga : List TupleKey → TupleKey → Bool)

/-- `assertUserCanManageScope`, with what OpenFGA answers to the check. -/
def assertUserCanManageScope (user : User) (scopeType : ScopeType) (scopeId : String) : Task Unit :=
  if isSysAdminRole user.role then pure ()
  else
    statement fun w =>
      if openfga w.tuples
          ⟨createAuthzObject scopeType.authzType scopeId, .canManageUsers, createAuthzUser user.id⟩
      then .ok ((), w)
      else .error (.internal "You do not have permission to manage users in this scope.")

/-- `accessControl.upsertAssignment`. -/
def upsertAssignment (user : User)
    (scopeType : ScopeType) (strong : Bool) (scopeId userId : String) : Task Unit := do
  let scopeId ← Prog.ofExcept (textId "scopeId" scopeId)
  assertUserCanManageScope openfga user scopeType scopeId
  if scopeType = .component then
    statement fun w =>
      if w.installations.any (·.id == scopeId) then .ok ((), w)
      else .error (.notFound "Component installation not found.")
  replaceDirectUserRelation scopeType.authzType scopeId userId
    (some (scopeType.nextRelation strong)) scopeType.candidateRelations

/-- `accessControl.removeAssignment`. -/
def removeAssignment (user : User)
    (scopeType : ScopeType) (scopeId userId : String) : Task Unit := do
  let scopeId ← Prog.ofExcept (textId "scopeId" scopeId)
  assertUserCanManageScope openfga user scopeType scopeId
  replaceDirectUserRelation scopeType.authzType scopeId userId none scopeType.candidateRelations

end

end Trakrai.Authz
