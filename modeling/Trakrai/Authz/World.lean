import Trakrai.Lib.Interleave
import Trakrai.Authz.Model
import Trakrai.Backend.Schema

namespace Trakrai.Authz
open Lib Backend

/-- The database and the tuple store. -/
structure World where
  factories : List FactoryRow
  departments : List DepartmentRow
  devices : List DeviceRow
  catalog : List CatalogRow
  installations : List InstallationRow
  tuples : List TupleKey

abbrev Task := Prog World TrpcError

/-- One SQL statement or one call of OpenFGA: it changes the world or fails. -/
def statement (f : World → Except TrpcError (α × World)) : Task α :=
  .atomic fun w =>
    match f w with
    | .ok (a, w') => (.ok a, w')
    | .error e => (.error e, w)

def query (f : World → α) : Task α := .atomic fun w => (.ok (f w), w)

def constraintViolated : TrpcError := .internal "Failed query"

def World.hasFactory (w : World) (id : String) : Bool := w.factories.any (·.id == id)

def World.hasDepartment (w : World) (id : String) : Bool := w.departments.any (·.id == id)

def World.hasDevice (w : World) (id : String) : Bool := w.devices.any (·.id == id)

def insertFactory (row : FactoryRow) : Task FactoryRow :=
  statement fun w =>
    if w.hasFactory row.id then .error constraintViolated
    else .ok (row, { w with factories := w.factories ++ [row] })

def insertDepartment (row : DepartmentRow) : Task DepartmentRow :=
  statement fun w =>
    if w.hasDepartment row.id || !w.hasFactory row.factoryId then .error constraintViolated
    else .ok (row, { w with departments := w.departments ++ [row] })

/-- `UPDATE department SET … WHERE id = ? RETURNING *`. -/
def updateDepartmentRow (id : String) (set : DepartmentRow → DepartmentRow) :
    Task (Option DepartmentRow) :=
  statement fun w =>
    match w.departments.find? (·.id == id) with
    | none => .ok (none, w)
    | some row =>
      if w.hasFactory (set row).factoryId then
        .ok (some (set row),
          { w with departments := w.departments.map fun r => if r.id = id then set r else r })
      else .error constraintViolated

def insertDevice (row : DeviceRow) : Task DeviceRow :=
  statement fun w =>
    if w.hasDevice row.id || w.devices.any (·.accessToken == row.accessToken) ||
        !w.hasDepartment row.departmentId then .error constraintViolated
    else .ok (row, { w with devices := w.devices ++ [row] })

/-- `UPDATE device SET … WHERE id = ? RETURNING *`. -/
def updateDeviceRow (id : String) (set : DeviceRow → DeviceRow) : Task (Option DeviceRow) :=
  statement fun w =>
    match w.devices.find? (·.id == id) with
    | none => .ok (none, w)
    | some row =>
      if w.hasDepartment (set row).departmentId then
        .ok (some (set row),
          { w with devices := w.devices.map fun r => if r.id = id then set r else r })
      else .error constraintViolated

/-- `DELETE FROM device WHERE id = ?`, with the cascade to the installations. -/
def deleteDeviceRow (id : String) : Task Unit :=
  statement fun w =>
    .ok ((), { w with
      devices := w.devices.filter (·.id != id)
      installations := w.installations.filter (·.deviceId != id) })

def insertCatalogRow (row : CatalogRow) : Task CatalogRow :=
  statement fun w =>
    if w.catalog.any (·.key == row.key) then .error constraintViolated
    else .ok (row, { w with catalog := w.catalog ++ [row] })

def World.acceptsInstallations (w : World) (rows : List InstallationRow) : Bool :=
  (rows.map (·.id)).Nodup &&
    (rows.map fun r => (r.deviceId, r.componentKey)).Nodup &&
    rows.all fun row =>
      !w.installations.any (fun r => r.id == row.id) &&
        !w.installations.any (fun r => r.deviceId == row.deviceId &&
          r.componentKey == row.componentKey) &&
        w.hasDevice row.deviceId && w.catalog.any (·.key == row.componentKey)

def insertInstallations (rows : List InstallationRow) : Task (List InstallationRow) :=
  statement fun w =>
    if w.acceptsInstallations rows then
      .ok (rows, { w with installations := w.installations ++ rows })
    else .error constraintViolated

def setInstallationEnabled (id : String) (enabled : Bool) : Task (Option InstallationRow) :=
  statement fun w =>
    .ok ((w.installations.find? (·.id == id)).map fun r => { r with enabled := enabled },
      { w with installations := w.installations.map fun r =>
        if r.id = id then { r with enabled := enabled } else r })

/-- A write applies all its deletes and writes; missing deletes and duplicate writes are
ignored. -/
def writeTuples (tuples deletes writes : List TupleKey) : List TupleKey :=
  tuples.filter (fun t => t ∉ deletes ∧ t ∉ writes) ++ writes

/-- `client.write`; a tuple that the type restrictions forbid makes the request fail. -/
def clientWrite (deletes writes : List TupleKey) : Task Unit :=
  statement fun w =>
    if writes.all isAllowed then
      .ok ((), { w with tuples := writeTuples w.tuples deletes writes })
    else .error (.internal "Invalid tuple")

def readTuplesForObject (object : AuthzObject) : Task (List TupleKey) :=
  query fun w => w.tuples.filter (·.object == object)

def maxTuplesPerWrite : Nat := 50

/-- `chunkArray`, on lists of at most `fuel` chunks. -/
def chunkArray (size fuel : Nat) (values : List α) : List (List α) :=
  match fuel, values with
  | 0, _ => []
  | _, [] => []
  | fuel + 1, values => values.take size :: chunkArray size fuel (values.drop size)

def forEach (values : List α) (body : α → Task Unit) : Task Unit :=
  match values with
  | [] => pure ()
  | value :: values => do
    body value
    forEach values body

/-- `writeAuthzTuples`. The writes of a batch are independent; they are made in order here. -/
def writeAuthzTuples (tupleKeys : List TupleKey) : Task Unit :=
  forEach (chunkArray maxTuplesPerWrite tupleKeys.length tupleKeys) fun writes =>
    clientWrite [] writes

/-- The deletes and writes of `setObjectParentRelation` for the parent tuples that it found;
nothing when the parent is already the expected one. -/
def parentChanges (expectedParentTuple expectedChildTuple : TupleKey)
    (existingParentTuples : List TupleKey) : Option (List TupleKey × List TupleKey) :=
  let object := expectedParentTuple.object
  let existingChildTuples : List TupleKey :=
    existingParentTuples.map fun t => ⟨t.user, .child, object⟩
  let deletes := existingParentTuples.filter fun t =>
    t.user != expectedParentTuple.user || t.object != expectedParentTuple.object
  let childDeletes := existingChildTuples.filter fun t =>
    t.object != expectedChildTuple.object || t.user != expectedChildTuple.user
  let hasExpectedParent := existingParentTuples.any (·.user == expectedParentTuple.user)
  let hasExpectedChild := existingChildTuples.any fun t =>
    t.object == expectedChildTuple.object && t.user == expectedChildTuple.user
  if deletes.isEmpty && childDeletes.isEmpty && hasExpectedParent && hasExpectedChild then none
  else
    some (deletes ++ childDeletes, (if hasExpectedParent then [] else [expectedParentTuple]) ++
        (if hasExpectedChild then [] else [expectedChildTuple]))

def setObjectParentRelation (objectType : AuthzType) (objectId : String) (parentType : AuthzType)
    (parentId : String) : Task Unit := do
  let object := createAuthzObject objectType objectId
  let expected := createObjectParentTupleKeys objectType objectId parentType parentId
  let existingParentTuples ← List.filter (·.relation == .parent) <$> readTuplesForObject object
  match parentChanges expected.1 expected.2 existingParentTuples with
  | none => pure ()
  | some (deletes, writes) => clientWrite deletes writes

def replaceDirectUserRelation (objectType : AuthzType) (objectId userId : String)
    (nextRelation : Option AuthzRelation) (candidateRelations : List AuthzRelation) :
    Task Unit := do
  let object := createAuthzObject objectType objectId
  let authzUser := createAuthzUser userId
  let existingTuples ← List.filter (fun t : TupleKey =>
    t.user == authzUser && candidateRelations.contains t.relation) <$> readTuplesForObject object
  let deletes := existingTuples.filter fun t => some t.relation != nextRelation
  let hasExpectedTuple := nextRelation.any fun next => existingTuples.any (·.relation == next)
  if deletes.isEmpty && (nextRelation.isNone || hasExpectedTuple) then pure ()
  else
    clientWrite deletes
      (match nextRelation with
      | none => []
      | some next => if hasExpectedTuple then [] else [⟨object, next, authzUser⟩])

def deleteObjectAuthzRelations (objectType : AuthzType) (objectId : String) : Task Unit := do
  let object := createAuthzObject objectType objectId
  let existingTuples ← readTuplesForObject object
  if existingTuples.isEmpty then pure ()
  else
    let parentChildDeletes : List TupleKey :=
      (existingTuples.filter (·.relation == .parent)).map fun t => ⟨t.user, .child, object⟩
    clientWrite (existingTuples ++ parentChildDeletes) []

end Trakrai.Authz
