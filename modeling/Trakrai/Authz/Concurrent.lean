import Trakrai.Authz.DeviceRequests

namespace Trakrai.Authz
open Option Lib Backend

/-- The requests that create, move or delete devices and departments. -/
inductive Request where
  | createDevice (role : Option String) (input : DeviceInput) (deviceId accessToken : String)
    (uuid : Nat → String)
  | updateDevice (role : Option String) (input : UpdateDeviceInput)
  | deleteDevice (role : Option String) (id : String)
  | createDepartment (role : Option String) (input : DepartmentInput) (departmentId : String)
  | updateDepartment (role : Option String) (id : String) (input : DepartmentInput)

def Request.task : Request → Task Unit
  | .createDevice role input deviceId accessToken uuid =>
    (fun _ => ()) <$> Authz.createDevice role input deviceId accessToken uuid
  | .updateDevice role input => (fun _ => ()) <$> Authz.updateDevice role input
  | .deleteDevice role id => (fun _ => ()) <$> Authz.deleteDevice role id
  | .createDepartment role input departmentId =>
    (fun _ => ()) <$> Authz.createDepartment role input departmentId
  | .updateDepartment role id input => (fun _ => ()) <$> Authz.updateDepartment role id input

/-- The objects that a request is about: a device with the components that are created or
deleted with it, or a department. -/
def Request.objects (w : World) : Request → List AuthzObject
  | .createDevice _ _ deviceId _ uuid => createdObjects deviceId uuid w
  | .updateDevice _ input => [⟨.device, jsTrim input.id⟩]
  | .deleteDevice _ id => deletedObjects (jsTrim id) w
  | .createDepartment _ _ departmentId => [⟨.department, departmentId⟩]
  | .updateDepartment _ id _ => [⟨.department, jsTrim id⟩]

section
variable (request : Request)

def Request.spawn (w : World) : List AuthzObject × Task Unit :=
  (request.objects w, request.task)

theorem Request.isolated (hw : Consistent w)
    (hf : AllFine strict (request.objects w) w) :
    slicing.Isolated (request.objects w) (AllFine strict (request.objects w)) request.task w := by
  cases request with
  | createDevice role input deviceId accessToken uuid =>
    exact (createDevice_isolated hw hf).map fun _ => ()
  | updateDevice role input =>
    have hfine : Fine strict ⟨.device, jsTrim input.id⟩ w := allFine_singleton.1 hf
    exact (updateDevice_isolated hw hfine).map fun _ => ()
  | deleteDevice role id =>
    exact (deleteDevice_isolated hw hf).map fun _ => ()
  | createDepartment role input departmentId =>
    have hfine : Fine strict ⟨.department, departmentId⟩ w := allFine_singleton.1 hf
    exact (createDepartment_isolated hw hfine).map fun _ => ()
  | updateDepartment role id input =>
    have hfine : Fine strict ⟨.department, jsTrim id⟩ w := allFine_singleton.1 hf
    exact (updateDepartment_isolated hw hfine).map fun _ => ()

theorem Request.objects_stable (h : slicing.Rely (request.objects w) w t) :
    request.objects t = request.objects w := by
  have hcat : t.catalog = w.catalog := h.2
  cases request with
  | createDevice role input deviceId accessToken uuid =>
    simp only [Request.objects, createdObjects, hcat]
  | updateDevice role input => rfl
  | deleteDevice role id =>
    have hof : t.installationsOf (jsTrim id) = w.installationsOf (jsTrim id) :=
      (h.1 _ (List.mem_cons_self ..)).installationsOf rfl
    simp only [Request.objects, deletedObjects, hof]
  | createDepartment role input departmentId => rfl
  | updateDepartment role id input => rfl

theorem AllFine.stable (h : AllFine strict F w) (hr : slicing.Rely F w t): AllFine strict F t :=
  fun o ho => (h o ho).stable (hr.1 o ho)

theorem Request.safe (hw : Consistent w)
    (hf : AllFine strict (request.objects w) w) :
    slicing.Safe (request.objects w) (AllFine strict (request.objects w)) request.task w := by
  apply Slicing.Isolated.safe (fun hr h => h.stable hr) hw
  intro t ht hinv
  have hobjects := request.objects_stable ht
  rw [← hobjects]
  exact request.isolated hinv (hobjects ▸ hf.stable ht)

end

/-- The tuples and the database agree. -/
def Agrees (w : World) : Prop := Consistent w ∧ ∀ o, Fine true o w

/-- What the tuples should say about the hierarchy in the database. -/
structure Recorded (w : World) : Prop where
  departments : ∀ r ∈ w.departments, ∀ p,
    ⟨⟨.department, r.id⟩, .parent, p⟩ ∈ w.tuples ↔ p = ⟨.factory, r.factoryId⟩
  devices : ∀ r ∈ w.devices, ∀ p,
    ⟨⟨.device, r.id⟩, .parent, p⟩ ∈ w.tuples ↔ p = ⟨.department, r.departmentId⟩
  components : ∀ r ∈ w.installations, ∀ p,
    ⟨⟨.deviceComponent, r.id⟩, .parent, p⟩ ∈ w.tuples ↔ p = ⟨.device, r.deviceId⟩
  removed : ∀ o, o.type.hasParent → w.parentOf o = none → ∀ t ∈ w.tuples, t.object ≠ o ∧ t.user ≠ o

theorem Fine.parent_iff (h : Fine strict o w) :
    ⟨o, .parent, p⟩ ∈ w.tuples ↔ w.parentOf o = some p := by
  rw [h.links _ (isLink_parent.2 rfl)]
  simp

theorem Fine.child_iff (h : Fine strict o w) :
    ⟨p, .child, o⟩ ∈ w.tuples ↔ w.parentOf o = some p := by
  rw [h.links _ (isLink_child.2 rfl)]
  simp

theorem Consistent.parent_exists (hw : Consistent w)
    (h : w.parentOf o = some p) (hp : p.type.hasParent) : w.parentOf p ≠ none := by
  obtain ⟨type, k⟩ := o
  cases type with
  | user => cases h
  | factory => cases h
  | department =>
    obtain ⟨r, _, rfl⟩ := map_eq_some_iff.1 h
    cases hp
  | device =>
    obtain ⟨r, hr, rfl⟩ := map_eq_some_iff.1 h
    have := hw.deviceDepartment r (mem_of_find?_key hr).1
    simpa [World.parentOf, World.hasDepartment] using this
  | deviceComponent =>
    obtain ⟨r, hr, rfl⟩ := map_eq_some_iff.1 h
    have := hw.installationDevice r (mem_of_find?_key hr).1
    simpa [World.parentOf, World.hasDevice] using this

theorem directTypes_user (type : AuthzType) (relation : AuthzRelation) :
    relation = .parent ∨ relation = .child ∨ ∀ u ∈ directTypes type relation, u = .user := by
  cases type <;> cases relation <;> decide

theorem relation_of_user (h : isAllowed t) (hu : t.user.type ≠ .user) :
    t.relation = .parent ∨ t.relation = .child := by
  rcases directTypes_user t.object.type t.relation with hr | hr | hall
  · exact .inl hr
  · exact .inr hr
  · exact (hu (hall _ (by simpa [isAllowed] using h))).elim

theorem Agrees.recorded (h : Agrees w) : Recorded w := by
  obtain ⟨hw, hf⟩ := h
  refine ⟨fun r hr p => ?_, fun r hr p => ?_, fun r hr p => ?_, fun o ho hn t ht => ?_⟩
  · rw [(hf _).parent_iff]
    simp [World.parentOf, find?_key_of_mem hw.departmentIds hr rfl, eq_comm]
  · rw [(hf _).parent_iff]
    simp [World.parentOf, find?_key_of_mem hw.deviceIds hr rfl, eq_comm]
  · rw [(hf _).parent_iff]
    simp [World.parentOf, find?_key_of_mem hw.installationIds hr rfl, eq_comm]
  · obtain ⟨object, relation, user⟩ := t
    have hclean := (hf o).clean rfl ho hn _ ht
    constructor
    · rintro rfl
      by_cases hr : relation = .child
      · subst hr
        exact hw.parent_exists ((hf user).child_iff.1 ht) ho hn
      · simp [tupleTarget, hr] at hclean
    · rintro rfl
      have hu : user.type ≠ .user := by
        intro hu
        rw [hu] at ho
        cases ho
      rcases relation_of_user (hw.allowed _ ht) hu with hr | hr
      · cases hr
        exact hw.parent_exists ((hf object).parent_iff.1 ht) ho hn
      · cases hr
        exact hclean rfl

/-- As long as no two requests in flight are about the same device or department, the
hierarchy is recorded whenever all requests have finished. -/
theorem requests_apart_recorded {pool₀ pool : Pool AuthzObject World TrpcError Unit}
    {tr : List (Pool AuthzObject World TrpcError Unit × Event Request)}
    (hi : (poolSystem Request.spawn apart Agrees).init pool₀)
    (hr : (poolSystem Request.spawn apart Agrees).Run pool₀ tr pool) (hdone : pool.active = []) :
    Recorded pool.state := by
  have hinv : PoolInv slicing (Fine true) pool := by
    apply PoolInv.of_run _ _ _ hi hr
    · exact fun hagree => hagree
    · exact fun hs _ hf => hf.stable hs
    · intro w request hw hf
      exact request.safe hw hf
  apply Agrees.recorded
  refine ⟨hinv.inv, fun o => hinv.rest o ?_⟩
  simp [hdone]

def oneFactory : World := ⟨[⟨"f", "Plant", none⟩], [], [], [], [], []⟩

theorem oneFactory_agrees : Agrees oneFactory := by
  have hnone (o : AuthzObject) : oneFactory.parentOf o = none := by
    obtain ⟨type, k⟩ := o
    cases type <;> rfl
  constructor
  · constructor <;> simp [oneFactory]
  · intro o
    exact fine_of_removed (hnone o) (by simp [oneFactory])

def newDepartment (id : String) : Request := .createDepartment (some "admin") ⟨"", "f", id⟩ id

def newDevice (id departmentId : String) : Request :=
  .createDevice (some "admin") ⟨departmentId, "", id⟩ id id fun _ => ""

def moveDevice (id departmentId : String) : Request :=
  .updateDevice (some "admin") ⟨departmentId, "", id, true, id⟩

def alone (request : Request) (n : Nat) : List (Event Request) :=
  .start request :: List.replicate n (.step 0)

def moveAndDelete : List (Event Request) :=
  alone (newDepartment "a") 3 ++ alone (newDepartment "b") 3 ++ alone (newDevice "d" "a") 5 ++
    alone (newDevice "e" "a") 5 ++
    [.start (moveDevice "d" "b"), .start (.deleteDevice (some "admin") "e")] ++
    [.step 1, .step 0, .step 1, .step 0, .step 1, .step 0, .step 1, .step 1, .step 0]

theorem requests_apart_recorded_move_and_delete : ∃ pool₀ tr pool,
    (poolSystem Request.spawn apart Agrees).init pool₀ ∧
      (poolSystem Request.spawn apart Agrees).Run pool₀ tr pool ∧ pool.active = [] ∧
      pool.state.devices.map (fun r => (r.id, r.departmentId)) = [("d", "b")] ∧
      Recorded pool.state := by
  have hrun : ((Pool.mk oneFactory []).exec Request.spawn apart moveAndDelete).map
      (fun pool => (pool.active.length, pool.state.devices.map fun r => (r.id, r.departmentId))) =
        some (0, [("d", "b")]) := by decide +kernel
  obtain ⟨pool, hexec, hpool⟩ := map_eq_some_iff.1 hrun
  obtain ⟨tr, hr⟩ := Pool.run_of_exec Agrees hexec
  simp only [Prod.mk.injEq, List.length_eq_zero_iff] at hpool
  exact ⟨_, tr, pool, ⟨oneFactory_agrees, rfl⟩, hr, hpool.1, hpool.2,
    requests_apart_recorded ⟨oneFactory_agrees, rfl⟩ hr hpool.1⟩

def twoMoves : List (Event Request) :=
  alone (newDepartment "a") 3 ++ alone (newDepartment "b") 3 ++ alone (newDepartment "c") 3 ++
    alone (newDevice "d" "a") 5 ++ [.start (moveDevice "d" "b"), .start (moveDevice "d" "c")] ++
    [.step 0, .step 1, .step 0, .step 1, .step 0, .step 1, .step 0, .step 0]

theorem requests_race_two_parents : ¬ ∀ {pool₀ pool : Pool AuthzObject World TrpcError Unit}
    {tr : List (Pool AuthzObject World TrpcError Unit × Event Request)},
    (poolSystem Request.spawn anyTime Agrees).init pool₀ →
    (poolSystem Request.spawn anyTime Agrees).Run pool₀ tr pool → pool.active = [] →
    Recorded pool.state := by
  have hrun : ((Pool.mk oneFactory []).exec Request.spawn anyTime twoMoves).map
      (fun pool => (pool.active.length, pool.state.devices.map (fun r => (r.id, r.departmentId)),
        pool.state.tuples.contains ⟨⟨.device, "d"⟩, .parent, ⟨.department, "b"⟩⟩)) =
        some (0, [("d", "c")], true) := by decide +kernel
  obtain ⟨pool, hexec, hpool⟩ := map_eq_some_iff.1 hrun
  obtain ⟨tr, hr⟩ := Pool.run_of_exec Agrees hexec
  simp only [Prod.mk.injEq, List.length_eq_zero_iff] at hpool
  obtain ⟨hactive, hdevices, htuple⟩ := hpool
  intro hall
  have hrec := hall ⟨oneFactory_agrees, rfl⟩ hr hactive
  have hmem : ("d", "c") ∈ pool.state.devices.map fun r => (r.id, r.departmentId) := by
    rw [hdevices]
    exact List.mem_singleton_self _
  obtain ⟨row, hrow, he⟩ := List.mem_map.1 hmem
  rw [Prod.mk.injEq] at he
  have hparent := hrec.devices row hrow ⟨.department, "b"⟩
  rw [he.1, he.2] at hparent
  have hne := hparent.1 (by simpa using htuple)
  simp at hne

end Trakrai.Authz
