import Trakrai.Authz.Concurrent

namespace Trakrai.Authz
open List Lib Backend

inductive Operation where
  | hierarchy (request : Request)
  | createFactory (role : Option String) (description name factoryId : String)
  | createCatalogEntry (role : Option String) (entry : CatalogRow) (uuid : Nat → String)
  | setInstallationState (role : Option String) (deviceId componentKey : String) (enabled : Bool)
    (installationId : String)
  | upsertAssignment (user : User) (scopeType : ScopeType) (strong : Bool) (scopeId userId : String)
  | removeAssignment (user : User) (scopeType : ScopeType) (scopeId userId : String)

section
variable (openfga : List TupleKey → TupleKey → Bool)

def Operation.task : Operation → Task Unit
  | .hierarchy request => request.task
  | .createFactory role description name factoryId =>
    (fun _ => ()) <$> Authz.createFactory role description name factoryId
  | .createCatalogEntry role entry uuid =>
    (fun _ => ()) <$> Authz.createCatalogEntry role entry uuid
  | .setInstallationState role deviceId componentKey enabled installationId =>
    (fun _ => ()) <$> Authz.setInstallationState role deviceId componentKey enabled installationId
  | .upsertAssignment user scopeType strong scopeId userId =>
    Authz.upsertAssignment openfga user scopeType strong scopeId userId
  | .removeAssignment user scopeType scopeId userId =>
    Authz.removeAssignment openfga user scopeType scopeId userId

def World.empty : World := ⟨[], [], [], [], [], []⟩

def sequentialSystem : System World Operation where
  init w := w = World.empty
  step w operation w' := (operation.task openfga).exec w = (.ok (), w')

/-- The tuples record the hierarchy of the database. -/
def Sound (w : World) : Prop := Consistent w ∧ ∀ o, Fine false o w

theorem sound_empty : Sound World.empty := by
  have hnone (o : AuthzObject) : World.empty.parentOf o = none := by
    obtain ⟨type, k⟩ := o
    cases type <;> rfl
  constructor
  · constructor <;> simp [World.empty]
  · intro o
    exact fine_of_removed (hnone o) (by simp [World.empty])

theorem preserves_query (f : World → α) : (query f).Preserves Sound := by
  intro w hw
  rw [exec_query]
  exact hw

theorem preserves_statement {f : World → Except TrpcError (α × World)}
    (h : ∀ {w a w'}, Sound w → f w = .ok (a, w') → Sound w') : (statement f).Preserves Sound := by
  intro w hw
  rw [statement, Prog.exec_atomic]
  split
  · rename_i hf
    exact h hw hf
  · exact hw

theorem Request.preserves (request : Request) : request.task.Preserves Sound := by
  intro w hw
  obtain ⟨hg, hi, hf⟩ := (request.isolated hw.1 fun o _ => hw.2 o).exec hw.1
  refine ⟨hi, fun o => ?_⟩
  by_cases ho : o ∈ request.objects w
  · exact hf o ho
  · exact (hw.2 o).stable (hg.1 o ho)

theorem preserves_insertFactory (row : FactoryRow) : (insertFactory row).Preserves Sound := by
  apply preserves_statement
  intro w a w' hw hok
  split at hok
  · cases hok
  · cases hok
    refine ⟨{ hw.1 with departmentFactory := fun r hr => ?_ }, fun o =>
      (hw.2 o).stable ⟨rfl, fun _ => rfl, rfl⟩⟩
    simp only [World.hasFactory, any_append, Bool.or_eq_true]
    exact .inl (hw.1.departmentFactory r hr)

theorem preserves_insertCatalogRow (row : CatalogRow) : (insertCatalogRow row).Preserves Sound := by
  apply preserves_statement
  intro w a w' hw hok
  split at hok
  · cases hok
  · cases hok
    exact ⟨{ hw.1 with }, fun o => (hw.2 o).stable ⟨rfl, fun _ => rfl, rfl⟩⟩

theorem preserves_install (rows : List InstallationRow) : (insertInstallations rows >>= fun rows =>
      writeAuthzTuples (installationTuples rows)).Preserves Sound := by
  intro w hw
  rcases exec_install rows w with he | ⟨ha, tuples, he, hmem⟩
  · rw [he]
    exact hw
  · rw [he]
    refine ⟨(hw.1.install ha).links fun t ht => ?_, fun o => (hw.2 o).install ha hmem⟩
    rcases (hmem t).1 ht with ht | ht
    · exact .inl ht
    · exact .inr ⟨installationTuples_allowed t ht, installationTuples_relation t ht⟩

theorem Sound.mapInstallations {f : InstallationRow → InstallationRow} (hw : Sound w)
    (hid : ∀ r, (f r).id = r.id) (hdev : ∀ r, (f r).deviceId = r.deviceId) :
    Sound { w with installations := w.installations.map f } := by
  have hparent (o : AuthzObject) :
      ({ w with installations := w.installations.map f } : World).parentOf o = w.parentOf o := by
    obtain ⟨type, k⟩ := o
    cases type with
    | deviceComponent =>
      simp only [World.parentOf, find?_key_map hid, Option.map_map, Function.comp_def, hdev]
    | _ => rfl
  refine ⟨{ hw.1 with installationIds := ?_, installationDevice := ?_ }, fun o => ⟨?_, ?_, by simp⟩⟩
  · rw [map_map]
    simp only [Function.comp_def, hid]
    exact hw.1.installationIds
  · intro r hr
    obtain ⟨old, hold, rfl⟩ := mem_map.1 hr
    rw [hdev]
    exact hw.1.installationDevice old hold
  · intro t ht
    rw [hparent]
    exact (hw.2 o).links t ht
  · intro ho c hc
    obtain ⟨r, hr, he⟩ := (hw.2 o).children ho c hc
    obtain ⟨hr, hd⟩ := mem_installationsOf.1 hr
    refine ⟨f r, mem_installationsOf.2 ⟨mem_map_of_mem hr, (hdev r).trans hd⟩, ?_⟩
    rw [he, hid]

theorem preserves_setInstallationEnabled (id : String) (enabled : Bool) :
    (setInstallationEnabled id enabled).Preserves Sound := by
  apply preserves_statement
  intro w a w' hw hok
  cases hok
  apply hw.mapInstallations
  · intro r
    split <;> rfl
  · intro r
    split <;> rfl

theorem createFactory_preserves (role : Option String) (description name factoryId : String) :
    (createFactory role description name factoryId).Preserves Sound :=
  (Prog.Preserves.ofExcept _).bind fun _ => preserves_insertFactory _

theorem createCatalogEntry_preserves (role : Option String) (entry : CatalogRow)
    (uuid : Nat → String) : (createCatalogEntry role entry uuid).Preserves Sound := by
  refine (Prog.Preserves.ofExcept _).bind fun entry => ?_
  refine (preserves_insertCatalogRow _).bind fun created => ?_
  refine (preserves_query _).bind fun devices => ?_
  split
  · exact (preserves_install _).bind_done fun _ _ => rfl
  · exact .of_isDone rfl

theorem setInstallationState_preserves (role : Option String) (deviceId componentKey : String)
    (enabled : Bool) (installationId : String) :
    (setInstallationState role deviceId componentKey enabled installationId).Preserves Sound := by
  refine (Prog.Preserves.ofExcept _).bind ?_
  rintro ⟨deviceId, componentKey⟩
  refine (preserves_query _).bind fun existing => ?_
  cases existing with
  | none => exact (preserves_install _).bind_done fun _ _ => rfl
  | some row => exact preserves_setInstallationEnabled row.id enabled

theorem Fine.of_links (hf : Fine false o w)
    (h : ∀ t : TupleKey, t.relation = .parent ∨ t.relation = .child → (t ∈ tuples ↔ t ∈ w.tuples)): Fine false o { w with tuples := tuples } := by
  refine ⟨fun t hl => ?_, fun ho c hc => ?_, by simp⟩
  · have hr : t.relation = .parent ∨ t.relation = .child := by
      obtain ⟨q, rfl | rfl⟩ := isLink_iff.1 hl
      · exact .inl rfl
      · exact .inr rfl
    rw [h t hr]
    exact hf.links t hl
  · exact hf.children ho c ((h _ (.inr rfl)).1 hc)

/-- The candidate relations of a user on an object that `replaceDirectUserRelation` finds. -/
def userTuples (o u : AuthzObject) (candidates : List AuthzRelation) (w : World) : List TupleKey :=
  (w.tuples.filter (·.object == o)).filter fun t => t.user == u && candidates.contains t.relation

def userWrites (o u : AuthzObject) (next : Option AuthzRelation) (existing : List TupleKey) :
    List TupleKey :=
  match next with
  | none => []
  | some relation =>
    if next.any fun next => existing.any (·.relation == next) then [] else [⟨o, relation, u⟩]

theorem replaceDirectUserRelation_eq (objectType : AuthzType) (objectId userId : String)
    (next : Option AuthzRelation) (candidates : List AuthzRelation) :
    replaceDirectUserRelation objectType objectId userId next candidates =
      (query (userTuples ⟨objectType, objectId⟩ ⟨.user, userId⟩ candidates) >>= fun existing =>
        if (existing.filter fun t => some t.relation != next).isEmpty && (next.isNone ||
            next.any fun next => existing.any (·.relation == next)) then pure ()
        else clientWrite (existing.filter fun t => some t.relation != next)
          (userWrites ⟨objectType, objectId⟩ ⟨.user, userId⟩ next existing)) := rfl

theorem exec_clientWrite_cases (deletes writes : List TupleKey) (w : World) :
    ((clientWrite deletes writes).exec w).2 = w ∨ (∀ t ∈ writes, isAllowed t) ∧
      ((clientWrite deletes writes).exec w).2 =
        { w with tuples := writeTuples w.tuples deletes writes } := by
  by_cases ha : ∀ t ∈ writes, isAllowed t
  · rw [exec_clientWrite w ha]
    exact .inr ⟨ha, rfl⟩
  · rw [← all_eq_true] at ha
    simp only [clientWrite, statement, Prog.exec_atomic, ha, Bool.false_eq_true, if_false]
    exact .inl trivial

def exclusiveWith : AuthzRelation → Option AuthzRelation
  | .admin => some .viewer
  | .viewer => some .admin
  | .reader => some .writer
  | .writer => some .reader
  | _ => none

/-- What keeps a replacement of user relations from making a user hold two of them. -/
structure Replaces (type : AuthzType) (next : Option AuthzRelation)
    (candidates : List AuthzRelation) : Prop where
  links : ∀ r ∈ candidates, r ≠ .parent ∧ r ≠ .child
  next_mem : ∀ r, next = some r → r ∈ candidates
  excluded : ∀ r s, next = some r → exclusiveWith r = some s → s ∈ candidates ∨ directTypes type s = []

theorem exclusiveWith_ne (h : exclusiveWith r = some s) : r ≠ s := by
  rintro rfl
  cases r <;> cases h

theorem Replaces.not_mem {next}
    (h : Replaces o.type next candidates) (hw : Consistent w) (hex : exclusiveWith r = some s)
    (hdel : ∀ t, t ∈ deletes ↔ t ∈ w.tuples ∧ t.object = o ∧ t.user = u ∧
      t.relation ∈ candidates ∧ some t.relation ≠ next)
    (hwr : ∀ t ∈ writes, ∃ r, next = some r ∧ t = ⟨o, r, u⟩) (ht : ⟨o', r, u'⟩ ∈ writes) :
    ⟨o', s, u'⟩ ∉ writeTuples w.tuples deletes writes := by
  obtain ⟨r', hnext, he⟩ := hwr _ ht
  cases he
  rw [mem_writeTuples]
  rintro (⟨hmem, hnot⟩ | hmem)
  · rcases h.excluded r s hnext hex with hs | hs
    · refine hnot ((hdel _).2 ⟨hmem, rfl, rfl, hs, ?_⟩)
      rw [hnext]
      simpa using (exclusiveWith_ne hex).symm
    · have ha := hw.allowed _ hmem
      rw [isAllowed, hs] at ha
      cases ha
  · obtain ⟨s', hnext', he⟩ := hwr _ hmem
    cases he
    rw [hnext] at hnext'
    cases hnext'
    exact exclusiveWith_ne hex rfl

theorem Sound.replaceUserTuples {next} (h : Replaces o.type next candidates) (hw : Sound w)
    (hdel : ∀ t, t ∈ deletes ↔ t ∈ w.tuples ∧ t.object = o ∧ t.user = u ∧
      t.relation ∈ candidates ∧ some t.relation ≠ next)
    (hwr : ∀ t ∈ writes, ∃ r, next = some r ∧ t = ⟨o, r, u⟩) (ha : ∀ t ∈ writes, isAllowed t) :
    Sound { w with tuples := writeTuples w.tuples deletes writes } := by
  obtain ⟨hw, hf⟩ := hw
  have hone {r s : AuthzRelation} (hex : exclusiveWith r = some s) (hex' : exclusiveWith s = some r)
      (hold : ∀ o u, ¬ (⟨o, r, u⟩ ∈ w.tuples ∧ ⟨o, s, u⟩ ∈ w.tuples)) (o' u' : AuthzObject) :
      ¬ (⟨o', r, u'⟩ ∈ writeTuples w.tuples deletes writes ∧
        ⟨o', s, u'⟩ ∈ writeTuples w.tuples deletes writes) := by
    rintro ⟨hr, hs⟩
    rcases mem_writeTuples.1 hr with ⟨hr₁, _⟩ | hr₁
    · rcases mem_writeTuples.1 hs with ⟨hs₁, _⟩ | hs₁
      · exact hold o' u' ⟨hr₁, hs₁⟩
      · exact h.not_mem hw hex' hdel hwr hs₁ hr
    · exact h.not_mem hw hex hdel hwr hr₁ hs
  refine ⟨{ hw with
    allowed := fun t ht => ?_
    oneRole := hone rfl rfl hw.oneRole
    oneLevel := hone rfl rfl hw.oneLevel }, fun o' => (hf o').of_links fun t ht => ?_⟩
  · rcases mem_writeTuples.1 ht with ⟨ht, _⟩ | ht
    · exact hw.allowed t ht
    · exact ha t ht
  · have hnot (hr : t.relation ∈ candidates) : False := by
      obtain ⟨hp, hc⟩ := h.links _ hr
      rcases ht with ht | ht
      · exact hp ht
      · exact hc ht
    rw [mem_writeTuples, hdel]
    constructor
    · rintro (⟨hmem, _⟩ | hmem)
      · exact hmem
      · obtain ⟨r, hnext, rfl⟩ := hwr t hmem
        exact (hnot (h.next_mem r hnext)).elim
    · exact fun hmem => .inl ⟨hmem, fun hd => hnot hd.2.2.2.1⟩

theorem replaceDirectUserRelation_preserves {next} {objectType : AuthzType} (objectId userId : String)
    (h : Replaces objectType next candidates) :
    (replaceDirectUserRelation objectType objectId userId next candidates).Preserves Sound := by
  intro w hw
  rw [replaceDirectUserRelation_eq, Prog.exec_bind, exec_query]
  simp only
  split
  · exact hw
  · rcases exec_clientWrite_cases ((userTuples ⟨objectType, objectId⟩ ⟨.user, userId⟩ candidates
      w).filter fun t => some t.relation != next) (userWrites ⟨objectType, objectId⟩ ⟨.user, userId⟩
        next (userTuples ⟨objectType, objectId⟩ ⟨.user, userId⟩ candidates w)) w with
      he | ⟨ha, he⟩
    · rw [he]
      exact hw
    · rw [he]
      refine hw.replaceUserTuples (o := ⟨objectType, objectId⟩) (u := ⟨.user, userId⟩) h ?_ ?_ ha
      · intro t
        simp only [userTuples, mem_filter, Bool.and_eq_true, beq_iff_eq, bne_iff_ne,
          contains_iff_mem, and_assoc]
      · intro t ht
        cases next with
        | none => cases ht
        | some r =>
          simp only [userWrites] at ht
          split at ht
          · cases ht
          · exact ⟨r, rfl, mem_singleton.1 ht⟩

theorem ScopeType.candidates_links (scopeType : ScopeType) :
    ∀ r ∈ scopeType.candidateRelations, r ≠ .parent ∧ r ≠ .child := by
  cases scopeType <;> decide

theorem ScopeType.replaces (scopeType : ScopeType) (strong : Bool) :
    Replaces scopeType.authzType (some (scopeType.nextRelation strong))
      scopeType.candidateRelations := by
  refine ⟨scopeType.candidates_links, ?_, ?_⟩
  · rintro r ⟨⟩
    cases scopeType <;> cases strong <;> decide
  · rintro r s ⟨⟩ hex
    cases scopeType <;> cases strong <;> cases hex <;> decide

theorem ScopeType.replaces_none (scopeType : ScopeType) :
    Replaces scopeType.authzType none scopeType.candidateRelations :=
  ⟨scopeType.candidates_links, by simp, by simp⟩

theorem assertUserCanManageScope_preserves (user : User) (scopeType : ScopeType) (scopeId : String) :
    (assertUserCanManageScope openfga user scopeType scopeId).Preserves Sound := by
  rw [assertUserCanManageScope]
  split
  · exact .of_isDone rfl
  · apply preserves_statement
    intro w a w' hw hok
    split at hok <;> cases hok
    exact hw

theorem upsertAssignment_preserves (user : User)
    (scopeType : ScopeType) (strong : Bool) (scopeId userId : String) :
    (upsertAssignment openfga user scopeType strong scopeId userId).Preserves Sound := by
  refine (Prog.Preserves.ofExcept _).bind fun scopeId => ?_
  refine (assertUserCanManageScope_preserves openfga user scopeType scopeId).bind fun _ => ?_
  have hreplace := replaceDirectUserRelation_preserves scopeId userId (scopeType.replaces strong)
  split
  · refine (preserves_statement ?_).bind fun _ => hreplace
    intro w a w' hw hok
    split at hok <;> cases hok
    exact hw
  · exact hreplace

theorem removeAssignment_preserves (user : User)
    (scopeType : ScopeType) (scopeId userId : String) :
    (removeAssignment openfga user scopeType scopeId userId).Preserves Sound := by
  refine (Prog.Preserves.ofExcept _).bind fun scopeId => ?_
  refine (assertUserCanManageScope_preserves openfga user scopeType scopeId).bind fun _ => ?_
  exact replaceDirectUserRelation_preserves scopeId userId scopeType.replaces_none

theorem Operation.preserves (operation : Operation) : (operation.task openfga).Preserves Sound := by
  cases operation with
  | hierarchy request => exact request.preserves
  | createFactory role description name factoryId =>
    exact (createFactory_preserves role description name factoryId).map _
  | createCatalogEntry role entry uuid => exact (createCatalogEntry_preserves role entry uuid).map _
  | setInstallationState role deviceId componentKey enabled installationId =>
    exact (setInstallationState_preserves role deviceId componentKey enabled installationId).map _
  | upsertAssignment user scopeType strong scopeId userId =>
    exact upsertAssignment_preserves openfga user scopeType strong scopeId userId
  | removeAssignment user scopeType scopeId userId =>
    exact removeAssignment_preserves openfga user scopeType scopeId userId

end

theorem sound_of_reachable (h : (sequentialSystem openfga).Reachable w): Sound w := by
  refine h.invariant ?_ ?_
  · rintro w rfl
    exact sound_empty
  · intro w operation w' hw hstep
    have hkeep := operation.preserves openfga w hw
    change (operation.task openfga).exec w = _ at hstep
    rw [hstep] at hkeep
    exact hkeep

/-- After any sequence of successful operations, parent and child tuples mirror each other,
an object has the parent that the database records and no other, and exclusive relations
are not held together. -/
theorem sequential_hierarchy {openfga : List TupleKey → TupleKey → Bool}
    (h : (sequentialSystem openfga).Reachable w) :
    (∀ o p, ⟨o, .parent, p⟩ ∈ w.tuples ↔ ⟨p, .child, o⟩ ∈ w.tuples) ∧
      (∀ o p, ⟨o, .parent, p⟩ ∈ w.tuples ↔ w.parentOf o = some p) ∧
      (∀ o u, ¬ (⟨o, .admin, u⟩ ∈ w.tuples ∧ ⟨o, .viewer, u⟩ ∈ w.tuples)) ∧
      ∀ o u, ¬ (⟨o, .reader, u⟩ ∈ w.tuples ∧ ⟨o, .writer, u⟩ ∈ w.tuples) := by
  obtain ⟨hw, hf⟩ := sound_of_reachable h
  exact ⟨fun o p => (hf o).mirrored p, fun o p => (hf o).parent_iff, hw.oneRole, hw.oneLevel⟩

def runAll (openfga : List TupleKey → TupleKey → Bool) : List Operation → World → Option World
  | [], w => some w
  | operation :: operations, w =>
    match (operation.task openfga).exec w with
    | (.ok _, w') => runAll openfga operations w'
    | (.error _, _) => none

theorem reachable_of_runAll (hw : (sequentialSystem openfga).Reachable w)
    (h : runAll openfga operations w = some w') : (sequentialSystem openfga).Reachable w' := by
  induction operations generalizing w with
  | nil =>
    cases h
    exact hw
  | cons operation operations ih =>
    rw [runAll] at h
    split at h
    · rename_i hexec
      exact ih (hw.run (.cons hexec (.nil _))) h
    · cases h

def moveAndPromote : List Operation :=
  [.createFactory (some "admin") "" "Plant" "f", .createCatalogEntry (some "admin")
      ⟨"live", "live", "Live", "Live", none, none, none, 0, true, [], []⟩ fun _ => "",
    .hierarchy (newDepartment "a"), .hierarchy (newDepartment "b"),
    .hierarchy (.createDevice (some "admin") ⟨"a", "", "d"⟩ "d" "t" fun _ => "c"),
    .upsertAssignment ⟨"u", some "admin"⟩ .department false "b" "v",
    .hierarchy (moveDevice "d" "b"),
    .upsertAssignment ⟨"u", some "admin"⟩ .department true "b" "v"]

theorem sequential_hierarchy_moved_device : ∃ w, (sequentialSystem fun _ _ => false).Reachable w ∧
      ⟨⟨.device, "d"⟩, .parent, ⟨.department, "b"⟩⟩ ∈ w.tuples ∧
      ⟨⟨.department, "b"⟩, .child, ⟨.device, "d"⟩⟩ ∈ w.tuples ∧
      ⟨⟨.department, "b"⟩, .admin, ⟨.user, "v"⟩⟩ ∈ w.tuples ∧
      ⟨⟨.department, "b"⟩, .viewer, ⟨.user, "v"⟩⟩ ∉ w.tuples := by
  have hrun : (runAll (fun _ _ => false) moveAndPromote World.empty).map (fun w =>
      w.tuples.contains ⟨⟨.device, "d"⟩, .parent, ⟨.department, "b"⟩⟩ &&
        w.tuples.contains ⟨⟨.department, "b"⟩, .admin, ⟨.user, "v"⟩⟩) = some true := by
    decide +kernel
  obtain ⟨w, hw, htuples⟩ := Option.map_eq_some_iff.1 hrun
  rw [Bool.and_eq_true, contains_iff_mem, contains_iff_mem] at htuples
  have hreach : (sequentialSystem fun _ _ => false).Reachable w :=
    reachable_of_runAll ⟨_, [], rfl, .nil _⟩ hw
  obtain ⟨hmirror, _, hrole, _⟩ := sequential_hierarchy hreach
  exact ⟨w, hreach, htuples.1, (hmirror _ _).1 htuples.1, htuples.2,
    fun hviewer => hrole _ _ ⟨htuples.2, hviewer⟩⟩

end Trakrai.Authz
