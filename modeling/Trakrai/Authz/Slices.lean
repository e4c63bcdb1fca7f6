import Trakrai.Authz.Laws
import Trakrai.Authz.Routers

namespace Trakrai.Authz
open List Lib Backend

def World.parentOf (w : World) (o : AuthzObject) : Option AuthzObject :=
  match o.type with
  | .department => (w.departments.find? (·.id == o.id)).map fun r => ⟨.factory, r.factoryId⟩
  | .device => (w.devices.find? (·.id == o.id)).map fun r => ⟨.department, r.departmentId⟩
  | .deviceComponent => (w.installations.find? (·.id == o.id)).map fun r => ⟨.device, r.deviceId⟩
  | .user | .factory => none

def World.installationsOf (w : World) (deviceId : String) : List InstallationRow :=
  w.installations.filter (·.deviceId == deviceId)

def AuthzType.hasParent : AuthzType → Bool
  | .department | .device | .deviceComponent => true
  | .user | .factory => false

def tupleTarget (t : TupleKey) : AuthzObject := if t.relation = .child then t.user else t.object

/-- A device also keeps an eye on its child tuples. -/
def touches (o : AuthzObject) (t : TupleKey) : Bool :=
  tupleTarget t == o || (o.type == .device && t.object == o)

/-- A parent or child tuple that says what the parent of `o` is. -/
def isLink (o : AuthzObject) (t : TupleKey) : Bool :=
  (t.relation == .parent && t.object == o) || (t.relation == .child && t.user == o)

/-- What every state satisfies: the type restrictions, the mutually exclusive relations, and
the constraints of the database. -/
structure Consistent (w : World) : Prop where
  allowed : ∀ t ∈ w.tuples, isAllowed t
  oneRole : ∀ o u, ¬ (⟨o, .admin, u⟩ ∈ w.tuples ∧ ⟨o, .viewer, u⟩ ∈ w.tuples)
  oneLevel : ∀ o u, ¬ (⟨o, .reader, u⟩ ∈ w.tuples ∧ ⟨o, .writer, u⟩ ∈ w.tuples)
  departmentIds : (w.departments.map (·.id)).Nodup
  deviceIds : (w.devices.map (·.id)).Nodup
  installationIds : (w.installations.map (·.id)).Nodup
  departmentFactory : ∀ r ∈ w.departments, w.hasFactory r.factoryId
  deviceDepartment : ∀ r ∈ w.devices, w.hasDepartment r.departmentId
  installationDevice : ∀ r ∈ w.installations, w.hasDevice r.deviceId

/-- The row and the tuples of an object are the same in two states. -/
structure SameAt (o : AuthzObject) (w w' : World) : Prop where
  parentOf : w'.parentOf o = w.parentOf o
  installationsOf : o.type = .device → w'.installationsOf o.id = w.installationsOf o.id
  tuples : w'.tuples.filter (touches o) = w.tuples.filter (touches o)

def slicing : Slicing AuthzObject World where
  same := SameAt
  env w w' := w'.catalog = w.catalog
  inv := Consistent
  same_refl _ _ := ⟨rfl, fun _ => rfl, rfl⟩
  same_trans h h' := ⟨h'.parentOf.trans h.parentOf,
    fun ho => (h'.installationsOf ho).trans (h.installationsOf ho), h'.tuples.trans h.tuples⟩
  env_refl _ := rfl
  env_trans h h' := h'.trans h

/-- The tuples of an object record its parent and, if it has no row and `strict` asks for it,
there are none. -/
structure Fine (strict : Bool) (o : AuthzObject) (w : World) : Prop where
  links : ∀ t, isLink o t → (t ∈ w.tuples ↔
    ∃ p, w.parentOf o = some p ∧ (t = ⟨o, .parent, p⟩ ∨ t = ⟨p, .child, o⟩))
  children : o.type = .device → ∀ c, ⟨o, .child, c⟩ ∈ w.tuples →
    ∃ r ∈ w.installationsOf o.id, c = ⟨.deviceComponent, r.id⟩
  clean : strict → o.type.hasParent → w.parentOf o = none → ∀ t ∈ w.tuples, tupleTarget t ≠ o

theorem touches_of_isLink (h : isLink o t) : touches o t := by
  simp only [isLink, touches, tupleTarget, Bool.or_eq_true, Bool.and_eq_true, beq_iff_eq] at *
  rcases h with ⟨hr, ho⟩ | ⟨hr, ho⟩
  · simp [hr, ho]
  · simp [hr, ho]

theorem touches_tupleTarget (t : TupleKey) : touches (tupleTarget t) t := by
  simp [touches]

theorem SameAt.mem_iff (h : SameAt o w w') (ht : touches o t) : t ∈ w'.tuples ↔ t ∈ w.tuples := by
  have hm := congrArg (t ∈ ·) h.tuples
  simpa only [mem_filter, ht, and_true, eq_iff_iff] using hm

theorem Fine.stable (h : Fine strict o w) (hs : SameAt o w w') : Fine strict o w' where
  links t ht := by
    rw [hs.mem_iff (touches_of_isLink ht), hs.parentOf]
    exact h.links t ht
  children ho c hc := by
    have ht : touches o ⟨o, .child, c⟩ := by simp [touches, ho]
    rw [hs.installationsOf ho]
    exact h.children ho c ((hs.mem_iff ht).1 hc)
  clean hst hp hn t ht he := by
    subst he
    exact h.clean hst hp (hs.parentOf ▸ hn) t ((hs.mem_iff (touches_tupleTarget t)).1 ht) rfl

theorem mem_writeTuples : t ∈ writeTuples tuples deletes writes ↔
    t ∈ tuples ∧ t ∉ deletes ∨ t ∈ writes := by
  simp only [writeTuples, mem_append, mem_filter, decide_eq_true_eq]
  by_cases h : t ∈ writes
  · simp [h]
  · simp [h]

theorem filter_writeTuples (p : TupleKey → Bool) (tuples deletes writes : List TupleKey) :
    (writeTuples tuples deletes writes).filter p =
      (tuples.filter p).filter (fun t => t ∉ deletes ∧ t ∉ writes) ++ writes.filter p := by
  rw [writeTuples, filter_append, filter_comm]

theorem filter_writeTuples_of_not (tuples : List TupleKey)
    (hd : ∀ t ∈ deletes, ¬ p t) (hw : ∀ t ∈ writes, ¬ p t) :
    (writeTuples tuples deletes writes).filter p = tuples.filter p := by
  rw [filter_writeTuples, filter_eq_nil_iff.2 hw, append_nil, filter_eq_self]
  intro t ht
  have hp := (mem_filter.1 ht).2
  simp only [decide_eq_true_eq]
  exact ⟨fun hmem => hd t hmem hp, fun hmem => hw t hmem hp⟩

/-- Every place that the tuple touches is in `F`. -/
def Owned (F : List AuthzObject) (t : TupleKey) : Prop := ∀ o, touches o t → o ∈ F

theorem owned_iff : Owned F t ↔ tupleTarget t ∈ F ∧ (t.object.type = .device → t.object ∈ F) := by
  constructor
  · intro h
    refine ⟨h _ (touches_tupleTarget t), fun ho => h _ ?_⟩
    simp [touches, ho]
  · rintro ⟨ht, ho⟩ o htouch
    simp only [touches, Bool.or_eq_true, Bool.and_eq_true, beq_iff_eq] at htouch
    rcases htouch with rfl | ⟨hdev, rfl⟩
    · exact ht
    · exact ho hdev

theorem Consistent.links (h : Consistent w) (ht : ∀ t ∈ tuples, t ∈ w.tuples ∨
      isAllowed t ∧ (t.relation = .parent ∨ t.relation = .child)) :
    Consistent { w with tuples := tuples } := by
  have hold {o u : AuthzObject} {relation : AuthzRelation}
      (hn : relation ≠ .parent ∧ relation ≠ .child) (hmem : ⟨o, relation, u⟩ ∈ tuples) :
      ⟨o, relation, u⟩ ∈ w.tuples := by
    rcases ht _ hmem with hmem | ⟨_, he | he⟩
    · exact hmem
    · exact (hn.1 he).elim
    · exact (hn.2 he).elim
  exact { h with
    allowed := fun t hmem => by
      rcases ht t hmem with hmem | ⟨ha, _⟩
      · exact h.allowed t hmem
      · exact ha
    oneRole := fun o u ⟨h₁, h₂⟩ => h.oneRole o u
      ⟨hold (by decide) h₁, hold (by decide) h₂⟩
    oneLevel := fun o u ⟨h₁, h₂⟩ => h.oneLevel o u
      ⟨hold (by decide) h₁, hold (by decide) h₂⟩ }

theorem Consistent.write (h : Consistent w)
    (ha : ∀ t ∈ writes, isAllowed t) (hr : ∀ t ∈ writes, t.relation = .parent ∨ t.relation = .child) :
    Consistent { w with tuples := writeTuples w.tuples deletes writes } := by
  apply h.links
  intro t ht
  rcases mem_writeTuples.1 ht with ⟨ht, _⟩ | ht
  · exact .inl ht
  · exact .inr ⟨ha t ht, hr t ht⟩

theorem sameAt_of_tuples (h : tuples.filter (touches o) = w.tuples.filter (touches o)):
    SameAt o w { w with tuples := tuples } :=
  ⟨rfl, fun _ => rfl, h⟩

theorem local_clientWrite (hd : ∀ t ∈ deletes, Owned F t) (hw : ∀ t ∈ writes, Owned F t)
    (hr : ∀ t ∈ writes, t.relation = .parent ∨ t.relation = .child) :
    slicing.Local loose F (clientWrite deletes writes) w := by
  apply Slicing.Local.atomic
  intro t ht hinv
  by_cases ha : writes.all isAllowed
  · simp only [ha, if_true]
    refine ⟨⟨fun o ho => ?_, rfl⟩, ?_, ⟨fun o ho => ?_, ht.2⟩, fun _ => trivial⟩
    · apply sameAt_of_tuples
      exact filter_writeTuples_of_not _ (fun t ht htouch => ho (hd t ht o htouch))
        (fun t ht htouch => ho (hw t ht o htouch))
    · exact hinv.write (all_eq_true.1 ha) hr
    · have hs := ht.1 o ho
      refine ⟨hs.parentOf, hs.installationsOf, ?_⟩
      simp only [filter_writeTuples, hs.tuples]
  · simp only [ha, Bool.false_eq_true, if_false]
    exact ⟨Slicing.Guar.refl t, hinv, ht, fun _ => trivial⟩

theorem local_query (h : loose = false → ∀ t, slicing.Rely F w t → Consistent t → f t = f w):
    slicing.Local loose F (query f) w := by
  apply Slicing.Local.atomic
  intro t ht hinv
  exact ⟨Slicing.Guar.refl t, hinv, ht, fun hl => by rw [h hl t ht hinv]⟩

end Trakrai.Authz
