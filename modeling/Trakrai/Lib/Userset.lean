import Mathlib.Order.FixedPoints

namespace Trakrai.Lib
open Option

/-- A rewrite: how the users of a relation on an object are computed. -/
inductive Userset (R : Type) where
  | this
  | computed (relation : R)
  | tupleToUserset (tupleset relation : R)
  | union (children : List (Userset R))

/-- `user` has `relation` to `object`. -/
structure Tuple (O R : Type) where
  object : O
  relation : R
  user : O
deriving DecidableEq

section
variable {O R : Type} {store : Tuple O R → Prop} {rules : O → R → Option (Userset R)}
variable {X Y : O → R → O → Prop} {o s : O} {r : R}

mutual
/-- The users that a rewrite of `r` gives `o` when `X` holds the users of all relations. -/
def Userset.eval (store : Tuple O R → Prop) (X : O → R → O → Prop) (o : O) (r : R) (s : O) :
    Userset R → Prop
  | .this => store ⟨o, r, s⟩
  | .computed r' => X o r' s
  | .tupleToUserset tupleset r' => ∃ o', store ⟨o, tupleset, o'⟩ ∧ X o' r' s
  | .union children => Userset.evalAny store X o r s children

def Userset.evalAny (store : Tuple O R → Prop) (X : O → R → O → Prop) (o : O) (r : R) (s : O) :
    List (Userset R) → Prop
  | [] => False
  | u :: us => Userset.eval store X o r s u ∨ Userset.evalAny store X o r s us
end

mutual
theorem Userset.eval_mono (h : ∀ o r s, X o r s → Y o r s) :
    ∀ u : Userset R, u.eval store X o r s → u.eval store Y o r s
  | .this => id
  | .computed _ => h _ _ _
  | .tupleToUserset _ _ => fun ⟨o', hs, hx⟩ => ⟨o', hs, h _ _ _ hx⟩
  | .union us => Userset.evalAny_mono h us

theorem Userset.evalAny_mono (h : ∀ o r s, X o r s → Y o r s) :
    ∀ us : List (Userset R), evalAny store X o r s us → evalAny store Y o r s us
  | [] => id
  | u :: us => Or.imp (Userset.eval_mono h u) (Userset.evalAny_mono h us)
end

mutual
theorem Userset.not_eval_empty (hs : ∀ t, ¬ store t) (hx : ∀ o r s, ¬ X o r s) :
    ∀ u : Userset R, ¬ u.eval store X o r s
  | .this => hs _
  | .computed _ => hx _ _ _
  | .tupleToUserset _ _ => fun ⟨_, _, h⟩ => hx _ _ _ h
  | .union us => Userset.not_evalAny_empty hs hx us

theorem Userset.not_evalAny_empty (hs : ∀ t, ¬ store t) (hx : ∀ o r s, ¬ X o r s) :
    ∀ us : List (Userset R), ¬ evalAny store X o r s us
  | [] => id
  | u :: us => fun h => h.elim (Userset.not_eval_empty hs hx u) (Userset.not_evalAny_empty hs hx us)
end

/-- The users that the rules give a relation; a relation without a rule has none. -/
def expand (rules : O → R → Option (Userset R)) (store : Tuple O R → Prop)
    (X : O → R → O → Prop) (o : O) (r : R) (s : O) : Prop :=
  (rules o r).elim False fun u => u.eval store X o r s

theorem expand_mono (h : ∀ o r s, X o r s → Y o r s) (he : expand rules store X o r s) :
    expand rules store Y o r s := by
  unfold expand at *
  cases hu : rules o r with
  | none => simp only [hu, elim_none] at he
  | some u =>
    simp only [hu, elim_some] at he ⊢
    exact u.eval_mono h he

/-- The least interpretation of the relations that is closed under their rewrites. -/
def Related (rules : O → R → Option (Userset R)) (store : Tuple O R → Prop) : O → R → O → Prop :=
  OrderHom.lfp ⟨expand rules store, fun _ _ h _ _ _ => expand_mono h⟩

theorem related_iff : Related rules store o r s ↔
    expand rules store (Related rules store) o r s := by
  have h : expand rules store (Related rules store) = Related rules store :=
    OrderHom.map_lfp ⟨expand rules store, fun _ _ h _ _ _ => expand_mono h⟩
  exact iff_of_eq (congrFun (congrFun (congrFun h.symm o) r) s)

theorem Related.induction {P : O → R → O → Prop}
    (step : ∀ o r s, expand rules store (fun o r s => Related rules store o r s ∧ P o r s) o r s →
      P o r s)
    (h : Related rules store o r s) : P o r s := by
  have hle : Related rules store ≤ fun o r s => Related rules store o r s ∧ P o r s := by
    apply OrderHom.lfp_le
    intro o r s he
    exact ⟨related_iff.2 (expand_mono (fun _ _ _ hx => hx.1) he), step o r s he⟩
  exact (hle o r s h).2

theorem not_related_of_empty (hs : ∀ t, ¬ store t) : ¬ Related rules store o r s := by
  refine Related.induction (P := fun _ _ _ => False) fun o r s he => ?_
  unfold expand at he
  cases hu : rules o r with
  | none => simp only [hu, elim_none] at he
  | some u =>
    simp only [hu, elim_some] at he
    exact u.not_eval_empty hs (fun _ _ _ hx => hx.2) he

mutual
theorem Userset.exists_tuple_of_eval (hP : ∀ o r s, P o r s → ∃ t, store t ∧ t.object = o):
    ∀ u : Userset R, u.eval store P o r s → ∃ t, store t ∧ t.object = o
  | .this => fun h => ⟨_, h, rfl⟩
  | .computed _ => hP _ _ _
  | .tupleToUserset _ _ => fun ⟨_, h, _⟩ => ⟨_, h, rfl⟩
  | .union us => Userset.exists_tuple_of_evalAny hP us

theorem Userset.exists_tuple_of_evalAny (hP : ∀ o r s, P o r s → ∃ t, store t ∧ t.object = o):
    ∀ us : List (Userset R), evalAny store P o r s us → ∃ t, store t ∧ t.object = o
  | [] => False.elim
  | u :: us => fun h => h.elim (Userset.exists_tuple_of_eval hP u)
    (Userset.exists_tuple_of_evalAny hP us)
end

theorem Related.exists_tuple (h : Related rules store o r s) : ∃ t, store t ∧ t.object = o := by
  refine Related.induction (P := fun o _ _ => ∃ t, store t ∧ t.object = o) ?_ h
  intro o r s he
  unfold expand at he
  cases hu : rules o r with
  | none => simp only [hu, elim_none] at he
  | some u =>
    simp only [hu, elim_some] at he
    exact u.exists_tuple_of_eval (fun _ _ _ hx => hx.2) he

mutual
/-- The relations that a rewrite follows, each with the relation it asks for at the other end. -/
def Userset.arrows : Userset R → List (R × R)
  | .this => []
  | .computed _ => []
  | .tupleToUserset tupleset relation => [(tupleset, relation)]
  | .union children => Userset.arrowsAny children

def Userset.arrowsAny : List (Userset R) → List (R × R)
  | [] => []
  | u :: us => u.arrows ++ Userset.arrowsAny us
end

section
variable {store' : Tuple O R → Prop}

mutual
theorem Userset.eval_of_more (hX : ∀ r, X o r s → Y o r s)
    (hthis : store' ⟨o, r, s⟩ → store ⟨o, r, s⟩) :
    ∀ u : Userset R, (∀ a ∈ u.arrows, ∀ o', store' ⟨o, a.1, o'⟩ → X o' a.2 s →
        store ⟨o, a.1, o'⟩ ∧ Y o' a.2 s) → u.eval store' X o r s → u.eval store Y o r s
  | .this => fun _ => hthis
  | .computed r' => fun _ => hX r'
  | .tupleToUserset tupleset relation => fun h ⟨o', hs, hx⟩ =>
    ⟨o', h (tupleset, relation) (by simp [Userset.arrows]) o' hs hx⟩
  | .union us => fun h => Userset.evalAny_of_more hX hthis us h

theorem Userset.evalAny_of_more (hX : ∀ r, X o r s → Y o r s)
    (hthis : store' ⟨o, r, s⟩ → store ⟨o, r, s⟩) :
    ∀ us : List (Userset R), (∀ a ∈ Userset.arrowsAny us, ∀ o', store' ⟨o, a.1, o'⟩ →
        X o' a.2 s → store ⟨o, a.1, o'⟩ ∧ Y o' a.2 s) →
      evalAny store' X o r s us → evalAny store Y o r s us
  | [] => fun _ => id
  | u :: us => fun h => Or.imp
    (Userset.eval_of_more hX hthis u fun a ha => h a (List.mem_append_left _ ha))
    (Userset.evalAny_of_more hX hthis us fun a ha => h a (List.mem_append_right _ ha))
end

theorem Related.of_more (hthis : ∀ o r, store' ⟨o, r, s⟩ → store ⟨o, r, s⟩)
    (harrow : ∀ o r u, rules o r = some u → ∀ a ∈ u.arrows, ∀ o', store' ⟨o, a.1, o'⟩ →
      store ⟨o, a.1, o'⟩ ∨ ¬ Related rules store o' a.2 s)
    (h : Related rules store' o r s) : Related rules store o r s := by
  refine Related.induction (P := fun o r s' => s' = s → Related rules store o r s) ?_ h rfl
  rintro o r s' he rfl
  rw [related_iff]
  unfold expand at he ⊢
  cases hu : rules o r with
  | none => simp only [hu, elim_none] at he
  | some u =>
    simp only [hu, elim_some] at he ⊢
    refine u.eval_of_more (fun _ hx => hx.2 rfl) (hthis o r) ?_ he
    intro a ha o' hs hx
    have hr := hx.2 rfl
    rcases harrow o r u hu a ha o' hs with hs | hn
    · exact ⟨hs, hr⟩
    · exact (hn hr).elim

theorem Related.mono_store (hsub : ∀ t, store t → store' t) (h : Related rules store o r s) :
    Related rules store' o r s := by
  refine Related.induction (P := fun o r s => Related rules store' o r s) ?_ h
  intro o r s he
  rw [related_iff]
  unfold expand at he ⊢
  cases hu : rules o r with
  | none => simp only [hu, elim_none] at he
  | some u =>
    simp only [hu, elim_some] at he ⊢
    refine u.eval_of_more (fun _ hx => hx.2) (hsub _) ?_ he
    intro a _ o' hs hx
    exact ⟨hsub _ hs, hx.2⟩

end

end

section
variable {O R : Type} [DecidableEq O] [DecidableEq R] {rules : O → R → Option (Userset R)}
variable {tuples : List (Tuple O R)} {o s : O} {r : R}

mutual
def Userset.test (tuples : List (Tuple O R)) (X : O → R → Bool) (o : O) (r : R) (s : O) :
    Userset R → Bool
  | .this => tuples.contains ⟨o, r, s⟩
  | .computed r' => X o r'
  | .tupleToUserset tupleset r' =>
    tuples.any fun t => t.object == o && t.relation == tupleset && X t.user r'
  | .union children => Userset.testAny tuples X o r s children

def Userset.testAny (tuples : List (Tuple O R)) (X : O → R → Bool) (o : O) (r : R) (s : O) :
    List (Userset R) → Bool
  | [] => false
  | u :: us => Userset.test tuples X o r s u || Userset.testAny tuples X o r s us
end

def evaluate (rules : O → R → Option (Userset R)) (tuples : List (Tuple O R)) (s : O) :
    Nat → O → R → Bool
  | 0, _, _ => false
  | depth + 1, o, r => (rules o r).any fun u => u.test tuples (evaluate rules tuples s depth) o r s

section
variable {X : O → R → Bool} {Y : O → R → O → Prop}

theorem any_tuple_iff :
    (tuples.any fun t => t.object == o && t.relation == tupleset && X t.user r') = true ↔
      ∃ o', ⟨o, tupleset, o'⟩ ∈ tuples ∧ X o' r' = true := by
  simp only [List.any_eq_true, Bool.and_eq_true, beq_iff_eq]
  constructor
  · rintro ⟨⟨object, relation, user⟩, ht, ⟨rfl, rfl⟩, hx⟩
    exact ⟨user, ht, hx⟩
  · rintro ⟨o', ht, hx⟩
    exact ⟨_, ht, ⟨rfl, rfl⟩, hx⟩

mutual
theorem Userset.eval_of_test (h : ∀ o r, X o r = true → Y o r s) :
    ∀ u : Userset R, u.test tuples X o r s = true → u.eval (· ∈ tuples) Y o r s
  | .this => fun ht => List.contains_iff_mem.1 ht
  | .computed _ => h _ _
  | .tupleToUserset _ _ => fun ht =>
    let ⟨o', hs, hx⟩ := any_tuple_iff.1 ht
    ⟨o', hs, h _ _ hx⟩
  | .union us => Userset.evalAny_of_testAny h us

theorem Userset.evalAny_of_testAny (h : ∀ o r, X o r = true → Y o r s) :
    ∀ us : List (Userset R), testAny tuples X o r s us = true → evalAny (· ∈ tuples) Y o r s us
  | [] => nofun
  | u :: us => fun ht => (Bool.or_eq_true_iff.1 ht).imp (Userset.eval_of_test h u)
    (Userset.evalAny_of_testAny h us)
end

mutual
def Userset.All (store : Tuple O R → Prop) (P : O → R → Prop) (o : O) : Userset R → Prop
  | .this => True
  | .computed r' => P o r'
  | .tupleToUserset tupleset r' => ∀ o', store ⟨o, tupleset, o'⟩ → P o' r'
  | .union children => Userset.AllAny store P o children

def Userset.AllAny (store : Tuple O R → Prop) (P : O → R → Prop) (o : O) : List (Userset R) → Prop
  | [] => True
  | u :: us => Userset.All store P o u ∧ Userset.AllAny store P o us
end

mutual
theorem Userset.test_of_eval {P : O → R → Prop} (h : ∀ o r, P o r → Y o r s → X o r = true) :
    ∀ u : Userset R, u.All (· ∈ tuples) P o → u.eval (· ∈ tuples) Y o r s →
      u.test tuples X o r s = true
  | .this => fun _ hs => List.contains_iff_mem.2 hs
  | .computed _ => h _ _
  | .tupleToUserset _ _ => fun hp ⟨o', hs, hy⟩ => any_tuple_iff.2 ⟨o', hs, h _ _ (hp o' hs) hy⟩
  | .union us => Userset.testAny_of_evalAny h us

theorem Userset.testAny_of_evalAny (h : ∀ o r, P o r → Y o r s → X o r = true):
    ∀ us : List (Userset R), AllAny (· ∈ tuples) P o us → evalAny (· ∈ tuples) Y o r s us →
      testAny tuples X o r s us = true
  | [] => fun _ => False.elim
  | u :: us => fun ⟨hp, hps⟩ he => Bool.or_eq_true_iff.2
    (he.imp (Userset.test_of_eval h u hp) (Userset.testAny_of_evalAny h us hps))
end

end

theorem related_of_evaluate :
    ∀ {o r}, evaluate rules tuples s depth o r = true → Related rules (· ∈ tuples) o r s := by
  induction depth with
  | zero => nofun
  | succ depth ih =>
    intro o r h
    obtain ⟨u, hu, ht⟩ := (any_eq_true _ _).1 h
    rw [related_iff, expand, hu]
    exact u.eval_of_test (fun _ _ => ih) ht

theorem evaluate_of_related (rank : O → R → Nat) (hrank : ∀ o r u, rules o r = some u →
      u.All (· ∈ tuples) (fun o' r' => rank o' r' < rank o r) o)
    (h : Related rules (· ∈ tuples) o r s) :
    ∀ depth, rank o r < depth → evaluate rules tuples s depth o r = true := by
  refine Related.induction (P := fun o r s' => s' = s → ∀ depth, rank o r < depth →
    evaluate rules tuples s depth o r = true) ?_ h rfl
  rintro o r s' he rfl depth hdepth
  obtain ⟨depth, rfl⟩ := Nat.exists_eq_succ_of_ne_zero (Nat.ne_zero_of_lt hdepth)
  unfold expand at he
  cases hu : rules o r with
  | none => simp only [hu, elim_none] at he
  | some u =>
    simp only [hu, elim_some] at he
    rw [evaluate, hu, any_some]
    refine u.test_of_eval ?_ (hrank o r u hu) he
    intro o' r' hlt hy
    exact hy.2 rfl depth (Nat.lt_of_lt_of_le hlt (Nat.le_of_lt_succ hdepth))

theorem evaluate_iff (rank : O → R → Nat) (hrank : ∀ o r u, rules o r = some u →
      u.All (· ∈ tuples) (fun o' r' => rank o' r' < rank o r) o) (hdepth : rank o r < depth) :
    evaluate rules tuples s depth o r = true ↔ Related rules (· ∈ tuples) o r s :=
  ⟨related_of_evaluate, fun h => evaluate_of_related rank hrank h depth hdepth⟩

end

end Trakrai.Lib
