import Mathlib.Logic.Relation
import Mathlib.Order.Bounds.Basic
import Mathlib.Order.WellFoundedSet

namespace Trakrai.Lib

inductive Walk (next : ι → ι → Prop) : Nat → ι → ι → Prop
  | nil : Walk next 0 n n
  | snoc : Walk next k root m → next m n → Walk next (k + 1) root n

/-- The node stands in the level of that number. -/
def At (levels : List (List ι)) (i : Nat) (n : ι) : Prop := ∃ level, levels[i]? = some level ∧ n ∈ level

/-- Levels in which each node stands after all the nodes that lead to it, and right after one of them. -/
structure Staged (next : ι → ι → Prop) (levels : List (List ι)) : Prop where
  after : ∀ {i m n}, At levels i n → next m n → ∃ j < i, At levels j m
  close : ∀ {i n}, At levels (i + 1) n → ∃ m, next m n ∧ At levels i m

section
variable {next : ι → ι → Prop} {levels : List (List ι)} {level : List ι} {i j : Nat} {m n : ι}

theorem at_append : At (levels ++ [level]) i n ↔ At levels i n ∨ i = levels.length ∧ n ∈ level := by
  rw [At, At]
  rcases Nat.lt_trichotomy i levels.length with hi | rfl | hi
  · rw [List.getElem?_append_left hi]
    simp [Nat.ne_of_lt hi]
  · simp
  · have hnone : (levels ++ [level])[i]? = none := by
      rw [List.getElem?_eq_none_iff, List.length_append, List.length_singleton]
      exact hi
    have hnone' : levels[i]? = none := List.getElem?_eq_none_iff.2 (Nat.le_of_lt hi)
    simp [hnone, hnone', Nat.ne_of_gt hi]

theorem At.lt (h : At levels i n) : i < levels.length := by
  obtain ⟨level, hlevel, -⟩ := h
  exact (List.getElem?_eq_some_iff.1 hlevel).1

theorem mem_flatten_iff_at : n ∈ levels.flatten ↔ ∃ i, At levels i n := by
  rw [List.mem_flatten]
  constructor
  · rintro ⟨level, hlevel, hn⟩
    obtain ⟨i, hi⟩ := List.mem_iff_getElem?.1 hlevel
    exact ⟨i, level, hi, hn⟩
  · rintro ⟨i, level, hi, hn⟩
    exact ⟨level, List.mem_of_getElem? hi, hn⟩

theorem staged_nil : Staged next [] where
  after h := absurd h.lt (Nat.not_lt_zero _)
  close h := absurd h.lt (Nat.not_lt_zero _)

theorem Staged.append (h : Staged next levels) (hafter : ∀ n ∈ level, ∀ m, next m n → m ∈ levels.flatten)
    (hclose : ∀ n ∈ level, ∀ last, levels.getLast? = some last → ∃ m ∈ last, next m n) :
    Staged next (levels ++ [level]) where
  after {i m n} hat hnext := by
    rcases at_append.1 hat with hn | ⟨rfl, hn⟩
    · obtain ⟨j, hj, hm⟩ := h.after hn hnext
      exact ⟨j, hj, at_append.2 (.inl hm)⟩
    · obtain ⟨j, hm⟩ := mem_flatten_iff_at.1 (hafter n hn m hnext)
      exact ⟨j, hm.lt, at_append.2 (.inl hm)⟩
  close {i n} hat := by
    rcases at_append.1 hat with hn | ⟨hi, hn⟩
    · obtain ⟨m, hnext, hm⟩ := h.close hn
      exact ⟨m, hnext, at_append.2 (.inl hm)⟩
    · have hlt : i < levels.length := by omega
      have hlast : levels.getLast? = some levels[i] := by
        rw [List.getLast?_eq_getElem?, ← hi, Nat.add_sub_cancel, List.getElem?_eq_getElem hlt]
      obtain ⟨m, hm, hnext⟩ := hclose n hn _ hlast
      exact ⟨m, hnext, at_append.2 (.inl ⟨_, List.getElem?_eq_getElem hlt, hm⟩)⟩

theorem Walk.eq_or_next (h : Walk next k root n) : root = n ∨ ∃ m, next root m := by
  induction h with
  | nil => exact .inl rfl
  | snoc _ hnext ih =>
    rcases ih with rfl | hfirst
    · exact .inr ⟨_, hnext⟩
    · exact .inr hfirst

theorem Staged.walk_le (h : Staged next levels) (hwalk : Walk next k root n) (hn : At levels i n) : k ≤ i := by
  induction hwalk generalizing i with
  | nil => exact Nat.zero_le i
  | snoc _ hnext ih =>
    obtain ⟨j, hj, hm⟩ := h.after hn hnext
    have hle := ih hm
    omega

theorem Staged.exists_walk (h : Staged next levels) (hn : At levels i n) :
    ∃ root, (∀ m, ¬ next m root) ∧ Walk next i root n := by
  induction i generalizing n with
  | zero =>
    refine ⟨n, fun m hnext => ?_, .nil⟩
    obtain ⟨j, hj, -⟩ := h.after hn hnext
    exact Nat.not_lt_zero j hj
  | succ i ih =>
    obtain ⟨m, hnext, hm⟩ := h.close hn
    obtain ⟨root, hroot, hwalk⟩ := ih hm
    exact ⟨root, hroot, .snoc hwalk hnext⟩

theorem Staged.isGreatest (h : Staged next levels) (hn : At levels i n) :
    IsGreatest {k | ∃ root, (∀ m, ¬ next m root) ∧ Walk next k root n} i := by
  refine ⟨h.exists_walk hn, ?_⟩
  rintro k ⟨root, -, hwalk⟩
  exact h.walk_le hwalk hn

theorem Staged.at_unique (h : Staged next levels) (hi : At levels i n) (hj : At levels j n) : i = j :=
  (h.isGreatest hi).unique (h.isGreatest hj)

theorem Staged.lt (h : Staged next levels) (hnext : next m n) (hm : At levels i m) (hn : At levels j n) : i < j := by
  obtain ⟨k, hk, hm'⟩ := h.after hn hnext
  rwa [h.at_unique hm hm']

theorem Staged.lt_of_transGen (h : Staged next levels) (hpath : Relation.TransGen next m n) (hn : At levels j n) :
    ∃ i < j, At levels i m := by
  induction hpath generalizing j with
  | single hnext => exact h.after hn hnext
  | tail _ hnext ih =>
    obtain ⟨k, hk, hmiddle⟩ := h.after hn hnext
    obtain ⟨i, hi, hm⟩ := ih hmiddle
    exact ⟨i, hi.trans hk, hm⟩

theorem Staged.acyclic (h : Staged next levels) (hn : At levels i n) : ¬ Relation.TransGen next n n := by
  intro hpath
  obtain ⟨j, hj, hn'⟩ := h.lt_of_transGen hpath hn
  exact absurd (h.at_unique hn hn') (Nat.ne_of_gt hj)

theorem exists_cycle (nodes : Set ι) (hfinite : nodes.Finite) (hne : nodes.Nonempty)
    (h : ∀ n ∈ nodes, ∃ m ∈ nodes, next m n) : ∃ n, Relation.TransGen next n n := by
  by_contra hacyclic
  have hirrefl : Std.Irrefl (Relation.TransGen next) := ⟨fun n hn => hacyclic ⟨n, hn⟩⟩
  have : IsStrictOrder ι (Relation.TransGen next) := { hirrefl with trans := fun _ _ _ => Relation.TransGen.trans }
  have hfounded : nodes.WellFoundedOn (Relation.TransGen next) := hfinite.wellFoundedOn
  obtain ⟨n, hn, hmin⟩ := (Set.wellFoundedOn_iff.1 hfounded).has_min nodes hne
  obtain ⟨m, hm, hnext⟩ := h n hn
  exact hmin m hm ⟨.single hnext, hm, hn⟩

end

end Trakrai.Lib
