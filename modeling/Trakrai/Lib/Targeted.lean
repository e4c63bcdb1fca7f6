import Mathlib.Data.List.Basic

namespace Trakrai.Lib
open List

section
variable {ρ ω : Type} (targets : ω → ρ → Bool) (act : List ρ → ω → ρ → ρ)

def ordered (rows : List ρ) (order : ω) : List ρ :=
  rows.map fun row => if targets order row then act rows order row else row

def settled (rows : List ρ) (orders : List ω) (row : ρ) : ρ :=
  (orders.find? (targets · row)).elim row (act rows · row)

def Apart (rows : List ρ) (orders : List ω) : Prop :=
  orders.Pairwise fun order order' => ∀ row ∈ rows, targets order row → ¬ targets order' row

structure Targeted : Prop where
  keep : ∀ rows order row order', targets order row → targets order' (act rows order row) = targets order' row
  filter : ∀ rows rows' order row, rows.filter (targets order) = rows'.filter (targets order) →
    act rows order row = act rows' order row

variable {targets act}

theorem Apart.perm (h : Apart targets rows orders) (hperm : orders.Perm orders'): Apart targets rows orders' := by
  refine (hperm.pairwise_iff ?_).1 h
  intro order order' hapart row hm htargets htargets'
  exact hapart row hm htargets' htargets

theorem settled_eq (hm : ∃ order ∈ orders, targets order row)
    (hact : ∀ order ∈ orders, targets order row → act rows order row = row') :
    settled targets act rows orders row = row' := by
  cases hfind : orders.find? (targets · row) with
  | none =>
    obtain ⟨order, hm, htargets⟩ := hm
    exact absurd htargets (List.find?_eq_none.1 hfind order hm)
  | some order =>
    rw [settled, hfind]
    exact hact order (List.mem_of_find?_eq_some hfind) (by simpa using List.find?_some hfind)

theorem settled_of_not (h : ∀ order ∈ orders, ¬ targets order row) :
    settled targets act rows orders row = row := by
  rw [settled, List.find?_eq_none.2 h]
  rfl

theorem Targeted.targets_ordered (ht : Targeted targets act) :
    targets order' (if targets order row then act rows order row else row) = targets order' row := by
  split
  · exact ht.keep _ _ _ _ ‹_›
  · rfl

theorem Targeted.apart_ordered (ht : Targeted targets act)
    (h : Apart targets rows orders) (order : ω) :
    Apart targets (ordered targets act rows order) orders := by
  refine List.Pairwise.imp ?_ h
  intro first second hapart row' hm
  obtain ⟨row, hrow, rfl⟩ := mem_map.1 hm
  rw [ht.targets_ordered, ht.targets_ordered]
  exact hapart row hrow

theorem Targeted.filter_ordered (ht : Targeted targets act)
    (h : ∀ row ∈ rows, targets order row → ¬ targets order' row) :
    (ordered targets act rows order).filter (targets order') = rows.filter (targets order') := by
  rw [ordered, filter_map]
  have hsame : (targets order' ∘ fun row => if targets order row then act rows order row else row) =
      targets order' := funext fun _ => ht.targets_ordered
  rw [hsame]
  refine (map_congr_left fun row hm => ?_).trans (map_id _)
  obtain ⟨hrow, htargets⟩ := mem_filter.1 hm
  exact if_neg fun hother => h row hrow hother htargets

theorem Targeted.foldl_ordered (ht : Targeted targets act) (h : Apart targets rows orders) :
    orders.foldl (ordered targets act) rows = rows.map (settled targets act rows orders) := by
  induction orders generalizing rows with
  | nil => exact (map_id rows).symm
  | cons order orders ih =>
    obtain ⟨hfirst, hrest⟩ := pairwise_cons.1 h
    have hrest' : Apart targets rows orders := hrest
    rw [foldl_cons, ih (ht.apart_ordered hrest' order), ordered, map_map]
    refine map_congr_left fun row hrow => ?_
    rw [Function.comp_apply]
    cases htargets : targets order row with
    | true =>
      have hothers : ∀ order' ∈ orders, ¬ targets order' (act rows order row) := by
        intro order' hm
        rw [ht.keep _ _ _ _ htargets]
        exact hfirst order' hm row hrow htargets
      rw [if_pos rfl, settled_of_not hothers, settled, List.find?_cons, htargets]
      rfl
    | false =>
      rw [if_neg Bool.false_ne_true, settled, settled, List.find?_cons, htargets]
      cases hfind : orders.find? (targets · row) with
      | none => rfl
      | some order' =>
        have hm : order' ∈ orders := List.mem_of_find?_eq_some hfind
        exact ht.filter _ _ _ _ (ht.filter_ordered (hfirst order' hm))

end

end Trakrai.Lib
