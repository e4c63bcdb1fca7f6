import Mathlib.Data.List.Sort
import Mathlib.Order.Std

namespace Trakrai.Lib
open List Std

theorem transCmp_on (cmp : β → β → Ordering) [TransCmp cmp] (f : α → β) : TransCmp fun a b => cmp (f a) (f b) where
  eq_swap := OrientedCmp.eq_swap
  isLE_trans := TransCmp.isLE_trans

section
variable {cmp : α → α → Ordering} [TransCmp cmp] {R : α → α → Prop}

theorem isLE_total (a b : α) : (cmp a b).isLE ∨ (cmp b a).isLE := by
  have hswap : cmp b a = (cmp a b).swap := OrientedCmp.eq_swap
  rw [hswap]
  cases cmp a b <;> decide

theorem pairwise_orderedInsert_iff {item : α} {items : List α}
    (hitems : items.Pairwise fun a b => (cmp a b).isLE = true) :
    (items.orderedInsert (fun a b => (cmp a b).isLE = true) item).Pairwise R ↔
      (∀ b ∈ items, if (cmp item b).isLE then R item b else R b item) ∧ items.Pairwise R := by
  induction items with
  | nil => simp
  | cons first items ih =>
    obtain ⟨hfirst, hitems⟩ := pairwise_cons.1 hitems
    by_cases hle : (cmp item first).isLE = true
    · have hall : ∀ b ∈ first :: items, (cmp item b).isLE = true := by
        intro b hb
        rcases mem_cons.1 hb with rfl | hb
        · exact hle
        · exact TransCmp.isLE_trans hle (hfirst b hb)
      rw [orderedInsert_cons, if_pos hle, pairwise_cons]
      apply and_congr_left'
      apply forall₂_congr
      intro b hb
      rw [if_pos (hall b hb)]
    · rw [orderedInsert_cons, if_neg hle, pairwise_cons, ih hitems, forall_mem_cons, if_neg hle,
        pairwise_cons]
      have hmem : (∀ b ∈ items.orderedInsert (fun a b => (cmp a b).isLE = true) item, R first b) ↔
          R first item ∧ ∀ b ∈ items, R first b := by
        simp only [mem_orderedInsert, forall_eq_or_imp]
      rw [hmem]
      tauto

theorem pairwise_insertionSort_iff (items : List α) :
    (items.insertionSort fun a b => (cmp a b).isLE = true).Pairwise R ↔
      items.Pairwise fun a b => if (cmp a b).isLE then R a b else R b a := by
  have htotal : Std.Total fun a b => (cmp a b).isLE = true := ⟨isLE_total⟩
  have htrans : IsTrans α fun a b => (cmp a b).isLE = true := ⟨fun _ _ _ => TransCmp.isLE_trans⟩
  induction items with
  | nil => simp
  | cons item items ih =>
    rw [insertionSort_cons, pairwise_orderedInsert_iff (pairwise_insertionSort _ items), pairwise_cons]
    simp only [mem_insertionSort]
    exact and_congr_right' ih

end

theorem mem_take_iff {before : α → α → Prop} [DecidableRel before] {items : List α} {item : α} {n : Nat}
    (hasymm : ∀ a b, before a b → ¬ before b a) (h : items.Pairwise before) :
    item ∈ items.take n ↔ item ∈ items ∧ (items.filter (before · item)).length < n := by
  induction items generalizing n with
  | nil => simp
  | cons first items ih =>
    obtain ⟨hfirst, hitems⟩ := pairwise_cons.1 h
    cases n with
    | zero => simp
    | succ n =>
      rw [take_succ_cons, mem_cons, mem_cons, ih hitems]
      by_cases hitem : item = first
      · subst item
        have hnone : (first :: items).filter (before · first) = [] := by
          rw [filter_eq_nil_iff]
          intro other hother
          rcases mem_cons.1 hother with rfl | hother
          · simpa using fun hself => hasymm _ _ hself hself
          · simpa using hasymm _ _ (hfirst other hother)
        rw [hnone]
        simp
      · simp only [hitem, false_or]
        apply and_congr_right
        intro hmem
        rw [filter_cons_of_pos (by simpa using hfirst item hmem), length_cons, Nat.succ_lt_succ_iff]

end Trakrai.Lib
