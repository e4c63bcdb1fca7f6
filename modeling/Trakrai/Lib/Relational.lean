import Mathlib.Data.Finset.Card
import Mathlib.Data.List.Sort

namespace Trakrai.Lib
open List

section
variable {α β κ : Type}

/-- The rows that a left join pairs one row with; `none` stands for the nulls. -/
def leftJoin (on : α → β → Bool) (others : List β) (row : α) : List (Option β) :=
  match others.filter (on row) with
  | [] => [none]
  | joined => joined.map some

def innerJoin (on : α → β → Bool) (rows : List α) (others : List β) : List (α × β) :=
  rows.flatMap fun row => (others.filter (on row)).map fun other => (row, other)

/-- `count(distinct …)`: nulls are not counted. -/
def countDistinct [DecidableEq κ] (values : List (Option κ)) : Nat :=
  (values.filterMap id).toFinset.card

/-- `ORDER BY` one column; rows that it does not separate stay in the order of their table. -/
def orderBy (le : κ → κ → Bool) (column : α → κ) (rows : List α) : List α :=
  rows.insertionSort fun row row' => le (column row) (column row')

/-- `LIMIT` and `OFFSET` of a page, counted from one. -/
def pageOf (page perPage : Nat) (rows : List α) : List α :=
  (rows.drop ((page - 1) * perPage)).take perPage

theorem some_mem_leftJoin :
    some other ∈ leftJoin on others row ↔ other ∈ others ∧ on row other := by
  rw [← mem_filter]
  unfold leftJoin
  split
  · rename_i h
    simp [h]
  · simp

theorem mem_innerJoin :
    (row, other) ∈ innerJoin on rows others ↔ row ∈ rows ∧ other ∈ others ∧ on row other := by
  simp only [innerJoin, mem_flatMap, mem_map, mem_filter, Prod.mk.injEq]
  constructor
  · rintro ⟨row', hrow, other', hother, rfl, rfl⟩
    exact ⟨hrow, hother⟩
  · rintro ⟨hrow, hother⟩
    exact ⟨row, hrow, other, hother, rfl, rfl⟩

theorem exists_mem_leftJoin (on : α → β → Bool) (others : List β) (row : α) :
    ∃ other, other ∈ leftJoin on others row := by
  unfold leftJoin
  split
  · exact ⟨none, mem_singleton_self _⟩
  · rename_i h
    obtain ⟨other, hother⟩ := exists_mem_of_ne_nil _ h
    exact ⟨some other, mem_map_of_mem hother⟩

theorem innerJoin_filter (on : α → β → Bool) (rows : List α) (others : List β) (p : α → Bool)
    (q : β → Bool) : innerJoin on (rows.filter p) (others.filter q) =
      (innerJoin on rows others).filter fun row => p row.1 && q row.2 := by
  have hrow (row : α) : (((others.filter (on row)).map fun other => (row, other)).filter
      fun row => p row.1 && q row.2) =
        if p row then ((others.filter q).filter (on row)).map fun other => (row, other) else [] := by
    rw [filter_map, filter_comm]
    cases hp : p row with
    | true => simp [Function.comp_def, hp]
    | false => simp [Function.comp_def, hp]
  simp only [innerJoin, filter_flatMap, hrow]
  induction rows with
  | nil => rfl
  | cons row rows ih =>
    rw [flatMap_cons, ← ih]
    cases hp : p row with
    | true => rw [filter_cons_of_pos hp, flatMap_cons, if_pos rfl]
    | false => rw [filter_cons_of_neg (by simp [hp]), if_neg (by simp), nil_append]

theorem countP_leftJoin (on : α → β → Bool) (others : List β) (row : α) (p : β → Bool) :
    (leftJoin on others row).countP (·.any p) = others.countP fun other => on row other && p other := by
  have hfilter : others.countP (fun other => on row other && p other) =
      (others.filter (on row)).countP p := by
    rw [countP_filter]
    simp only [Bool.and_comm]
  rw [hfilter]
  unfold leftJoin
  split
  · rename_i h
    simp [h]
  · rw [countP_map]
    rfl

theorem countDistinct_congr [DecidableEq κ] {values values' : List (Option κ)}
    (h : ∀ k, some k ∈ values ↔ some k ∈ values') : countDistinct values = countDistinct values' := by
  unfold countDistinct
  congr 1
  ext k
  simpa using h k

theorem countDistinct_lt [DecidableEq κ] {values values' : List (Option κ)} {k : κ}
    (h : ∀ k, some k ∈ values → some k ∈ values') (hk : some k ∈ values') (hn : some k ∉ values) :
    countDistinct values < countDistinct values' := by
  apply Finset.card_lt_card
  rw [Finset.ssubset_iff_of_subset]
  · exact ⟨k, by simpa using hk, by simpa using hn⟩
  · intro k'
    simpa using h k'

theorem mem_orderBy : row ∈ orderBy le column rows ↔ row ∈ rows :=
  mem_insertionSort _

theorem length_orderBy (le : κ → κ → Bool) (column : α → κ) (rows : List α) :
    (orderBy le column rows).length = rows.length :=
  length_insertionSort _ _

theorem filter_filter_of_imp {rows : List α} {p q : α → Bool} (h : ∀ row ∈ rows, p row → q row) :
    (rows.filter q).filter p = rows.filter p := by
  rw [filter_filter]
  apply filter_congr
  intro row hrow
  cases hp : p row with
  | true => simp [h row hrow hp]
  | false => rfl

theorem countP_filter_of_imp {rows : List α} {p q : α → Bool} (h : ∀ row ∈ rows, p row → q row) :
    (rows.filter q).countP p = rows.countP p := by
  rw [countP_eq_length_filter, filter_filter_of_imp h, countP_eq_length_filter]

theorem find?_filter_of_imp {rows : List α} {p q : α → Bool} (h : ∀ row ∈ rows, p row → q row) :
    (rows.filter q).find? p = rows.find? p := by
  rw [← List.head?_filter, ← List.head?_filter, filter_filter_of_imp h]

end

end Trakrai.Lib
