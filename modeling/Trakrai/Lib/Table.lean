import Mathlib.Data.List.Basic
import Mathlib.Data.List.Nodup

namespace Trakrai.Lib
open List

theorem flatMap_filter_of_nil {rows : List α} {p : α → Bool} {f : α → List β}
    (h : ∀ row ∈ rows, p row = false → f row = []) : (rows.filter p).flatMap f = rows.flatMap f := by
  induction rows with
  | nil => rfl
  | cons first rows ih =>
    obtain ⟨hfirst, hrest⟩ := forall_mem_cons.1 h
    rw [filter_cons, flatMap_cons, ← ih hrest]
    cases hp : p first with
    | true => rfl
    | false => rw [hfirst hp]; rfl

theorem flatMap_key {rows : List α} {key : α → κ} {f : α → List β} (hn : (rows.map key).Nodup) (h : row ∈ rows)
    (hf : ∀ row' ∈ rows, key row' ≠ key row → f row' = []) : rows.flatMap f = f row := by
  induction rows with
  | nil => cases h
  | cons first rows ih =>
    obtain ⟨hfirst, hn⟩ := nodup_cons.1 hn
    rw [flatMap_cons]
    rcases mem_cons.1 h with rfl | h
    · have hrest : rows.flatMap f = [] := by
        rw [flatMap_eq_nil_iff]
        intro row' hm
        refine hf row' (mem_cons_of_mem _ hm) fun hk => hfirst ?_
        rw [← hk]
        exact mem_map_of_mem hm
      rw [hrest, append_nil]
    · have hne : key first ≠ key row := by
        intro hk
        exact hfirst (hk ▸ mem_map_of_mem h)
      rw [hf first (mem_cons_self ..) hne, nil_append]
      exact ih hn h fun row' hm => hf row' (mem_cons_of_mem _ hm)

section
variable {α κ : Type} [DecidableEq κ] {key : α → κ} {k : κ} {rows rows' : List α}

theorem any_key_iff : rows.any (key · == k) ↔ ∃ row ∈ rows, key row = k := by
  simp

theorem not_any_key (h : ∀ row ∈ rows, key row ≠ k) : ¬ rows.any (key · == k) := by
  rw [any_key_iff]
  rintro ⟨row, hrow, hk⟩
  exact h row hrow hk

omit [DecidableEq κ] in
theorem any_append_left (h : rows.any p) : (rows ++ rows').any p := by
  rw [any_append, h, Bool.true_or]

theorem find?_key_eq_none_iff : rows.find? (key · == k) = none ↔ ¬ rows.any (key · == k) := by
  rw [List.find?_eq_none, any_eq_true]
  simp

theorem find?_key_eq_none (h : ∀ row ∈ rows, key row ≠ k) : rows.find? (key · == k) = none := by
  rw [List.find?_eq_none]
  intro row hrow
  simpa using h row hrow

theorem mem_of_find?_key (h : rows.find? (key · == k) = some row) : row ∈ rows ∧ key row = k :=
  ⟨List.mem_of_find?_eq_some h, by simpa using List.find?_some h⟩

theorem find?_key_of_mem (hn : (rows.map key).Nodup) (h : row ∈ rows) (hk : key row = k) :
    rows.find? (key · == k) = some row := by
  cases hf : rows.find? (key · == k) with
  | none =>
    rw [List.find?_eq_none] at hf
    exact (hf row h (by simpa using hk)).elim
  | some row' =>
    obtain ⟨hmem, hkey⟩ := mem_of_find?_key hf
    rw [inj_on_of_nodup_map hn hmem h (hkey.trans hk.symm)]

theorem lookup_eq_find? (entries : List (κ × β)) (k : κ) :
    entries.lookup k = (entries.find? (·.1 == k)).map Prod.snd := by
  induction entries with
  | nil => rfl
  | cons entry entries ih =>
    obtain ⟨k', v⟩ := entry
    rw [lookup_cons, List.find?_cons, ih, BEq.comm]
    cases k' == k <;> rfl

theorem mem_of_lookup {β : Type} {entries : List (κ × β)} {b : β} (h : entries.lookup k = some b) :
    (k, b) ∈ entries := by
  obtain ⟨l₁, l₂, rfl, _⟩ := List.lookup_eq_some_iff.1 h
  exact mem_append_right _ (mem_cons_self ..)

theorem lookup_of_mem {β : Type} {entries : List (κ × β)} {b : β} (hn : (entries.map Prod.fst).Nodup)
    (h : (k, b) ∈ entries) : entries.lookup k = some b := by
  rw [lookup_eq_find?, find?_key_of_mem hn h rfl, Option.map_some]

theorem filter_key_of_mem (hn : (rows.map key).Nodup) (h : row ∈ rows) (hk : key row = k) :
    rows.filter (key · == k) = [row] := by
  induction rows with
  | nil => cases h
  | cons first rows ih =>
    obtain ⟨hfirst, hn⟩ := nodup_cons.1 hn
    rcases mem_cons.1 h with rfl | h
    · rw [filter_cons_of_pos (by simpa using hk), filter_eq_nil_iff.2]
      intro row' hrow' hkey
      exact hfirst (mem_map.2 ⟨row', hrow', by simpa [hk] using hkey⟩)
    · rw [filter_cons_of_neg, ih hn h]
      intro hkey
      exact hfirst (mem_map.2 ⟨row, h, by rw [hk, beq_iff_eq.1 hkey]⟩)

theorem countP_key (hn : (rows.map key).Nodup) (h : row ∈ rows) :
    rows.countP p = (rows.filter (key · != key row)).countP p + if p row then 1 else 0 := by
  have hsplit := countP_eq_countP_filter_add rows p (key · != key row)
  have hrow : rows.filter (fun r => !(key r != key row)) = [row] := by
    simpa only [bne, Bool.not_not] using filter_key_of_mem hn h rfl
  rw [hsplit, hrow, countP_singleton]

theorem find?_key_append (h : ∀ row ∈ rows', key row ≠ k) :
    (rows ++ rows').find? (key · == k) = rows.find? (key · == k) := by
  rw [List.find?_append, find?_key_eq_none h, Option.or_none]

theorem find?_key_append_new (h : ∀ row ∈ rows, key row ≠ k) :
    (rows ++ rows').find? (key · == k) = rows'.find? (key · == k) := by
  rw [List.find?_append, find?_key_eq_none h, Option.none_or]

theorem find?_append_row_of_ne (h : key row ≠ k) :
    (rows ++ [row]).find? (key · == k) = rows.find? (key · == k) :=
  find?_key_append fun row' hrow' => by rwa [mem_singleton.1 hrow']

theorem find?_append_row (h : ¬ rows.any (key · == key row)) :
    (rows ++ [row]).find? (key · == key row) = some row := by
  rw [find?_key_append_new fun row' hrow' hkey => h (any_key_iff.2 ⟨row', hrow', hkey⟩)]
  simp

theorem find?_key_map (hf : ∀ row, key (f row) = key row) :
    (rows.map f).find? (key · == k) = (rows.find? (key · == k)).map f := by
  rw [List.find?_map]
  simp only [Function.comp_def, hf]

theorem find?_key_filter (hn : (rows.map key).Nodup) :
    (rows.filter p).find? (key · == k) = (rows.find? (key · == k)).filter p := by
  cases hf : rows.find? (key · == k) with
  | none =>
    rw [List.find?_eq_none] at hf
    apply List.find?_eq_none.2
    intro row hrow
    exact hf row (mem_filter.1 hrow).1
  | some row =>
    obtain ⟨hmem, hkey⟩ := mem_of_find?_key hf
    have hn' : ((rows.filter p).map key).Nodup := hn.sublist (filter_sublist.map key)
    cases hp : p row with
    | true =>
      rw [find?_key_of_mem hn' (mem_filter.2 ⟨hmem, hp⟩) hkey]
      simp [Option.filter, hp]
    | false =>
      rw [find?_key_eq_none]
      · simp [Option.filter, hp]
      · intro row' hrow' hkey'
        obtain ⟨hmem', hp'⟩ := mem_filter.1 hrow'
        have he : row' = row := inj_on_of_nodup_map hn hmem' hmem (hkey'.trans hkey.symm)
        rw [he, hp] at hp'
        cases hp'

theorem nodup_append_row (hn : (rows.map key).Nodup) (h : ¬ rows.any (key · == key row)): ((rows ++ [row]).map key).Nodup := by
  rw [map_append, map_singleton, nodup_append_comm]
  refine nodup_cons.2 ⟨fun hmem => h ?_, hn⟩
  obtain ⟨row', hrow', hkey⟩ := mem_map.1 hmem
  exact any_key_iff.2 ⟨row', hrow', hkey⟩

/-- The update of the rows with key `k`. -/
def setWhere (key : α → κ) (k : κ) (set : α → α) (row : α) : α :=
  if key row = k then set row else row

section
variable {set : α → α} (hset : ∀ row, key (set row) = key row)
include hset

theorem key_setWhere (k : κ) (row : α) : key (setWhere key k set row) = key row := by
  rw [setWhere]
  split
  · exact hset row
  · rfl

theorem map_key_setWhere (k : κ) : (rows.map (setWhere key k set)).map key = rows.map key := by
  rw [map_map]
  exact map_congr_left fun row _ => key_setWhere hset k row

theorem any_key_setWhere (k k' : κ) :
    (rows.map (setWhere key k set)).any (key · == k') = rows.any (key · == k') := by
  rw [any_map]
  simp only [Function.comp_def, key_setWhere hset]

theorem filter_setWhere {q : κ → Bool} (hq : q k = false) :
    (rows.map (setWhere key k set)).filter (fun row => q (key row)) =
      rows.filter fun row => q (key row) := by
  induction rows with
  | nil => rfl
  | cons row rows ih =>
    rw [map_cons, filter_cons, filter_cons, ih, key_setWhere hset]
    by_cases hk : key row = k
    · simp [hk, hq]
    · rw [setWhere, if_neg hk]

theorem find?_setWhere_of_ne (hk : k' ≠ k) :
    (rows.map (setWhere key k set)).find? (key · == k') = rows.find? (key · == k') := by
  rw [find?_key_map (key_setWhere hset k)]
  cases hf : rows.find? (key · == k') with
  | none => rfl
  | some row =>
    have hrow : key row ≠ k := fun he => hk ((mem_of_find?_key hf).2.symm.trans he)
    rw [Option.map_some, setWhere, if_neg hrow]

theorem find?_setWhere (hf : rows.find? (key · == k) = some row) :
    (rows.map (setWhere key k set)).find? (key · == k) = some (set row) := by
  rw [find?_key_map (key_setWhere hset k), hf, Option.map_some, setWhere,
    if_pos (mem_of_find?_key hf).2]

end

theorem mem_setWhere {set : α → α} {row : α} (h : row ∈ rows.map (setWhere key k set)) :
    row ∈ rows ∨ ∃ old ∈ rows, key old = k ∧ row = set old := by
  obtain ⟨old, hold, rfl⟩ := mem_map.1 h
  rw [setWhere]
  split
  · rename_i hid
    exact .inr ⟨old, hold, hid, rfl⟩
  · exact .inl hold

end

end Trakrai.Lib
