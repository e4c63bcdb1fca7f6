import Mathlib.Data.List.Basic
import Mathlib.Data.List.DropRight

namespace Trakrai.Lib
open List

section
variable [DecidableEq α] {mark a rest piece : List α}

/-- The pieces of a list between the occurrences of a mark, from the left. The first letters to
`skip` belong to an occurrence, and `piece` is what the current piece has, last letter first. -/
def piecesFrom (mark : List α) (skip : Nat) (piece : List α) : List α → List (List α)
  | [] => [piece.reverse]
  | x :: rest =>
    match skip with
    | skip + 1 => piecesFrom mark skip piece rest
    | 0 =>
      if mark <+: x :: rest then piece.reverse :: piecesFrom mark (mark.length - 1) [] rest
      else piecesFrom mark 0 (x :: piece) rest

def pieces (mark text : List α) : List (List α) := piecesFrom mark 0 [] text

def Clear (mark a rest : List α) : Prop := ∀ s, s ≠ [] → s <:+ a → ¬ mark <+: s ++ rest

omit [DecidableEq α] in
theorem Clear.tail (h : Clear mark (x :: a) rest) : Clear mark a rest :=
  fun s hne hs => h s hne (hs.trans (suffix_cons x a))

theorem piecesFrom_skip (mark piece s rest : List α) :
    piecesFrom mark s.length piece (s ++ rest) = piecesFrom mark 0 piece rest := by
  induction s with
  | nil => rfl
  | cons x s ih => exact ih

theorem piecesFrom_mark (hmark : mark ≠ []) :
    piecesFrom mark 0 piece (mark ++ rest) = piece.reverse :: pieces mark rest := by
  cases mark with
  | nil => exact absurd rfl hmark
  | cons m mark =>
    rw [cons_append, piecesFrom, if_pos ⟨rest, rfl⟩]
    exact congrArg (piece.reverse :: ·) (piecesFrom_skip (m :: mark) [] mark rest)

theorem piecesFrom_clear (hmark : mark ≠ []) (h : Clear mark a (mark ++ rest)) :
    piecesFrom mark 0 piece (a ++ (mark ++ rest)) = (piece.reverse ++ a) :: pieces mark rest := by
  induction a generalizing piece with
  | nil => rw [nil_append, append_nil, piecesFrom_mark hmark]
  | cons x a ih =>
    have hno : ¬ mark <+: x :: (a ++ (mark ++ rest)) := h (x :: a) nofun suffix_rfl
    rw [cons_append, piecesFrom, if_neg hno, ih h.tail, reverse_cons, append_assoc]
    rfl

theorem pieces_append (hmark : mark ≠ []) (h : Clear mark a (mark ++ rest)) :
    pieces mark (a ++ (mark ++ rest)) = a :: pieces mark rest :=
  piecesFrom_clear hmark h

theorem piecesFrom_ne_nil (mark : List α) (skip : Nat) (piece text : List α) :
    piecesFrom mark skip piece text ≠ [] := by
  induction text generalizing skip piece with
  | nil => exact cons_ne_nil _ _
  | cons x text ih =>
    cases skip with
    | zero =>
      rw [piecesFrom]
      split
      · exact cons_ne_nil _ _
      · exact ih _ _
    | succ skip => exact ih _ _

theorem intercalate_piecesFrom (hmark : mark ≠ []) (skip : Nat) (piece text : List α) :
    mark.intercalate (piecesFrom mark skip piece text) = piece.reverse ++ text.drop skip := by
  induction text generalizing skip piece with
  | nil => simp [piecesFrom]
  | cons x text ih =>
    cases skip with
    | zero =>
      rw [piecesFrom]
      split
      · rename_i hpre
        obtain ⟨rest, hrest⟩ := hpre
        obtain ⟨m, ms, rfl⟩ := exists_cons_of_ne_nil hmark
        have htext : text = ms ++ rest := by
          rw [cons_append, List.cons.injEq] at hrest
          exact hrest.2.symm
        have hdrop : text.drop ms.length = rest := by rw [htext, drop_left]
        rw [intercalate_cons_of_ne_nil (piecesFrom_ne_nil _ _ _ _), ih]
        simp [hdrop, hrest]
      · rw [ih]
        simp
    | succ skip => exact ih ..

theorem intercalate_pieces (hmark : mark ≠ []) (text : List α) :
    mark.intercalate (pieces mark text) = text :=
  intercalate_piecesFrom hmark 0 [] text

omit [DecidableEq α] in
theorem clear_of_not_mem (h : m ∉ a) : Clear (m :: ms) a rest := by
  intro s hne hs hmark
  obtain ⟨x, s, rfl⟩ := exists_cons_of_ne_nil hne
  obtain ⟨rest', heq⟩ := hmark
  obtain rfl : m = x := (List.cons.inj heq).1
  exact h (hs.subset (mem_cons_self ..))

omit [DecidableEq α] in
theorem clear_double (hno : ¬ [m, m] <:+: a) (hlast : ¬ [m] <:+ a) : Clear [m, m] a rest := by
  intro s hne hs hmark
  obtain ⟨x, s, rfl⟩ := exists_cons_of_ne_nil hne
  obtain ⟨rest', heq⟩ := hmark
  obtain ⟨rfl, hrest⟩ := List.cons.inj heq
  cases s with
  | nil => exact hlast hs
  | cons y s =>
    obtain rfl : m = y := (List.cons.inj hrest).1
    exact hno (List.IsInfix.trans ⟨[], s, rfl⟩ hs.isInfix)

theorem pieces_double_of_suffix (hno : ¬ [m, m] <:+: b ++ [m]) :
    pieces [m, m] ((b ++ [m]) ++ ([m, m] ++ rest)) = b :: pieces [m, m] (m :: rest) := by
  have hlast : ¬ [m] <:+ b := by
    rintro ⟨c, rfl⟩
    exact hno ⟨c, [], by simp⟩
  have hclear : ¬ [m, m] <:+: b := fun h => hno (h.trans (prefix_append b [m]).isInfix)
  have htext : (b ++ [m]) ++ ([m, m] ++ rest) = b ++ ([m, m] ++ (m :: rest)) := by simp
  rw [htext, pieces_append (cons_ne_nil _ _) (clear_double hclear hlast)]

end

/-- `String.prototype.split` of ECMAScript at a text. -/
def jsSplitText (mark s : String) : List String := (pieces mark.toList s.toList).map String.ofList

/-- `Array.prototype.join` of ECMAScript with a text. -/
def jsJoinText (mark : String) (parts : List String) : String :=
  String.ofList (mark.toList.intercalate (parts.map String.toList))

theorem jsSplitText_append (hmark : mark.toList ≠ [])
    (h : Clear mark.toList a.toList (mark.toList ++ rest.toList)) :
    jsSplitText mark (a ++ mark ++ rest) = a :: jsSplitText mark rest := by
  have htext : (a ++ mark ++ rest).toList = a.toList ++ (mark.toList ++ rest.toList) := by simp
  rw [jsSplitText, htext, pieces_append hmark h, map_cons, String.ofList_toList]
  rfl

theorem jsJoinText_jsSplitText (hmark : mark.toList ≠ []) (s : String) :
    jsJoinText mark (jsSplitText mark s) = s := by
  have hparts : (jsSplitText mark s).map String.toList = pieces mark.toList s.toList := by
    rw [jsSplitText, map_map]
    conv => rhs; rw [← map_id (pieces mark.toList s.toList)]
    exact map_congr_left fun part _ => String.toList_ofList
  rw [jsJoinText, hparts, intercalate_pieces hmark, String.ofList_toList]

/-- `strings.ReplaceAll` of Go for a text that is not empty. -/
def goReplaceAll (s old new : String) : String := jsJoinText new (jsSplitText old s)

section
variable {α : Type} {p : α → Bool} {xs ys : List α}

theorem rdropWhile_append_of_nil (h : ys.rdropWhile p = []) : (xs ++ ys).rdropWhile p = xs.rdropWhile p := by
  rw [List.rdropWhile, reverse_eq_nil_iff] at h
  rw [List.rdropWhile, reverse_append, dropWhile_append, h]
  rfl

theorem rdropWhile_append_of_ne_nil (h : ys.rdropWhile p ≠ []) :
    (xs ++ ys).rdropWhile p = xs ++ ys.rdropWhile p := by
  have hne : ys.reverse.dropWhile p ≠ [] := fun hnil => h (by rw [List.rdropWhile, hnil, reverse_nil])
  rw [List.rdropWhile, reverse_append, dropWhile_append, if_neg (by simpa using hne), reverse_append,
    reverse_reverse, List.rdropWhile]

theorem rtake_append_of_le (h : n ≤ ys.length) : (xs ++ ys).rtake n = ys.rtake n := by
  rw [List.rtake, List.rtake, length_append, drop_append, drop_eq_nil_of_le (by omega), nil_append]
  congr 1
  omega

theorem rtake_of_length_le (h : xs.length ≤ n) : xs.rtake n = xs := by
  rw [List.rtake, Nat.sub_eq_zero_of_le h, drop_zero]

variable [DecidableEq α] {mark : α}

theorem length_splitOn (mark : α) (xs : List α) : (xs.splitOn mark).length = xs.count mark + 1 := by
  induction xs with
  | nil => rfl
  | cons x xs ih =>
    rw [splitOn_cons_eq_if_modifyHead, count_cons]
    split
    · rw [length_cons, ih]
    · rw [length_modifyHead, ih]

theorem splitOn_append_tail (mark : α) (xs ys : List α) :
    ∃ init, (xs ++ ys).splitOn mark = init ++ (ys.splitOn mark).tail ∧ init ≠ [] := by
  induction xs with
  | nil =>
    obtain ⟨first, rest, hys⟩ := exists_cons_of_ne_nil (splitOn_ne_nil mark ys)
    refine ⟨[first], ?_, cons_ne_nil _ _⟩
    rw [nil_append, hys]
    rfl
  | cons x xs ih =>
    obtain ⟨init, hinit, hne⟩ := ih
    rw [cons_append, splitOn_cons_eq_if_modifyHead, hinit]
    split
    · exact ⟨[] :: init, rfl, cons_ne_nil _ _⟩
    · obtain ⟨first, rest, rfl⟩ := exists_cons_of_ne_nil hne
      exact ⟨(x :: first) :: rest, rfl, cons_ne_nil _ _⟩

theorem splitOn_append_of_not_mem (h : mark ∉ xs) :
    (xs ++ ys).splitOn mark = (xs ++ ys.takeWhile (· ≠ mark)) :: (ys.splitOn mark).tail := by
  induction xs with
  | nil =>
    rw [nil_append, nil_append]
    induction ys with
    | nil => rfl
    | cons y ys ih =>
      rw [splitOn_cons_eq_if_modifyHead, takeWhile_cons]
      by_cases hy : y = mark
      · simp [hy]
      · rw [ih]
        simp [hy]
  | cons x xs ih =>
    obtain ⟨hx, hxs⟩ := not_or.1 (mt mem_cons.2 h)
    rw [cons_append, splitOn_cons_eq_if_modifyHead, ih hxs, if_neg (by simpa using Ne.symm hx)]
    rfl

end

end Trakrai.Lib
