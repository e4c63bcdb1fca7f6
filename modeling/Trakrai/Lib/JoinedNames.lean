import Mathlib.Data.List.Basic

namespace Trakrai.Lib
open List

section
variable {mark a b c d : List α}

/-- The first part of `c ++ mark ++ d` goes on where the one of `a ++ mark ++ b` ends. -/
def RunsOn (mark a b c d : List α) : Prop :=
  ∃ x, x ≠ [] ∧ c = a ++ x ∧ mark ++ b = x ++ (mark ++ d)

theorem join_eq_iff : a ++ (mark ++ b) = c ++ (mark ++ d) ↔
    (a = c ∧ b = d) ∨ RunsOn mark a b c d ∨ RunsOn mark c d a b := by
  constructor
  · intro h
    rcases append_eq_append_iff.1 h with ⟨x, hc, hx⟩ | ⟨x, ha, hx⟩
    · by_cases hempty : x = []
      · subst hempty
        exact .inl ⟨by simpa using hc.symm, by simpa using hx⟩
      · exact .inr (.inl ⟨x, hempty, hc, hx⟩)
    · by_cases hempty : x = []
      · subst hempty
        exact .inl ⟨by simpa using ha, by simpa using hx.symm⟩
      · exact .inr (.inr ⟨x, hempty, ha, hx⟩)
  · rintro (⟨rfl, rfl⟩ | ⟨x, -, rfl, hx⟩ | ⟨x, -, rfl, hx⟩)
    · rfl
    · rw [hx, append_assoc]
    · rw [hx, append_assoc]

/-- A first part that runs on holds the whole mark, or a piece of it at which the mark overlaps
itself. -/
theorem runsOn_iff (hmark : mark ≠ []) : RunsOn mark a b c d ↔
    (∃ y, c = a ++ (mark ++ y) ∧ b = y ++ (mark ++ d)) ∨
    ∃ k, 0 < k ∧ k < mark.length ∧ mark.drop k = mark.take (mark.length - k) ∧
      c = a ++ mark.take k ∧ b = mark.drop (mark.length - k) ++ d := by
  constructor
  · rintro ⟨x, hx, rfl, h⟩
    rcases append_eq_append_iff.1 h with ⟨y, rfl, hb⟩ | ⟨q, hq, hd⟩
    · exact .inl ⟨y, rfl, hb⟩
    · have hk : mark.length = x.length + q.length := by rw [hq, length_append]
      have hpos : 0 < x.length := length_pos_iff.2 hx
      have htake : mark.take x.length = x := by rw [hq, take_left]
      have hdrop : mark.drop x.length = q := by rw [hq, drop_left]
      rcases append_eq_append_iff.1 hd with ⟨r, rfl, -⟩ | ⟨r, hr, hb⟩
      · rw [length_append] at hk
        omega
      · have hlen : mark.length - x.length = q.length := by omega
        have hpre : mark.take q.length = q := by rw [hr, take_left]
        have hrest : mark.drop q.length = r := by rw [hr, drop_left]
        by_cases hempty : q = []
        · subst hempty
          rw [append_nil] at hq
          exact .inl ⟨[], by rw [hq, append_nil], by rw [hb, hr]; rfl⟩
        · have hq0 : 0 < q.length := length_pos_iff.2 hempty
          exact .inr ⟨x.length, hpos, by omega, by rw [hdrop, hlen, hpre], by rw [htake],
            by rw [hlen, hrest]; exact hb⟩
  · rintro (⟨y, rfl, rfl⟩ | ⟨k, hpos, hlt, hoverlap, rfl, rfl⟩)
    · exact ⟨mark ++ y, by simp [hmark], rfl, by simp⟩
    · refine ⟨mark.take k, ?_, rfl, ?_⟩
      · intro h
        have := congrArg List.length h
        rw [length_take, length_nil] at this
        omega
      · calc mark ++ (mark.drop (mark.length - k) ++ d)
            = mark.take k ++ mark.drop k ++ (mark.drop (mark.length - k) ++ d) := by
              rw [take_append_drop]
          _ = mark.take k ++ (mark.take (mark.length - k) ++ mark.drop (mark.length - k) ++ d) := by
              rw [hoverlap, append_assoc, ← append_assoc (mark.take (mark.length - k))]
          _ = mark.take k ++ (mark ++ d) := by rw [take_append_drop]

theorem not_runsOn_of_not_mem (h : m ∉ b) : ¬ RunsOn [m] a b c d := by
  rintro ⟨x, hx, -, heq⟩
  obtain ⟨y, x, rfl⟩ := exists_cons_of_ne_nil hx
  obtain ⟨rfl, rfl⟩ := List.cons.inj heq
  exact h (mem_append_right _ (mem_cons_self ..))

end

theorem exists_ofList {p : List Char → Prop} : (∃ y, p y) ↔ ∃ y : String, p y.toList :=
  ⟨fun ⟨y, hy⟩ => ⟨String.ofList y, by rwa [String.toList_ofList]⟩, fun ⟨y, hy⟩ => ⟨y.toList, hy⟩⟩

section
variable {a b c d : String}

theorem joinedText_eq_iff (mark : String) : a ++ mark ++ b = c ++ mark ++ d ↔ (a = c ∧ b = d) ∨
    RunsOn mark.toList a.toList b.toList c.toList d.toList ∨
    RunsOn mark.toList c.toList d.toList a.toList b.toList := by
  have hjoin : a.toList ++ (mark.toList ++ b.toList) = c.toList ++ (mark.toList ++ d.toList) ↔ _ :=
    join_eq_iff
  rw [String.toList_inj, String.toList_inj] at hjoin
  rw [← hjoin, ← String.toList_inj]
  simp only [String.toList_append, append_assoc]

theorem joinedText_inj (hmark : mark.toList = [m]) (hb : m ∉ b.toList)
    (hd : m ∉ d.toList) (h : a ++ mark ++ b = c ++ mark ++ d) : a = c ∧ b = d := by
  rcases (joinedText_eq_iff mark).1 h with h | h | h
  · exact h
  · exact absurd (hmark ▸ h) (not_runsOn_of_not_mem hb)
  · exact absurd (hmark ▸ h) (not_runsOn_of_not_mem hd)

theorem runsOn_dash : RunsOn "-".toList a.toList b.toList c.toList d.toList ↔
    ∃ y : String, c = a ++ "-" ++ y ∧ b = y ++ "-" ++ d := by
  rw [runsOn_iff (by decide), exists_ofList]
  simp only [← String.toList_inj, String.toList_append, append_assoc]
  constructor
  · rintro (h | ⟨k, hpos, hlt, -⟩)
    · exact h
    · have hone : "-".toList.length = 1 := rfl
      omega
  · exact .inl

end

end Trakrai.Lib
