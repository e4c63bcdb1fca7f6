import Mathlib.Data.List.Basic

namespace Trakrai.Lib
open Option List

section
variable {α β : Type} {sep : α} {encode : β → List α}

def framed (sep : α) (encode : β → List α) (frames : List β) : List α :=
  frames.flatMap fun frame => encode frame ++ [sep]

theorem framed_append (frames frames' : List β) :
    framed sep encode (frames ++ frames') = framed sep encode frames ++ framed sep encode frames' :=
  flatMap_append

theorem framed_singleton (frame : β) : framed sep encode [frame] = encode frame ++ [sep] := by
  simp [framed]

theorem append_sep_inj (h : x ++ sep :: y = x' ++ sep :: y') (hx : sep ∉ x) (hx' : sep ∉ x') :
    x = x' ∧ y = y' := by
  induction x generalizing x' with
  | nil =>
    cases x' with
    | nil => exact ⟨rfl, (List.cons.inj h).2⟩
    | cons a x' =>
      obtain ⟨rfl, -⟩ := List.cons.inj h
      exact (hx' (mem_cons_self ..)).elim
  | cons a x ih =>
    cases x' with
    | nil =>
      obtain ⟨rfl, -⟩ := List.cons.inj h
      exact (hx (mem_cons_self ..)).elim
    | cons b x' =>
      obtain ⟨rfl, htail⟩ := List.cons.inj h
      obtain ⟨rfl, rfl⟩ := ih htail (fun hm => hx (mem_cons_of_mem _ hm))
        fun hm => hx' (mem_cons_of_mem _ hm)
      exact ⟨rfl, rfl⟩

theorem eq_nil_of_framed (h : sep ∉ framed sep encode frames) : frames = [] := by
  cases frames with
  | nil => rfl
  | cons frame frames => simp [framed] at h

variable [DecidableEq α]

def cut (sep : α) : List α → Option (List α × List α)
  | [] => none
  | a :: l => if a = sep then some ([], l) else (cut sep l).map fun (x, y) => (a :: x, y)

theorem cut_eq_some (h : cut sep l = some (line, rest)) : l = line ++ sep :: rest ∧ sep ∉ line := by
  induction l generalizing line rest with
  | nil => cases h
  | cons a l ih =>
    rw [cut] at h
    split at h
    case isTrue ha =>
      simp only [some.injEq, Prod.mk.injEq] at h
      obtain ⟨rfl, rfl⟩ := h
      exact ⟨by rw [ha]; rfl, not_mem_nil⟩
    case isFalse ha =>
      obtain ⟨⟨x, y⟩, hc, he⟩ := map_eq_some_iff.1 h
      simp only [Prod.mk.injEq] at he
      obtain ⟨rfl, rfl⟩ := he
      obtain ⟨rfl, hx⟩ := ih hc
      exact ⟨rfl, by simp [Ne.symm ha, hx]⟩

theorem cut_eq_none (h : cut sep l = none) : sep ∉ l := by
  induction l with
  | nil => exact not_mem_nil
  | cons a l ih =>
    rw [cut] at h
    split at h
    case isTrue => cases h
    case isFalse ha => simp [Ne.symm ha, ih (map_eq_none_iff.1 h)]

theorem cut_framed (hsep : ∀ frame ∈ frames, sep ∉ encode frame)
    (h : buffer ++ rest = framed sep encode frames) (hc : cut sep buffer = some (line, buffer')) :
    ∃ frame frames', frames = frame :: frames' ∧ line = encode frame ∧
      buffer' ++ rest = framed sep encode frames' := by
  obtain ⟨rfl, hl⟩ := cut_eq_some hc
  cases frames with
  | nil => simp [framed] at h
  | cons frame frames =>
    have he : line ++ sep :: (buffer' ++ rest) =
        encode frame ++ sep :: framed sep encode frames := by
      simpa [framed] using h
    obtain ⟨hline, hrest⟩ := append_sep_inj he hl (hsep frame (mem_cons_self ..))
    exact ⟨frame, frames, rfl, hline, hrest⟩

end

end Trakrai.Lib
