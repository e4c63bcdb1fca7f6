import Trakrai.VideoRecorder.Clips

namespace Trakrai.VideoRecorder
open List

/-- What `sort.Slice` may leave: it is not stable. -/
structure SortedFrom (frames sorted : List BufferedFrame) : Prop where
  perm : sorted.Perm frames
  ordered : sorted.Pairwise fun left right => ¬ right.timestamp < left.timestamp

def Latest (frames : List BufferedFrame) (target : Int) (frame : BufferedFrame) : Prop :=
  frame ∈ frames ∧
    (frame.timestamp ≤ target ∧ (∀ f ∈ frames, f.timestamp ≤ target → f.timestamp ≤ frame.timestamp) ∨
      (∀ f ∈ frames, target < f.timestamp) ∧ ∀ f ∈ frames, frame.timestamp ≤ f.timestamp)

def Cursor (sorted : List BufferedFrame) (target : Int) (last : BufferedFrame) (rest : List BufferedFrame) : Prop :=
  ∃ before, sorted = before ++ last :: rest ∧ (before = [] ∨ last.timestamp ≤ target)

section
variable {frames sorted rest : List BufferedFrame} {last : BufferedFrame} {target step clipEnd : Int} {fuel n : Nat}

theorem Cursor.mono (h : Cursor sorted target last rest) (hle : target ≤ target') : Cursor sorted target' last rest := by
  obtain ⟨before, hsorted, hbefore⟩ := h
  exact ⟨before, hsorted, hbefore.imp_right fun hlast => Int.le_trans hlast hle⟩

theorem Cursor.advance (h : Cursor sorted target last rest) :
    Cursor sorted target (advance target last rest).1 (advance target last rest).2 ∧
      ∀ frame, (advance target last rest).2.head? = some frame → target < frame.timestamp := by
  induction rest generalizing last with
  | nil => exact ⟨h, nofun⟩
  | cons next rest ih =>
    rw [VideoRecorder.advance]
    split
    · rename_i hafter
      refine ⟨h, fun frame hframe => ?_⟩
      cases hframe
      exact hafter
    · rename_i hnot
      apply ih
      obtain ⟨before, hsorted, -⟩ := h
      exact ⟨before ++ [last], by rw [hsorted, append_assoc]; rfl, .inr (Int.not_lt.1 hnot)⟩

theorem Cursor.latest (h : Cursor sorted target last rest) (hs : SortedFrom frames sorted)
    (hrest : ∀ frame, rest.head? = some frame → target < frame.timestamp) : Latest frames target last := by
  obtain ⟨before, rfl, hbefore⟩ := h
  obtain ⟨hperm, hordered⟩ := hs
  obtain ⟨-, hfrom, hto⟩ := pairwise_append.1 hordered
  obtain ⟨hlast, hbehind⟩ := pairwise_cons.1 hfrom
  have hafter : ∀ f ∈ rest, target < f.timestamp := by
    cases rest with
    | nil => exact forall_mem_nil _
    | cons first rest =>
      have hfirst := hrest first rfl
      refine forall_mem_cons.2 ⟨hfirst, fun f hf => ?_⟩
      have hle := (pairwise_cons.1 hbehind).1 f hf
      omega
  refine ⟨hperm.mem_iff.1 (mem_append_right _ (mem_cons_self ..)), ?_⟩
  by_cases hle : last.timestamp ≤ target
  · refine .inl ⟨hle, fun f hf hf' => ?_⟩
    rcases mem_append.1 (hperm.mem_iff.2 hf) with hf | hf
    · exact Int.not_lt.1 (hto f hf last (mem_cons_self ..))
    · rcases mem_cons.1 hf with rfl | hf
      · exact Int.le_refl _
      · exact absurd (hafter f hf) (Int.not_lt.2 hf')
  · -- not after the target it would be, were it not the first
    have hempty := hbefore.resolve_right hle
    subst hempty
    have hmin : ∀ f ∈ frames, last.timestamp ≤ f.timestamp := by
      intro f hf
      rcases mem_cons.1 (hperm.mem_iff.2 hf) with rfl | hf
      · exact Int.le_refl _
      · exact Int.not_lt.1 (hlast f hf)
    exact .inr ⟨fun f hf => Int.lt_of_lt_of_le (Int.not_le.1 hle) (hmin f hf), hmin⟩

theorem Cursor.pairwise (h : Cursor sorted target last rest) (hs : SortedFrom frames sorted) :
    (last :: rest).Pairwise fun left right => left.timestamp ≤ right.timestamp := by
  obtain ⟨before, rfl, -⟩ := h
  exact (pairwise_append.1 hs.ordered).2.1.imp Int.not_lt.1

end

end Trakrai.VideoRecorder
