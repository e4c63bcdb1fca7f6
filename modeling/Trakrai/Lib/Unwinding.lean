import Trakrai.Lib.Transition

namespace Trakrai.Lib
open List

section
variable {σ ℓ ο : Type} {init : σ → Prop} {guard : σ → ℓ → Prop} {after : σ → ℓ → σ}
  {R : σ → σ → Prop} {own : ℓ → Bool} {ok : σ → ℓ → Prop} {out : σ → ℓ → List ο}

/-- What an observer sees of a run, where `out` is what it sees of a step. -/
def observed (out : σ → ℓ → List ο) (tr : List (σ × ℓ)) : List ο :=
  tr.flatMap fun p => out p.1 p.2

def ownLabels (own : ℓ → Bool) (tr : List (σ × ℓ)) : List ℓ := (tr.map Prod.snd).filter own

/-- The conditions under which the observer's view of a run depends on its own steps only: a
foreign step is not seen, and an own step from states that look alike leads to such states and
shows the same. -/
structure Unwinding (R : σ → σ → Prop) (own : ℓ → Bool) (ok : σ → ℓ → Prop) (after : σ → ℓ → σ)
    (out : σ → ℓ → List ο) : Prop where
  equivalence : Equivalence R
  foreign : ∀ {s a}, ok s a → own a = false → R s (after s a) ∧ out s a = []
  step : ∀ {s t a}, R s t → ok s a → ok t a → own a = true →
    R (after s a) (after t a) ∧ out s a = out t a

theorem ownLabels_cons_of_neg (h : own p.2 = false) (tr : List (σ × ℓ)) :
    ownLabels own (p :: tr) = ownLabels own tr := by
  simp [ownLabels, h]

theorem ownLabels_cons_of_pos (h : own p.2 = true) (tr : List (σ × ℓ)) :
    ownLabels own (p :: tr) = p.2 :: ownLabels own tr := by
  simp [ownLabels, h]

theorem Unwinding.observed_of_foreign (h : Unwinding R own ok after out)
    (hok : ∀ p ∈ tr, ok p.1 p.2) (hown : ownLabels own tr = []) : observed out tr = [] := by
  rw [observed, flatMap_eq_nil_iff]
  intro p hp
  have hforeign : own p.2 = false := by
    have hnot := filter_eq_nil_iff.1 hown p.2 (mem_map_of_mem hp)
    exact eq_false_of_ne_true hnot
  exact (h.foreign (hok p hp) hforeign).2

theorem Unwinding.advance (h : Unwinding R own ok after out)
    (hrun : (System.guarded init guard after).Run t tr u) (hok : ∀ p ∈ tr, ok p.1 p.2)
    (hown : ownLabels own tr = a :: labels) :
    ∃ t' tr', R t t' ∧ ok t' a ∧ (System.guarded init guard after).Run (after t' a) tr' u ∧
      (∀ p ∈ tr', ok p.1 p.2) ∧ ownLabels own tr' = labels ∧
      observed out tr = out t' a ++ observed out tr' := by
  induction hrun with
  | nil => cases hown
  | @cons s b m tr u hs hr ih =>
    obtain ⟨-, rfl⟩ := hs
    obtain ⟨hb, hok⟩ := forall_mem_cons.1 hok
    cases hf : own b with
    | false =>
      rw [ownLabels_cons_of_neg hf] at hown
      obtain ⟨hR, hout⟩ := h.foreign hb hf
      obtain ⟨t', tr', hR', ha, hr', hok', hl, hobs⟩ := ih hok hown
      refine ⟨t', tr', h.equivalence.trans hR hR', ha, hr', hok', hl, ?_⟩
      rw [← hobs, observed, flatMap_cons, hout, nil_append, observed]
    | true =>
      rw [ownLabels_cons_of_pos hf] at hown
      obtain ⟨rfl, rfl⟩ := List.cons.inj hown
      exact ⟨s, tr, h.equivalence.refl s, hb, hr, hok, rfl, rfl⟩

/-- Two runs from states that look alike, with the same own steps, show the same. -/
theorem Unwinding.observed_eq (h : Unwinding R own ok after out)
    (h₁ : (System.guarded init guard after).Run s tr₁ s')
    (h₂ : (System.guarded init guard after).Run t tr₂ t') (hR : R s t)
    (hok₁ : ∀ p ∈ tr₁, ok p.1 p.2) (hok₂ : ∀ p ∈ tr₂, ok p.1 p.2)
    (hown : ownLabels own tr₁ = ownLabels own tr₂) : observed out tr₁ = observed out tr₂ := by
  induction h₁ generalizing t tr₂ with
  | nil => rw [h.observed_of_foreign hok₁ rfl, h.observed_of_foreign hok₂ hown.symm]
  | @cons s a m tr u hs hr ih =>
    obtain ⟨-, rfl⟩ := hs
    obtain ⟨ha, hok₁⟩ := forall_mem_cons.1 hok₁
    rw [observed, flatMap_cons, ← observed]
    cases hf : own a with
    | false =>
      rw [ownLabels_cons_of_neg hf] at hown
      obtain ⟨hR', hout⟩ := h.foreign ha hf
      rw [hout, nil_append]
      exact ih h₂ (h.equivalence.trans (h.equivalence.symm hR') hR) hok₁ hok₂ hown
    | true =>
      rw [ownLabels_cons_of_pos hf] at hown
      obtain ⟨t₁, tr', hR', hat, hr', hok', hl, hobs⟩ := h.advance h₂ hok₂ hown.symm
      obtain ⟨hR'', hout⟩ := h.step (h.equivalence.trans hR hR') ha hat hf
      rw [hobs, hout]
      exact congrArg _ (ih hr' hR'' hok₁ hok' hl.symm)

end

end Trakrai.Lib
