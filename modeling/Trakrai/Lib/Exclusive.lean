import Mathlib.Logic.Function.Basic

namespace Trakrai.Lib
open Function

/-- A flag that is set exactly while one thread, and never two, is at a place of a given kind. -/
structure Exclusive {τ π : Type} (inside : π → Bool) (flag : Bool) (threads : τ → π) : Prop where
  unique : ∀ {t u}, inside (threads t) → inside (threads u) → t = u
  held_iff : flag ↔ ∃ t, inside (threads t)

section
variable {τ π : Type} [DecidableEq τ] {inside : π → Bool} {flag : Bool} {threads : τ → π}
  {t u : τ} {source source' place place' : π}

theorem inside_update (ht : threads t = source) (h : inside place = inside source) (u : τ) :
    inside (update threads t place u) = inside (threads u) := by
  by_cases hu : u = t
  · subst hu
    rw [update_self, h, ht]
  · rw [update_of_ne hu]

theorem update_at_other (ht : threads t = source) (hu : threads u = source') (hne : source' ≠ source) :
    update threads t place u = source' := by
  have hut : u ≠ t := by
    rintro rfl
    exact hne (hu.symm.trans ht)
  rw [update_of_ne hut, hu]

theorem exists_update (h : ∃ u, inside (threads u)) (ht : threads t = source)
    (hp : inside source → inside place) : ∃ u, inside (update threads t place u) := by
  obtain ⟨u, hu⟩ := h
  by_cases hut : u = t
  · subst hut
    rw [ht] at hu
    exact ⟨u, by rw [update_self]; exact hp hu⟩
  · exact ⟨u, by rw [update_of_ne hut]; exact hu⟩

theorem of_inside_update (ht : threads t = source) (hp : inside place → inside source)
    (h : inside (update threads t place u)) : inside (threads u) := by
  by_cases hut : u = t
  · subst hut
    rw [update_self] at h
    rw [ht]
    exact hp h
  · rwa [update_of_ne hut] at h

theorem Exclusive.move (h : Exclusive inside flag threads) (ht : threads t = source)
    (hp : inside place = inside source) :
    Exclusive inside flag (update threads t place) := by
  refine ⟨?_, ?_⟩
  · intro u v hu hv
    rw [inside_update ht hp] at hu hv
    exact h.unique hu hv
  · simp only [inside_update ht hp]
    exact h.held_iff

theorem Exclusive.start (h : Exclusive inside flag threads) (ht : threads t = source)
    (hu : threads u = source') (hne : source' ≠ source) (hp : inside place = inside source)
    (hp' : inside place' = inside source') :
    Exclusive inside flag (update (update threads t place) u place') :=
  (h.move ht hp).move (update_at_other ht hu hne) hp'

theorem Exclusive.acquire (h : Exclusive inside false threads) (hp : inside place) :
    Exclusive inside true (update threads t place) := by
  have hnone : ∀ u, ¬ inside (threads u) := by
    intro u hu
    cases h.held_iff.2 ⟨u, hu⟩
  have heq : ∀ u, inside (update threads t place u) → u = t := by
    intro u hu
    by_contra hne
    rw [update_of_ne hne] at hu
    exact hnone u hu
  refine ⟨fun hu hv => (heq _ hu).trans (heq _ hv).symm, ?_⟩
  exact iff_of_true rfl ⟨t, by rw [update_self]; exact hp⟩

theorem Exclusive.release (h : Exclusive inside flag threads) (ht : threads t = source)
    (hs : inside source) (hp : ¬ inside place) :
    Exclusive inside false (update threads t place) := by
  have hin : inside (threads t) := by
    rw [ht]
    exact hs
  have hnone : ∀ u, ¬ inside (update threads t place u) := by
    intro u hu
    by_cases hut : u = t
    · subst hut
      rw [update_self] at hu
      exact hp hu
    · rw [update_of_ne hut] at hu
      exact hut (h.unique hu hin)
  refine ⟨fun hu => (hnone _ hu).elim, ?_⟩
  exact iff_of_false Bool.false_ne_true fun ⟨u, hu⟩ => hnone u hu

theorem Exclusive.handOver (h : Exclusive inside flag threads) (ht : threads t = source)
    (hs : inside source) (hp : ¬ inside place) (hp' : inside place') :
    Exclusive inside flag
      (update (update threads t place) u place') := by
  have hf : flag = true := h.held_iff.2 ⟨t, by rw [ht]; exact hs⟩
  rw [hf]
  exact (h.release ht hs hp).acquire hp'

end

end Trakrai.Lib
