import Mathlib.Data.List.Basic
import Mathlib.Logic.Function.Basic

namespace Trakrai.Lib
open Option Function

/-- A table of owners by key, with the keys that each owner is known to have. -/
structure Routes (κ γ : Type) where
  owner : κ → Option γ
  owned : γ → List κ

section
variable {κ γ : Type} {r : Routes κ γ} {k k' : κ} {c d : γ}

def Routes.empty : Routes κ γ := ⟨fun _ => none, fun _ => []⟩

def Routes.Reflects (r : Routes κ γ) : Prop := ∀ k c, r.owner k = some c → k ∈ r.owned c

def Routes.Tight (r : Routes κ γ) : Prop := ∀ k c, k ∈ r.owned c → r.owner k = some c

theorem Routes.reflects_empty : (Routes.empty : Routes κ γ).Reflects := nofun

theorem Routes.tight_empty : (Routes.empty : Routes κ γ).Tight := nofun

variable [DecidableEq κ] [DecidableEq γ]

/-- The owner of a key becomes `c`, whoever owned it before. -/
def Routes.claim (r : Routes κ γ) (c : γ) (k : κ) : Routes κ γ where
  owner := update r.owner k (some c)
  owned := update r.owned c (if k ∈ r.owned c then r.owned c else r.owned c ++ [k])

/-- The keys known of `c` are deleted, whoever owns them. -/
def Routes.release (r : Routes κ γ) (c : γ) : Routes κ γ where
  owner k := if k ∈ r.owned c then none else r.owner k
  owned := update r.owned c []

theorem Routes.claim_owner_self : (r.claim c k).owner k = some c :=
  update_self ..

theorem Routes.claim_owner_of_ne (h : k' ≠ k) : (r.claim c k).owner k' = r.owner k' :=
  update_of_ne h ..

theorem Routes.claim_owner_cases (h : (r.claim c k).owner k' = some d) :
    d = c ∨ r.owner k' = some d := by
  by_cases hk : k' = k
  · subst hk
    rw [claim_owner_self] at h
    exact .inl (some.inj h).symm
  · rw [claim_owner_of_ne hk] at h
    exact .inr h

theorem Routes.mem_claim_owned : k' ∈ (r.claim c k).owned d ↔ k' ∈ r.owned d ∨ d = c ∧ k' = k := by
  by_cases hd : d = c
  · subst hd
    simp only [Routes.claim, update_self, true_and]
    split
    case isTrue hk =>
      refine ⟨.inl, ?_⟩
      rintro (hm | rfl)
      · exact hm
      · exact hk
    case isFalse => simp
  · simp [Routes.claim, hd]

theorem Routes.mem_release_owned : k ∈ (r.release c).owned d ↔ d ≠ c ∧ k ∈ r.owned d := by
  by_cases hd : d = c
  · subst hd
    simp [Routes.release]
  · simp [Routes.release, hd]

theorem Routes.release_owner_of_not_mem (h : k ∉ r.owned c) : (r.release c).owner k = r.owner k :=
  if_neg h

theorem Routes.Reflects.claim (h : r.Reflects) : (r.claim c k).Reflects := by
  intro k' d hd
  rw [mem_claim_owned]
  by_cases hk : k' = k
  · subst hk
    rw [claim_owner_self] at hd
    exact .inr ⟨(some.inj hd).symm, rfl⟩
  · rw [claim_owner_of_ne hk] at hd
    exact .inl (h k' d hd)

theorem Routes.Reflects.owner_release (h : r.Reflects) (hd : (r.release c).owner k = some d) :
    d ≠ c ∧ r.owner k = some d ∧ k ∉ r.owned c := by
  simp only [Routes.release] at hd
  split at hd
  · cases hd
  · rename_i hk
    refine ⟨?_, hd, hk⟩
    rintro rfl
    exact hk (h k d hd)

theorem Routes.Reflects.release (h : r.Reflects) : (r.release c).Reflects := by
  intro k d hd
  obtain ⟨hne, ho, -⟩ := h.owner_release hd
  exact mem_release_owned.2 ⟨hne, h k d ho⟩

theorem Routes.Tight.claim (h : r.Tight) (hk : r.owner k = none ∨ r.owner k = some c) :
    (r.claim c k).Tight := by
  intro k' d hd
  rcases mem_claim_owned.1 hd with hm | ⟨rfl, rfl⟩
  · have ho : r.owner k' = some d := h k' d hm
    by_cases hkk : k' = k
    · subst hkk
      rw [ho] at hk
      obtain rfl : d = c := some.inj (hk.resolve_left nofun)
      exact claim_owner_self
    · rw [claim_owner_of_ne hkk]
      exact ho
  · exact claim_owner_self

theorem Routes.Tight.release (h : r.Tight) : (r.release c).Tight := by
  intro k d hd
  obtain ⟨hne, hm⟩ := mem_release_owned.1 hd
  have hk : k ∉ r.owned c := by
    intro hc
    exact hne (some.inj ((h k d hm).symm.trans (h k c hc)))
  rw [release_owner_of_not_mem hk]
  exact h k d hm

theorem Routes.Reflects.release_exact (h : r.Reflects)
    (hc : ∀ k ∈ r.owned c, ∀ d, r.owner k = some d → d = c) (k : κ) :
    (r.release c).owner k = if r.owner k = some c then none else r.owner k := by
  by_cases hk : k ∈ r.owned c
  · have hnone : (r.release c).owner k = none := if_pos hk
    rw [hnone]
    split
    · rfl
    · rename_i hne
      cases ho : r.owner k with
      | none => rfl
      | some d => exact (hne (by rw [ho, hc k hk d ho])).elim
  · rw [release_owner_of_not_mem hk, if_neg]
    intro ho
    exact hk (h k c ho)

theorem Routes.Reflects.release_exact_iff (h : r.Reflects) :
    (∀ k, (r.release c).owner k = if r.owner k = some c then none else r.owner k) ↔
      ∀ k ∈ r.owned c, ∀ d, r.owner k = some d → d = c := by
  refine ⟨?_, h.release_exact⟩
  intro hexact k hk d hd
  have hnone : (r.release c).owner k = none := if_pos hk
  by_contra hne
  have hother : r.owner k ≠ some c := by
    rw [hd]
    exact fun he => hne (some.inj he)
  have hkept := hexact k
  rw [hnone, if_neg hother, hd] at hkept
  cases hkept

def Routes.restrict (r : Routes κ γ) (p : γ → Bool) : Routes κ γ where
  owner k := (r.owner k).filter p
  owned c := if p c then r.owned c else []

variable {p : γ → Bool}

theorem Routes.restrict_claim (hc : p c = true) :
    (r.claim c k).restrict p = (r.restrict p).claim c k := by
  simp only [Routes.restrict, Routes.claim, Routes.mk.injEq]
  refine ⟨?_, ?_⟩
  · funext k'
    by_cases hk : k' = k
    · subst hk
      simp [hc]
    · simp [hk]
  · funext d
    by_cases hd : d = c
    · subst hd
      simp [hc]
    · simp [hd]

theorem Routes.restrict_claim_of_not (hc : p c = false) (hk : (r.owner k).filter p = none) :
    (r.claim c k).restrict p = r.restrict p := by
  simp only [Routes.restrict, Routes.claim, Routes.mk.injEq]
  refine ⟨?_, ?_⟩
  · funext k'
    by_cases hkk : k' = k
    · subst hkk
      simp [hc, hk]
    · simp [hkk]
  · funext d
    by_cases hd : d = c
    · subst hd
      simp [hc]
    · simp [hd]

theorem Routes.restrict_release (hc : p c = true) :
    (r.release c).restrict p = (r.restrict p).release c := by
  simp only [Routes.restrict, Routes.release, hc, if_true, Routes.mk.injEq]
  refine ⟨?_, ?_⟩
  · funext k'
    split <;> rfl
  · funext d
    by_cases hd : d = c
    · subst hd
      simp
    · simp [hd]

theorem Routes.restrict_release_of_not (hc : p c = false)
    (hk : ∀ k ∈ r.owned c, (r.owner k).filter p = none) :
    (r.release c).restrict p = r.restrict p := by
  simp only [Routes.restrict, Routes.release, Routes.mk.injEq]
  refine ⟨?_, ?_⟩
  · funext k'
    split
    case isTrue hm => rw [hk k' hm, filter_none]
    case isFalse => rfl
  · funext d
    by_cases hd : d = c
    · subst hd
      simp [hc]
    · simp [hd]

end

end Trakrai.Lib
