import Mathlib.Data.List.Basic

namespace Trakrai.Lib
open List

theorem ok_bind (a : α) (f : α → Except ε β) : (Except.ok a >>= f) = f a := rfl

theorem bind_ok {x : Except ε α} {f : α → Except ε β} (h : (x >>= f) = .ok b) :
    ∃ a, x = .ok a ∧ f a = .ok b := by
  cases x with
  | error e => cases h
  | ok a => exact ⟨a, rfl, h⟩

theorem bind_eq_ok_iff {x : Except ε α} {f : α → Except ε β} :
    (x >>= f) = .ok b ↔ ∃ a, x = .ok a ∧ f a = .ok b := by
  constructor
  · exact bind_ok
  · rintro ⟨a, rfl, h⟩
    exact h

theorem bind_error {x : Except ε α} {f : α → Except ε β} (h : (x >>= f) = .error e) :
    x = .error e ∨ ∃ a, x = .ok a ∧ f a = .error e := by
  cases x with
  | error e' => cases h; exact .inl rfl
  | ok a => exact .inr ⟨a, rfl, h⟩

theorem bind_congr_ok {x : Except ε α} {f g : α → Except ε β} (h : ∀ a, x = .ok a → f a = g a) :
    (x >>= f) = (x >>= g) := by
  cases x with
  | error e => rfl
  | ok a => exact h a rfl

theorem map_injective {f : α → β} (hf : Function.Injective f) {x y : Except ε α}
    (h : f <$> x = f <$> y) : x = y := by
  cases x with
  | error e =>
    cases y with
    | error e' =>
      cases h
      rfl
    | ok b => cases h
  | ok a =>
    cases y with
    | error e => cases h
    | ok b => exact congrArg Except.ok (hf (Except.ok.inj h))

theorem mapM_ok_of_forall {f : α → Except ε β} {items : List α} {P : α → β → Prop}
    (h : ∀ item ∈ items, ∃ result, f item = .ok result ∧ P item result) :
    ∃ results, items.mapM f = .ok results ∧ List.Forall₂ P items results := by
  induction items with
  | nil => exact ⟨[], rfl, .nil⟩
  | cons first items ih =>
    obtain ⟨hfirst, hrest⟩ := forall_mem_cons.1 h
    obtain ⟨result, hresult, hP⟩ := hfirst
    obtain ⟨results, hresults, hall⟩ := ih hrest
    refine ⟨result :: results, ?_, .cons hP hall⟩
    rw [mapM_cons, hresult, hresults]
    rfl

theorem mapM_some_of_forall {f : α → Option β} {items : List α} {P : α → β → Prop}
    (h : ∀ item ∈ items, ∃ result, f item = some result ∧ P item result) :
    ∃ results, items.mapM f = some results ∧ List.Forall₂ P items results := by
  induction items with
  | nil => exact ⟨[], rfl, .nil⟩
  | cons first items ih =>
    obtain ⟨hfirst, hrest⟩ := forall_mem_cons.1 h
    obtain ⟨result, hresult, hP⟩ := hfirst
    obtain ⟨results, hresults, hall⟩ := ih hrest
    refine ⟨result :: results, ?_, .cons hP hall⟩
    rw [mapM_cons, hresult, hresults]
    rfl

theorem filterAuxM_ok_of_forall {p : α → Except ε Bool} {items : List α} {P : α → Prop}
    (h : ∀ item ∈ items, ∃ passed, p item = .ok passed ∧ (passed = true ↔ P item)) (kept : List α) :
    ∃ results, List.filterAuxM p items kept = .ok results ∧
      ∀ item, item ∈ results ↔ item ∈ kept ∨ item ∈ items ∧ P item := by
  induction items generalizing kept with
  | nil => exact ⟨kept, rfl, by simp⟩
  | cons first items ih =>
    obtain ⟨⟨passed, hpassed, hP⟩, hrest⟩ := forall_mem_cons.1 h
    obtain ⟨results, hresults, hmem⟩ := ih hrest (bif passed then first :: kept else kept)
    refine ⟨results, ?_, fun item => ?_⟩
    · rw [List.filterAuxM, hpassed]
      exact hresults
    · rw [hmem]
      cases passed with
      | true =>
        have hfirst : P first := hP.1 rfl
        simp only [cond_true, mem_cons]
        constructor
        · rintro ((rfl | hkept) | ⟨hitem, hPi⟩)
          · exact .inr ⟨.inl rfl, hfirst⟩
          · exact .inl hkept
          · exact .inr ⟨.inr hitem, hPi⟩
        · rintro (hkept | ⟨rfl | hitem, hPi⟩)
          · exact .inl (.inr hkept)
          · exact .inl (.inl rfl)
          · exact .inr ⟨hitem, hPi⟩
      | false =>
        have hfirst : ¬ P first := fun hPf => Bool.false_ne_true (hP.2 hPf)
        simp only [cond_false, mem_cons]
        constructor
        · rintro (hkept | ⟨hitem, hPi⟩)
          · exact .inl hkept
          · exact .inr ⟨.inr hitem, hPi⟩
        · rintro (hkept | ⟨rfl | hitem, hPi⟩)
          · exact .inl hkept
          · exact absurd hPi hfirst
          · exact .inr ⟨hitem, hPi⟩

theorem filterM_ok_of_forall {p : α → Except ε Bool} {items : List α} {P : α → Prop}
    (h : ∀ item ∈ items, ∃ passed, p item = .ok passed ∧ (passed = true ↔ P item)) :
    ∃ results, items.filterM p = .ok results ∧ ∀ item, item ∈ results ↔ item ∈ items ∧ P item := by
  obtain ⟨results, hresults, hmem⟩ := filterAuxM_ok_of_forall h []
  refine ⟨results.reverse, ?_, by simpa using hmem⟩
  rw [List.filterM, hresults]
  rfl

theorem filterM_ok {p : α → Except ε Bool} {items results : List α} (h : items.filterM p = .ok results) :
    ∀ item ∈ items, ∃ passed, p item = .ok passed := by
  have hall : ∀ (kept : List α), (∃ results, List.filterAuxM p items kept = .ok results) →
      ∀ item ∈ items, ∃ passed, p item = .ok passed := by
    clear h
    induction items with
    | nil => exact fun _ _ => forall_mem_nil _
    | cons first items ih =>
      rintro kept ⟨results, h⟩
      rw [List.filterAuxM] at h
      obtain ⟨passed, hpassed, hrest⟩ := bind_ok h
      exact forall_mem_cons.2 ⟨⟨passed, hpassed⟩, ih _ ⟨results, hrest⟩⟩
  obtain ⟨kept, hkept, -⟩ := bind_ok h
  exact hall [] ⟨kept, hkept⟩

end Trakrai.Lib
