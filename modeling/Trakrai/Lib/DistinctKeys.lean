import Mathlib.Data.List.Forall2
import Trakrai.Lib.Except

namespace Trakrai.Lib
open List

theorem forall_mem_congr {R : α → β → Prop} {xs : List α} {ys : List β} {p : α → Prop} {q : β → Prop}
    (h : List.Forall₂ R xs ys) (hpq : ∀ {x y}, R x y → (p x ↔ q y)) : (∀ x ∈ xs, p x) ↔ ∀ y ∈ ys, q y := by
  induction h with
  | nil => exact iff_of_true (forall_mem_nil _) (forall_mem_nil _)
  | cons hxy _ ih => rw [forall_mem_cons, forall_mem_cons, hpq hxy, ih]

theorem forall_mem_right {R : α → β → Prop} {xs : List α} {ys : List β} {q : β → Prop}
    (h : List.Forall₂ R xs ys) (hq : ∀ {x y}, R x y → q y) : ∀ y ∈ ys, q y := by
  induction h with
  | nil => exact forall_mem_nil _
  | cons hxy _ ih => exact forall_mem_cons.2 ⟨hq hxy, ih⟩

theorem forall_mem_zipIdx {xs : List α} {p : α → Prop} : (∀ item ∈ xs.zipIdx, p item.1) ↔ ∀ x ∈ xs, p x := by
  conv_rhs => rw [← zipIdx_map_fst 0 xs]
  exact forall_mem_map.symm

/-- Each item is read in turn. The key of none may be the key of an earlier one. -/
def mapDistinct [DecidableEq κ] (keyOf : α → Except ε κ) (duplicate : α → κ → ε) (read : α → κ → Except ε β)
    (seen : List κ) : List α → Except ε (List β)
  | [] => .ok []
  | item :: items => do
    let key ← keyOf item
    if key ∈ seen then .error (duplicate item key)
    else do
      let result ← read item key
      let results ← mapDistinct keyOf duplicate read (key :: seen) items
      .ok (result :: results)

section
variable [DecidableEq κ] {keyOf : α → Except ε κ} {duplicate : α → κ → ε} {read : α → κ → Except ε β} {key : β → κ}
  {seen : List κ} {items : List α} {results : List β}

theorem mapDistinct_ok_iff (hkey : ∀ {item k result}, keyOf item = .ok k → read item k = .ok result → key result = k) :
    mapDistinct keyOf duplicate read seen items = .ok results ↔
      List.Forall₂ (fun item result => keyOf item = .ok (key result) ∧ read item (key result) = .ok result)
        items results ∧
      (results.map key).Nodup ∧ ∀ result ∈ results, key result ∉ seen := by
  induction items generalizing seen results with
  | nil =>
    constructor
    · intro h
      cases h
      exact ⟨.nil, nodup_nil, forall_mem_nil _⟩
    · intro h
      cases h.1
      rfl
  | cons item items ih =>
    constructor
    · intro h
      obtain ⟨k, hk, h⟩ := bind_ok h
      split at h
      · cases h
      · rename_i hnew
        obtain ⟨result, hresult, h⟩ := bind_ok h
        obtain ⟨rest, hrest, h⟩ := bind_ok h
        cases h
        obtain ⟨hall, hnodup, hseen⟩ := ih.1 hrest
        have hkr := hkey hk hresult
        subst hkr
        have hfresh : key result ∉ rest.map key := by
          intro hmem
          obtain ⟨other, hother, heq⟩ := mem_map.1 hmem
          exact hseen other hother (heq ▸ mem_cons_self ..)
        exact ⟨.cons ⟨hk, hresult⟩ hall, nodup_cons.2 ⟨hfresh, hnodup⟩, forall_mem_cons.2
          ⟨hnew, fun other hother hmem => hseen other hother (mem_cons_of_mem _ hmem)⟩⟩
    · intro ⟨hall, hnodup, hseen⟩
      cases hall with
      | @cons _ result _ rest hfirst hall =>
        obtain ⟨hfresh, hnodup⟩ := nodup_cons.1 hnodup
        obtain ⟨hnew, hseen⟩ := forall_mem_cons.1 hseen
        have hrest : mapDistinct keyOf duplicate read (key result :: seen) items = .ok rest := by
          apply ih.2
          refine ⟨hall, hnodup, ?_⟩
          intro other hother hmem
          rcases mem_cons.1 hmem with heq | hmem
          · exact hfresh (heq ▸ mem_map_of_mem hother)
          · exact hseen other hother hmem
        rw [mapDistinct, hfirst.1]
        simp only [bind, Except.bind, if_neg hnew, hfirst.2, hrest]

theorem mapDistinct_self_iff {keyOf : β × Nat → Except ε κ} {duplicate : β × Nat → κ → ε}
    {read : β × Nat → κ → Except ε β} {p : β → Prop}
    (hkey : ∀ {item k result}, keyOf item = .ok k → read item k = .ok result → key result = k)
    (hnodup : (results.map key).Nodup)
    (hagain : ∀ item ∈ results.zipIdx,
      keyOf item = .ok (key item.1) ∧ (read item (key item.1) = .ok item.1 ↔ p item.1)) :
    mapDistinct keyOf duplicate read [] results.zipIdx = .ok results ↔ ∀ result ∈ results, p result := by
  have hsame : List.Forall₂ (fun item result => keyOf item = .ok (key result) ∧ read item (key result) = .ok result)
      results.zipIdx (results.zipIdx.map Prod.fst) ↔
      ∀ item ∈ results.zipIdx, keyOf item = .ok (key item.1) ∧ read item (key item.1) = .ok item.1 := by
    rw [List.forall₂_map_right_iff, List.forall₂_same]
  rw [zipIdx_map_fst] at hsame
  rw [mapDistinct_ok_iff hkey, hsame, and_iff_left ⟨hnodup, fun _ _ => not_mem_nil⟩]
  refine Iff.trans ?_ forall_mem_zipIdx
  apply forall₂_congr
  intro item hitem
  obtain ⟨hkeyOf, hread⟩ := hagain item hitem
  rw [hkeyOf, and_iff_right rfl, hread]

end

end Trakrai.Lib
