import Mathlib.Algebra.Group.Nat.Defs
import Mathlib.Data.Char
import Mathlib.Data.List.DropRight
import Mathlib.Data.List.Lex
import Mathlib.Order.Basic

namespace Trakrai.Lib
open List

theorem append_lt_append_iff [LT α] {p q : List α} (h : p.length = q.length) :
    p ++ s < q ++ t ↔ p < q ∨ p = q ∧ s < t := by
  induction p generalizing q with
  | nil =>
    cases q with
    | nil => simp
    | cons => simp at h
  | cons a p ih =>
    cases q with
    | nil => simp at h
    | cons b q =>
      have hl : p.length = q.length := by simpa using h
      simp only [cons_append, cons_lt_cons_iff, ih hl, List.cons.injEq]
      constructor
      · rintro (hab | ⟨hab, hpq | ⟨hpq, hst⟩⟩)
        · exact .inl (.inl hab)
        · exact .inl (.inr ⟨hab, hpq⟩)
        · exact .inr ⟨⟨hab, hpq⟩, hst⟩
      · rintro ((hab | ⟨hab, hpq⟩) | ⟨⟨hab, hpq⟩, hst⟩)
        · exact .inl hab
        · exact .inr ⟨hab, .inl hpq⟩
        · exact .inr ⟨hab, .inr ⟨hpq, hst⟩⟩

theorem append_lt_append_of_incomparable [LT α] {p q : List α} (h : ¬ p <+: q) (h' : ¬ q <+: p) :
    p ++ s < q ++ t ↔ p < q := by
  induction p generalizing q with
  | nil => exact (h (List.nil_prefix)).elim
  | cons a p ih =>
    cases q with
    | nil => exact (h' (List.nil_prefix)).elim
    | cons b q =>
      simp only [cons_append, cons_lt_cons_iff]
      by_cases hab : a = b
      · subst b
        have hp : ¬ p <+: q := fun hp => h (cons_prefix_cons.2 ⟨rfl, hp⟩)
        have hq : ¬ q <+: p := fun hq => h' (cons_prefix_cons.2 ⟨rfl, hq⟩)
        rw [ih hp hq]
      · simp only [hab, false_and, or_false]

theorem append_lt_append_left_iff (p : List Char) : p ++ s < p ++ t ↔ s < t := by
  rw [append_lt_append_iff rfl]
  simp only [List.lt_irrefl, true_and, false_or]

theorem digitChar_lt_iff (ha : a < 10) (hb : b < 10) :
    Nat.digitChar a < Nat.digitChar b ↔ a < b := by
  have h : ∀ a b : Fin 10, Nat.digitChar a < Nat.digitChar b ↔ a.val < b.val := by decide
  exact h ⟨a, ha⟩ ⟨b, hb⟩

theorem digitChar_inj (ha : a < 10) (hb : b < 10) (h : Nat.digitChar a = Nat.digitChar b) :
    a = b := by
  have hlt : ¬ a < b := fun hab => (ne_of_lt ((digitChar_lt_iff ha hb).2 hab)) h
  have hgt : ¬ b < a := fun hab => (ne_of_lt ((digitChar_lt_iff hb ha).2 hab)) h.symm
  omega

/-- The decimal numeral of `n` with exactly `w` digits. -/
def pad : Nat → Nat → List Char
  | 0, _ => []
  | w + 1, n => pad w (n / 10) ++ [Nat.digitChar (n % 10)]

@[simp] theorem pad_length (w n : Nat) : (pad w n).length = w := by
  induction w generalizing n with
  | zero => rfl
  | succ w ih => simp only [pad, length_append, ih, length_singleton]

theorem pad_inj (ha : a < 10 ^ w) (hb : b < 10 ^ w) (h : pad w a = pad w b) : a = b := by
  induction w generalizing a b with
  | zero => simp only [Nat.pow_zero] at ha hb; omega
  | succ w ih =>
    simp only [pad] at h
    obtain ⟨hq, hr⟩ := append_inj' h rfl
    simp only [List.cons.injEq, and_true] at hr
    have hmod := digitChar_inj (Nat.mod_lt a (by omega)) (Nat.mod_lt b (by omega)) hr
    rw [Nat.pow_succ] at ha hb
    have hdiv := ih (Nat.div_lt_of_lt_mul (by omega)) (Nat.div_lt_of_lt_mul (by omega)) hq
    omega

theorem pad_lt_iff (ha : a < 10 ^ w) (hb : b < 10 ^ w) : pad w a < pad w b ↔ a < b := by
  induction w generalizing a b with
  | zero =>
    simp only [Nat.pow_zero] at ha hb
    simp only [pad, not_lt_nil, false_iff]
    omega
  | succ w ih =>
    rw [Nat.pow_succ] at ha hb
    have hqa : a / 10 < 10 ^ w := Nat.div_lt_of_lt_mul (by omega)
    have hqb : b / 10 < 10 ^ w := Nat.div_lt_of_lt_mul (by omega)
    have hra : a % 10 < 10 := Nat.mod_lt a (by omega)
    have hrb : b % 10 < 10 := Nat.mod_lt b (by omega)
    simp only [pad]
    rw [append_lt_append_iff (by simp only [pad_length]), ih hqa hqb]
    simp only [cons_lt_cons_iff, not_lt_nil, and_false, or_false, digitChar_lt_iff hra hrb]
    constructor
    · rintro (hlt | ⟨he, hlt⟩)
      · omega
      · have := pad_inj hqa hqb he
        omega
    · intro hlt
      by_cases hq : a / 10 < b / 10
      · exact .inl hq
      · have he : a / 10 = b / 10 := by omega
        exact .inr ⟨by rw [he], by omega⟩

theorem digitChar_ge_zero (d : Nat) (h : d < 10) : '0' ≤ Nat.digitChar d ∧ Nat.digitChar d ≤ '9' := by
  have h' : ∀ d : Fin 10, '0' ≤ Nat.digitChar d ∧ Nat.digitChar d ≤ '9' := by decide
  exact h' ⟨d, h⟩

theorem mem_pad (h : c ∈ pad w n) : '0' ≤ c ∧ c ≤ '9' := by
  induction w generalizing n with
  | zero => cases h
  | succ w ih =>
    simp only [pad, mem_append, mem_singleton] at h
    rcases h with h | h
    · exact ih h
    · subst c
      exact digitChar_ge_zero _ (Nat.mod_lt n (by omega))

@[simp] theorem pad_zero (w : Nat) : pad w 0 = List.replicate w '0' := by
  induction w with
  | zero => rfl
  | succ w ih =>
    simp only [pad, Nat.zero_div, ih, Nat.zero_mod]
    exact replicate_succ'.symm

/-- A numeral without its trailing zeros, as in the fraction of a number. -/
def trimmed (w n : Nat) : List Char := (pad w n).rdropWhile (· == '0')

theorem trimmed_append (w n : Nat) : ∃ k, pad w n = trimmed w n ++ List.replicate k '0' := by
  refine ⟨((pad w n).rtakeWhile (· == '0')).length, ?_⟩
  have hz : (pad w n).rtakeWhile (· == '0') =
      List.replicate ((pad w n).rtakeWhile (· == '0')).length '0' := by
    apply eq_replicate_of_mem
    intro c hc
    simpa using mem_rtakeWhile_imp hc
  rw [← hz]
  exact rdropWhile_append_rtakeWhile.symm

theorem trimmed_zero (w : Nat) : trimmed w 0 = [] := by
  rw [trimmed, rdropWhile_eq_nil_iff, pad_zero]
  intro c hc
  simpa using (mem_replicate.1 hc).2

theorem mem_trimmed (h : c ∈ trimmed w n) : '0' ≤ c ∧ c ≤ '9' := by
  obtain ⟨k, hk⟩ := trimmed_append w n
  exact mem_pad (w := w) (n := n) (hk ▸ mem_append_left _ h)

theorem trimmed_inj (ha : a < 10 ^ w) (hb : b < 10 ^ w) (h : trimmed w a = trimmed w b) :
    a = b := by
  obtain ⟨k, hk⟩ := trimmed_append w a
  obtain ⟨l, hl⟩ := trimmed_append w b
  have hlen := congrArg List.length hk
  have hlen' := congrArg List.length hl
  simp only [pad_length, length_append, length_replicate, h] at hlen hlen'
  apply pad_inj ha hb
  rw [hk, hl, h, show k = l by omega]

theorem not_lt_zeros (h : ∀ c ∈ l, '0' ≤ c) (k : Nat) (hk : l.length = k) :
    ¬ l < List.replicate k '0' := by
  induction l generalizing k with
  | nil =>
    subst k
    exact not_lt_nil _
  | cons c l ih =>
    subst k
    intro hlt
    rw [length_cons, replicate_succ, cons_lt_cons_iff] at hlt
    rcases hlt with hc | ⟨_, hl⟩
    · exact not_lt_of_ge (h c (mem_cons_self ..)) hc
    · exact ih (fun d hd => h d (mem_cons_of_mem _ hd)) _ rfl hl

theorem le_of_prefix_trimmed (ha : a < 10 ^ w) (hb : b < 10 ^ w)
    (h : trimmed w a <+: trimmed w b) : a ≤ b := by
  obtain ⟨c, hc⟩ := h
  obtain ⟨k, hk⟩ := trimmed_append w a
  obtain ⟨l, hl⟩ := trimmed_append w b
  have hlen := congrArg List.length hk
  have hlen' := congrArg List.length hl
  rw [← hc] at hl hlen'
  simp only [pad_length, length_append, length_replicate] at hlen hlen'
  have hnlt : ¬ pad w b < pad w a := by
    rw [hk, hl, append_assoc, append_lt_append_left_iff]
    apply not_lt_zeros
    · intro d hd
      rcases mem_append.1 hd with hd | hd
      · exact (mem_trimmed (hc ▸ mem_append_right _ hd)).1
      · rw [(mem_replicate.1 hd).2]
    · simp only [length_append, length_replicate]
      omega
  rw [pad_lt_iff hb ha] at hnlt
  omega

theorem trimmed_lt_iff (ha : a < 10 ^ w) (hb : b < 10 ^ w)
    (h : ¬ trimmed w a <+: trimmed w b) (h' : ¬ trimmed w b <+: trimmed w a) :
    trimmed w a < trimmed w b ↔ a < b := by
  obtain ⟨k, hk⟩ := trimmed_append w a
  obtain ⟨l, hl⟩ := trimmed_append w b
  rw [← pad_lt_iff ha hb, hk, hl, append_lt_append_of_incomparable h h']

end Trakrai.Lib
