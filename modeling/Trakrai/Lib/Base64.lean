import Mathlib.Data.List.Basic

namespace Trakrai.Lib

def base64Digit (bits : Nat) : Char :=
  if bits < 26 then Char.ofNat (65 + bits)
  else if bits < 52 then Char.ofNat (71 + bits)
  else if bits < 62 then Char.ofNat (bits - 4)
  else if bits = 62 then '+'
  else '/'

/-- Three bytes give four characters; the last group is filled with `=`. -/
def base64 : List UInt8 → List Char
  | [] => []
  | [a] => [base64Digit (a.toNat / 4), base64Digit (a.toNat % 4 * 16), '=', '=']
  | [a, b] =>
    [base64Digit (a.toNat / 4), base64Digit (a.toNat % 4 * 16 + b.toNat / 16),
      base64Digit (b.toNat % 16 * 4), '=']
  | a :: b :: c :: rest =>
    base64Digit (a.toNat / 4) :: base64Digit (a.toNat % 4 * 16 + b.toNat / 16) ::
      base64Digit (b.toNat % 16 * 4 + c.toNat / 64) :: base64Digit (c.toNat % 64) :: base64 rest

/-- `Buffer.from(text, 'utf-8').toString('base64')`. -/
def base64Text (text : String) : String := String.ofList (base64 text.toUTF8.data.toList)

def base64Value (c : Char) : Nat :=
  if 'A' ≤ c ∧ c ≤ 'Z' then c.toNat - 65
  else if 'a' ≤ c ∧ c ≤ 'z' then c.toNat - 71
  else if '0' ≤ c ∧ c ≤ '9' then c.toNat + 4
  else if c = '+' then 62
  else 63

theorem base64Value_digit (h : n < 64) : base64Value (base64Digit n) = n := by
  have hall : ∀ n : Fin 64, base64Value (base64Digit n) = n := by decide
  exact hall ⟨n, h⟩

theorem base64Digit_inj (hm : m < 64) (hn : n < 64) (h : base64Digit m = base64Digit n) :
    m = n := by
  rw [← base64Value_digit hm, ← base64Value_digit hn, h]

theorem base64Digit_ne_pad (h : n < 64) : base64Digit n ≠ '=' := by
  have hall : ∀ n : Fin 64, base64Digit n ≠ '=' := by decide
  exact hall ⟨n, h⟩

theorem base64_inj (h : base64 xs = base64 ys) : xs = ys := by
  have byte (b : UInt8) : b.toNat < 256 := b.toNat_lt
  induction xs using base64.induct generalizing ys with
  | case1 =>
    rcases ys with _ | ⟨a', _ | ⟨b', _ | ⟨c', ys⟩⟩⟩
    · rfl
    all_goals simp [base64] at h
  | case2 a =>
    rcases ys with _ | ⟨a', _ | ⟨b', _ | ⟨c', ys⟩⟩⟩
    · simp [base64] at h
    · simp only [base64, List.cons.injEq, and_true] at h
      obtain ⟨h₁, h₂⟩ := h
      have := byte a
      have := byte a'
      have := base64Digit_inj (by omega) (by omega) h₁
      have := base64Digit_inj (by omega) (by omega) h₂
      rw [UInt8.toNat_inj.1 (show a.toNat = a'.toNat by omega)]
    · simp only [base64, List.cons.injEq, and_true] at h
      exact absurd h.2.2.symm (base64Digit_ne_pad (by omega))
    · simp only [base64, List.cons.injEq] at h
      have := byte c'
      exact absurd h.2.2.1.symm (base64Digit_ne_pad (by omega))
  | case3 a b =>
    have := byte a
    have := byte b
    rcases ys with _ | ⟨a', _ | ⟨b', _ | ⟨c', ys⟩⟩⟩
    · simp [base64] at h
    · simp only [base64, List.cons.injEq, and_true] at h
      exact absurd h.2.2 (base64Digit_ne_pad (by omega))
    · simp only [base64, List.cons.injEq, and_true] at h
      obtain ⟨h₁, h₂, h₃⟩ := h
      have := byte a'
      have := byte b'
      have := base64Digit_inj (by omega) (by omega) h₁
      have := base64Digit_inj (by omega) (by omega) h₂
      have := base64Digit_inj (by omega) (by omega) h₃
      rw [UInt8.toNat_inj.1 (show a.toNat = a'.toNat by omega),
        UInt8.toNat_inj.1 (show b.toNat = b'.toNat by omega)]
    · simp only [base64, List.cons.injEq] at h
      exact absurd h.2.2.2.1.symm (base64Digit_ne_pad (by omega))
  | case4 a b c rest ih =>
    have := byte a
    have := byte b
    have := byte c
    rcases ys with _ | ⟨a', _ | ⟨b', _ | ⟨c', ys⟩⟩⟩
    · simp [base64] at h
    · simp only [base64, List.cons.injEq] at h
      exact absurd h.2.2.1 (base64Digit_ne_pad (by omega))
    · simp only [base64, List.cons.injEq] at h
      exact absurd h.2.2.2.1 (base64Digit_ne_pad (by omega))
    · simp only [base64, List.cons.injEq] at h
      obtain ⟨h₁, h₂, h₃, h₄, hrest⟩ := h
      have := byte a'
      have := byte b'
      have := byte c'
      have := base64Digit_inj (by omega) (by omega) h₁
      have := base64Digit_inj (by omega) (by omega) h₂
      have := base64Digit_inj (by omega) (by omega) h₃
      have := base64Digit_inj (by omega) (by omega) h₄
      rw [UInt8.toNat_inj.1 (show a.toNat = a'.toNat by omega),
        UInt8.toNat_inj.1 (show b.toNat = b'.toNat by omega),
        UInt8.toNat_inj.1 (show c.toNat = c'.toNat by omega), ih hrest]

theorem base64Text_inj (h : base64Text s = base64Text t) : s = t := by
  have hbytes : s.toByteArray.data.toList = t.toByteArray.data.toList :=
    base64_inj (String.ofList_injective h)
  exact String.toByteArray_inj.1 (ByteArray.ext (Array.toList_inj.1 hbytes))

end Trakrai.Lib
