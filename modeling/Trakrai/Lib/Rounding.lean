import Mathlib.Algebra.Order.Floor.Ring
import Mathlib.Data.Nat.Log
import Mathlib.Data.Rat.Floor
import Mathlib.Order.WithBot
import Mathlib.Tactic.Linarith

namespace Trakrai.Lib

/-- `math.Round` of Go: to the nearest integer, and halves away from zero. -/
def goRound (x : Rat) : Int := if 0 ≤ x then ⌊x + 1 / 2⌋ else -⌊-x + 1 / 2⌋

section
variable {x : Rat} {n : Int}

theorem goRound_of_nonneg (h : 0 ≤ x) : goRound x = ⌊x + 1 / 2⌋ := if_pos h

theorem le_goRound_iff (h : 0 ≤ x) : n ≤ goRound x ↔ n ≤ x + 1 / 2 := by
  rw [goRound_of_nonneg h, Int.le_floor]

theorem goRound_lt_iff (h : 0 ≤ x) : goRound x < n ↔ x + 1 / 2 < n := by
  rw [goRound_of_nonneg h, Int.floor_lt]

theorem goRound_nonneg (h : 0 ≤ x) : 0 ≤ goRound x := by
  rw [le_goRound_iff h]
  push_cast
  linarith

theorem goRound_le (h : 0 ≤ x) (hn : x ≤ n) : goRound x ≤ n := by
  rw [← Int.lt_add_one_iff, goRound_lt_iff h]
  push_cast
  linarith

theorem goRound_pos_iff (h : 0 ≤ x) : 0 < goRound x ↔ 1 / 2 ≤ x := by
  rw [← Int.add_one_le_iff, le_goRound_iff h]
  push_cast
  constructor
  · intro hle
    linarith
  · intro hle
    linarith

/-- Two lengths that fill a whole one are both rounded up exactly when each ends in a half. -/
theorem goRound_add_goRound_le_iff (hx : 0 ≤ x) (hy : 0 ≤ y) (hn : x + y ≤ n) :
    goRound x + goRound y ≤ n ↔ (x + y = n → Int.fract x ≠ 1 / 2) := by
  have hx' := (le_goRound_iff hx).1 (le_refl (goRound x))
  have hy' := (le_goRound_iff hy).1 (le_refl (goRound y))
  constructor
  · intro hle heq hfract
    have hwhole : x + 1 / 2 = ((⌊x⌋ + 1 : Int) : Rat) := by
      push_cast
      linarith [Int.floor_add_fract x]
    have hround : goRound x = ⌊x⌋ + 1 := by
      rw [goRound_of_nonneg hx, hwhole, Int.floor_intCast]
    have hround' : goRound y = n - ⌊x⌋ := by
      have hwhole' : y + 1 / 2 = ((n - ⌊x⌋ : Int) : Rat) := by
        push_cast
        linarith [Int.floor_add_fract x]
      rw [goRound_of_nonneg hy, hwhole', Int.floor_intCast]
    omega
  · intro h
    by_contra hlt
    have hsum : ((n + 1 : Int) : Rat) ≤ ((goRound x + goRound y : Int) : Rat) := by
      exact_mod_cast not_le.1 hlt
    push_cast at hsum
    apply h (by linarith)
    have hwhole : x = ((goRound x - 1 : Int) : Rat) + 1 / 2 := by
      push_cast
      linarith
    rw [hwhole, Int.fract_intCast_add, Int.fract_eq_self]
    norm_num

@[simp] theorem goRound_intCast (n : Int) : goRound n = n := by
  rw [goRound]
  split
  · rw [add_comm, Int.floor_add_intCast]
    norm_num
  · rw [add_comm, ← Int.cast_neg, Int.floor_add_intCast]
    norm_num

end

/-- A natural number as a double: to the nearest with 53 bits, and to the even one between two. What is too large is
infinite. -/
def toBinary64 (n : Nat) : WithTop Nat :=
  let unit := 2 ^ (Nat.log 2 n - 52)
  let rounded :=
    if 2 * (n % unit) < unit ∨ 2 * (n % unit) = unit ∧ n / unit % 2 = 0 then n / unit * unit
    else (n / unit + 1) * unit
  if Nat.log 2 rounded < 1024 then rounded else ⊤

theorem toBinary64_of_lt (h : n < 2 ^ 53) : toBinary64 n = n := by
  have hlog : Nat.log 2 n < 53 := Nat.log_lt_of_lt_pow' (by decide) h
  have hunit : Nat.log 2 n - 52 = 0 := by omega
  have hfinite : Nat.log 2 n < 1024 := by omega
  have hrounded : 2 * (n % 1) < 1 := by omega
  simp only [toBinary64, hunit, Nat.pow_zero, Nat.div_one, Nat.mul_one, hrounded, true_or, if_true, hfinite]

example : toBinary64 9007199254740993 = (9007199254740992 : Nat) := by decide +kernel

end Trakrai.Lib
