import Mathlib.Data.String.Basic
import Trakrai.Lib.Numeral

namespace Trakrai.CloudTransfer
open List Lib

def isLeap (y : Nat) : Bool := y % 4 == 0 && (y % 100 != 0 || y % 400 == 0)

def monthLength (y : Nat) : Nat → Nat
  | 1 | 3 | 5 | 7 | 8 | 10 | 12 => 31
  | 4 | 6 | 9 | 11 => 30
  | 2 => if isLeap y then 29 else 28
  | _ => 0

/-- A UTC instant with nanosecond precision in the years 0000 to 9999. -/
structure Instant where
  year : Nat
  month : Nat
  day : Nat
  hour : Nat
  minute : Nat
  second : Nat
  nano : Nat
  year_le : year ≤ 9999
  month_pos : 1 ≤ month
  month_le : month ≤ 12
  day_pos : 1 ≤ day
  day_le : day ≤ monthLength year month
  hour_lt : hour < 24
  minute_lt : minute < 60
  second_lt : second < 60
  nano_lt : nano < 10 ^ 9
deriving DecidableEq

def daysBeforeYear (y : Nat) : Nat := 365 * y + (y + 3) / 4 + (y + 399) / 400 - (y + 99) / 100

def daysBeforeMonth (y : Nat) : Nat → Nat
  | 0 => 0
  | m + 1 => daysBeforeMonth y m + monthLength y m

def Instant.dayNumber (t : Instant) : Nat :=
  daysBeforeYear t.year + daysBeforeMonth t.year t.month + (t.day - 1)

def Instant.seconds (t : Instant) : Nat :=
  ((t.dayNumber * 24 + t.hour) * 60 + t.minute) * 60 + t.second

def Instant.nanos (t : Instant) : Nat := t.seconds * 10 ^ 9 + t.nano

instance : LE Instant := ⟨fun t u => t.nanos ≤ u.nanos⟩
instance : LT Instant := ⟨fun t u => t.nanos < u.nanos⟩
instance (t u : Instant) : Decidable (t ≤ u) := inferInstanceAs (Decidable (t.nanos ≤ u.nanos))
instance (t u : Instant) : Decidable (t < u) := inferInstanceAs (Decidable (t.nanos < u.nanos))

theorem daysBeforeYear_succ (y : Nat) :
    daysBeforeYear (y + 1) = daysBeforeYear y + daysBeforeMonth y 13 := by
  have hm : daysBeforeMonth y 13 = if isLeap y then 366 else 365 := by
    simp only [daysBeforeMonth, monthLength]
    split <;> rfl
  have h4 : (y + 1 + 3) / 4 = (y + 3) / 4 + if y % 4 = 0 then 1 else 0 := by split <;> omega
  have h100 : (y + 1 + 99) / 100 = (y + 99) / 100 + if y % 100 = 0 then 1 else 0 := by
    split <;> omega
  have h400 : (y + 1 + 399) / 400 = (y + 399) / 400 + if y % 400 = 0 then 1 else 0 := by
    split <;> omega
  have hle : (y + 99) / 100 ≤ (y + 3) / 4 := by omega
  rw [hm, daysBeforeYear, daysBeforeYear, h4, h100, h400]
  simp only [isLeap, Bool.and_eq_true, beq_iff_eq, Bool.or_eq_true, bne_iff_ne]
  generalize (y + 99) / 100 = c at hle ⊢
  generalize (y + 3) / 4 = q at hle ⊢
  generalize (y + 399) / 400 = g
  by_cases hy4 : y % 4 = 0
  · by_cases hy100 : y % 100 = 0
    · by_cases hy400 : y % 400 = 0
      · simp only [hy4, hy100, hy400, if_true, or_true, and_self]
        omega
      · simp only [hy4, hy100, hy400, if_true, if_false, ne_eq, not_true, or_self, and_false]
        omega
    · have hy400 : ¬ y % 400 = 0 := by omega
      simp only [hy4, hy100, hy400, if_true, if_false, ne_eq, not_false_eq_true, true_or, and_self]
      omega
  · have hy100 : ¬ y % 100 = 0 := by omega
    have hy400 : ¬ y % 400 = 0 := by omega
    simp only [hy4, hy100, hy400, if_false, false_and]
    omega

theorem daysBeforeYear_mono (h : y ≤ y') : daysBeforeYear y ≤ daysBeforeYear y' := by
  induction h with
  | refl => exact Nat.le_refl _
  | step h ih =>
    rw [daysBeforeYear_succ]
    exact Nat.le_trans ih (Nat.le_add_right _ _)

theorem daysBeforeMonth_mono (y : Nat) (h : m ≤ m') : daysBeforeMonth y m ≤ daysBeforeMonth y m' := by
  induction h with
  | refl => exact Nat.le_refl _
  | step h ih => exact Nat.le_trans ih (Nat.le_add_right _ _)

section
variable (t : Instant)

theorem Instant.dayNumber_lt_month :
    t.dayNumber < daysBeforeYear t.year + daysBeforeMonth t.year (t.month + 1) := by
  have hd := t.day_le
  have hp := t.day_pos
  simp only [Instant.dayNumber, daysBeforeMonth]
  omega

theorem Instant.dayNumber_lt_year : t.dayNumber < daysBeforeYear (t.year + 1) := by
  have hm := t.month_le
  have hlt := t.dayNumber_lt_month
  have hle := daysBeforeMonth_mono t.year (show t.month + 1 ≤ 13 by omega)
  rw [daysBeforeYear_succ]
  omega

theorem Instant.dayNumber_lt (t u : Instant)
    (h : t.year < u.year ∨ t.year = u.year ∧ (t.month < u.month ∨
      t.month = u.month ∧ t.day < u.day)) : t.dayNumber < u.dayNumber := by
  rcases h with hy | ⟨hy, hm | ⟨hm, hd⟩⟩
  · have hlt := t.dayNumber_lt_year
    have hle : daysBeforeYear (t.year + 1) ≤ daysBeforeYear u.year := daysBeforeYear_mono hy
    simp only [Instant.dayNumber] at *
    omega
  · have hlt := t.dayNumber_lt_month
    have hle := daysBeforeMonth_mono t.year (show t.month + 1 ≤ u.month from hm)
    rw [hy] at hlt hle
    simp only [Instant.dayNumber] at *
    rw [hy] at *
    omega
  · have hp := t.day_pos
    simp only [Instant.dayNumber, hy, hm]
    omega

/-- `value.UTC().Format(time.RFC3339Nano)` up to the seconds. -/
def Instant.stamp : List Char :=
  pad 4 t.year ++ '-' :: (pad 2 t.month ++ '-' :: (pad 2 t.day ++ 'T' ::
    (pad 2 t.hour ++ ':' :: (pad 2 t.minute ++ ':' :: pad 2 t.second))))

/-- The layout's `.999999999`: trailing zeros are dropped, and the point with them
when nothing is left. -/
def fraction (nano : Nat) : List Char :=
  if nano = 0 then [] else '.' :: trimmed 9 nano

def formatTime : String :=
  String.ofList (t.stamp ++ (fraction t.nano ++ ['Z']))

@[simp] theorem Instant.stamp_length : t.stamp.length = 19 := by
  simp only [Instant.stamp, length_append, length_cons, pad_length]

end

theorem pad_append_lt_iff (ha : a < 10 ^ w) (hb : b < 10 ^ w) (c : Char) :
    pad w a ++ c :: s < pad w b ++ c :: t ↔ a < b ∨ a = b ∧ s < t := by
  rw [append_lt_append_iff (by simp only [pad_length]), pad_lt_iff ha hb]
  simp only [cons_lt_cons_iff, lt_irrefl, true_and, false_or]
  constructor
  · rintro (h | ⟨he, h⟩)
    · exact .inl h
    · exact .inr ⟨pad_inj ha hb he, h⟩
  · rintro (h | ⟨he, h⟩)
    · exact .inl h
    · exact .inr ⟨by rw [he], h⟩

section
variable (t u : Instant)

theorem Instant.stamp_lt_fields :
    t.stamp < u.stamp ↔ t.year < u.year ∨ t.year = u.year ∧ (t.month < u.month ∨
      t.month = u.month ∧ (t.day < u.day ∨ t.day = u.day ∧ (t.hour < u.hour ∨
        t.hour = u.hour ∧ (t.minute < u.minute ∨ t.minute = u.minute ∧ t.second < u.second)))) := by
  have hmonth (t : Instant) : t.month < 10 ^ 2 := by have := t.month_le; omega
  have hday (t : Instant) : t.day < 10 ^ 2 := by
    have hd := t.day_le
    have hl : monthLength t.year t.month ≤ 31 := by
      unfold monthLength
      split <;> (try split) <;> omega
    omega
  have hyear (t : Instant) : t.year < 10 ^ 4 := by have := t.year_le; omega
  have hhour (t : Instant) : t.hour < 10 ^ 2 := by have := t.hour_lt; omega
  have hminute (t : Instant) : t.minute < 10 ^ 2 := by have := t.minute_lt; omega
  have hsecond (t : Instant) : t.second < 10 ^ 2 := by have := t.second_lt; omega
  simp only [Instant.stamp, pad_append_lt_iff (hyear t) (hyear u),
    pad_append_lt_iff (hmonth t) (hmonth u), pad_append_lt_iff (hday t) (hday u),
    pad_append_lt_iff (hhour t) (hhour u), pad_append_lt_iff (hminute t) (hminute u),
    pad_lt_iff (hsecond t) (hsecond u)]

theorem Instant.seconds_lt_of_stamp (h : t.stamp < u.stamp) :
    t.seconds < u.seconds := by
  have ht := t.hour_lt
  have ht' := t.minute_lt
  have ht'' := t.second_lt
  rw [Instant.stamp_lt_fields] at h
  simp only [Instant.seconds]
  by_cases hd : t.year < u.year ∨ t.year = u.year ∧ (t.month < u.month ∨
      t.month = u.month ∧ t.day < u.day)
  · have hlt := t.dayNumber_lt u hd
    omega
  · have hy : t.year = u.year := by omega
    have hm : t.month = u.month := by omega
    have hday : t.day = u.day := by omega
    have he : t.dayNumber = u.dayNumber := by simp only [Instant.dayNumber, hy, hm, hday]
    omega

theorem Instant.stamp_lt_iff : t.stamp < u.stamp ↔ t.seconds < u.seconds := by
  refine ⟨t.seconds_lt_of_stamp u, fun h => ?_⟩
  rcases lt_trichotomy t.stamp u.stamp with hlt | he | hgt
  · exact hlt
  · have hf := (t.stamp_lt_fields u).not.1 (he ▸ lt_irrefl _)
    have hf' := (u.stamp_lt_fields t).not.1 (he ▸ lt_irrefl _)
    have hd : t.dayNumber = u.dayNumber := by
      simp only [Instant.dayNumber, show t.year = u.year by omega,
        show t.month = u.month by omega, show t.day = u.day by omega]
    simp only [Instant.seconds, hd] at h
    omega
  · exact absurd (u.seconds_lt_of_stamp t hgt) (by omega)

theorem Instant.stamp_eq_iff : t.stamp = u.stamp ↔ t.seconds = u.seconds := by
  have h := t.stamp_lt_iff u
  have h' := u.stamp_lt_iff t
  constructor
  · intro he
    have hn := h.not.1 (he ▸ lt_irrefl _)
    have hn' := h'.not.1 (he ▸ lt_irrefl _)
    omega
  · intro he
    rcases lt_trichotomy t.stamp u.stamp with hlt | heq | hgt
    · exact absurd (h.1 hlt) (by omega)
    · exact heq
    · exact absurd (h'.1 hgt) (by omega)

/-- The instants fall into one second, and the digits of one fraction continue those
of the other. -/
def Instant.FractionClash : Prop :=
  t.seconds = u.seconds ∧ t.nano ≠ u.nano ∧
    (trimmed 9 t.nano <+: trimmed 9 u.nano ∨ trimmed 9 u.nano <+: trimmed 9 t.nano)

end

instance (t u : Instant) : Decidable (t.FractionClash u) :=
  inferInstanceAs (Decidable (_ ∧ _ ∧ _))

theorem Instant.FractionClash.symm {t u : Instant} (h : t.FractionClash u) : u.FractionClash t :=
  ⟨h.1.symm, fun he => h.2.1 he.symm, h.2.2.symm⟩

theorem fraction_lt_iff (ha : a < 10 ^ 9) (hb : b < 10 ^ 9)
    (h : ¬ trimmed 9 a <+: trimmed 9 b) (h' : ¬ trimmed 9 b <+: trimmed 9 a) :
    fraction a ++ ['Z'] < fraction b ++ ['Z'] ↔ a < b := by
  have hza : a ≠ 0 := by
    rintro rfl
    exact h (by rw [trimmed_zero]; exact nil_prefix)
  have hzb : b ≠ 0 := by
    rintro rfl
    exact h' (by rw [trimmed_zero]; exact nil_prefix)
  simp only [fraction, if_neg hza, if_neg hzb, cons_append, cons_lt_cons_iff,
    lt_irrefl, true_and, false_or]
  rw [append_lt_append_of_incomparable h h', trimmed_lt_iff ha hb h h']

theorem fraction_lt_of_extends (ha : a < 10 ^ 9) (hb : b < 10 ^ 9) (hne : a ≠ b)
    (h : trimmed 9 a <+: trimmed 9 b) : fraction b ++ ['Z'] < fraction a ++ ['Z'] := by
  have hle := le_of_prefix_trimmed ha hb h
  have hzb : b ≠ 0 := by omega
  by_cases hza : a = 0
  · simp only [fraction, if_pos hza, if_neg hzb, nil_append, cons_append, cons_lt_cons_iff]
    exact .inl (by decide)
  · obtain ⟨c, hc⟩ := h
    simp only [fraction, if_neg hza, if_neg hzb, cons_append, cons_lt_cons_iff,
      lt_irrefl, true_and, false_or, ← hc, append_assoc, append_lt_append_left_iff]
    cases c with
    | nil => exact absurd (trimmed_inj ha hb (by simpa using hc)) hne
    | cons d c =>
      have hd := (mem_trimmed (w := 9) (n := b) (hc ▸ mem_append_right _ (mem_cons_self ..))).2
      exact cons_lt_cons_iff.2 (.inl (lt_of_le_of_lt hd (by decide)))

theorem formatTime_lt_iff_parts (t u : Instant) :
    formatTime t < formatTime u ↔ t.seconds < u.seconds ∨ t.seconds = u.seconds ∧
      fraction t.nano ++ ['Z'] < fraction u.nano ++ ['Z'] := by
  rw [String.lt_iff_toList_lt, formatTime, formatTime, String.toList_ofList,
    String.toList_ofList, append_lt_append_iff (by simp only [Instant.stamp_length]),
    Instant.stamp_lt_iff, Instant.stamp_eq_iff]

theorem formatTime_lt_iff (h : ¬ t.FractionClash u) : formatTime t < formatTime u ↔ t < u := by
  rw [formatTime_lt_iff_parts]
  change _ ↔ t.nanos < u.nanos
  have ht := t.nano_lt
  have hu := u.nano_lt
  simp only [Instant.nanos]
  by_cases hs : t.seconds = u.seconds
  · by_cases hn : t.nano = u.nano
    · simp only [hs, hn, lt_irrefl, and_false, or_false]
    · have hp : ¬ trimmed 9 t.nano <+: trimmed 9 u.nano := fun hp => h ⟨hs, hn, .inl hp⟩
      have hp' : ¬ trimmed 9 u.nano <+: trimmed 9 t.nano := fun hp => h ⟨hs, hn, .inr hp⟩
      rw [fraction_lt_iff ht hu hp hp']
      omega
  · simp only [hs, false_and, or_false]
    omega

theorem formatTime_le_iff {t u : Instant} (h : ¬ t.FractionClash u) :
    formatTime t ≤ formatTime u ↔ t ≤ u := by
  rw [← String.not_lt, formatTime_lt_iff (fun hc => h hc.symm)]
  exact Nat.not_lt

theorem Instant.FractionClash.reversed {t u : Instant} (h : t.FractionClash u)
    (hlt : t < u) : formatTime u < formatTime t := by
  obtain ⟨hs, hn, hp⟩ := h
  have hnano : t.nano < u.nano := by
    have hlt : t.nanos < u.nanos := hlt
    simp only [Instant.nanos, hs] at hlt
    omega
  rcases hp with hp | hp
  · exact (formatTime_lt_iff_parts u t).2
      (.inr ⟨hs.symm, fraction_lt_of_extends t.nano_lt u.nano_lt hn hp⟩)
  · exact absurd (le_of_prefix_trimmed u.nano_lt t.nano_lt hp) (by omega)

theorem formatTime_order_iff (t u : Instant) :
    (t ≤ u ↔ formatTime t ≤ formatTime u) ↔ ¬ t.FractionClash u := by
  refine ⟨fun h hc => ?_, fun h => (formatTime_le_iff h).symm⟩
  rcases Nat.lt_trichotomy t.nanos u.nanos with hlt | he | hgt
  · exact String.not_lt.2 (h.1 (Nat.le_of_lt hlt)) (hc.reversed hlt)
  · obtain ⟨hs, hn, _⟩ := hc
    simp only [Instant.nanos, hs] at he
    omega
  · exact Nat.not_le_of_lt hgt (h.2 (le_of_lt (hc.symm.reversed hgt)))

end Trakrai.CloudTransfer
