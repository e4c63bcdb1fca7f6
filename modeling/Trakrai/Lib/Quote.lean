import Mathlib.Data.List.Basic
import Mathlib.Tactic.Ring

namespace Trakrai.Lib
open String Option List

/-- `strconv.IsPrint` of Go, a table of Unicode. -/
structure GoPrint where
  isPrint : Char → Bool
  isPrint_control : ∀ c, c.toNat < 32 → isPrint c = false

def shortEscape : Char → Option Char
  | '\x07' => some 'a'
  | '\x08' => some 'b'
  | '\x0c' => some 'f'
  | '\n' => some 'n'
  | '\r' => some 'r'
  | '\t' => some 't'
  | '\x0b' => some 'v'
  | _ => none

/-- The hexadecimal numeral of `n` with exactly `w` digits. -/
def hexPad : Nat → Nat → List Char
  | 0, _ => []
  | w + 1, n => Nat.digitChar (n / 16 ^ w % 16) :: hexPad w n

def goEscape (table : GoPrint) (c : Char) : List Char :=
  if c = '"' ∨ c = '\\' then ['\\', c]
  else if table.isPrint c then [c]
  else match shortEscape c with
    | some letter => ['\\', letter]
    | none =>
      if c.toNat < 32 ∨ c.toNat = 127 then '\\' :: 'x' :: hexPad 2 c.toNat
      else if c.toNat < 0x10000 then '\\' :: 'u' :: hexPad 4 c.toNat
      else '\\' :: 'U' :: hexPad 8 c.toNat

def asciiPrint : GoPrint where
  isPrint c := 32 ≤ c.toNat && c.toNat != 127
  isPrint_control := by
    intro c hc
    simp only [Bool.and_eq_false_iff, decide_eq_false_iff_not]
    exact .inl (by omega)

/-- `strconv.Quote` of Go. -/
def goQuote (table : GoPrint) (s : String) : String :=
  String.ofList ('"' :: (s.toList.flatMap (goEscape table) ++ ['"']))

/-- Where the reader of a quoted text stands: between characters, behind a backslash, or before so many
more digits of a number. -/
inductive Reading where
  | plain
  | escape
  | digits (base left value : Nat)

def digitValue (base : Nat) (c : Char) : Option Nat :=
  (if '0' ≤ c ∧ c ≤ '9' then some (c.toNat - 48)
  else if 'a' ≤ c ∧ c ≤ 'f' then some (c.toNat - 87)
  else if 'A' ≤ c ∧ c ≤ 'F' then some (c.toNat - 55)
  else none).filter (· < base)

def letterValue : Char → Option Char
  | 'a' => some '\x07'
  | 'b' => some '\x08'
  | 'f' => some '\x0c'
  | 'n' => some '\n'
  | 'r' => some '\r'
  | 't' => some '\t'
  | 'v' => some '\x0b'
  | '\\' => some '\\'
  | '"' => some '"'
  | '\'' => some '\''
  | 's' => some ' '
  | _ => none

def numberEscape (c : Char) : Option Reading :=
  if c = 'x' then some (.digits 16 2 0)
  else if c = 'u' then some (.digits 16 4 0)
  else if c = 'U' then some (.digits 16 8 0)
  else (digitValue 8 c).map (.digits 8 2)

/-- The text that a body with the escapes of C writes. -/
def unescape : Reading → List Char → Option (List Char)
  | .plain, [] => some []
  | _, [] => none
  | .plain, c :: rest =>
    if c = '\\' then unescape .escape rest
    else if c = '"' then none
    else (unescape .plain rest).map (c :: ·)
  | .escape, c :: rest =>
    match numberEscape c with
    | some reading => unescape reading rest
    | none => (letterValue c).bind fun d => (unescape .plain rest).map (d :: ·)
  | .digits base left value, c :: rest =>
    (digitValue base c).bind fun d =>
      if left ≤ 1 then (unescape .plain rest).map (Char.ofNat (base * value + d) :: ·)
      else unescape (.digits base (left - 1) (base * value + d)) rest

def unquote (s : String) : Option String :=
  match s.toList with
  | '"' :: rest =>
    if rest.getLast? = some '"' then (unescape .plain rest.dropLast).map String.ofList else none
  | _ => none

section
variable {table : GoPrint} {c : Char} {rest : List Char}

theorem digitValue_digitChar (h : d < 16) : digitValue 16 (Nat.digitChar d) = some d := by
  have hall : ∀ d : Fin 16, digitValue 16 (Nat.digitChar d) = some d.val := by decide
  exact hall ⟨d, h⟩

theorem unescape_hexPad (w n value : Nat) :
    unescape (.digits 16 (w + 1) value) (hexPad (w + 1) n ++ rest) =
      (unescape .plain rest).map (Char.ofNat (16 ^ (w + 1) * value + n % 16 ^ (w + 1)) :: ·) := by
  induction w generalizing value with
  | zero =>
    rw [hexPad, hexPad, cons_append, unescape, digitValue_digitChar (Nat.mod_lt _ (by decide))]
    simp
  | succ w ih =>
    have hmod : n % 16 ^ (w + 1 + 1) = n % 16 ^ (w + 1) + 16 ^ (w + 1) * (n / 16 ^ (w + 1) % 16) :=
      Nat.mod_pow_succ
    have hvalue : 16 ^ (w + 1) * (16 * value + n / 16 ^ (w + 1) % 16) + n % 16 ^ (w + 1) =
        16 ^ (w + 1 + 1) * value + n % 16 ^ (w + 1 + 1) := by
      rw [hmod]
      ring
    rw [hexPad, cons_append, unescape, digitValue_digitChar (Nat.mod_lt _ (by decide)),
      bind_some, if_neg (by omega), Nat.add_sub_cancel, ih, hvalue]

theorem toNat_lt_pow (c : Char) : c.toNat < 16 ^ 8 := by
  have hlt : c.toNat < 2 ^ 32 := c.val.toNat_lt
  exact hlt.trans_eq (by norm_num)

theorem unescape_goEscape :
    unescape .plain (goEscape table c ++ rest) = (unescape .plain rest).map (c :: ·) := by
  rw [goEscape]
  split
  · rename_i hquote
    rcases hquote with rfl | rfl
    · rfl
    · rfl
  · rename_i hquote
    rw [not_or] at hquote
    split
    · rw [singleton_append, unescape, if_neg hquote.2, if_neg hquote.1]
    · split
      · rename_i letter hletter
        rw [shortEscape.eq_def] at hletter
        split at hletter <;> cases hletter <;> rfl
      · split
        · rename_i hlow
          change unescape (.digits 16 2 0) (hexPad 2 c.toNat ++ rest) = _
          rw [unescape_hexPad 1, Nat.mul_zero, Nat.zero_add, Nat.mod_eq_of_lt (by omega), Char.ofNat_toNat]
        · split
          · rename_i hlow
            change unescape (.digits 16 4 0) (hexPad 4 c.toNat ++ rest) = _
            rw [unescape_hexPad 3, Nat.mul_zero, Nat.zero_add, Nat.mod_eq_of_lt (by omega),
              Char.ofNat_toNat]
          · change unescape (.digits 16 8 0) (hexPad 8 c.toNat ++ rest) = _
            rw [unescape_hexPad 7, Nat.mul_zero, Nat.zero_add, Nat.mod_eq_of_lt (toNat_lt_pow c),
              Char.ofNat_toNat]

theorem unescape_flatMap (text : List Char) :
    unescape .plain (text.flatMap (goEscape table)) = some text := by
  induction text with
  | nil => rfl
  | cons c text ih => rw [flatMap_cons, unescape_goEscape, ih, map_some]

theorem unquote_goQuote (table : GoPrint) (s : String) : unquote (goQuote table s) = some s := by
  simp only [unquote, goQuote, toList_ofList, List.getLast?_concat, if_true, dropLast_concat,
    unescape_flatMap, map_some, ofList_toList]

theorem le_of_mem_hexPad (h : c ∈ hexPad w n) : 32 ≤ c.toNat := by
  induction w with
  | zero => cases h
  | succ w ih =>
    rw [hexPad, mem_cons] at h
    rcases h with rfl | h
    · have hall : ∀ d : Fin 16, 32 ≤ (Nat.digitChar d).toNat := by decide
      exact hall ⟨_, Nat.mod_lt _ (by decide)⟩
    · exact ih h

theorem le_of_shortEscape (h : shortEscape c = some letter) : 32 ≤ letter.toNat := by
  rw [shortEscape.eq_def] at h
  split at h <;> cases h <;> decide

theorem le_of_mem_goEscape (h : d ∈ goEscape table c) : 32 ≤ d.toNat := by
  have hescape {letter : Char} {digits : List Char} (hletter : 32 ≤ letter.toNat)
      (hdigits : ∀ d ∈ digits, 32 ≤ d.toNat) (h : d ∈ '\\' :: letter :: digits) : 32 ≤ d.toNat := by
    rw [mem_cons, mem_cons] at h
    rcases h with rfl | rfl | h
    · decide
    · exact hletter
    · exact hdigits d h
  rw [goEscape] at h
  split at h
  · rename_i hquote
    refine hescape ?_ (forall_mem_nil _) h
    rcases hquote with rfl | rfl <;> decide
  · split at h
    · rename_i hprint
      rw [mem_singleton] at h
      subst d
      by_contra hlt
      rw [table.isPrint_control c (by omega)] at hprint
      cases hprint
    · split at h
      · exact hescape (le_of_shortEscape ‹_›) (forall_mem_nil _) h
      · split at h
        · exact hescape (by decide) (fun d => le_of_mem_hexPad) h
        · split at h
          · exact hescape (by decide) (fun d => le_of_mem_hexPad) h
          · exact hescape (by decide) (fun d => le_of_mem_hexPad) h

theorem le_of_mem_goQuote (h : c ∈ (goQuote table s).toList) : 32 ≤ c.toNat := by
  rw [goQuote, toList_ofList, mem_cons, mem_append, mem_singleton] at h
  rcases h with rfl | h | rfl
  · decide
  · obtain ⟨d, -, hc⟩ := mem_flatMap.1 h
    exact le_of_mem_goEscape hc
  · decide

end

end Trakrai.Lib
