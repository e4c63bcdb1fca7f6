import Mathlib.Data.List.DropRight
import Trakrai.Lib.Table

namespace Trakrai.Lib
open List

/-- A text without the characters of a class at its two ends. -/
def trimWith (p : Char → Bool) (s : String) : String :=
  String.ofList ((s.toList.dropWhile p).rdropWhile p)

/-- The characters that `unicode.IsSpace` of Go accepts. -/
def isGoSpace (c : Char) : Bool :=
  c.toNat ∈ [0x09, 0x0a, 0x0b, 0x0c, 0x0d, 0x20, 0x85, 0xa0, 0x1680, 0x2028, 0x2029, 0x202f,
    0x205f, 0x3000] || (0x2000 ≤ c.toNat && c.toNat ≤ 0x200a)

/-- White space and line terminators of ECMAScript. -/
def isJsSpace (c : Char) : Bool :=
  c.toNat ∈ [0x09, 0x0a, 0x0b, 0x0c, 0x0d, 0x20, 0xa0, 0x1680, 0x2028, 0x2029, 0x202f,
    0x205f, 0x3000, 0xfeff] || (0x2000 ≤ c.toNat && c.toNat ≤ 0x200a)

/-- The characters that `str.isspace` of Python accepts. -/
def isPySpace (c : Char) : Bool :=
  c.toNat ∈ [0x09, 0x0a, 0x0b, 0x0c, 0x0d, 0x1c, 0x1d, 0x1e, 0x1f, 0x20, 0x85, 0xa0, 0x1680,
    0x2028, 0x2029, 0x202f, 0x205f, 0x3000] || (0x2000 ≤ c.toNat && c.toNat ≤ 0x200a)

/-- `str.strip` of Python. -/
def pyStrip (s : String) : String := trimWith isPySpace s

/-- `strings.TrimSpace` of Go. -/
def goTrimSpace (s : String) : String := trimWith isGoSpace s

/-- `String.prototype.trim` of ECMAScript. -/
def jsTrim (s : String) : String := trimWith isJsSpace s

theorem trimWith_idem (p : Char → Bool) (s : String) : trimWith p (trimWith p s) = trimWith p s := by
  have hdrop : ((s.toList.dropWhile p).rdropWhile p).dropWhile p =
      (s.toList.dropWhile p).rdropWhile p := by
    rw [dropWhile_eq_self_iff]
    intro hl
    have hpre := rdropWhile_prefix p (s.toList.dropWhile p)
    have hne : s.toList.dropWhile p ≠ [] := by
      intro he
      simp only [he, rdropWhile_nil, length_nil, lt_irrefl] at hl
    have hhead := dropWhile_eq_self_iff.1 (dropWhile_idempotent p s.toList)
      (length_pos_iff.2 hne)
    rw [hpre.getElem hl]
    exact hhead
  simp only [trimWith, String.toList_ofList, hdrop, rdropWhile_idempotent p _]

theorem goTrimSpace_idem (s : String) : goTrimSpace (goTrimSpace s) = goTrimSpace s :=
  trimWith_idem isGoSpace s

theorem forall_mem_of_all {P : Char → Prop} [DecidablePred P] {cs : List Char} (h : cs.all (P ·) = true) :
    ∀ c ∈ cs, P c := fun c hc => of_decide_eq_true (all_eq_true.1 h c hc)

theorem trimWith_of_ends (hhead : ∀ c ∈ s.toList.head?, ¬ p c)
    (hlast : ∀ c ∈ s.toList.getLast?, ¬ p c) : trimWith p s = s := by
  have hdrop : s.toList.dropWhile p = s.toList := by
    rw [dropWhile_eq_self_iff]
    intro hl
    exact hhead _ (by rw [List.head?_eq_getElem?, List.getElem?_eq_getElem hl]; rfl)
  have hrdrop : s.toList.rdropWhile p = s.toList := by
    rw [rdropWhile_eq_self_iff]
    intro hne
    exact hlast _ (List.getLast?_eq_some_getLast hne)
  rw [trimWith, hdrop, hrdrop, String.ofList_toList]

theorem ends_of_trimWith (h : trimWith p s = s) :
    (∀ c ∈ s.toList.head?, ¬ p c) ∧ ∀ c ∈ s.toList.getLast?, ¬ p c := by
  have hs : (s.toList.dropWhile p).rdropWhile p = s.toList := by
    rw [← String.toList_ofList (l := (s.toList.dropWhile p).rdropWhile p), ← trimWith, h]
  constructor
  · intro c hc hp
    obtain ⟨rest, hrest⟩ := List.head?_eq_some_iff.1 hc
    have hlength := (List.rdropWhile_prefix p (s.toList.dropWhile p)).length_le
    have hdrop := (dropWhile_sublist (l := rest) p).length_le
    rw [hs, hrest, dropWhile_cons_of_pos hp, length_cons] at hlength
    omega
  · intro c hc
    have hne : (s.toList.dropWhile p).rdropWhile p ≠ [] := by
      rw [hs]
      rintro hnil
      rw [hnil] at hc
      cases hc
    have hlast := rdropWhile_last_not p _ hne
    rwa [getLast_congr hne (hs ▸ hne) hs, List.getLast_of_mem_getLast? hc] at hlast

theorem trimWith_of_length (h : s.length ≤ (trimWith p s).length) : trimWith p s = s := by
  have hsub : ((s.toList.dropWhile p).rdropWhile p).Sublist s.toList :=
    (List.rdropWhile_prefix _ _).sublist.trans (dropWhile_sublist _)
  have hlength : s.toList.length ≤ ((s.toList.dropWhile p).rdropWhile p).length := by
    rwa [← String.toList_ofList (l := (s.toList.dropWhile p).rdropWhile p), String.length_toList,
      String.length_toList]
  rw [trimWith, hsub.eq_of_length_le hlength, String.ofList_toList]

theorem jsTrim_idem (s : String) : jsTrim (jsTrim s) = jsTrim s := trimWith_idem isJsSpace s

/-- The order of ECMAScript strings, by UTF-16 code units. -/
def utf16 (s : String) : List Nat :=
  s.toList.flatMap fun c =>
    if c.toNat < 0x10000 then [c.toNat]
    else [0xd800 + (c.toNat - 0x10000) / 0x400, 0xdc00 + (c.toNat - 0x10000) % 0x400]

/-- `String.prototype.split` of ECMAScript at a single character. -/
def jsSplit (c : Char) (s : String) : List String := (s.toList.splitOn c).map String.ofList

/-- `Array.prototype.join` of ECMAScript with a single character. -/
def jsJoin (c : Char) (parts : List String) : String :=
  String.ofList ([c].intercalate (parts.map String.toList))

theorem not_of_mem_splitOnPPrepend {p : α → Bool} {xs acc l : List α} (hacc : ∀ a ∈ acc, ¬ p a)
    (h : l ∈ xs.splitOnPPrepend p acc) : ∀ a ∈ l, ¬ p a := by
  induction xs generalizing acc with
  | nil =>
    intro a ha
    rw [splitOnPPrepend_nil, mem_singleton] at h
    exact hacc a (by simpa only [h, List.mem_reverse] using ha)
  | cons x xs ih =>
    cases hx : p x with
    | true =>
      rw [splitOnPPrepend_cons_pos hx, mem_cons] at h
      rcases h with rfl | h
      · exact fun a ha => hacc a (List.mem_reverse.1 ha)
      · exact ih (by simp) h
    | false =>
      rw [splitOnPPrepend_cons_neg hx] at h
      exact ih (forall_mem_cons.2 ⟨by simp [hx], hacc⟩) h

theorem not_mem_of_mem_jsSplit {c : Char} (h : part ∈ jsSplit c s) : c ∉ part.toList := by
  obtain ⟨l, hl, rfl⟩ := mem_map.1 h
  rw [String.toList_ofList]
  intro hc
  exact not_of_mem_splitOnPPrepend (by simp) hl c hc (beq_self_eq_true c)

theorem jsSplit_jsJoin (hc : ∀ part ∈ parts, c ∉ part.toList) (hne : parts ≠ []): jsSplit c (jsJoin c parts) = parts := by
  rw [jsSplit, jsJoin, String.toList_ofList, splitOn_intercalate]
  · rw [map_map]
    conv => rhs; rw [← map_id parts]
    exact map_congr_left fun part _ => String.ofList_toList
  · intro l hl
    obtain ⟨part, hp, rfl⟩ := mem_map.1 hl
    exact hc part hp
  · simpa only [ne_eq, map_eq_nil_iff] using hne

theorem jsSplit_of_not_mem (h : c ∉ s.toList) : jsSplit c s = [s] := by
  have hs : jsJoin c [s] = s := by simp [jsJoin]
  conv => lhs; rw [← hs]
  exact jsSplit_jsJoin (by simpa using h) (by simp)

theorem jsJoin_jsSplit (c : Char) (s : String) : jsJoin c (jsSplit c s) = s := by
  have hparts : (jsSplit c s).map String.toList = s.toList.splitOn c := by
    rw [jsSplit, map_map]
    conv_rhs => rw [← map_id (s.toList.splitOn c)]
    exact map_congr_left fun part _ => String.toList_ofList
  rw [jsJoin, hparts, intercalate_splitOn, String.ofList_toList]

/-- `unicode.ToLower` of Go, a table of Unicode. -/
structure GoLower where
  toLower : Char → Char
  toLower_toLower : ∀ c, toLower (toLower c) = toLower c
  isGoSpace_toLower : ∀ c, isGoSpace (toLower c) = isGoSpace c

/-- `strings.ToLower` of Go. -/
def GoLower.text (table : GoLower) (s : String) : String := String.ofList (s.toList.map table.toLower)

def asciiLetters : List (Char × Char) :=
  "ABCDEFGHIJKLMNOPQRSTUVWXYZ".toList.zip "abcdefghijklmnopqrstuvwxyz".toList

def asciiToLower (c : Char) : Char := (asciiLetters.lookup c).getD c

theorem asciiToLower_cases (c : Char) : asciiToLower c = c ∨ (c, asciiToLower c) ∈ asciiLetters := by
  rw [asciiToLower]
  cases h : asciiLetters.lookup c with
  | none => exact .inl rfl
  | some d => exact .inr (mem_of_lookup h)

def asciiLower : GoLower where
  toLower := asciiToLower
  toLower_toLower c := by
    have hletters : ∀ pair ∈ asciiLetters, asciiToLower pair.2 = pair.2 := by decide
    rcases asciiToLower_cases c with h | h
    · rw [h, h]
    · exact hletters _ h
  isGoSpace_toLower c := by
    have hletters : ∀ pair ∈ asciiLetters, isGoSpace pair.2 = isGoSpace pair.1 := by decide
    rcases asciiToLower_cases c with h | h
    · rw [h]
    · exact hletters _ h

section
variable {table : GoLower} {s : String}

theorem GoLower.text_text (table : GoLower) (s : String) : table.text (table.text s) = table.text s := by
  simp only [text, String.toList_ofList, map_map, Function.comp_def, table.toLower_toLower]

theorem GoLower.text_ne_empty (h : s ≠ "") : table.text s ≠ "" := by
  intro hempty
  apply h
  have hlist := congrArg String.toList hempty
  rw [text, String.toList_ofList] at hlist
  exact String.toList_inj.1 (map_eq_nil_iff.1 hlist)

theorem GoLower.goTrimSpace_text (h : goTrimSpace s = s) : goTrimSpace (table.text s) = table.text s := by
  obtain ⟨hhead, hlast⟩ := ends_of_trimWith h
  apply trimWith_of_ends
  · intro c hc
    rw [text, String.toList_ofList, List.head?_map] at hc
    obtain ⟨d, hd, rfl⟩ := Option.map_eq_some_iff.1 hc
    rw [table.isGoSpace_toLower]
    exact hhead d hd
  · intro c hc
    rw [text, String.toList_ofList, List.getLast?_map] at hc
    obtain ⟨d, hd, rfl⟩ := Option.map_eq_some_iff.1 hc
    rw [table.isGoSpace_toLower]
    exact hlast d hd

end

end Trakrai.Lib
