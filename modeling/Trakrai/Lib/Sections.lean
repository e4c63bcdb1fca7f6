import Trakrai.Lib.Split
import Trakrai.Lib.Text

namespace Trakrai.Lib
open Bool List

/-- What a format of sections and assignments leaves open: which characters end a line, and which
lines go on in the next. -/
structure LineSyntax where
  ends : Char → Bool
  continues : List Char → Bool
  ends_newline : ends '\n' = true
  ends_control : ∀ c, ends c = true → c.toNat < 32
  continues_backslash : ∀ line, continues line = true → line.getLast? = some '\\'

def isBlank (c : Char) : Bool := c == ' ' || c == '\t' || c == '\n' || c == '\r'

def stripped (line : List Char) : List Char := (line.dropWhile isBlank).rdropWhile isBlank

inductive Item where
  | section (name : String)
  | entry (key value : String)
  | malformed (line : String)
deriving DecidableEq, Repr

def itemOf (line : List Char) : Option Item :=
  match stripped line with
  | [] => none
  | '[' :: rest =>
    if rest.getLast? = some ']' then some (.section (String.ofList rest.dropLast))
    else some (.malformed (String.ofList ('[' :: rest)))
  | text =>
    if '=' ∈ text then
      some (.entry (String.ofList (stripped (text.takeWhile (· ≠ '='))))
        (String.ofList (stripped (text.dropWhile (· ≠ '=')).tail)))
    else some (.malformed (String.ofList text))

def isComment (line : List Char) : Bool :=
  (line.dropWhile isBlank).head? == some '#' || (line.dropWhile isBlank).head? == some ';'

namespace LineSyntax
variable (format : LineSyntax)

/-- A line that goes on takes the next one to it, with a space for its backslash. Comments between them
are left out. -/
def joinLines : Option (List Char) → List (List Char) → List (List Char)
  | none, [] => []
  | some pending, [] => [pending]
  | pending, line :: rest =>
    if isComment line then joinLines pending rest
    else if format.continues (pending.getD [] ++ line) then
      joinLines (some ((pending.getD [] ++ line).dropLast ++ [' '])) rest
    else (pending.getD [] ++ line) :: joinLines none rest

def parse (text : List Char) : List Item :=
  (format.joinLines none (text.splitOnP format.ends)).filterMap itemOf

structure LineValue (key value : String) : Prop where
  one_line : ∀ c ∈ value.toList, format.ends c = false
  bare : stripped value.toList = value.toList
  complete : format.continues (key.toList ++ '=' :: value.toList) = false

end LineSyntax

inductive Line where
  | blank
  | header (name : String)
  | entry (key value : String)
deriving DecidableEq, Repr

namespace Line

def text : Line → List Char
  | blank => []
  | header name => '[' :: (name.toList ++ [']'])
  | entry key value => key.toList ++ '=' :: value.toList

def item : Line → Option Item
  | blank => none
  | header name => some (.section name)
  | entry key value => some (.entry key value)

def Plain : Line → Prop
  | blank => True
  | header name => name.toList.all Char.isAlpha = true
  | entry key _ => key.toList ≠ [] ∧ key.toList.all Char.isAlpha = true

instance (line : Line) : Decidable line.Plain := by
  cases line <;> rw [Plain] <;> infer_instance

end Line

def render (lines : List Line) : List Char := lines.flatMap fun line => line.text ++ ['\n']

theorem render_append (xs ys : List Line) : render (xs ++ ys) = render xs ++ render ys :=
  flatMap_append

section
variable {line w xs : List Char} {c : Char}

theorem isAlpha_toNat (h : c.isAlpha = true) : 65 ≤ c.toNat ∧ c.toNat ≠ 91 ∧ c.toNat ≠ 92 := by
  have h : (decide ('A'.val ≤ c.val ∧ c.val ≤ 'Z'.val) ||
      ('a'.val ≤ c.val && c.val ≤ 'z'.val)) = true := h
  simp only [or_eq_true, and_eq_true, decide_eq_true_eq, UInt32.le_iff_toNat_le] at h
  simp only [Char.toNat] at h ⊢
  have ha : 'A'.val.toNat = 65 := rfl
  have hz : 'Z'.val.toNat = 90 := rfl
  have ha' : 'a'.val.toNat = 97 := rfl
  omega

theorem isAlpha_ne (h : c.isAlpha = true) (d : Char) (hd : d.isAlpha = false) : c ≠ d := by
  rintro rfl
  rw [h] at hd
  exact absurd hd (by decide)

theorem isBlank_of_isAlpha (h : c.isAlpha = true) : isBlank c = false := by
  have hne := isAlpha_ne h
  simp [isBlank, hne ' ' (by decide), hne '\t' (by decide), hne '\n' (by decide), hne '\r' (by decide)]

theorem rdropWhile_cons_of_neg {α : Type} {p : α → Bool} {x : α} (h : p x = false) (xs : List α) :
    (x :: xs).rdropWhile p = x :: xs.rdropWhile p := by
  rw [← singleton_append]
  by_cases hxs : xs.rdropWhile p = []
  · rw [rdropWhile_append_of_nil hxs, hxs]
    simp [List.rdropWhile, h]
  · exact rdropWhile_append_of_ne_nil hxs

theorem dropWhile_rdropWhile {α : Type} (p : α → Bool) (xs : List α) :
    (xs.rdropWhile p).dropWhile p = (xs.dropWhile p).rdropWhile p := by
  induction xs with
  | nil => rfl
  | cons x xs ih =>
    by_cases hx : p x = true
    · rw [dropWhile_cons_of_pos hx, ← ih, ← singleton_append]
      by_cases hxs : xs.rdropWhile p = []
      · rw [rdropWhile_append_of_nil hxs, hxs]
        simp [List.rdropWhile, hx]
      · rw [rdropWhile_append_of_ne_nil hxs, singleton_append, dropWhile_cons_of_pos hx]
    · rw [not_eq_true] at hx
      rw [rdropWhile_cons_of_neg hx, dropWhile_cons_of_neg (by simp [hx]),
        dropWhile_cons_of_neg (by simp [hx]), rdropWhile_cons_of_neg hx]

theorem stripped_rdropWhile (xs : List Char) : stripped (xs.rdropWhile isBlank) = stripped xs := by
  rw [stripped, dropWhile_rdropWhile, rdropWhile_idempotent, stripped]

theorem stripped_cons (h : isBlank c = false) (xs : List Char) :
    stripped (c :: xs) = c :: xs.rdropWhile isBlank := by
  rw [stripped, dropWhile_cons_of_neg (by simp [h]), rdropWhile_cons_of_neg h]

theorem stripped_idem (xs : List Char) : stripped (stripped xs) = stripped xs := by
  change stripped ((xs.dropWhile isBlank).rdropWhile isBlank) = stripped xs
  rw [stripped_rdropWhile, stripped, dropWhile_idempotent, stripped]

theorem rdropWhile_of_isAlpha (h : xs.all Char.isAlpha = true) (rest : List Char) :
    (xs ++ rest).rdropWhile isBlank = xs ++ rest.rdropWhile isBlank := by
  induction xs with
  | nil => rfl
  | cons x xs ih =>
    rw [all_cons, and_eq_true] at h
    rw [cons_append, rdropWhile_cons_of_neg (isBlank_of_isAlpha h.1), ih h.2, cons_append]

theorem stripped_of_isAlpha (h : xs.all Char.isAlpha = true) : stripped xs = xs := by
  have hdrop : xs.dropWhile isBlank = xs := by
    cases xs with
    | nil => rfl
    | cons x xs =>
      rw [all_cons, and_eq_true] at h
      exact dropWhile_cons_of_neg (by simp [isBlank_of_isAlpha h.1])
  have hkeep := rdropWhile_of_isAlpha h []
  rw [append_nil] at hkeep
  rw [stripped, hdrop, hkeep, rdropWhile_nil, append_nil]

theorem itemOf_entry {key : String} (hne : key.toList ≠ []) (h : key.toList.all Char.isAlpha = true)
    (w : List Char) :
    itemOf (key.toList ++ '=' :: w) = some (.entry key (String.ofList (stripped w))) := by
  have hstrip : stripped (key.toList ++ '=' :: w) = key.toList ++ '=' :: w.rdropWhile isBlank := by
    rw [stripped]
    have hdrop : (key.toList ++ '=' :: w).dropWhile isBlank = key.toList ++ '=' :: w := by
      obtain ⟨x, xs, hx⟩ := exists_cons_of_ne_nil hne
      rw [hx, all_cons, and_eq_true] at h
      rw [hx, cons_append, dropWhile_cons_of_neg (by simp [isBlank_of_isAlpha h.1])]
    rw [hdrop, rdropWhile_of_isAlpha h, rdropWhile_cons_of_neg (by decide)]
  have hkey : ∀ x ∈ key.toList, decide (x ≠ '=') = true := fun x hx =>
    decide_eq_true (isAlpha_ne (all_eq_true.1 h x hx) '=' (by decide))
  rw [itemOf, hstrip]
  split
  · rename_i hnil
    simp at hnil
  · rename_i rest hbracket
    obtain ⟨x, xs, hx⟩ := exists_cons_of_ne_nil hne
    rw [hx, all_cons, and_eq_true] at h
    rw [hx, cons_append, List.cons.injEq] at hbracket
    exact absurd hbracket.1 (isAlpha_ne h.1 '[' (by decide))
  · rw [if_pos (by simp), takeWhile_append_of_pos hkey, dropWhile_append_of_pos hkey]
    simp [stripped_rdropWhile, stripped_of_isAlpha h]

theorem itemOf_header (h : name.toList.all Char.isAlpha = true) :
    itemOf ('[' :: (name.toList ++ [']'])) = some (.section name) := by
  have hstrip : stripped ('[' :: (name.toList ++ [']'])) = '[' :: (name.toList ++ [']']) := by
    rw [stripped_cons (by decide), rdropWhile_of_isAlpha h]
    rfl
  rw [itemOf, hstrip]
  simp

theorem mem_of_mem_stripped (h : c ∈ stripped xs) : c ∈ xs :=
  (dropWhile_sublist _).subset ((List.rdropWhile_prefix _ _).subset h)

theorem itemOf_value (h : itemOf line = some (.entry key value)) :
    stripped value.toList = value.toList ∧ ∀ c ∈ value.toList, c ∈ line := by
  rw [itemOf] at h
  split at h
  · cases h
  · split at h
    · cases h
    · cases h
  · split at h
    · rw [Option.some.injEq, Item.entry.injEq] at h
      obtain ⟨-, rfl⟩ := h
      rw [String.toList_ofList]
      refine ⟨stripped_idem _, fun c hc => ?_⟩
      apply mem_of_mem_stripped
      exact (dropWhile_sublist _).subset (mem_of_mem_tail (mem_of_mem_stripped hc))
    · cases h

def Opens (line : List Char) : Prop :=
  ∀ c ∈ line.head?, isBlank c = false ∧ c ≠ '#' ∧ c ≠ ';' ∧ c ≠ '\\'

theorem opens_nil : Opens [] := nofun

theorem Opens.isComment_eq_false (h : Opens line) : isComment line = false := by
  cases line with
  | nil => rfl
  | cons c line =>
    obtain ⟨hblank, hhash, hsemicolon, -⟩ := h c rfl
    rw [isComment, dropWhile_cons_of_neg (by simp [hblank])]
    simp [hhash, hsemicolon]

theorem Opens.stripped_ne (h : Opens xs) : stripped (' ' :: xs) ≠ ['\\'] := by
  have hdrop : stripped (' ' :: xs) = stripped xs := rfl
  rw [hdrop]
  cases xs with
  | nil => decide
  | cons c xs =>
    obtain ⟨hblank, -, -, hne⟩ := h c rfl
    rw [stripped_cons hblank]
    exact fun he => hne (List.cons.inj he).1

theorem stripped_continued_ne (hbare : stripped (init ++ ['\\']) = init ++ ['\\']) (hxs : Opens xs): stripped (init ++ ' ' :: xs) ≠ init ++ ['\\'] := by
  cases init with
  | nil => exact hxs.stripped_ne
  | cons c init =>
    have hblank : isBlank c = false := by
      rw [eq_false_iff]
      intro hc
      have hlength : (stripped (c :: init ++ ['\\'])).length ≤ (init ++ ['\\']).length := by
        rw [stripped, cons_append, dropWhile_cons_of_pos hc]
        exact ((List.rdropWhile_prefix _ _).sublist.trans (dropWhile_sublist _)).length_le
      rw [hbare, cons_append, length_cons] at hlength
      omega
    intro he
    rw [cons_append, stripped_cons hblank, cons_append, List.cons.injEq] at he
    have hprefix : init ++ ['\\'] <+: init ++ ' ' :: xs := he.2 ▸ rdropWhile_prefix _ _
    rw [prefix_append_right_inj, cons_prefix_cons] at hprefix
    exact absurd hprefix.1 (by decide)

end

namespace LineSyntax
variable {format : LineSyntax} {line : List Char} {pieces : List (List Char)} {written : Line}
  {lines : List Line}

theorem ends_eq_false (h : 32 ≤ c.toNat) : format.ends c = false := by
  rw [eq_false_iff]
  intro hc
  have hlt := format.ends_control c hc
  omega

theorem continues_eq_false (h : line.getLast? ≠ some '\\') : format.continues line = false := by
  rw [eq_false_iff]
  exact fun hc => h (format.continues_backslash line hc)

theorem joinLines_complete (hopens : Opens line) (h : format.continues line = false) :
    format.joinLines none (line :: pieces) = line :: format.joinLines none pieces := by
  rw [joinLines, if_neg (by simp [hopens.isComment_eq_false]), Option.getD_none, nil_append,
    if_neg (by simp [h])]

theorem joinLines_continued (hopens : Opens line) (h : format.continues line = true) :
    format.joinLines none (line :: pieces) = format.joinLines (some (line.dropLast ++ [' '])) pieces := by
  rw [joinLines, if_neg (by simp [hopens.isComment_eq_false]), Option.getD_none, nil_append, if_pos h]

theorem joinLines_pending (format : LineSyntax) (hopens : ∀ piece ∈ pieces, Opens piece)
    (hlast : pending.getLast? = some ' ') :
    ∃ more rest, format.joinLines (some pending) pieces = (pending ++ more) :: rest ∧ Opens more := by
  induction pieces generalizing pending with
  | nil => exact ⟨[], [], by rw [joinLines, append_nil], nofun⟩
  | cons piece pieces ih =>
    obtain ⟨hpiece, hpieces⟩ := forall_mem_cons.1 hopens
    rw [joinLines, if_neg (by simp [hpiece.isComment_eq_false]), Option.getD_some]
    by_cases hc : format.continues (pending ++ piece) = true
    · rw [if_pos hc]
      have hend := format.continues_backslash _ hc
      have hne : piece ≠ [] := by
        rintro rfl
        rw [append_nil, hlast] at hend
        exact absurd (Option.some.inj hend) (by decide)
      have hspace : ((pending ++ piece).dropLast ++ [' ']).getLast? = some ' ' := List.getLast?_concat
      obtain ⟨more, rest, hjoin, -⟩ := ih hpieces hspace
      refine ⟨piece.dropLast ++ ' ' :: more, rest, ?_, ?_⟩
      · rw [hjoin, dropLast_append_of_ne_nil hne]
        simp
      · -- a piece of one backslash would not open
        obtain ⟨c, piece, rfl⟩ := exists_cons_of_ne_nil hne
        cases piece with
        | nil =>
          rw [List.getLast?_append_of_ne_nil _ hne] at hend
          exact absurd (Option.some.inj hend) (hpiece c rfl).2.2.2
        | cons d piece => exact hpiece
    · rw [if_neg hc]
      exact ⟨piece, _, rfl, hpiece⟩

theorem forall_mem_joinLines {P : Char → Prop} (hspace : P ' ') {pending : Option (List Char)}
    (hpending : ∀ piece ∈ pending, ∀ c ∈ piece, P c) (hpieces : ∀ piece ∈ pieces, ∀ c ∈ piece, P c) :
    ∀ line ∈ format.joinLines pending pieces, ∀ c ∈ line, P c := by
  induction pieces generalizing pending with
  | nil =>
    cases pending with
    | none => exact forall_mem_nil _
    | some pending =>
      rw [joinLines]
      exact forall_mem_singleton.2 (hpending pending rfl)
  | cons piece pieces ih =>
    obtain ⟨hpiece, hrest⟩ := forall_mem_cons.1 hpieces
    have hwhole : ∀ c ∈ pending.getD [] ++ piece, P c := by
      rw [forall_mem_append]
      refine ⟨?_, hpiece⟩
      cases pending with
      | none => exact forall_mem_nil _
      | some pending => exact hpending pending rfl
    rw [joinLines]
    split
    · exact ih hpending hrest
    · split
      · apply ih _ hrest
        rintro line hline
        obtain rfl := Option.some.inj hline
        rw [forall_mem_append]
        exact ⟨fun c hc => hwhole c ((dropLast_sublist _).subset hc), forall_mem_singleton.2 hspace⟩
      · exact forall_mem_cons.2 ⟨hwhole, ih nofun hrest⟩

theorem parse_value (h : .entry key value ∈ format.parse text) :
    stripped value.toList = value.toList ∧ ∀ c ∈ value.toList, format.ends c = false := by
  obtain ⟨line, hline, hitem⟩ := mem_filterMap.1 h
  obtain ⟨hbare, hmem⟩ := itemOf_value hitem
  refine ⟨hbare, fun c hc => ?_⟩
  apply forall_mem_joinLines (P := fun c => format.ends c = false) (ends_eq_false (by decide))
    (by simp) ?_ line hline c (hmem c hc)
  intro piece hpiece c hc
  rw [splitOnP_eq_splitOnPPrepend] at hpiece
  exact eq_false_iff.2 (not_of_mem_splitOnPPrepend (forall_mem_nil _) hpiece c hc)

theorem opens_text (hplain : written.Plain) : Opens written.text := by
  cases written with
  | blank => exact nofun
  | header name =>
    intro c hc
    obtain rfl := Option.some.inj hc
    decide
  | entry key value =>
    obtain ⟨hne, hkey⟩ := hplain
    obtain ⟨x, xs, hx⟩ := exists_cons_of_ne_nil hne
    rw [hx, all_cons, and_eq_true] at hkey
    intro c hc
    rw [Line.text, hx] at hc
    obtain rfl := Option.some.inj hc
    have hc := isAlpha_ne hkey.1
    exact ⟨isBlank_of_isAlpha hkey.1, hc '#' (by decide), hc ';' (by decide), hc '\\' (by decide)⟩

theorem one_line_text (hplain : written.Plain)
    (hvalue : ∀ key value, written = .entry key value → ∀ c ∈ value.toList, format.ends c = false) :
    ∀ c ∈ written.text, format.ends c = false := by
  have hword {word : List Char} (h : word.all Char.isAlpha = true) :
      ∀ c ∈ word, format.ends c = false := fun c hc => ends_eq_false (by
    have hletter := isAlpha_toNat (all_eq_true.1 h c hc)
    omega)
  cases written with
  | blank => exact forall_mem_nil _
  | header name =>
    rw [Line.text, forall_mem_cons, forall_mem_append, forall_mem_singleton]
    exact ⟨ends_eq_false (by decide), hword hplain, ends_eq_false (by decide)⟩
  | entry key value =>
    rw [Line.text, forall_mem_append, forall_mem_cons]
    exact ⟨hword hplain.2, ends_eq_false (by decide), hvalue key value rfl⟩

theorem splitOnP_render (format : LineSyntax)
    (h : ∀ written ∈ lines, ∀ c ∈ written.text, format.ends c = false) :
    (render lines).splitOnP format.ends = lines.map Line.text ++ [[]] := by
  induction lines with
  | nil => rfl
  | cons written lines ih =>
    obtain ⟨hwritten, hlines⟩ := forall_mem_cons.1 h
    have hrender : render (written :: lines) = written.text ++ '\n' :: render lines := by
      simp [render]
    rw [hrender, splitOnP_append_cons_of_forall_mem hwritten _ format.ends_newline, ih hlines]
    rfl

theorem itemOf_text (hplain : written.Plain)
    (hbare : ∀ key value, written = .entry key value → stripped value.toList = value.toList) :
    itemOf written.text = written.item := by
  cases written with
  | blank => rfl
  | header name => exact itemOf_header hplain
  | entry key value =>
    rw [Line.text, itemOf_entry hplain.1 hplain.2, hbare key value rfl, String.ofList_toList, Line.item]

theorem entry_of_continues (h : format.continues written.text = true) :
    ∃ key value init, written = .entry key value ∧ value.toList = init ++ ['\\'] := by
  have hlast := format.continues_backslash _ h
  cases written with
  | blank => exact nomatch hlast
  | header name =>
    rw [Line.text, ← cons_append, List.getLast?_append_of_ne_nil _ (cons_ne_nil _ _)] at hlast
    exact absurd (Option.some.inj hlast) (by decide)
  | entry key value =>
    rw [Line.text, List.getLast?_append_of_ne_nil _ (cons_ne_nil _ _)] at hlast
    rcases eq_nil_or_concat value.toList with hvalue | ⟨init, c, hvalue⟩
    · rw [hvalue] at hlast
      exact absurd (Option.some.inj hlast) (by decide)
    · rw [concat_eq_append] at hvalue
      rw [hvalue, ← cons_append, List.getLast?_append_of_ne_nil _ (cons_ne_nil _ _)] at hlast
      obtain rfl := Option.some.inj hlast
      exact ⟨key, value, init, rfl, hvalue⟩

theorem complete_text (hvalue : ∀ key value, written = .entry key value → format.LineValue key value) :
    format.continues written.text = false := by
  rw [eq_false_iff]
  intro h
  obtain ⟨key, value, init, rfl, -⟩ := entry_of_continues h
  exact eq_false_iff.1 (hvalue key value rfl).complete h

theorem parse_lines (hplain : ∀ written ∈ lines, written.Plain)
    (hvalue : ∀ key value, .entry key value ∈ lines → format.LineValue key value) :
    (format.joinLines none (lines.map Line.text ++ [[]])).filterMap itemOf = lines.filterMap Line.item := by
  induction lines with
  | nil =>
    rw [map_nil, nil_append, joinLines_complete opens_nil (continues_eq_false (by simp)), joinLines]
    rfl
  | cons written lines ih =>
    obtain ⟨hwritten, hlines⟩ := forall_mem_cons.1 hplain
    have hhere (key value : String) (he : written = .entry key value) : format.LineValue key value :=
      hvalue key value (he ▸ mem_cons_self)
    rw [map_cons, cons_append, joinLines_complete (opens_text hwritten) (complete_text hhere),
      filterMap_cons, filterMap_cons,
      itemOf_text hwritten fun key value he => (hhere key value he).bare,
      ih hlines fun key value he => hvalue key value (mem_cons_of_mem _ he)]

theorem complete_of_parse_lines (hplain : ∀ written ∈ lines, written.Plain)
    (hbare : ∀ key value, .entry key value ∈ lines → stripped value.toList = value.toList)
    (h : (format.joinLines none (lines.map Line.text ++ [[]])).filterMap itemOf =
      lines.filterMap Line.item) :
    ∀ written ∈ lines, format.continues written.text = false := by
  induction lines with
  | nil => exact forall_mem_nil _
  | cons written lines ih =>
    obtain ⟨hwritten, hlines⟩ := forall_mem_cons.1 hplain
    rw [map_cons, cons_append] at h
    by_cases hcontinues : format.continues written.text = true
    · -- the value that is read goes on where the one that is meant has its backslash
      obtain ⟨key, value, init, rfl, hvalue⟩ := entry_of_continues hcontinues
      have hopens : ∀ piece ∈ lines.map Line.text ++ [[]], Opens piece := by
        rw [forall_mem_append, forall_mem_singleton, forall_mem_map]
        exact ⟨fun other ho => opens_text (hlines other ho), opens_nil⟩
      have hspace : ((Line.entry key value).text.dropLast ++ [' ']).getLast? = some ' ' :=
        List.getLast?_concat
      obtain ⟨more, rest, hjoin, hmore⟩ := joinLines_pending format hopens hspace
      have hfirst : (Line.entry key value).text.dropLast ++ [' '] ++ more =
          key.toList ++ '=' :: (init ++ ' ' :: more) := by
        rw [Line.text, hvalue, ← cons_append, ← append_assoc, dropLast_concat]
        simp
      rw [joinLines_continued (opens_text hwritten) hcontinues, hjoin, hfirst, filterMap_cons,
        itemOf_entry hwritten.1 hwritten.2, filterMap_cons, Line.item] at h
      have hread := (Item.entry.inj (List.cons.inj h).1).2
      have hbare := hbare key value mem_cons_self
      rw [hvalue] at hbare
      refine absurd ?_ (stripped_continued_ne hbare hmore)
      rw [← hvalue, ← hread, String.toList_ofList]
    · rw [not_eq_true] at hcontinues
      rw [joinLines_complete (opens_text hwritten) hcontinues, filterMap_cons, filterMap_cons,
        itemOf_text hwritten fun key value he => hbare key value (he ▸ mem_cons_self)] at h
      refine forall_mem_cons.2 ⟨hcontinues, ih hlines
        (fun key value he => hbare key value (mem_cons_of_mem _ he)) ?_⟩
      cases hitem : written.item with
      | none => simpa only [hitem] using h
      | some item => exact (List.cons.inj (by simpa only [hitem] using h)).2

theorem parse_render_iff (hplain : ∀ written ∈ lines, written.Plain) :
    format.parse (render lines) = lines.filterMap Line.item ↔
      ∀ key value, .entry key value ∈ lines → format.LineValue key value := by
  constructor
  · intro h
    have hread (key value : String) (he : .entry key value ∈ lines) :
        stripped value.toList = value.toList ∧ ∀ c ∈ value.toList, format.ends c = false := by
      have hitem : .entry key value ∈ format.parse (render lines) := by
        rw [h]
        exact mem_filterMap.2 ⟨_, he, rfl⟩
      exact parse_value hitem
    have hsplit := splitOnP_render format fun written hw =>
      one_line_text (hplain written hw) fun key value he => (hread key value (he ▸ hw)).2
    rw [parse, hsplit] at h
    have hcomplete := complete_of_parse_lines hplain (fun key value he => (hread key value he).1) h
    exact fun key value he => ⟨(hread key value he).2, (hread key value he).1, hcomplete _ he⟩
  · intro h
    rw [parse, splitOnP_render format fun written hw =>
      one_line_text (hplain written hw) fun key value he => (h key value (he ▸ hw)).one_line]
    exact parse_lines hplain h

theorem lineValue_of_ends (hcontrol : ∀ c ∈ value.toList, 32 ≤ c.toNat)
    (hbare : trimWith isBlank value = value) (hlast : value.toList.getLast? ≠ some '\\') :
    format.LineValue key value where
  one_line c hc := ends_eq_false (hcontrol c hc)
  bare := by
    rw [← hbare, trimWith, String.toList_ofList]
    exact stripped_idem _
  complete := by
    apply continues_eq_false
    rw [List.getLast?_append_of_ne_nil _ (cons_ne_nil _ _)]
    cases hvalue : value.toList with
    | nil => decide
    | cons c rest => rwa [List.getLast?_cons_cons, ← hvalue]

end LineSyntax

def sectionNames (items : List Item) : List String :=
  items.filterMap fun
    | .section name => some name
    | _ => none

def valuesFrom (name key : String) : Bool → List Item → List String
  | _, [] => []
  | _, .section other :: rest => valuesFrom name key (other == name) rest
  | inside, .entry other value :: rest =>
    if inside && other == key then value :: valuesFrom name key inside rest
    else valuesFrom name key inside rest
  | inside, .malformed _ :: rest => valuesFrom name key inside rest

def valuesOf (name key : String) (items : List Item) : List String := valuesFrom name key false items

/-- The keys of each section, and the values of each key, in the order in which they are written. -/
abbrev SectionTable := List (String × List (String × List String))

namespace SectionTable

def sectionLines (keys : List (String × List String)) : List Line :=
  keys.flatMap fun key => key.2.map (.entry key.1)

def lines : SectionTable → List Line
  | [] => []
  | entry :: rest =>
    .header entry.1 :: sectionLines entry.2 ++ (if rest.isEmpty then [] else [.blank]) ++ lines rest

def items (table : SectionTable) : List Item :=
  table.flatMap fun entry => .section entry.1 :: (sectionLines entry.2).filterMap Line.item

structure Plain (table : SectionTable) : Prop where
  names : ∀ entry ∈ table, entry.1.toList.all Char.isAlpha = true
  keys : ∀ entry ∈ table, ∀ key ∈ entry.2, key.1.toList ≠ [] ∧ key.1.toList.all Char.isAlpha = true

variable {table : SectionTable} {format : LineSyntax}

theorem items_cons (entry : String × List (String × List String)) (rest : SectionTable) :
    items (entry :: rest) = .section entry.1 :: ((sectionLines entry.2).filterMap Line.item ++ items rest) := rfl

theorem filterMap_item_lines (table : SectionTable) : table.lines.filterMap Line.item = table.items := by
  induction table with
  | nil => rfl
  | cons entry rest ih =>
    have hblank : (if rest.isEmpty then [] else [Line.blank]).filterMap Line.item = [] := by
      split <;> rfl
    rw [lines, filterMap_append, filterMap_append, hblank, ih, append_nil, items_cons]
    rfl

theorem mem_sectionLines {keys} :
    written ∈ sectionLines keys ↔ ∃ key ∈ keys, ∃ value ∈ key.2, written = .entry key.1 value := by
  simp only [sectionLines, mem_flatMap, mem_map, eq_comm]

theorem mem_lines_cases (h : written ∈ table.lines) :
    written = .blank ∨ ∃ entry ∈ table, written = .header entry.1 ∨ written ∈ sectionLines entry.2 := by
  induction table with
  | nil => cases h
  | cons entry rest ih =>
    rw [lines, mem_append, mem_append, mem_cons] at h
    rcases h with ((rfl | h) | h) | h
    · exact .inr ⟨entry, mem_cons_self, .inl rfl⟩
    · exact .inr ⟨entry, mem_cons_self, .inr h⟩
    · split at h
      · cases h
      · exact .inl (mem_singleton.1 h)
    · rcases ih h with h | ⟨other, hother, h⟩
      · exact .inl h
      · exact .inr ⟨other, mem_cons_of_mem _ hother, h⟩

theorem mem_lines (hentry : entry ∈ table) (h : written ∈ sectionLines entry.2): written ∈ table.lines := by
  induction table with
  | nil => cases hentry
  | cons first rest ih =>
    rw [lines, mem_append, mem_append, mem_cons]
    rcases mem_cons.1 hentry with rfl | hentry
    · exact .inl (.inl (.inr h))
    · exact .inr (ih hentry)

theorem Plain.lines (h : table.Plain) : ∀ written ∈ table.lines, written.Plain := by
  intro written hw
  rcases mem_lines_cases hw with rfl | ⟨entry, hentry, rfl | hw⟩
  · trivial
  · exact h.names entry hentry
  · obtain ⟨key, hkey, value, -, rfl⟩ := mem_sectionLines.1 hw
    exact h.keys entry hentry key hkey

theorem parse_iff (h : table.Plain) : format.parse (render table.lines) = table.items ↔
    ∀ entry ∈ table, ∀ key ∈ entry.2, ∀ value ∈ key.2, format.LineValue key.1 value := by
  rw [← filterMap_item_lines, LineSyntax.parse_render_iff h.lines]
  constructor
  · intro hvalues entry hentry key hkey value hvalue
    exact hvalues _ _ (mem_lines hentry (mem_sectionLines.2 ⟨key, hkey, value, hvalue, rfl⟩))
  · intro hvalues key value hmem
    rcases mem_lines_cases hmem with hblank | ⟨entry, hentry, hheader | hmem⟩
    · cases hblank
    · cases hheader
    · obtain ⟨other, hother, _, hvalue, he⟩ := mem_sectionLines.1 hmem
      cases he
      exact hvalues entry hentry other hother value hvalue

theorem sectionNames_items (table : SectionTable) : sectionNames table.items = table.map Prod.fst := by
  have hentries (keys : List (String × List String)) :
      sectionNames ((sectionLines keys).filterMap Line.item) = [] := by
    rw [sectionNames, filterMap_eq_nil_iff]
    intro item hitem
    obtain ⟨written, hw, hitem⟩ := mem_filterMap.1 hitem
    obtain ⟨key, -, value, -, rfl⟩ := mem_sectionLines.1 hw
    cases hitem
    rfl
  induction table with
  | nil => rfl
  | cons entry rest ih =>
    have happend (xs ys : List Item) : sectionNames (xs ++ ys) = sectionNames xs ++ sectionNames ys :=
      filterMap_append
    have hsection (items : List Item) :
        sectionNames (.section entry.1 :: items) = entry.1 :: sectionNames items := rfl
    rw [items_cons, hsection, happend, hentries, nil_append, ih, map_cons]

theorem valuesFrom_sectionLines (name key : String) (inside : Bool) (keys : List (String × List String))
    (rest : List Item) :
    valuesFrom name key inside ((sectionLines keys).filterMap Line.item ++ rest) =
      (if inside then (keys.filter (·.1 == key)).flatMap Prod.snd else []) ++
        valuesFrom name key inside rest := by
  have hmap (other : String) (values : List String) (rest : List Item) :
      valuesFrom name key inside ((values.map (Line.entry other)).filterMap Line.item ++ rest) =
        (if inside && other == key then values else []) ++ valuesFrom name key inside rest := by
    induction values with
    | nil => simp
    | cons value values ih =>
      rw [map_cons, filterMap_cons, Line.item, cons_append, valuesFrom, ih]
      split <;> rfl
  induction keys with
  | nil => simp [sectionLines]
  | cons first keys ih =>
    have hlines : sectionLines (first :: keys) = first.2.map (.entry first.1) ++ sectionLines keys := by
      rw [sectionLines, flatMap_cons, ← sectionLines]
    rw [hlines, filterMap_append, append_assoc, hmap, ih, ← append_assoc, filter_cons]
    cases inside <;> cases first.1 == key <;> simp

theorem valuesOf_items (name key : String) (table : SectionTable) : valuesOf name key table.items =
      (table.filter (·.1 == name)).flatMap fun entry =>
        (entry.2.filter (·.1 == key)).flatMap Prod.snd := by
  rw [valuesOf]
  generalize false = inside
  induction table generalizing inside with
  | nil => rfl
  | cons entry rest ih =>
    rw [items_cons, valuesFrom, valuesFrom_sectionLines, ih, filter_cons]
    split <;> simp

end SectionTable

end Trakrai.Lib
