import Trakrai.Lib.Text

namespace Trakrai.Lib
open List

/-- A part of a path that names neither nothing nor the current or parent directory. -/
def properSegment (segment : String) : Bool :=
  segment != "" && segment != "." && segment != ".."

/-- One part of `normalizeString` of Node's `path.posix`, on the parts kept so far in
reverse order. -/
def normalizeSegment (allowAboveRoot : Bool) (kept : List String) (segment : String) :
    List String :=
  if segment = "" ∨ segment = "." then kept
  else if segment = ".." then
    match kept with
    | last :: rest =>
      if last ≠ ".." then rest else if allowAboveRoot then ".." :: kept else kept
    | [] => if allowAboveRoot then [".."] else []
  else segment :: kept

/-- `path.posix.normalize` on a path that is not empty. -/
def posixNormalize (path : String) : String :=
  let isAbsolute := path.toList.head? = some '/'
  let trailing := path.toList.getLast? = some '/'
  let kept := ((jsSplit '/' path).foldl (normalizeSegment !isAbsolute) []).reverse
  if kept = [] then
    if isAbsolute then "/" else if trailing then "./" else "."
  else
    (if isAbsolute then "/" else "") ++ jsJoin '/' kept ++ (if trailing then "/" else "")

/-- `path.posix.join`. -/
def posixJoin (parts : List String) : String :=
  let joined := jsJoin '/' (parts.filter (· ≠ ""))
  if joined = "" then "." else posixNormalize joined

theorem foldl_normalizeSegment (b : Bool) {segments : List String}
    (h : ∀ s ∈ segments, properSegment s) (kept : List String) :
    segments.foldl (normalizeSegment b) kept = segments.reverse ++ kept := by
  induction segments generalizing kept with
  | nil => rfl
  | cons s segments ih =>
    have hs := h s (mem_cons_self ..)
    simp only [properSegment, Bool.and_eq_true, bne_iff_ne] at hs
    have hstep : normalizeSegment b kept s = s :: kept := by
      simp only [normalizeSegment, hs.1.1, hs.1.2, hs.2, or_self, if_false]
    rw [foldl_cons, hstep, ih fun s' hs' => h s' (mem_cons_of_mem _ hs')]
    simp only [reverse_cons, append_assoc, singleton_append]

theorem toList_jsJoin_cons_cons (c : Char) (s t : String) (parts : List String) :
    (jsJoin c (s :: t :: parts)).toList = s.toList ++ c :: (jsJoin c (t :: parts)).toList := by
  simp only [jsJoin, String.toList_ofList, map_cons, intercalate_cons_cons,
    append_assoc, singleton_append]

theorem jsJoin_singleton (c : Char) (s : String) : jsJoin c [s] = s := by
  simp only [jsJoin, map_singleton, intercalate_singleton, String.ofList_toList]

theorem jsJoin_append (c : Char) (h : parts ≠ []) (hmore : more ≠ []) :
    (jsJoin c (parts ++ more)).toList = (jsJoin c parts).toList ++ c :: (jsJoin c more).toList := by
  obtain ⟨first, more, rfl⟩ := exists_cons_of_ne_nil hmore
  induction parts with
  | nil => exact absurd rfl h
  | cons part parts ih =>
    cases parts with
    | nil => rw [cons_append, nil_append, toList_jsJoin_cons_cons, jsJoin_singleton]
    | cons next parts =>
      rw [cons_append, cons_append, toList_jsJoin_cons_cons, toList_jsJoin_cons_cons,
        ← cons_append, ih (cons_ne_nil _ _), append_assoc]
      rfl

theorem jsSplit_append_slash (dir name : String) :
    jsSplit '/' (dir ++ "/" ++ name) = jsSplit '/' dir ++ jsSplit '/' name := by
  have htext : (dir ++ "/" ++ name).toList = dir.toList ++ '/' :: name.toList := by simp
  rw [jsSplit, htext, splitOn_append_cons_self, map_append]
  rfl

theorem jsJoin_ends (h : ∀ part ∈ s :: parts, part ≠ "" ∧ c ∉ part.toList):
    (∃ x, (jsJoin c (s :: parts)).toList.head? = some x ∧ x ≠ c) ∧
      ∃ x, (jsJoin c (s :: parts)).toList.getLast? = some x ∧ x ≠ c := by
  have hends (part : String) (hp : part ≠ "" ∧ c ∉ part.toList) :
      (∃ x, part.toList.head? = some x ∧ x ≠ c) ∧ ∃ x, part.toList.getLast? = some x ∧ x ≠ c := by
    have hne : part.toList ≠ [] := by simpa using hp.1
    constructor
    · refine ⟨part.toList.head hne, List.head?_eq_some_head hne, ?_⟩
      exact fun he => hp.2 (he ▸ List.head_mem hne)
    · refine ⟨part.toList.getLast hne, List.getLast?_eq_some_getLast hne, ?_⟩
      exact fun he => hp.2 (he ▸ getLast_mem hne)
  induction parts generalizing s with
  | nil =>
    rw [jsJoin_singleton]
    exact hends s (h s (mem_cons_self ..))
  | cons t parts ih =>
    obtain ⟨_, x, hx, hne⟩ := ih fun part hp => h part (mem_cons_of_mem _ hp)
    obtain ⟨⟨y, hy, hne'⟩, _⟩ := hends s (h s (mem_cons_self ..))
    rw [toList_jsJoin_cons_cons]
    refine ⟨⟨y, ?_, hne'⟩, x, ?_, hne⟩
    · rw [List.head?_append, hy, Option.some_or]
    · rw [List.getLast?_append, List.getLast?_cons, hx, Option.getD_some, Option.some_or]

theorem posixJoin_proper {s : String} {parts : List String}
    (h : ∀ part ∈ s :: parts, properSegment part ∧ '/' ∉ part.toList) :
    posixJoin (s :: parts) = jsJoin '/' (s :: parts) := by
  have hne (part : String) (hp : part ∈ s :: parts) : part ≠ "" := by
    have hproper := (h part hp).1
    simp only [properSegment, Bool.and_eq_true, bne_iff_ne] at hproper
    exact hproper.1.1
  have hfilter : (s :: parts).filter (· ≠ "") = s :: parts :=
    filter_eq_self.2 fun part hp => by simpa using hne part hp
  obtain ⟨⟨x, hx, hx'⟩, y, hy, hy'⟩ := jsJoin_ends fun part hp => ⟨hne part hp, (h part hp).2⟩
  have hjoined : jsJoin '/' (s :: parts) ≠ "" := by
    intro he
    rw [he] at hx
    cases hx
  have hkept : ((jsSplit '/' (jsJoin '/' (s :: parts))).foldl (normalizeSegment !false) []).reverse
      = s :: parts := by
    rw [jsSplit_jsJoin (fun part hp => (h part hp).2) (cons_ne_nil _ _),
      foldl_normalizeSegment _ fun part hp => (h part hp).1]
    simp only [append_nil, reverse_reverse]
  rw [posixJoin, hfilter, if_neg hjoined, posixNormalize]
  simp only [hx, hy, Option.some.injEq, hx', hy', decide_false, hkept,
    if_false, cons_ne_nil, String.empty_append, String.append_empty]

def urlParts (path : String) : List String := (jsSplit '/' path).filter (· ≠ "")

def urlPath (parts : List String) : String := "/" ++ jsJoin '/' parts

def Parted (parts : List String) : Prop := ∀ part ∈ parts, part ≠ "" ∧ '/' ∉ part.toList

theorem parted_urlParts (path : String) : Parted (urlParts path) := by
  intro part hpart
  obtain ⟨hsplit, hne⟩ := mem_filter.1 hpart
  exact ⟨of_decide_eq_true hne, not_mem_of_mem_jsSplit hsplit⟩

theorem Parted.append (h : Parted parts) (hmore : Parted more) : Parted (parts ++ more) :=
  forall_mem_append.2 ⟨h, hmore⟩

theorem Parted.of_prefix (h : Parted more) (hpre : parts <+: more) : Parted parts :=
  fun part hpart => h part (hpre.subset hpart)

theorem toList_urlPath (parts : List String) : (urlPath parts).toList = '/' :: (jsJoin '/' parts).toList := by
  simp [urlPath]

theorem toList_urlPath_flatMap (h : parts ≠ []) :
    (urlPath parts).toList = parts.flatMap fun part => '/' :: part.toList := by
  rw [toList_urlPath]
  induction parts with
  | nil => exact absurd rfl h
  | cons part parts ih =>
    cases parts with
    | nil => simp [jsJoin_singleton]
    | cons next parts => rw [toList_jsJoin_cons_cons, flatMap_cons, ← ih (cons_ne_nil _ _)]; rfl

theorem urlPath_append (h : parts ≠ []) (hmore : more ≠ []) :
    urlPath (parts ++ more) = urlPath parts ++ "/" ++ jsJoin '/' more := by
  apply String.toList_inj.1
  rw [toList_urlPath, jsJoin_append '/' h hmore]
  simp [urlPath]

theorem urlParts_jsJoin (h : Parted parts) : urlParts (jsJoin '/' parts) = parts := by
  by_cases hnil : parts = []
  · rw [hnil]
    decide
  · rw [urlParts, jsSplit_jsJoin (fun part hpart => (h part hpart).2) hnil, filter_eq_self]
    exact fun part hpart => decide_eq_true (h part hpart).1

theorem urlParts_append_slash (path more : String) :
    urlParts (path ++ "/" ++ more) = urlParts path ++ urlParts more := by
  rw [urlParts, jsSplit_append_slash, filter_append]
  rfl

theorem urlParts_slash (path : String) : urlParts ("/" ++ path) = urlParts path := by
  have hempty : "/" ++ path = "" ++ "/" ++ path := by rw [String.empty_append]
  have hnil : urlParts "" = [] := by decide
  rw [hempty, urlParts_append_slash, hnil, nil_append]

theorem urlParts_urlPath (h : Parted parts) : urlParts (urlPath parts) = parts := by
  rw [urlPath, urlParts_slash, urlParts_jsJoin h]

theorem urlPath_inj (h : Parted parts) (h' : Parted parts') (heq : urlPath parts = urlPath parts'): parts = parts' := by
  rw [← urlParts_urlPath h, heq, urlParts_urlPath h']

theorem urlPath_within_iff (hbase : Parted base) (hparts : Parted parts) (hne : base ≠ []):
    urlPath parts = urlPath base ∨ (urlPath base ++ "/").toList <+: (urlPath parts).toList ↔
      base <+: parts := by
  constructor
  · rintro (heq | ⟨rest, hrest⟩)
    · exact (urlPath_inj hparts hbase heq).symm ▸ prefix_refl _
    · have htext : urlPath parts = urlPath base ++ "/" ++ String.ofList rest := by
        apply String.toList_inj.1
        rw [String.toList_append, String.toList_ofList, hrest]
      have hsplit := congrArg urlParts htext
      rw [urlParts_append_slash, urlParts_urlPath hparts, urlParts_urlPath hbase] at hsplit
      rw [hsplit]
      exact prefix_append _ _
  · rintro ⟨more, rfl⟩
    by_cases hmore : more = []
    · exact .inl (by rw [hmore, append_nil])
    · refine .inr ⟨(jsJoin '/' more).toList, ?_⟩
      rw [urlPath_append hne hmore, ← String.toList_append]

end Trakrai.Lib
