import Mathlib.Algebra.GroupWithZero.Nat
import Trakrai.Lib.Path

namespace Trakrai.Lib
open List

section
variable (path : String)

/-- `filepath.IsAbs` of Go on Unix. -/
def isRooted : Bool := path.toList.head? == some '/'

/-- The parts that `filepath.Clean` of Go keeps of a path. -/
def goSegments : List String :=
  ((jsSplit '/' path).foldl (normalizeSegment !isRooted path) []).reverse

def goRender (rooted : Bool) (segments : List String) : String :=
  (if rooted then "/" else if segments = [] then "." else "") ++ jsJoin '/' segments

/-- `filepath.Clean` of Go on Unix. -/
def goClean : String := goRender (isRooted path) (goSegments path)

/-- `filepath.Join` of Go on Unix with two elements. -/
def goJoin (dir name : String) : String :=
  if dir ≠ "" then goClean (dir ++ "/" ++ name)
  else if name ≠ "" then goClean name
  else ""

/-- `filepath.Dir` of Go on Unix. -/
def goDir : String := goClean (String.ofList (path.toList.rdropWhile (· != '/')))

/-- `filepath.Base` of Go on Unix. -/
def goBase : String :=
  let trimmed := path.toList.rdropWhile (· == '/')
  if path = "" then "."
  else if trimmed = [] then "/"
  else String.ofList (trimmed.rtakeWhile (· != '/'))

end

/-- A name of one file: neither empty nor a step in the tree, and without a separator. -/
def plainName (name : String) : Bool := properSegment name && !name.toList.contains '/'

theorem plainName_iff : plainName name = true ↔ properSegment name = true ∧ '/' ∉ name.toList := by
  simp [plainName]

/-- The parts of a clean path: steps to the parent directory only at the start of a path that is
not rooted, and proper names. -/
def CleanSegments (rooted : Bool) (segments : List String) : Prop :=
  ∃ up names, segments = List.replicate up ".." ++ names ∧ (rooted = true → up = 0) ∧
    ∀ name ∈ names, plainName name = true

theorem CleanSegments.ne (h : CleanSegments rooted segments) :
    ∀ s ∈ segments, s ≠ "" ∧ s ≠ "." ∧ '/' ∉ s.toList := by
  obtain ⟨up, names, rfl, -, hnames⟩ := h
  intro s hs
  rcases mem_append.1 hs with hs | hs
  · rw [eq_of_mem_replicate hs]
    decide
  · obtain ⟨hproper, hslash⟩ := plainName_iff.1 (hnames s hs)
    simp only [properSegment, Bool.and_eq_true, bne_iff_ne] at hproper
    exact ⟨hproper.1.1, hproper.1.2, hslash⟩

theorem CleanSegments.append (h : CleanSegments rooted segments) (hname : plainName name = true):
    CleanSegments rooted (segments ++ [name]) := by
  obtain ⟨up, names, rfl, hup, hnames⟩ := h
  refine ⟨up, names ++ [name], by rw [append_assoc], hup, ?_⟩
  intro s hs
  rcases mem_append.1 hs with hs | hs
  · exact hnames s hs
  · rwa [mem_singleton.1 hs]

theorem properSegment_iff : properSegment s = true ↔ s ≠ "" ∧ s ≠ "." ∧ s ≠ ".." := by
  simp [properSegment, and_assoc]

/-- One part keeps the parts clean. The parts kept so far stand in reverse order. -/
theorem CleanSegments.normalizeSegment (h : CleanSegments rooted kept.reverse) (hs : '/' ∉ s.toList):
    CleanSegments rooted (normalizeSegment (!rooted) kept s).reverse := by
  unfold Lib.normalizeSegment
  by_cases hskip : s = "" ∨ s = "."
  · rw [if_pos hskip]
    exact h
  rw [if_neg hskip]
  obtain ⟨up, names, hkept, hup, hnames⟩ := h
  have hkept' : kept = names.reverse ++ List.replicate up ".." := by
    rw [← reverse_reverse kept, hkept, reverse_append, reverse_replicate]
  by_cases hdots : s = ".."
  · rw [if_pos hdots]
    cases hrev : names.reverse with
    | cons last rest =>
      -- the last name goes away
      have hlast : last ∈ names := List.mem_reverse.1 (hrev ▸ mem_cons_self ..)
      have hne : last ≠ ".." := (properSegment_iff.1 (plainName_iff.1 (hnames last hlast)).1).2.2
      rw [hkept', hrev, cons_append]
      simp only [hne, ne_eq, not_false_eq_true, if_true]
      refine ⟨up, rest.reverse, by simp, hup, ?_⟩
      intro name hname
      exact hnames name (List.mem_reverse.1 (hrev ▸ mem_cons_of_mem _ (List.mem_reverse.1 hname)))
    | nil =>
      obtain rfl : names = [] := reverse_eq_nil_iff.1 hrev
      cases up with
      | zero =>
        rw [hkept']
        cases rooted with
        | true => exact ⟨0, [], rfl, fun _ => rfl, nofun⟩
        | false => exact ⟨1, [], rfl, nofun, nofun⟩
      | succ up =>
        have hr : rooted = false := by
          cases rooted with
          | false => rfl
          | true => exact absurd (hup rfl) (by omega)
        have hstep : Lib.normalizeSegment (!false) (List.replicate (up + 1) "..") ".." =
            List.replicate (up + 2) ".." := by
          simp [Lib.normalizeSegment, replicate_succ]
        have hgoal : CleanSegments false
            (Lib.normalizeSegment (!false) (List.replicate (up + 1) "..") "..").reverse := by
          rw [hstep, reverse_replicate]
          exact ⟨up + 2, [], (append_nil _).symm, nofun, nofun⟩
        subst hr hkept'
        simpa [Lib.normalizeSegment] using hgoal
  · rw [if_neg hdots, reverse_cons, hkept]
    have hplain : plainName s = true := by
      rw [not_or] at hskip
      exact plainName_iff.2 ⟨properSegment_iff.2 ⟨hskip.1, hskip.2, hdots⟩, hs⟩
    exact CleanSegments.append ⟨up, names, rfl, hup, hnames⟩ hplain

theorem cleanSegments_foldl {rooted : Bool} {segments kept : List String}
    (hkept : CleanSegments rooted kept.reverse) (h : ∀ s ∈ segments, '/' ∉ s.toList) :
    CleanSegments rooted (segments.foldl (normalizeSegment !rooted) kept).reverse := by
  induction segments generalizing kept with
  | nil => exact hkept
  | cons s segments ih =>
    obtain ⟨hs, hrest⟩ := forall_mem_cons.1 h
    exact ih (hkept.normalizeSegment hs) hrest

section
variable (path : String)

theorem cleanSegments_goSegments :
    CleanSegments (isRooted path) (goSegments path) :=
  cleanSegments_foldl ⟨0, [], rfl, fun _ => rfl, nofun⟩ fun _ hs => not_mem_of_mem_jsSplit hs

theorem CleanSegments.foldl (h : CleanSegments rooted segments):
    (segments.foldl (Lib.normalizeSegment !rooted) []).reverse = segments := by
  obtain ⟨up, names, rfl, hup, hnames⟩ := h
  have hdots (n : Nat) (hr : rooted = false) (kept : List String) (hk : ∀ s ∈ kept, s = "..") :
      (List.replicate n "..").foldl (Lib.normalizeSegment !rooted) kept =
        List.replicate n ".." ++ kept := by
    induction n generalizing kept with
    | zero => rfl
    | succ n ih =>
      have hstep : Lib.normalizeSegment (!rooted) kept ".." = ".." :: kept := by
        cases kept with
        | nil => simp [Lib.normalizeSegment, hr]
        | cons last rest => simp [Lib.normalizeSegment, hr, hk last (mem_cons_self ..)]
      rw [replicate_succ, foldl_cons, hstep, ih (".." :: kept) (by simpa using hk),
        ← replicate_succ, replicate_succ', append_assoc, singleton_append]
  have hup' : (List.replicate up "..").foldl (Lib.normalizeSegment !rooted) [] =
      List.replicate up ".." := by
    cases hr : rooted with
    | true =>
      rw [hup hr]
      rfl
    | false =>
      have hfold := hdots up hr [] (by rintro _ ⟨⟩)
      rwa [append_nil, hr] at hfold
  rw [foldl_append, hup', foldl_normalizeSegment _ fun s hs => (plainName_iff.1 (hnames s hs)).1,
    reverse_append, reverse_reverse, reverse_replicate]

theorem jsSplit_goRender (h : ∀ s ∈ segments, s ≠ "" ∧ s ≠ "." ∧ '/' ∉ s.toList):
    jsSplit '/' (goRender rooted segments) =
      if segments = [] then (if rooted then ["", ""] else ["."])
      else (if rooted then [""] else []) ++ segments := by
  cases segments with
  | nil => cases rooted <;> decide
  | cons s segments =>
    have hslash : ∀ part ∈ s :: segments, '/' ∉ part.toList := fun part hp => (h part hp).2.2
    cases rooted with
    | false =>
      simp only [goRender, Bool.false_eq_true, if_false, cons_ne_nil, String.empty_append,
        nil_append]
      exact jsSplit_jsJoin hslash (cons_ne_nil _ _)
    | true =>
      have hjoin : goRender true (s :: segments) = jsJoin '/' ("" :: s :: segments) := by
        apply String.toList_inj.1
        rw [toList_jsJoin_cons_cons]
        simp [goRender]
      rw [hjoin, jsSplit_jsJoin ?_ (cons_ne_nil _ _)]
      · rfl
      · exact forall_mem_cons.2 ⟨by decide, hslash⟩

theorem isRooted_goRender (h : ∀ s ∈ segments, s ≠ "" ∧ s ≠ "." ∧ '/' ∉ s.toList):
    isRooted (goRender rooted segments) = rooted := by
  cases rooted with
  | true => simp [isRooted, goRender]
  | false =>
    cases segments with
    | nil => decide
    | cons s segments =>
      obtain ⟨⟨c, hc, hne⟩, -⟩ := jsJoin_ends (c := '/') fun part hp => ⟨(h part hp).1, (h part hp).2.2⟩
      simp only [isRooted, goRender, Bool.false_eq_true, if_false, cons_ne_nil,
        String.empty_append, hc]
      simpa using hne

theorem goSegments_goRender (h : CleanSegments rooted segments): goSegments (goRender rooted segments) = segments := by
  rw [goSegments, isRooted_goRender h.ne, jsSplit_goRender h.ne]
  by_cases hnil : segments = []
  · subst hnil
    cases rooted <;> rfl
  · rw [if_neg hnil]
    cases rooted with
    | false => exact h.foldl
    | true => exact h.foldl

theorem goRender_inj (h : CleanSegments rooted segments) (h' : CleanSegments rooted segments')
    (heq : goRender rooted segments = goRender rooted segments') : segments = segments' := by
  rw [← goSegments_goRender h, heq, goSegments_goRender h']

theorem isRooted_goClean : isRooted (goClean path) = isRooted path :=
  isRooted_goRender (cleanSegments_goSegments path).ne

theorem goSegments_goClean : goSegments (goClean path) = goSegments path :=
  goSegments_goRender (cleanSegments_goSegments path)

theorem goClean_goClean : goClean (goClean path) = goClean path := by
  rw [goClean, isRooted_goClean, goSegments_goClean, ← goClean]

theorem goRender_ne_empty (h : CleanSegments rooted segments): goRender rooted segments ≠ "" := by
  cases rooted with
  | true => simp [goRender]
  | false =>
    cases segments with
    | nil => decide
    | cons s segments =>
      obtain ⟨⟨c, hc, -⟩, -⟩ :=
        jsJoin_ends (c := '/') fun part hp => ⟨(h.ne part hp).1, (h.ne part hp).2.2⟩
      intro he
      have hjoin : jsJoin '/' (s :: segments) = "" := by simpa [goRender] using he
      rw [hjoin] at hc
      simp at hc

theorem goClean_ne_empty : goClean path ≠ "" :=
  goRender_ne_empty (cleanSegments_goSegments path)

end

/-- Cleaning a relative path first makes no difference to where it leads. The parts kept so far
stand in reverse order. -/
theorem foldl_normalizeSegment_step (b : Bool)
    (hkept : ∀ part ∈ kept, part = ".." ∨ properSegment part) :
    (normalizeSegment true kept s).reverse.foldl (normalizeSegment b) base =
      normalizeSegment b (kept.reverse.foldl (normalizeSegment b) base) s := by
  have hpush : (s :: kept).reverse.foldl (normalizeSegment b) base =
      normalizeSegment b (kept.reverse.foldl (normalizeSegment b) base) s := by
    rw [reverse_cons, foldl_append, foldl_cons, foldl_nil]
  by_cases hskip : s = "" ∨ s = "."
  · unfold normalizeSegment
    rw [if_pos hskip, if_pos hskip]
  by_cases hdots : s = ".."
  · subst hdots
    cases kept with
    | nil => rfl
    | cons last rest =>
      by_cases hlast : last = ".."
      · subst hlast
        exact hpush
      · have hproper := properSegment_iff.1 ((hkept last (mem_cons_self ..)).resolve_left hlast)
        have hback (rest : List String) (b : Bool) :
            normalizeSegment b (last :: rest) ".." = rest := by
          simp [normalizeSegment, hlast]
        have hname (rest : List String) : normalizeSegment b rest last = last :: rest := by
          simp [normalizeSegment, hproper.1, hproper.2.1, hlast]
        rw [hback, reverse_cons, foldl_append, foldl_cons, foldl_nil, hname, hback]
  · have hname : normalizeSegment true kept s = s :: kept := by
      unfold normalizeSegment
      rw [if_neg hskip, if_neg hdots]
    rw [hname]
    exact hpush

theorem foldl_normalizeSegment_clean (b : Bool) {base kept parts : List String}
    (hkept : ∀ part ∈ kept, part = ".." ∨ properSegment part) :
    (parts.foldl (normalizeSegment true) kept).reverse.foldl (normalizeSegment b) base =
      parts.foldl (normalizeSegment b) (kept.reverse.foldl (normalizeSegment b) base) := by
  induction parts generalizing kept with
  | nil => rfl
  | cons s parts ih =>
    have hstep : ∀ part ∈ normalizeSegment true kept s, part = ".." ∨ properSegment part := by
      intro part hp
      unfold normalizeSegment at hp
      split at hp
      · exact hkept part hp
      · rename_i hskip
        rw [not_or] at hskip
        split at hp
        · split at hp
          · split at hp
            · exact hkept part (mem_cons_of_mem _ hp)
            · rcases mem_cons.1 hp with rfl | hp
              · exact .inl rfl
              · exact hkept part hp
          · exact .inl (mem_singleton.1 hp)
        · rcases mem_cons.1 hp with rfl | hp
          · exact .inr (properSegment_iff.2 ⟨hskip.1, hskip.2, ‹_›⟩)
          · exact hkept part hp
    rw [foldl_cons, ih hstep, foldl_normalizeSegment_step b hkept, foldl_cons]

theorem goJoin_eq (hname : plainName name = true) :
    goJoin dir name = goRender (isRooted dir) (goSegments dir ++ [name]) := by
  obtain ⟨hproper, hslash⟩ := plainName_iff.1 hname
  have hne := properSegment_iff.1 hproper
  have hstep (b : Bool) (kept : List String) : normalizeSegment b kept name = name :: kept := by
    simp [normalizeSegment, hne.1, hne.2.1, hne.2.2]
  by_cases hdir : dir = ""
  · subst hdir
    have hroot : isRooted name = false := by
      rw [Bool.eq_false_iff]
      intro hr
      exact hslash (List.mem_of_mem_head? (by simpa [isRooted] using hr))
    have hsegments : goSegments name = [name] := by
      rw [goSegments, jsSplit_of_not_mem hslash, foldl_cons, hstep]
      rfl
    rw [goJoin, if_neg (by simp), if_pos hne.1, goClean, hroot, hsegments]
    rfl
  · have hroot : isRooted (dir ++ "/" ++ name) = isRooted dir := by
      have hhead : dir.toList ≠ [] := by simpa using hdir
      simp [isRooted, List.head?_append_of_ne_nil _ hhead]
    rw [goJoin, if_pos hdir, goClean, hroot, goSegments, hroot, jsSplit_append_slash,
      jsSplit_of_not_mem hslash, foldl_append, foldl_cons, hstep, foldl_nil,
      reverse_cons]
    rfl

theorem goJoin_inj (hname : plainName name = true)
    (hname' : plainName name' = true) (h : goJoin dir name = goJoin dir name') : name = name' := by
  rw [goJoin_eq hname, goJoin_eq hname'] at h
  have hdir := cleanSegments_goSegments dir
  have heq := goRender_inj (hdir.append hname) (hdir.append hname') h
  simpa using heq

theorem goJoin_ne_empty (h : name ≠ "") : goJoin dir name ≠ "" := by
  rw [goJoin, if_pos h]
  split
  · exact goClean_ne_empty _
  · exact goClean_ne_empty _

def partsLength (parts : List String) : Nat := (parts.map (·.length + 1)).sum

theorem length_jsJoin (h : parts ≠ []) : (jsJoin c parts).length + 1 = partsLength parts := by
  induction parts with
  | nil => exact absurd rfl h
  | cons part parts ih =>
    cases parts with
    | nil => simp [jsJoin_singleton, partsLength]
    | cons next parts =>
      have hrest := ih (cons_ne_nil _ _)
      have htext : (jsJoin c (part :: next :: parts)).length = part.length + 1 + (jsJoin c (next :: parts)).length := by
        rw [← String.length_toList, toList_jsJoin_cons_cons, length_append, length_cons,
          String.length_toList, String.length_toList]
        omega
      rw [partsLength, map_cons, sum_cons, ← partsLength, ← hrest, htext]
      omega

theorem partsLength_normalizeSegment (b : Bool) (kept : List String) (s : String) :
    partsLength (normalizeSegment b kept s) ≤ partsLength kept + (s.length + 1) := by
  have hcons (s : String) (kept : List String) : partsLength (s :: kept) = s.length + 1 + partsLength kept := by
    rw [partsLength, map_cons, sum_cons, ← partsLength]
  unfold normalizeSegment
  split
  · omega
  · split
    · rename_i hdots
      subst s
      split
      · rw [hcons]
        split
        · omega
        · split
          · rw [hcons, hcons]
            omega
          · rw [hcons]
            omega
      · split
        · rw [hcons]
          omega
        · exact Nat.le_add_right _ _
    · rw [hcons]
      omega

theorem partsLength_foldl (b : Bool) (kept parts : List String) :
    partsLength (parts.foldl (normalizeSegment b) kept) ≤ partsLength kept + partsLength parts := by
  induction parts generalizing kept with
  | nil => exact Nat.le_add_right _ _
  | cons part parts ih =>
    have hstep := partsLength_normalizeSegment b kept part
    have hrest := ih (normalizeSegment b kept part)
    rw [foldl_cons]
    simp only [partsLength, map_cons, sum_cons] at hstep hrest ⊢
    omega

theorem length_goClean_le (h : path ≠ "") : (goClean path).length ≤ path.length := by
  have hwhole : partsLength (jsSplit '/' path) = path.length + 1 := by
    rw [← length_jsJoin (c := '/') (by simp [jsSplit]), jsJoin_jsSplit]
  have hne : 0 < path.length := Nat.pos_of_ne_zero fun hz => h (String.length_eq_zero_iff.1 hz)
  have hreverse (parts : List String) : partsLength parts.reverse = partsLength parts := by
    simp [partsLength]
  rw [goClean, goRender, String.length_append]
  by_cases hroot : isRooted path = true
  · have hsegments : partsLength (goSegments path) ≤ path.length := by
      obtain ⟨rest, hrest⟩ : ∃ rest, path.toList = '/' :: rest := by
        rw [isRooted, beq_iff_eq] at hroot
        exact List.head?_eq_some_iff.1 hroot
      have hsplit : jsSplit '/' path = "" :: jsSplit '/' (String.ofList rest) := by
        simp [jsSplit, hrest, splitOn_cons_eq_if_modifyHead]
      have hfold := partsLength_foldl (!isRooted path) [] (jsSplit '/' (String.ofList rest))
      have hgo : goSegments path =
          ((jsSplit '/' (String.ofList rest)).foldl (normalizeSegment !isRooted path) []).reverse := by
        rw [goSegments, hsplit, foldl_cons]
        rfl
      rw [hsplit] at hwhole
      simp only [partsLength, map_cons, sum_cons, map_nil, sum_nil] at hfold hwhole
      rw [hgo, hreverse]
      simp only [partsLength]
      have hempty : "".length = 0 := rfl
      omega
    rw [if_pos hroot]
    have hslash : "/".length = 1 := rfl
    by_cases hnil : goSegments path = []
    · rw [hnil]
      change 1 + 0 ≤ _
      omega
    · have hjoin := length_jsJoin (c := '/') hnil
      omega
  · have hsegments : partsLength (goSegments path) ≤ path.length + 1 := by
      rw [goSegments, hreverse, ← hwhole]
      exact (partsLength_foldl _ _ _).trans_eq (Nat.zero_add _)
    rw [if_neg hroot]
    by_cases hnil : goSegments path = []
    · rw [hnil, if_pos rfl]
      change 1 + 0 ≤ _
      omega
    · have hjoin := length_jsJoin (c := '/') hnil
      rw [if_neg hnil]
      change 0 + _ ≤ _
      omega

end Trakrai.Lib
