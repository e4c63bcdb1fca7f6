import Trakrai.Lib.FileSystem

namespace Trakrai.Lib
open List

/-- The parts of a text that is read as a path from some directory, after cleaning. -/
def relativeParts (text : String) : List String :=
  ((jsSplit '/' text).foldl (normalizeSegment true) []).reverse

def stepsUp (text : String) : Nat := ((relativeParts text).takeWhile (· == "..")).length

def stepsDown (text : String) : List String := (relativeParts text).dropWhile (· == "..")

theorem relativeParts_eq (text : String) :
    relativeParts text = List.replicate (stepsUp text) ".." ++ stepsDown text ∧
      ∀ name ∈ stepsDown text, plainName name = true := by
  have hclean : CleanSegments false (relativeParts text) :=
    cleanSegments_foldl ⟨0, [], rfl, fun _ => rfl, nofun⟩ fun _ hs => not_mem_of_mem_jsSplit hs
  obtain ⟨up, names, he, -, hnames⟩ := hclean
  have hstop : names.takeWhile (· == "..") = [] ∧ names.dropWhile (· == "..") = names := by
    cases names with
    | nil => exact ⟨rfl, rfl⟩
    | cons name names =>
      have hne := (properSegment_iff.1 (plainName_iff.1 (hnames name mem_cons_self)).1).2.2
      rw [takeWhile_cons_of_neg (by simpa using hne), dropWhile_cons_of_neg (by simpa using hne)]
      exact ⟨rfl, rfl⟩
  have hup : ∀ part ∈ List.replicate up "..", (part == "..") = true := fun part hp => by
    simp [eq_of_mem_replicate hp]
  have htake : stepsUp text = up := by
    rw [stepsUp, he, takeWhile_append_of_pos hup, hstop.1, append_nil, length_replicate]
  have hdrop : stepsDown text = names := by
    rw [stepsDown, he, dropWhile_append_of_pos hup, hstop.2]
  rw [htake, hdrop]
  exact ⟨he, hnames⟩

theorem plainName_of_mem_locate (hcwd : isRooted cwd = true) :
    ∀ name ∈ locate cwd path, plainName name = true := by
  have hrooted : isRooted (if isRooted path then path else cwd ++ "/" ++ path) = true := by
    split
    · assumption
    · simp only [isRooted, beq_iff_eq] at hcwd ⊢
      simp [List.head?_append, hcwd]
  obtain ⟨up, names, he, hup, hnames⟩ := cleanSegments_goSegments
    (if isRooted path then path else cwd ++ "/" ++ path)
  intro name hname
  rw [locate, he, hup hrooted] at hname
  exact hnames name hname

theorem foldl_up (n : Nat) (hkept : ∀ name ∈ kept, plainName name = true) :
    (List.replicate n "..").foldl (normalizeSegment false) kept = kept.drop n := by
  induction n generalizing kept with
  | zero => rfl
  | succ n ih =>
    rw [replicate_succ, foldl_cons]
    cases kept with
    | nil =>
      have hempty := ih (forall_mem_nil _)
      rw [drop_nil] at hempty
      exact hempty
    | cons last rest =>
      have hne := (properSegment_iff.1 (plainName_iff.1 (hkept last mem_cons_self)).1).2.2
      have hstep : normalizeSegment false (last :: rest) ".." = rest := by simp [normalizeSegment, hne]
      rw [hstep, ih fun name hname => hkept name (mem_cons_of_mem _ hname), drop_succ_cons]

theorem locate_eq_foldl (hcwd : isRooted cwd = true) (path : String) :
    locate cwd path = ((goSegments path).foldl (normalizeSegment false)
      (if isRooted path then [] else (goSegments cwd).reverse)).reverse := by
  cases hrooted : isRooted path with
  | true =>
    have hclean := cleanSegments_goSegments path
    rw [hrooted] at hclean
    rw [locate, hrooted, if_pos rfl, if_pos rfl]
    exact hclean.foldl.symm
  | false =>
    have hjoined : isRooted (cwd ++ "/" ++ path) = true := by
      simp only [isRooted, beq_iff_eq] at hcwd ⊢
      simp [List.head?_append, hcwd]
    have hfold (base : List String) : (goSegments path).foldl (normalizeSegment false) base =
        (jsSplit '/' path).foldl (normalizeSegment false) base := by
      rw [goSegments, hrooted]
      exact foldl_normalizeSegment_clean false (forall_mem_nil _)
    rw [locate, hrooted, if_neg (by simp), if_neg (by simp), goSegments, hjoined, jsSplit_append_slash,
      foldl_append, hfold, goSegments, hcwd, reverse_reverse]
    rfl

/-- What goes on from the parts of a path without leading up lies below it. -/
theorem locate_prefix (hcwd : isRooted cwd = true)
    (hrooted : isRooted root = isRooted candidate) (hpre : goSegments root <+: goSegments candidate)
    (hnext : (goSegments candidate)[(goSegments root).length]? ≠ some "..") :
    locate cwd root <+: locate cwd candidate := by
  obtain ⟨rest, hrest⟩ := hpre
  have hplain : ∀ part ∈ rest, properSegment part := by
    obtain ⟨up, names, he, -, hnames⟩ := cleanSegments_goSegments candidate
    rw [← hrest, List.getElem?_append_right (le_refl _), Nat.sub_self] at hnext
    rw [← hrest] at he
    rcases append_eq_append_iff.1 he with ⟨more, hup, hrest'⟩ | ⟨more, -, hnames'⟩
    · cases more with
      | nil =>
        rw [hrest', nil_append]
        exact fun part hpart => (plainName_iff.1 (hnames part hpart)).1
      | cons first more =>
        have hfirst : first = ".." :=
          eq_of_mem_replicate (hup ▸ mem_append_right _ mem_cons_self)
        rw [hrest', hfirst] at hnext
        exact absurd rfl hnext
    · intro part hpart
      exact (plainName_iff.1 (hnames part (hnames' ▸ mem_append_right _ hpart))).1
  rw [locate_eq_foldl hcwd, locate_eq_foldl hcwd candidate, ← hrooted, ← hrest, foldl_append,
    foldl_normalizeSegment false hplain, reverse_append, reverse_reverse]
  exact prefix_append _ _

theorem CleanSegments.dropLast (h : CleanSegments rooted segments) :
    CleanSegments rooted segments.dropLast := by
  obtain ⟨up, names, rfl, hup, hnames⟩ := h
  rcases eq_nil_or_concat names with rfl | ⟨init, last, rfl⟩
  · rw [append_nil, dropLast_replicate]
    exact ⟨up - 1, [], (append_nil _).symm, fun hr => by rw [hup hr], nofun⟩
  · rw [concat_eq_append, ← append_assoc, dropLast_concat]
    refine ⟨up, init, rfl, hup, fun name hname => hnames name ?_⟩
    rw [concat_eq_append]
    exact mem_append_left _ hname

theorem goDir_eq (hpath : path = before ++ last) (hlast : '/' ∉ last.toList)
    (hbefore : before = "" ∨ before.toList.getLast? = some '/') : goDir path = goClean before := by
  have hall : ∀ c ∈ last.toList.reverse, (c != '/') = true := by
    intro c hc
    rw [bne_iff_ne]
    rintro rfl
    exact hlast (List.mem_reverse.1 hc)
  have hstop : before.toList.reverse.dropWhile (· != '/') = before.toList.reverse := by
    rcases hbefore with rfl | hend
    · rfl
    · rw [← List.head?_reverse] at hend
      obtain ⟨rest, hrest⟩ := List.head?_eq_some_iff.1 hend
      rw [hrest]
      rfl
  rw [goDir, hpath, String.toList_append, List.rdropWhile, reverse_append,
    dropWhile_append_of_pos hall, hstop, reverse_reverse, String.ofList_toList]

theorem goDir_goRender (h : CleanSegments rooted segments) :
    goDir (goRender rooted segments) = goRender rooted segments.dropLast := by
  rcases eq_nil_or_concat segments with rfl | ⟨init, last, rfl⟩
  · cases rooted <;> decide
  have hinit := h.dropLast
  rw [concat_eq_append] at h hinit ⊢
  rw [dropLast_concat] at hinit ⊢
  have hlast : '/' ∉ last.toList := (h.ne last (mem_append_right _ mem_cons_self)).2.2
  by_cases hnil : init = []
  · subst hnil
    have hpath : goRender rooted ([] ++ [last]) = (if rooted then "/" else "") ++ last := by
      simp [goRender, jsJoin_singleton]
    cases rooted with
    | true => rw [goDir_eq hpath hlast (.inr rfl)]; decide
    | false => rw [goDir_eq hpath hlast (.inl rfl)]; decide
  · have hpath : goRender rooted (init ++ [last]) = goRender rooted init ++ "/" ++ "" ++ last := by
      apply String.toList_inj.1
      simp [goRender, hnil, jsJoin_append '/' hnil (cons_ne_nil last []), jsJoin_singleton]
    have hrooted : isRooted (goRender rooted init ++ "/" ++ "") = rooted := by
      have hne : (goRender rooted init).toList ≠ [] := by simpa using goRender_ne_empty hinit
      rw [isRooted, String.toList_append, String.toList_append, append_assoc,
        List.head?_append_of_ne_nil _ hne]
      exact isRooted_goRender hinit.ne
    have hparts : goSegments (goRender rooted init ++ "/" ++ "") = init := by
      have hself := goSegments_goRender hinit
      rw [goSegments, isRooted_goRender hinit.ne] at hself
      rw [goSegments, hrooted, jsSplit_append_slash, foldl_append]
      exact hself
    rw [goDir_eq hpath hlast (.inr (by simp)), goClean, hrooted, hparts]

theorem locate_goDir (hcwd : isRooted cwd = true) (hclean : goClean path = path) :
    locate cwd (goDir path) <+: locate cwd path ∨ locate cwd path <+: locate cwd (goDir path) := by
  have hparts := cleanSegments_goSegments path
  have hdir : goDir path = goRender (isRooted path) (goSegments path).dropLast := by
    rw [← goDir_goRender hparts, ← goClean, hclean]
  have hsegments : goSegments (goDir path) = (goSegments path).dropLast := by
    rw [hdir, goSegments_goRender hparts.dropLast]
  have hrooted : isRooted (goDir path) = isRooted path := by
    rw [hdir, isRooted_goRender hparts.dropLast.ne]
  rw [locate_eq_foldl hcwd, locate_eq_foldl hcwd path, hsegments, hrooted]
  generalize (if isRooted path then [] else (goSegments cwd).reverse) = base
  rcases eq_nil_or_concat (goSegments path) with hnil | ⟨init, last, hsplit⟩
  · rw [hnil]
    exact .inl (prefix_refl _)
  · rw [hsplit, concat_eq_append, dropLast_concat, foldl_append, foldl_cons, foldl_nil]
    generalize init.foldl (normalizeSegment false) base = kept
    unfold normalizeSegment
    split
    · exact .inl (prefix_refl _)
    · split
      · right
        rw [List.reverse_prefix]
        cases kept with
        | nil => exact suffix_refl _
        | cons top kept =>
          dsimp only
          split
          · exact suffix_cons _ _
          · exact suffix_refl _
      · left
        rw [reverse_cons]
        exact prefix_append _ _

theorem locate_goJoin_parts (hcwd : isRooted cwd = true) (hdir : dir ≠ "") (text : String): locate cwd (goJoin dir text) =
      ((jsSplit '/' text).foldl (normalizeSegment false) (locate cwd dir).reverse).reverse := by
  have hroot : isRooted (dir ++ "/" ++ text) = isRooted dir := by
    have hhead : dir.toList ≠ [] := by simpa using hdir
    simp [isRooted, List.head?_append_of_ne_nil _ hhead]
  rw [goJoin, if_pos hdir, locate, locate, isRooted_goClean, hroot]
  cases hrooted : isRooted dir with
  | true =>
    rw [if_pos rfl, if_pos rfl, goSegments_goClean, goSegments, hroot, hrooted, jsSplit_append_slash,
      foldl_append, goSegments, hrooted, reverse_reverse]
    rfl
  | false =>
    have hcwdRooted (path : String) : isRooted (cwd ++ "/" ++ path) = true := by
      simp only [isRooted, beq_iff_eq] at hcwd ⊢
      simp [List.head?_append, hcwd]
    have hparts (base : List String) :
        (jsSplit '/' (goClean (dir ++ "/" ++ text))).foldl (normalizeSegment false) base =
          (jsSplit '/' (dir ++ "/" ++ text)).foldl (normalizeSegment false) base := by
      have hclean := cleanSegments_goSegments (dir ++ "/" ++ text)
      have hfold : (goSegments (dir ++ "/" ++ text)).foldl (normalizeSegment false) base =
          (jsSplit '/' (dir ++ "/" ++ text)).foldl (normalizeSegment false) base := by
        rw [goSegments, hroot, hrooted]
        exact foldl_normalizeSegment_clean false (forall_mem_nil _)
      rw [goClean, jsSplit_goRender hclean.ne, hroot, hrooted, ← hfold]
      by_cases hnil : goSegments (dir ++ "/" ++ text) = []
      · rw [if_pos hnil, hnil]
        rfl
      · rw [if_neg hnil]
        rfl
    rw [if_neg (by simp), if_neg (by simp), goSegments, goSegments, hcwdRooted, hcwdRooted,
      jsSplit_append_slash, jsSplit_append_slash, foldl_append, foldl_append]
    simp only [Bool.not_true, reverse_reverse]
    rw [hparts, jsSplit_append_slash, foldl_append]

theorem locate_goJoin_steps (hcwd : isRooted cwd = true) (hdir : dir ≠ "") (text : String): locate cwd (goJoin dir text) =
      (locate cwd dir).take ((locate cwd dir).length - stepsUp text) ++ stepsDown text := by
  obtain ⟨hparts, hnames⟩ := relativeParts_eq text
  have hclean : (relativeParts text).foldl (normalizeSegment false) (locate cwd dir).reverse =
      (jsSplit '/' text).foldl (normalizeSegment false) (locate cwd dir).reverse :=
    foldl_normalizeSegment_clean false (forall_mem_nil _)
  have hkept : ∀ name ∈ (locate cwd dir).reverse, plainName name = true := fun name hname =>
    plainName_of_mem_locate hcwd name (List.mem_reverse.1 hname)
  rw [locate_goJoin_parts hcwd hdir, ← hclean, hparts, foldl_append,
    foldl_up _ hkept, foldl_normalizeSegment _ fun name hname => (plainName_iff.1 (hnames name hname)).1]
  rw [reverse_append, reverse_reverse, drop_reverse, reverse_reverse]

def leaves (place : List String) (text : String) : List String :=
  place.drop (place.length - stepsUp text)

section
variable {cwd dir : String} (hcwd : isRooted cwd = true) (hdir : dir ≠ "") (text : String)
include hcwd hdir

theorem within_goJoin_iff : locate cwd dir <+: locate cwd (goJoin dir text) ↔
    leaves (locate cwd dir) text <+: stepsDown text := by
  rw [locate_goJoin_steps hcwd hdir]
  conv_lhs => lhs; rw [← take_append_drop ((locate cwd dir).length - stepsUp text) (locate cwd dir)]
  exact prefix_append_right_inj _

theorem goJoin_eq_iff : locate cwd dir = locate cwd (goJoin dir text) ↔
    leaves (locate cwd dir) text = stepsDown text := by
  rw [locate_goJoin_steps hcwd hdir]
  conv_lhs => lhs; rw [← take_append_drop ((locate cwd dir).length - stepsUp text) (locate cwd dir)]
  exact append_right_inj _

theorem directly_goJoin_iff : (∃ name, locate cwd (goJoin dir text) = locate cwd dir ++ [name]) ↔
    ∃ name, stepsDown text = leaves (locate cwd dir) text ++ [name] := by
  rw [locate_goJoin_steps hcwd hdir]
  apply exists_congr
  intro name
  conv_lhs => rhs; lhs; rw [← take_append_drop ((locate cwd dir).length - stepsUp text) (locate cwd dir)]
  rw [append_assoc]
  exact append_right_inj _

end

theorem steps_of_plainName (h : plainName name = true) (place : List String) :
    stepsDown name = [name] ∧ leaves place name = [] := by
  obtain ⟨hproper, hslash⟩ := plainName_iff.1 h
  have hne := properSegment_iff.1 hproper
  have hparts : relativeParts name = [name] := by
    rw [relativeParts, jsSplit_of_not_mem hslash]
    simp [normalizeSegment, hne.1, hne.2.1, hne.2.2]
  have hstop : (name == "..") = false := by simpa using hne.2.2
  rw [stepsDown, leaves, stepsUp, hparts, dropWhile_cons_of_neg (by simp [hstop]),
    takeWhile_cons_of_neg (by simp [hstop])]
  exact ⟨rfl, by simp⟩

end Trakrai.Lib
