import Trakrai.Lib.Descent
import Trakrai.Lib.Path

namespace Trakrai.Lib
open Option List

/-- Two lists without the parts that they both begin with. -/
def stripCommon : List String → List String → List String × List String
  | b :: base, t :: targ => if b = t then stripCommon base targ else (b :: base, t :: targ)
  | base, targ => (base, targ)

def targetParts (path : String) : List String :=
  if goSegments path = [] ∧ isRooted path = false then ["."] else goSegments path

/-- `filepath.Rel` of Go on Unix; none where it gives an error. -/
def goRel (basepath targpath : String) : Option String :=
  if goClean targpath = goClean basepath then some "."
  else if isRooted basepath != isRooted targpath then none
  else
    let (base, targ) := stripCommon (goSegments basepath) (targetParts targpath)
    if base.head? = some ".." ∧ targ ≠ [] then none
    else some (jsJoin '/' (List.replicate base.length ".." ++ targ))

/-- The path is the parent directory or leads through it. -/
def climbs (path : String) : Bool := path == ".." || "../".toList.isPrefixOf path.toList

theorem stripCommon_eq (base targ : List String) :
    ∃ common, base = common ++ (stripCommon base targ).1 ∧ targ = common ++ (stripCommon base targ).2 ∧
      ∀ b t, (stripCommon base targ).1.head? = some b → (stripCommon base targ).2.head? = some t → b ≠ t := by
  induction base generalizing targ with
  | nil => exact ⟨[], by cases targ <;> rfl, by cases targ <;> rfl, by cases targ <;> simp [stripCommon]⟩
  | cons b base ih =>
    cases targ with
    | nil => exact ⟨[], rfl, rfl, by simp [stripCommon]⟩
    | cons t targ =>
      by_cases h : b = t
      · subst h
        obtain ⟨common, hbase, htarg, hheads⟩ := ih targ
        have he : stripCommon (b :: base) (b :: targ) = stripCommon base targ := if_pos rfl
        rw [he]
        exact ⟨b :: common, congrArg (b :: ·) hbase, congrArg (b :: ·) htarg, hheads⟩
      · have he : stripCommon (b :: base) (t :: targ) = (b :: base, t :: targ) := if_neg h
        rw [he]
        refine ⟨[], rfl, rfl, ?_⟩
        simp only [List.head?_cons, some.injEq]
        rintro _ _ rfl rfl
        exact h

/-- A path leads through the parent directory where its first part does. -/
theorem climbs_jsJoin (h : ∀ part ∈ parts, '/' ∉ part.toList) :
    climbs (jsJoin '/' parts) = (parts.head? == some "..") := by
  rw [Bool.eq_iff_iff]
  simp only [climbs, Bool.or_eq_true, beq_iff_eq, isPrefixOf_iff_prefix]
  cases parts with
  | nil => simp [jsJoin]
  | cons part parts =>
    have hsplit := jsSplit_jsJoin h (cons_ne_nil part parts)
    constructor
    · rintro (hup | ⟨rest, hup⟩)
      · rw [hup, jsSplit_of_not_mem (by decide)] at hsplit
        rw [← hsplit]
        rfl
      · have htext : jsJoin '/' (part :: parts) = ".." ++ "/" ++ String.ofList rest := by
          apply String.toList_inj.1
          rw [← hup]
          simp
        rw [htext, jsSplit_append_slash, jsSplit_of_not_mem (by decide)] at hsplit
        rw [← hsplit]
        rfl
    · intro hhead
      obtain rfl : part = ".." := some.inj hhead
      cases parts with
      | nil => exact .inl (jsJoin_singleton _ _)
      | cons next parts =>
        right
        rw [toList_jsJoin_cons_cons]
        exact ⟨(jsJoin '/' (next :: parts)).toList, by simp⟩

theorem targetParts_plain (path : String) : ∀ part ∈ targetParts path, '/' ∉ part.toList := by
  rw [targetParts]
  split
  · simp
  · exact fun part hpart => ((cleanSegments_goSegments path).ne part hpart).2.2

/-- A relative path that is no error and does not climb, in terms of the parts of the two paths. -/
theorem goRel_within_iff (root candidate : String) :
    (∃ rel, goRel root candidate = some rel ∧ climbs rel = false) ↔
      isRooted root = isRooted candidate ∧ goSegments root <+: goSegments candidate ∧
        (goSegments candidate)[(goSegments root).length]? ≠ some ".." := by
  rw [goRel]
  by_cases hsame : goClean candidate = goClean root
  · have hroot : isRooted root = isRooted candidate := by
      rw [← isRooted_goClean, ← hsame, isRooted_goClean]
    have hparts : goSegments root = goSegments candidate := by
      rw [← goSegments_goClean, ← hsame, goSegments_goClean]
    rw [if_pos hsame]
    constructor
    · intro _
      refine ⟨hroot, by rw [hparts], ?_⟩
      rw [hparts, List.getElem?_length]
      simp
    · intro _
      exact ⟨".", rfl, by decide⟩
  rw [if_neg hsame]
  by_cases hroot : isRooted root = isRooted candidate
  · rw [if_neg (by simp [hroot])]
    obtain ⟨common, hbase, htarg, hheads⟩ := stripCommon_eq (goSegments root) (targetParts candidate)
    have hslash := targetParts_plain candidate
    generalize hstrip : stripCommon (goSegments root) (targetParts candidate) = stripped at *
    obtain ⟨base, targ⟩ := stripped
    dsimp only at hbase htarg hheads ⊢
    have hproper : ∀ part ∈ goSegments root, part ≠ "." := fun part hpart =>
      ((cleanSegments_goSegments root).ne part hpart).2.1
    have hdot : ¬ (goSegments root <+: ["."] ∧ isRooted candidate = false ∧ goSegments candidate = []) := by
      rintro ⟨hpre, hrel, hcand⟩
      have hnil : goSegments root = [] := by
        cases hsegments : goSegments root with
        | nil => rfl
        | cons part parts =>
          rw [hsegments] at hpre
          obtain ⟨rest, hrest⟩ := hpre
          have hpart : part = "." := by simpa using congrArg List.head? hrest
          exact absurd hpart (hproper part (hsegments ▸ mem_cons_self))
      apply hsame
      rw [goClean, goClean, hcand, hnil, hroot]
    have hslash' : ∀ part ∈ targ, '/' ∉ part.toList := fun part hpart =>
      hslash part (htarg ▸ mem_append_right common hpart)
    cases base with
    | nil =>
      -- all parts of the root are parts of the candidate
      rw [append_nil] at hbase
      subst hbase
      have hcand : targetParts candidate = goSegments candidate := by
        rw [targetParts]
        split
        · rename_i h
          rw [targetParts, if_pos h] at htarg
          exact absurd ⟨⟨targ, htarg.symm⟩, h.2, h.1⟩ hdot
        · rfl
      rw [hcand] at htarg
      rw [htarg, List.getElem?_append_right (le_refl _), Nat.sub_self, if_neg (by simp)]
      simp only [length_nil, replicate_zero, nil_append, some.injEq,
        exists_eq_left', climbs_jsJoin hslash', prefix_append, hroot, true_and]
      rw [List.head?_eq_getElem?, beq_eq_false_iff_ne]
    | cons b base =>
      have hclimbs : climbs (jsJoin '/' (List.replicate (base.length + 1) ".." ++ targ)) = true := by
        rw [climbs_jsJoin]
        · rfl
        · intro part hpart
          rcases mem_append.1 hpart with hpart | hpart
          · rw [eq_of_mem_replicate hpart]
            decide
          · exact hslash' part hpart
      constructor
      · rintro ⟨rel, he, hrel⟩
        split at he
        · cases he
        · obtain rfl := some.inj he
          rw [length_cons, hclimbs] at hrel
          cases hrel
      · rintro ⟨-, hpre, -⟩
        rw [hbase] at hpre
        rw [targetParts] at htarg
        split at htarg
        · rename_i h
          rw [h.1, prefix_nil, append_eq_nil_iff] at hpre
          cases hpre.2
        · rw [htarg, prefix_append_right_inj] at hpre
          obtain ⟨rest, rfl⟩ := hpre
          exact absurd rfl (hheads b b rfl rfl)
  · rw [if_pos (by simpa using hroot)]
    constructor
    · rintro ⟨_, he, -⟩
      cases he
    · intro h
      exact absurd h.1 hroot

theorem goRender_rooted (parts : List String) : goRender true parts = urlPath parts := by
  rw [goRender, if_pos rfl, urlPath]

theorem CleanSegments.parted (h : CleanSegments rooted segments) : Parted segments :=
  fun part hpart => ⟨(h.ne part hpart).1, (h.ne part hpart).2.2⟩

theorem goRender_within_iff (hbase : CleanSegments true base)
    (hparts : CleanSegments true parts) (hne : base ≠ []) :
    goRender true parts = goRender true base ∨
        (goRender true base ++ "/").toList <+: (goRender true parts).toList ↔ base <+: parts := by
  rw [goRender_rooted, goRender_rooted]
  exact urlPath_within_iff hbase.parted hparts.parted hne

theorem goJoin_goClean_eq (hdir : isRooted dir = true) (htext : isRooted text = false) :
    goJoin (goClean dir) text = goRender true (locate dir text) := by
  have hrooted : isRooted (goClean dir ++ "/" ++ text) = true := by
    have hclean := isRooted_goClean dir
    rw [hdir] at hclean
    simp only [isRooted, beq_iff_eq] at hclean ⊢
    simp [List.head?_append, hclean]
  have hplace : locate (goClean dir) text = locate dir text := by
    rw [locate_eq_foldl ((isRooted_goClean dir).trans hdir), locate_eq_foldl hdir, goSegments_goClean]
  have hparts : goSegments (goClean dir ++ "/" ++ text) = locate (goClean dir) text := by
    rw [locate, htext, if_neg Bool.false_ne_true]
  rw [goJoin, if_pos (goClean_ne_empty dir), goClean, hrooted, hparts, hplace]

theorem goClean_eq_locate (dir : String) (htext : isRooted text = true) :
    goClean text = goRender true (locate dir text) := by
  rw [goClean, locate, htext, if_pos rfl]

end Trakrai.Lib
