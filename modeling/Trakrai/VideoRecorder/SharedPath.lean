import Trakrai.CloudTransfer.Paths

namespace Trakrai.VideoRecorder
open Lib CloudTransfer

/-- `filepath.Abs` of Go in a working directory. -/
def goAbs (cwd path : String) : String := if isRooted path then goClean path else goJoin cwd path

/-- The path of a clip from the shared directory, and the path itself. -/
def resolveSharedPath (cwd sharedDir localPath : String) : Except String (String × String) :=
  let sharedRoot := goAbs cwd sharedDir
  let cleaned := goTrimSpace localPath
  if cleaned = "" then .error "localPath is required"
  else
    let absolutePath := goClean (if isRooted cleaned then goClean cleaned else goJoin sharedRoot cleaned)
    match goRel sharedRoot absolutePath with
    | none => .error ("resolve localPath: Rel: can't make " ++ absolutePath ++ " relative to " ++ sharedRoot)
    | some relativePath =>
      if relativePath = "." ∨ "..".toList.isPrefixOf relativePath.toList then
        .error "localPath must stay inside shared_dir"
      else .ok (relativePath, absolutePath)

section
variable {cwd sharedDir localPath relativePath path text : String}

theorem climbs_of_not_prefix (h : ¬ "..".toList <+: path.toList) : climbs path = false := by
  rw [climbs, Bool.or_eq_false_iff]
  constructor
  · rw [beq_eq_false_iff_ne]
    rintro rfl
    exact h (List.prefix_refl _)
  · rw [Bool.eq_false_iff, ne_eq, List.isPrefixOf_iff_prefix]
    exact fun hslash => h (List.IsPrefix.trans ⟨['/'], rfl⟩ hslash)

theorem resolveSharedPath_ok (h : resolveSharedPath cwd sharedDir localPath = .ok (relativePath, path)) :
    goTrimSpace localPath ≠ "" ∧
      path = goClean (if isRooted (goTrimSpace localPath) then goClean (goTrimSpace localPath)
        else goJoin (goAbs cwd sharedDir) (goTrimSpace localPath)) ∧
      goRel (goAbs cwd sharedDir) path = some relativePath ∧ climbs relativePath = false := by
  simp only [resolveSharedPath] at h
  split at h
  · cases h
  · rename_i hne
    split at h
    · cases h
    · rename_i rel hrel
      split at h
      · cases h
      · rename_i hinside
        cases h
        rw [not_or, List.isPrefixOf_iff_prefix] at hinside
        exact ⟨hne, rfl, hrel, climbs_of_not_prefix hinside.2⟩

/-- The file that is uploaded for a clip is the one that was recorded. -/
theorem normalizeSharedPath_of_resolveSharedPath (cwd sharedDir localPath relativePath path : String)
    (hdir : isRooted sharedDir = true) (hroot : goClean sharedDir ≠ "/")
    (h : resolveSharedPath cwd sharedDir localPath = .ok (relativePath, path)) :
    normalizeSharedPath sharedDir localPath = .ok path := by
  obtain ⟨hne, hpath, hrel, hclimbs⟩ := resolveSharedPath_ok h
  have habs : goAbs cwd sharedDir = goClean sharedDir := if_pos hdir
  rw [habs] at hpath hrel
  have htarget : path = sharedTarget sharedDir (goTrimSpace localPath) := by
    rw [hpath, ← resolved_eq hdir, apply_ite goClean, goClean_goClean]
  obtain ⟨-, hwithin, -⟩ := (goRel_within_iff _ _).1 ⟨relativePath, hrel, hclimbs⟩
  rw [htarget, sharedTarget, goSegments_goRender (cleanSegments_locate hdir _), goSegments_goClean] at hwithin
  exact (normalizeSharedPath_eq_ok_iff hdir hroot).2 ⟨hne, hwithin, htarget⟩

end

theorem normalizeSharedPath_of_resolveSharedPath_clip :
    normalizeSharedPath "/data/shared/" " clips/../gate.mp4 " = .ok "/data/shared/gate.mp4" :=
  normalizeSharedPath_of_resolveSharedPath "/" "/data/shared/" " clips/../gate.mp4 " "gate.mp4"
    "/data/shared/gate.mp4" (by decide) (by decide) (by decide +kernel)

end Trakrai.VideoRecorder
