import Trakrai.Lib.GoRel
import Trakrai.Lib.Split

namespace Trakrai.CloudTransfer
open String Lib

/-- `strings.TrimPrefix` of Go. -/
def trimPrefix (s start : String) : String :=
  if start.toList.isPrefixOf s.toList then String.ofList (s.toList.drop start.length) else s

def slashed (path : String) : String := goReplaceAll path "\\" "/"

def normalizeRemotePath (raw : String) : Except String String :=
  let trimmed := goTrimSpace raw
  if trimmed = "" then .error "remotePath is required"
  else if (jsSplit '/' (slashed trimmed)).any (goTrimSpace · == "..") then
    .error "remotePath cannot escape the device scope"
  else
    let normalized := trimPrefix (goClean ("/" ++ slashed trimmed)) "/"
    if normalized = "" ∨ normalized = "." then .error "remotePath is invalid"
    else if climbs normalized then .error "remotePath cannot escape the device scope"
    else .ok normalized

def normalizeSharedPath (sharedDir raw : String) : Except String String :=
  let trimmed := goTrimSpace raw
  if trimmed = "" then .error "localPath is required"
  else
    let base := goClean sharedDir
    let resolved := if isRooted trimmed then goClean trimmed else goClean (goJoin base trimmed)
    if resolved ≠ base ∧ ¬ (base ++ "/").toList.isPrefixOf resolved.toList then
      .error "localPath must stay inside shared_dir"
    else .ok resolved

/-- The path that `PresignUpload` and `PresignDownload` send for a transfer. -/
def sentPath (remotePath : String) : String :=
  trimPrefix (goClean ("/" ++ trimPrefix remotePath "/")) "/"

def sharedTarget (sharedDir text : String) : String := goRender true (locate sharedDir text)

structure RemoteName (path : String) (names : List String) : Prop where
  eq : path = jsJoin '/' names
  ne : names ≠ []
  plain : ∀ name ∈ names, plainName name = true

section
variable {raw path sharedDir text : String} {names : List String}

theorem trimPrefix_append (s start : String) : trimPrefix (start ++ s) start = s := by
  have hpre : start.toList.isPrefixOf (start ++ s).toList = true := by
    rw [toList_append, List.isPrefixOf_iff_prefix]
    exact List.prefix_append _ _
  rw [trimPrefix, if_pos hpre, toList_append, ← length_toList, List.drop_left, ofList_toList]

theorem trimPrefix_of_not (h : ¬ start.toList <+: path.toList) : trimPrefix path start = path := by
  rw [trimPrefix, if_neg (mt List.isPrefixOf_iff_prefix.1 h)]

theorem isRooted_slash (text : String) : isRooted ("/" ++ text) = true := by simp [isRooted]

theorem trimPrefix_goClean (text : String) :
    trimPrefix (goClean ("/" ++ text)) "/" = jsJoin '/' (goSegments ("/" ++ text)) := by
  rw [goClean, isRooted_slash, goRender, if_pos rfl, trimPrefix_append]

theorem plain_goSegments (text : String) : ∀ name ∈ goSegments ("/" ++ text), plainName name = true := by
  have hlocate : locate "/" ("/" ++ text) = goSegments ("/" ++ text) := by
    rw [locate, isRooted_slash, if_pos rfl]
  rw [← hlocate]
  exact plainName_of_mem_locate rfl

theorem ite_error_eq_ok_iff {c : Prop} [Decidable c] {e : String} {x : Except String String} :
    (if c then .error e else x) = .ok path ↔ ¬ c ∧ x = .ok path := by
  by_cases hc : c
  · simp [hc]
  · simp [hc]

theorem remoteName_of_normalize (h : normalizeRemotePath raw = .ok path) : ∃ names, RemoteName path names := by
  simp only [normalizeRemotePath, ite_error_eq_ok_iff, trimPrefix_goClean, Except.ok.injEq] at h
  obtain ⟨-, -, hne, -, rfl⟩ := h
  refine ⟨_, rfl, ?_, plain_goSegments _⟩
  intro hnil
  rw [hnil] at hne
  exact hne (.inl rfl)

namespace RemoteName

theorem proper (h : RemoteName path names) : ∀ name ∈ names, name ≠ "" ∧ name ≠ "." ∧ name ≠ ".." := by
  intro name hname
  exact properSegment_iff.1 (plainName_iff.1 (h.plain name hname)).1

theorem jsSplit_eq (h : RemoteName path names) : jsSplit '/' path = names := by
  rw [h.eq]
  exact jsSplit_jsJoin (fun name hname => (plainName_iff.1 (h.plain name hname)).2) h.ne

theorem ends (h : RemoteName path names) :
    (∃ c, path.toList.head? = some c ∧ c ≠ '/') ∧ ∃ c, path.toList.getLast? = some c ∧ c ≠ '/' := by
  have hparts : ∀ name ∈ names, name ≠ "" ∧ '/' ∉ name.toList := fun name hname =>
    ⟨(h.proper name hname).1, (plainName_iff.1 (h.plain name hname)).2⟩
  rw [h.eq]
  cases names with
  | nil => exact absurd rfl h.ne
  | cons first rest => exact jsJoin_ends hparts

theorem ne_empty (h : RemoteName path names) : path ≠ "" := by
  rintro rfl
  obtain ⟨c, hc, -⟩ := h.ends.1
  simp at hc

theorem not_rooted (h : RemoteName path names) : ¬ "/".toList <+: path.toList := by
  obtain ⟨c, hc, hne⟩ := h.ends.1
  rintro ⟨rest, hrest⟩
  rw [← hrest] at hc
  exact hne (Option.some.inj hc).symm

theorem sentPath_eq (h : RemoteName path names) : sentPath path = path := by
  have hclean : CleanSegments true names := ⟨0, names, rfl, fun _ => rfl, h.plain⟩
  have hrooted : "/" ++ path = goRender true names := by rw [h.eq, goRender, if_pos rfl]
  rw [sentPath, trimPrefix_of_not h.not_rooted, trimPrefix_goClean, hrooted, goSegments_goRender hclean, ← h.eq]

end RemoteName

theorem cleanSegments_locate (hdir : isRooted sharedDir = true) (text : String) :
    CleanSegments true (locate sharedDir text) :=
  ⟨0, _, rfl, fun _ => rfl, plainName_of_mem_locate hdir⟩

theorem goSegments_ne_nil (hdir : isRooted sharedDir = true) (hroot : goClean sharedDir ≠ "/") :
    goSegments sharedDir ≠ [] := by
  intro hnil
  rw [goClean, hdir, hnil] at hroot
  exact hroot (by decide)

theorem resolved_eq (hdir : isRooted sharedDir = true) (text : String) :
    (if isRooted text then goClean text else goClean (goJoin (goClean sharedDir) text)) =
      sharedTarget sharedDir text := by
  cases htext : isRooted text with
  | true => rw [if_pos rfl, goClean_eq_locate sharedDir htext, sharedTarget]
  | false =>
    have hclean := cleanSegments_locate hdir text
    rw [if_neg Bool.false_ne_true, goJoin_goClean_eq hdir htext, goClean, isRooted_goRender hclean.ne,
      goSegments_goRender hclean, sharedTarget]

theorem normalizeSharedPath_eq_ok_iff (hdir : isRooted sharedDir = true) (hroot : goClean sharedDir ≠ "/") :
    normalizeSharedPath sharedDir raw = .ok path ↔ goTrimSpace raw ≠ "" ∧
      goSegments sharedDir <+: locate sharedDir (goTrimSpace raw) ∧
      path = sharedTarget sharedDir (goTrimSpace raw) := by
  have hbase : goClean sharedDir = goRender true (goSegments sharedDir) := by rw [goClean, hdir]
  have hsegments := cleanSegments_goSegments sharedDir
  rw [hdir] at hsegments
  have hwithin := goRender_within_iff hsegments (cleanSegments_locate hdir (goTrimSpace raw))
    (goSegments_ne_nil hdir hroot)
  rw [← hbase, ← sharedTarget, ← List.isPrefixOf_iff_prefix] at hwithin
  simp only [normalizeSharedPath, resolved_eq hdir, ite_error_eq_ok_iff, Except.ok.injEq]
  rw [not_and_or, not_not, not_not, hwithin, eq_comm (a := path)]

/-- What the paths of a transfer are on the device and in the cloud. -/
theorem transfer_paths :
    (∀ sharedDir raw, isRooted sharedDir = true → goClean sharedDir ≠ "/" → goTrimSpace raw ≠ "" →
      ∀ path, normalizeSharedPath sharedDir raw = .ok path ↔
        goSegments sharedDir <+: locate sharedDir (goTrimSpace raw) ∧
          path = sharedTarget sharedDir (goTrimSpace raw)) ∧
      ∀ raw path, normalizeRemotePath raw = .ok path → path ≠ "" ∧ ¬ "/".toList <+: path.toList ∧
          (∀ segment ∈ jsSplit '/' path, segment ≠ "" ∧ segment ≠ "." ∧ segment ≠ "..") ∧
          sentPath path = path := by
  constructor
  · intro sharedDir raw hdir hroot hraw path
    rw [normalizeSharedPath_eq_ok_iff hdir hroot]
    exact and_iff_right hraw
  · intro raw path h
    obtain ⟨names, hname⟩ := remoteName_of_normalize h
    refine ⟨hname.ne_empty, hname.not_rooted, ?_, hname.sentPath_eq⟩
    rw [hname.jsSplit_eq]
    exact hname.proper

end

theorem transfer_paths_frame :
    normalizeSharedPath "/shared" "captures/frame.jpg" = .ok "/shared/captures/frame.jpg" ∧
      sentPath "captures/frame.jpg" = "captures/frame.jpg" :=
  ⟨(transfer_paths.1 "/shared" "captures/frame.jpg" (by decide) (by decide) (by decide) _).2
      ⟨by decide, by decide⟩,
    (transfer_paths.2 "captures//frame.jpg" "captures/frame.jpg" (by decide)).2.2.2⟩

/-- No text at all leads to the shared directory, and is refused. -/
theorem normalizeSharedPath_empty : ¬ ∀ sharedDir raw path, isRooted sharedDir = true →
    goClean sharedDir ≠ "/" →
    (normalizeSharedPath sharedDir raw = .ok path ↔
      goSegments sharedDir <+: locate sharedDir raw ∧ path = sharedTarget sharedDir raw) := by
  intro h
  have hempty := (h "/shared" "" "/shared" (by decide) (by decide)).2 (by decide)
  exact absurd hempty (by decide)

end Trakrai.CloudTransfer
