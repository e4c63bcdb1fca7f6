import Trakrai.Devtool.Immutability
import Trakrai.Storage.NewestPackage

namespace Trakrai.Storage
open Lib Devtool

theorem isSemver_render (v : Semver) : isSemver v.render = true := by
  have hsplit : jsSplit '.' v.render = [String.ofList (Nat.toDigits 10 v.major),
      String.ofList (Nat.toDigits 10 v.minor), String.ofList (Nat.toDigits 10 v.patch)] := by
    rw [jsSplit, v.toList_render, List.splitOn_intercalate]
    · rfl
    · simp [dot_not_mem_toDigits]
    · exact List.cons_ne_nil _ _
  have hdigits (n : Nat) : (String.ofList (Nat.toDigits 10 n) != "" &&
      (String.ofList (Nat.toDigits 10 n)).toList.all Char.isDigit) = true := by
    have hne : String.ofList (Nat.toDigits 10 n) ≠ "" := fun h => Nat.toDigits_ne_nil (String.ofList_eq_empty_iff.1 h)
    have hall : ∀ c ∈ Nat.toDigits 10 n, c.isDigit = true :=
      fun c hc => Nat.isDigit_of_mem_toDigits (by decide) (by decide) hc
    simpa [hne] using hall
  simp only [isSemver, hsplit, List.all_cons, List.all_nil, hdigits, Bool.and_self]

theorem placed_run {s : World} (h : (releases services).Run .initial tr s) :
    ∀ u ∈ states tr s, Kept u ∧ ∀ a ∈ u.published, a.Placed := by
  apply h.forall_states (I := fun u => Kept u ∧ ∀ a ∈ u.published, a.Placed) ⟨kept_initial, nofun⟩
  rintro ⟨world, call⟩ - ⟨hk, hplaced⟩ u ⟨-, rfl⟩
  refine ⟨hk.step call, ?_⟩
  have hgrown {names : List String} {plan : Plan} {progress : Progress}
      (hplanned : Planned world.metadata.packages call.sources call.forcePackage names plan)
      (hgrows : Grows call plan.planned ⟨plan.packages, world.built, world.published⟩ progress) :
      ∀ a ∈ progress.published, a.Placed := by
    intro a ha
    rcases hgrows.2.2 a ha with hold | ⟨item, hitem, hmade⟩
    · exact hplaced a hold
    · exact (hplanned.made hitem hmade).2.1
  have hr : Released services world call (cmdRelease services world call) := released hk.wellFormed
  dsimp only
  generalize cmdRelease services world call = result at hr
  cases hr with
  | unplanned => exact hplaced
  | failed names plan progress hnames hplanned hgrows => exact hgrown hplanned hgrows
  | finished names plan progress metadata hnames hplanned hgrows => exact hgrown hplanned hgrows

/-- Whatever was ever published, the listing reads back as the package and the version that it was
published for, if only the name of the package is a single segment. -/
theorem published_listed_iff {s : World} (h : (releases services).Run .initial tr s) (ha : a ∈ s.published)
    (sizeBytes : Option Nat) (updatedAt : Option String) :
    (∃ artifact, parsePackageArtifact providerName
      ⟨packageStoragePrefix ++ "/" ++ a.record.remotePath, sizeBytes, updatedAt⟩ = some artifact ∧
        artifact.serviceName = a.name ∧ artifact.version = a.version ∧ artifact.remotePath = a.record.remotePath) ↔ '/' ∉ a.name.toList := by
  obtain ⟨⟨v, hv⟩, platformTag, fileName, htag, hfile, hpath⟩ := (placed_run h s (end_mem_states ..)).2 a ha
  constructor
  · rintro ⟨artifact, hparse, hname, -⟩
    obtain ⟨hsplit, -⟩ := split_of_parse hparse
    apply not_mem_of_mem_jsSplit
    rw [hsplit, hname]
    simp
  · intro hname
    have hsplit : jsSplit '/' (packageStoragePrefix ++ "/" ++ a.record.remotePath) =
        [packageStoragePrefix, a.name, a.version, platformTag, fileName] := by
      rw [ split_prefix, hpath, remotePath, jsSplit_append_slash, jsSplit_append_slash, jsSplit_append_slash,
        jsSplit_of_not_mem hname, hv, jsSplit_of_not_mem v.slash_not_mem_render, jsSplit_of_not_mem htag,
        jsSplit_of_not_mem hfile]
      rfl
    have hsome : (parsePackageArtifact providerName
        ⟨packageStoragePrefix ++ "/" ++ a.record.remotePath, sizeBytes, updatedAt⟩).isSome = true :=
      parse_of_split hsplit (hv ▸ isSemver_render v)
    obtain ⟨artifact, hparse⟩ := Option.isSome_iff_exists.1 hsome
    obtain ⟨hsplit', hkey, -⟩ := split_of_parse hparse
    rw [hsplit] at hsplit'
    injection hsplit' with _ hsplit'
    injection hsplit' with hname' hsplit'
    injection hsplit' with hversion'
    exact ⟨artifact, hparse, hname'.symm, hversion'.symm, (String.append_right_inj _).1 hkey⟩

theorem published_listed_iff_retried : ∃ tr s, (releases sampleServices).Run .initial tr s ∧
    ∃ a ∈ s.published, a.version = "0.1.1" ∧ ∃ artifact, parsePackageArtifact .S3
      ⟨packageStoragePrefix ++ "/" ++ a.record.remotePath, none, none⟩ = some artifact ∧
        artifact.serviceName = "audio-manager" := by
  have hrun := replay_run sampleServices retriedRelease
  have hfound : ∃ a ∈ (replay (fun world call => (cmdRelease sampleServices world call).1) .initial
      retriedRelease).2.published, a.version = "0.1.1" ∧ a.name = "audio-manager" := by decide +kernel
  obtain ⟨a, ha, hversion, hname⟩ := hfound
  obtain ⟨artifact, hparse, hservice, -⟩ := (published_listed_iff hrun ha none none).2 (by rw [hname]; decide)
  exact ⟨_, _, hrun, a, ha, hversion, artifact, hparse, hservice.trans hname⟩

end Trakrai.Storage
