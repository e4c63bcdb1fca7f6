import Trakrai.Devtool.Platforms
import Trakrai.Lib.JoinedNames

namespace Trakrai.Devtool
open Option Lib

section
variable {services : List ServiceManifest} {world : World} {call : ReleaseCall}
  {packages old : List (String × PackageRecord)} {sources : String → Source}

def Immutable (world : World) : Prop :=
  ∀ a ∈ world.published, ∀ b ∈ world.published, a.record.remotePath = b.record.remotePath →
    a.sourceHash = b.sourceHash

/-- The version of a package rises when another source is recorded, and stays otherwise. -/
structure Advances (before after : List (String × PackageRecord)) : Prop where
  kept : ∀ n, (before.lookup n).isSome → (after.lookup n).isSome
  same : ∀ n record, after.lookup n = some record →
    (before.lookup n).map (·.sourceHash) = some record.sourceHash →
      (before.lookup n).map (·.version) = some record.version
  rises : ∀ n record, after.lookup n = some record →
    (before.lookup n).map (·.sourceHash) ≠ some record.sourceHash →
      ∃ v w, parseSemver (recordedVersion before n) = some v ∧ parseSemver record.version = some w ∧
        v.before w

/-- No package of the call whose source has changed was published, under the version that is next for
it, from another source. -/
def FreshVersions (services : List ServiceManifest) (world : World) (call : ReleaseCall) : Prop :=
  ∀ n ∈ (targetNamesFromArgs services call.package).getD [],
    HashChanged world.metadata.packages call.sources n → ∀ a ∈ world.published, a.name = n →
      bumpPatch (recordedVersion world.metadata.packages n) = some a.version →
        a.sourceHash = (call.sources n).sourceHash.text

instance (services : List ServiceManifest) (world : World) (call : ReleaseCall) :
    Decidable (FreshVersions services world call) :=
  inferInstanceAs (Decidable (∀ n ∈ (targetNamesFromArgs services call.package).getD [],
    HashChanged world.metadata.packages call.sources n → ∀ a ∈ world.published, a.name = n →
      bumpPatch (recordedVersion world.metadata.packages n) = some a.version →
        a.sourceHash = (call.sources n).sourceHash.text))

theorem nextVersion_rises (hw : WellFormedPackages packages)
    (h : bumpPatch (recordedVersion packages n) = some version) :
    ∃ v w, parseSemver (recordedVersion packages n) = some v ∧ version = Semver.render w ∧ v.before w := by
  cases hl : packages.lookup n with
  | none =>
    have hempty : recordedVersion packages n = "" := by rw [recordedVersion, hl]; rfl
    rw [hempty] at h ⊢
    refine ⟨⟨0, 0, 0⟩, initialVersion, rfl, ?_, .inr ⟨rfl, .inl Nat.zero_lt_one⟩⟩
    rw [render_initialVersion]
    exact (some.inj h).symm
  | some record =>
    obtain ⟨-, v, hv⟩ := hw n record hl
    have hversion : recordedVersion packages n = v.render := by rw [recordedVersion, hl, ← hv]; rfl
    rw [hversion, v.bumpPatch_render] at h
    rw [hversion, v.parse_render]
    exact ⟨v, v.bumped, rfl, (some.inj h).symm, v.before_bumped⟩

theorem Semver.before_irrefl (v : Semver) : ¬ v.before v := by
  rw [Semver.before]
  omega

theorem not_bumped_self (hw : WellFormedPackages packages) (hl : packages.lookup n = some record):
    bumpPatch (recordedVersion packages n) ≠ some record.version := by
  intro h
  obtain ⟨v, w, hv, hversion, hbefore⟩ := nextVersion_rises hw h
  have hrecorded : recordedVersion packages n = w.render := by rw [recordedVersion, hl, ← hversion]; rfl
  rw [hrecorded, w.parse_render] at hv
  obtain rfl := some.inj hv
  exact w.before_irrefl hbefore

theorem Advances.refl (packages : List (String × PackageRecord)) : Advances packages packages where
  kept _ h := h
  same n record hl _ := by rw [hl]; rfl
  rises n record hl hne := absurd (by rw [hl]; rfl) hne

theorem Planned.advances
    (hw : WellFormedPackages old) (h : Planned old sources forcedNames names plan) :
    Advances old plan.packages where
  kept n hn := by
    by_cases hmem : n ∈ names
    · obtain ⟨record, hl, -⟩ := h.record n hmem
      rw [hl]
      rfl
    · rw [h.untouched n hmem]
      exact hn
  same n record hl hhash := by
    by_cases hmem : n ∈ names
    · obtain ⟨found, hf, hplanned⟩ := h.record n hmem
      obtain rfl : found = record := some.inj (hf.symm.trans hl)
      have hsame : ¬ HashChanged old sources n := by
        rw [HashChanged, not_not, hhash, hplanned.sourceHash]
      obtain ⟨before, hbefore, -, hversion⟩ := hplanned.same hsame
      rw [hbefore, hversion]
      rfl
    · rw [← h.untouched n hmem, hl]
      rfl
  rises n record hl hne := by
    by_cases hmem : n ∈ names
    · obtain ⟨found, hf, hplanned⟩ := h.record n hmem
      obtain rfl : found = record := some.inj (hf.symm.trans hl)
      rw [hplanned.sourceHash] at hne
      obtain ⟨v, w, hv, hversion, hbefore⟩ := nextVersion_rises hw (hplanned.changed hne).2
      exact ⟨v, w, hv, by rw [hversion, w.parse_render], hbefore⟩
    · rw [← h.untouched n hmem, hl] at hne
      exact absurd rfl hne

theorem Advances.of_stamps (h : Advances old packages)
    (hstamps : ∀ n, stampOf after n = stampOf packages n) : Advances old after := by
  have hfound {n : String} {record : PackageRecord} (hl : after.lookup n = some record) :
      ∃ between, packages.lookup n = some between ∧ between.sourceHash = record.sourceHash ∧
        between.version = record.version := by
    have hstamp := hstamps n
    rw [stampOf, hl, map_some, stampOf] at hstamp
    obtain ⟨between, hb, heq⟩ := map_eq_some_iff.1 hstamp.symm
    exact ⟨between, hb, Prod.mk.inj heq⟩
  refine ⟨fun n hn => ?_, fun n record hl hhash => ?_, fun n record hl hne => ?_⟩
  · have hstamp := congrArg Option.isSome (hstamps n)
    rw [stampOf, stampOf, isSome_map, isSome_map] at hstamp
    rw [hstamp]
    exact h.kept n hn
  · obtain ⟨between, hb, hsource, hversion⟩ := hfound hl
    rw [← hversion]
    exact h.same n between hb (hhash.trans (congrArg some hsource.symm))
  · obtain ⟨between, hb, hsource, hversion⟩ := hfound hl
    rw [← hsource] at hne
    rw [← hversion]
    exact h.rises n between hb hne

theorem cmdRelease_advances (hw : WellFormedPackages world.metadata.packages) :
    Advances world.metadata.packages (cmdRelease services world call).1.metadata.packages := by
  have hr : Released services world call (cmdRelease services world call) := released hw
  generalize cmdRelease services world call = result at hr
  cases hr with
  | unplanned => exact .refl _
  | failed names plan progress hnames hplanned hgrows => exact .refl _
  | finished names plan progress metadata hnames hplanned hgrows hreleased hmetadata =>
    change Advances world.metadata.packages metadata.packages
    rw [hmetadata]
    exact (hplanned.advances hw).of_stamps hreleased.stamps

/-- The remote path of an artifact names the package and the version. -/
structure Artifact.Placed (a : Artifact) : Prop where
  version : ∃ v : Semver, a.version = v.render
  path : ∃ platformTag fileName, '/' ∉ platformTag.toList ∧ '/' ∉ fileName.toList ∧
    a.record.remotePath = remotePath a.name a.version platformTag fileName

theorem Artifact.Placed.inj {a b : Artifact} (ha : a.Placed) (hb : b.Placed)
    (h : a.record.remotePath = b.record.remotePath) : a.name = b.name ∧ a.version = b.version := by
  obtain ⟨⟨v, hv⟩, tag, file, htag, hfile, hpath⟩ := ha
  obtain ⟨⟨w, hw⟩, tag', file', htag', hfile', hpath'⟩ := hb
  have hmark : "/".toList = ['/'] := by decide
  rw [hpath, hpath', remotePath, remotePath] at h
  have htop := (joinedText_inj hmark hfile hfile' h).1
  have hmiddle := (joinedText_inj hmark htag htag' htop).1
  rw [hv, hw] at hmiddle ⊢
  exact joinedText_inj hmark v.slash_not_mem_render w.slash_not_mem_render hmiddle

theorem slash_not_mem_pathName (path : String) : '/' ∉ (pathName path).toList := by
  rw [pathName]
  cases hlast : (jsSplit '/' path).getLast? with
  | none => exact nofun
  | some part => exact not_mem_of_mem_jsSplit (List.mem_of_getLast? hlast)

theorem slash_not_mem_normalizePlatformTag (platform strategy : String) :
    '/' ∉ (normalizePlatformTag platform strategy).toList := by
  rw [normalizePlatformTag]
  split
  · decide
  · rw [String.toList_ofList, List.mem_map]
    rintro ⟨c, -, hc⟩
    split at hc
    · cases hc
    · rename_i hne
      exact hne hc

theorem slash_not_mem_artifactName (service : ServiceManifest) (version platform wheelName : String) :
    '/' ∉ (artifactName service version platform wheelName).toList := by
  rw [artifactName]
  split
  · exact slash_not_mem_pathName _
  · split
    · exact slash_not_mem_pathName _
    · exact slash_not_mem_pathName _

theorem Made.placed {item : PlannedItem} {a : Artifact} (h : Made call item a)
    (hversion : ∃ v : Semver, item.version = v.render) : a.Placed := by
  obtain ⟨service, output, rfl⟩ := h
  exact ⟨hversion, _, _, slash_not_mem_normalizePlatformTag _ _, slash_not_mem_artifactName _ _ _ _, rfl⟩

/-- Each version of a package was published from one source, which is the recorded one for the recorded
version. -/
structure Once (world : World) : Prop where
  kept : Kept world
  placed : ∀ a ∈ world.published, a.Placed
  unique : ∀ a ∈ world.published, ∀ b ∈ world.published, a.name = b.name → a.version = b.version →
    a.sourceHash = b.sourceHash
  recorded : ∀ a ∈ world.published, ∀ record, world.metadata.packages.lookup a.name = some record →
    a.version = record.version → a.sourceHash = record.sourceHash

theorem once_initial : Once .initial := ⟨kept_initial, nofun, nofun, nofun⟩

theorem Once.immutable (h : Once world) : Immutable world := by
  intro a ha b hb hpath
  obtain ⟨hname, hversion⟩ := (h.placed a ha).inj (h.placed b hb) hpath
  exact h.unique a ha b hb hname hversion

theorem Once.planned (h : Once world) (hfresh : FreshVersions services world call) (hnames : targetNamesFromArgs services call.package = some names)
    (hplanned : Planned world.metadata.packages call.sources call.forcePackage names plan) (ha : a ∈ world.published)
    (hl : plan.packages.lookup a.name = some record) (hversion : a.version = record.version) :
    a.sourceHash = record.sourceHash := by
  by_cases hn : a.name ∈ names
  · obtain ⟨found, hf, hrecord⟩ := hplanned.record a.name hn
    obtain rfl : found = record := some.inj (hf.symm.trans hl)
    rw [hrecord.sourceHash]
    by_cases hc : HashChanged world.metadata.packages call.sources a.name
    · apply hfresh a.name (by rwa [hnames]) hc a ha rfl
      rw [hversion]
      exact (hrecord.changed hc).2
    · obtain ⟨before, hbefore, -, hsame⟩ := hrecord.same hc
      rw [h.recorded a ha before hbefore (hversion.trans hsame)]
      rw [HashChanged, not_not, hbefore] at hc
      exact some.inj hc
  · exact h.recorded a ha record (hplanned.untouched a.name hn ▸ hl) hversion

theorem Planned.made (h : Planned old sources forcedNames names plan) (hitem : item ∈ plan.planned)
    (hmade : Made call item a) : a.name ∈ names ∧ a.Placed ∧
      ∃ record, plan.packages.lookup a.name = some record ∧ a.version = record.version ∧
        a.sourceHash = record.sourceHash := by
  obtain ⟨hname, -, hstamp⟩ := h.items item hitem
  rw [stampOf, map_eq_some_iff] at hstamp
  obtain ⟨record, hl, heq⟩ := hstamp
  obtain ⟨hhash, hversion⟩ := Prod.mk.inj heq
  obtain ⟨-, v, hv⟩ := h.wellFormed item.name record hl
  have hplaced := hmade.placed ⟨v, hversion.symm.trans hv⟩
  obtain ⟨service, output, rfl⟩ := hmade
  exact ⟨hname, hplaced, record, hl, hversion.symm, hhash.symm⟩

theorem Once.published (h : Once world) (hfresh : FreshVersions services world call)
    (hnames : targetNamesFromArgs services call.package = some names)
    (hplanned : Planned world.metadata.packages call.sources call.forcePackage names plan)
    (hgrows : Grows call plan.planned ⟨plan.packages, world.built, world.published⟩ progress) :
    (∀ a ∈ progress.published, a.Placed) ∧
    (∀ a ∈ progress.published, ∀ record, plan.packages.lookup a.name = some record →
      a.version = record.version → a.sourceHash = record.sourceHash) ∧
    ∀ a ∈ progress.published, ∀ b ∈ progress.published, a.name = b.name → a.version = b.version →
      a.sourceHash = b.sourceHash := by
  have hrecorded (a : Artifact) (ha : a ∈ progress.published) (record : PackageRecord)
      (hl : plan.packages.lookup a.name = some record) (hversion : a.version = record.version) :
      a.sourceHash = record.sourceHash := by
    rcases hgrows.2.2 a ha with hold | ⟨item, hitem, hmade⟩
    · exact h.planned hfresh hnames hplanned hold hl hversion
    · obtain ⟨-, -, found, hf, -, hhash⟩ := hplanned.made hitem hmade
      obtain rfl : found = record := some.inj (hf.symm.trans hl)
      exact hhash
  refine ⟨fun a ha => ?_, hrecorded, fun a ha b hb hname hversion => ?_⟩
  · rcases hgrows.2.2 a ha with hold | ⟨item, hitem, hmade⟩
    · exact h.placed a hold
    · exact (hplanned.made hitem hmade).2.1
  · rcases hgrows.2.2 a ha with holda | ⟨item, hitem, hmade⟩
    · rcases hgrows.2.2 b hb with holdb | ⟨item, hitem, hmade⟩
      · exact h.unique a holda b holdb hname hversion
      · obtain ⟨-, -, record, hl, hv, hhash⟩ := hplanned.made hitem hmade
        rw [hhash]
        exact hrecorded a ha record (hname ▸ hl) (hversion.trans hv)
    · obtain ⟨-, -, record, hl, hv, hhash⟩ := hplanned.made hitem hmade
      rw [hhash]
      exact (hrecorded b hb record (hname ▸ hl) (hversion.symm.trans hv)).symm

theorem Once.step (h : Once world) (hfresh : FreshVersions services world call) :
    Once (cmdRelease services world call).1 := by
  have hkept : Kept (cmdRelease services world call).1 := h.kept.step call
  have hr : Released services world call (cmdRelease services world call) := released h.kept.wellFormed
  generalize cmdRelease services world call = result at hr hkept
  cases hr with
  | unplanned => exact h
  | failed names plan progress hnames hplanned hgrows =>
    obtain ⟨hplaced, -, hunique⟩ := h.published hfresh hnames hplanned hgrows
    refine ⟨hkept, hplaced, hunique, ?_⟩
    intro a ha record hl hversion
    rcases hgrows.2.2 a ha with hold | ⟨item, hitem, hmade⟩
    · exact h.recorded a hold record hl hversion
    · obtain ⟨hname, -, found, hf, hv, hhash⟩ := hplanned.made hitem hmade
      obtain ⟨planned, hp, hrecord⟩ := hplanned.record a.name hname
      obtain rfl : planned = found := some.inj (hp.symm.trans hf)
      have hsame : ¬ HashChanged world.metadata.packages call.sources a.name := by
        intro hc
        apply not_bumped_self h.kept.wellFormed hl
        rw [(hrecord.changed hc).2, ← hv, hversion]
      rw [HashChanged, not_not] at hsame
      have hbefore : world.metadata.packages.lookup a.name = some record := hl
      rw [hbefore, map_some, some.injEq] at hsame
      rw [hhash, hrecord.sourceHash, hsame]
  | finished names plan progress metadata hnames hplanned hgrows hreleased hmetadata =>
    obtain ⟨hplaced, hrecorded, hunique⟩ := h.published hfresh hnames hplanned hgrows
    refine ⟨hkept, hplaced, hunique, ?_⟩
    intro a ha record hl hversion
    change metadata.packages.lookup a.name = some record at hl
    rw [hmetadata] at hl
    have hstamp := hreleased.stamps a.name
    rw [stampOf, hl, map_some, stampOf] at hstamp
    obtain ⟨before, hbefore, heq⟩ := map_eq_some_iff.1 hstamp.symm
    obtain ⟨hhash, hv⟩ := Prod.mk.inj heq
    rw [hrecorded a ha before hbefore (hversion.trans hv.symm), hhash]

/-- In every run the versions of the packages rise with their sources; and where no call meets a version
that a failed one has used for another source, what is published stays as it is. -/
theorem published_versions {tr : List (World × ReleaseCall)} {s : World}
    (h : (releases services).Run .initial tr s) :
    (∀ p ∈ tr, Advances p.1.metadata.packages (cmdRelease services p.1 p.2).1.metadata.packages) ∧
    ((∀ p ∈ tr, FreshVersions services p.1 p.2) → ∀ u ∈ states tr s, Immutable u) := by
  constructor
  · intro p hp
    exact cmdRelease_advances (kept_run h p.1 (mem_states_of_mem hp)).wellFormed
  · intro hfresh u hu
    have honce : ∀ u ∈ states tr s, Once u := by
      apply h.forall_states once_initial
      rintro p hp hold u ⟨-, rfl⟩
      exact hold.step (hfresh p hp)
    exact (honce u hu).immutable

end

def secondSource : Source := ⟨⟨"sha256:02", by decide, by decide +kernel⟩, ["device/go.mod"]⟩

def retriedRelease : List ReleaseCall :=
  [releaseAll "linux/arm64" firstSource (some 1), releaseAll "linux/arm64" firstSource none,
   releaseAll "linux/arm64" secondSource none]

theorem published_versions_retried :
    ∃ tr s, (releases sampleServices).Run .initial tr s ∧ tr.map Prod.snd = retriedRelease ∧
      s.published.map (fun a => (a.record.remotePath, a.sourceHash)) =
        [("audio-manager/0.1.0/linux-arm64/trakrai-0.1.0-py3-none-any.whl", "sha256:01"),
         ("audio-manager/0.1.0/linux-arm64/trakrai-0.1.0-py3-none-any.whl", "sha256:01"),
         ("rtsp-feeder/0.1.0/linux-arm64/rtsp-feeder-linux-arm64-v0.1.0", "sha256:01"),
         ("audio-manager/0.1.1/linux-arm64/trakrai-0.1.0-py3-none-any.whl", "sha256:02"),
         ("rtsp-feeder/0.1.1/linux-arm64/rtsp-feeder-linux-arm64-v0.1.1", "sha256:02")] ∧
      (∀ p ∈ tr, Advances p.1.metadata.packages
        (cmdRelease sampleServices p.1 p.2).1.metadata.packages) ∧
      ∀ u ∈ states tr s, Immutable u := by
  have hrun := replay_run sampleServices retriedRelease
  obtain ⟨hadvances, himmutable⟩ := published_versions hrun
  exact ⟨_, _, hrun, replay_labels .., by decide +kernel, hadvances, himmutable (by decide +kernel)⟩

def changedAfterFailure : List ReleaseCall :=
  [releaseAll "linux/arm64" firstSource (some 1), releaseAll "linux/arm64" secondSource none]

/-- The version that the failed release has published is published again from other sources. -/
theorem failed_version_reused :
    ¬ ∀ (services : List ServiceManifest) tr s, (releases services).Run .initial tr s →
      (∀ p ∈ tr, Advances p.1.metadata.packages (cmdRelease services p.1 p.2).1.metadata.packages) ∧
      ∀ u ∈ states tr s, Immutable u := by
  intro h
  have hlast := (h sampleServices _ _ (replay_run sampleServices changedAfterFailure)).2 _
    (end_mem_states _ _)
  rw [Immutable] at hlast
  exact absurd hlast (by decide +kernel)

end Trakrai.Devtool
