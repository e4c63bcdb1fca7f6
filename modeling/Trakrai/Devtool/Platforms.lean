import Trakrai.Devtool.Releases
import Mathlib.Data.List.Dedup

namespace Trakrai.Devtool
open Option Lib

section
variable {services : List ServiceManifest} {world : World} {call : ReleaseCall}

inductive Released (services : List ServiceManifest) (world : World) (call : ReleaseCall) :
    World × Bool → Prop where
  | unplanned : Released services world call (world, false)
  | failed (names : List String) (plan : Plan) (progress : Progress)
      (hnames : targetNamesFromArgs services call.package = some names)
      (hplanned : Planned world.metadata.packages call.sources call.forcePackage names plan)
      (hgrows : Grows call plan.planned ⟨plan.packages, world.built, world.published⟩ progress) :
      Released services world call
        ({ world with built := progress.built, published := progress.published }, false)
  | finished (names : List String) (plan : Plan) (progress : Progress) (metadata : Metadata)
      (hnames : targetNamesFromArgs services call.package = some names)
      (hplanned : Planned world.metadata.packages call.sources call.forcePackage names plan)
      (hgrows : Grows call plan.planned ⟨plan.packages, world.built, world.published⟩ progress)
      (hreleased : ItemsReleased call plan.planned ⟨plan.packages, world.built, world.published⟩ progress)
      (hmetadata : metadata.packages = progress.packages) :
      Released services world call (⟨metadata, progress.built, progress.published⟩, call.manifestWrites)

theorem released (hw : WellFormedPackages world.metadata.packages) :
    Released services world call (cmdRelease services world call) := by
  rw [cmdRelease]
  cases hplan : planTargets services call.sources world.metadata call.package call.forcePackage with
  | none => exact .unplanned
  | some plan =>
    obtain ⟨names, hnames, hplanned⟩ := planTargets_planned hw hplan
    have hgrows := releaseItems_grows services call 0 plan.planned
      ⟨plan.packages, world.built, world.published⟩
    dsimp only
    cases hitems : releaseItems services call 0 plan.planned
        ⟨plan.packages, world.built, world.published⟩ with
    | error progress =>
      rw [hitems] at hgrows
      exact .failed names plan progress hnames hplanned hgrows
    | ok progress =>
      rw [hitems] at hgrows
      exact .finished names plan progress _ hnames hplanned hgrows (releaseItems_released hitems) rfl

theorem wellFormed_of_stamps
    (h : ∀ n, stampOf packages' n = stampOf packages n) (hw : WellFormedPackages packages) :
    WellFormedPackages packages' := by
  intro n record hl
  have hstamp := h n
  rw [stampOf, hl, map_some, stampOf] at hstamp
  obtain ⟨before, hbefore, heq⟩ := map_eq_some_iff.1 hstamp.symm
  obtain ⟨hhash, hversion⟩ := Prod.mk.inj heq
  obtain ⟨⟨hash, hh⟩, v, hv⟩ := hw n before hbefore
  exact ⟨⟨hash, hhash.symm.trans hh⟩, v, hversion.symm.trans hv⟩

theorem Planned.backed (h : Planned old sources forcedNames names plan) (hb : Backed built old):
    Backed built plan.packages := by
  intro n record platform artifact hl ha
  by_cases hn : n ∈ names
  · obtain ⟨found, hf, hplanned⟩ := h.record n hn
    obtain rfl : found = record := some.inj (hf.symm.trans hl)
    by_cases hc : HashChanged old sources n
    · rw [(hplanned.changed hc).1] at ha
      cases ha
    · obtain ⟨before, hbefore, hartifacts, hversion⟩ := hplanned.same hc
      rw [HashChanged, hbefore, not_not, map_some, some.injEq] at hc
      rw [hversion, hplanned.sourceHash, ← hc]
      exact hb n before platform artifact hbefore (hartifacts ▸ ha)
  · exact hb n record platform artifact (h.untouched n hn ▸ hl) ha

structure Kept (world : World) : Prop where
  wellFormed : WellFormedPackages world.metadata.packages
  backed : Backed world.built world.metadata.packages

theorem kept_initial : Kept .initial := ⟨nofun, nofun⟩

theorem Backed.mono (h : Backed built packages) (hsub : ∀ artifact ∈ built, artifact ∈ built'):
    Backed built' packages :=
  fun n record platform artifact hl ha => hsub _ (h n record platform artifact hl ha)

theorem Kept.step (h : Kept world) (call : ReleaseCall) : Kept (cmdRelease services world call).1 := by
  have hr : Released services world call (cmdRelease services world call) := released h.wellFormed
  generalize cmdRelease services world call = result at hr
  cases hr with
  | unplanned => exact h
  | failed names plan progress hnames hplanned hgrows =>
    exact ⟨h.wellFormed, h.backed.mono hgrows.1⟩
  | finished names plan progress metadata hnames hplanned hgrows hreleased hmetadata =>
    refine ⟨?_, ?_⟩
    · change WellFormedPackages metadata.packages
      rw [hmetadata]
      exact wellFormed_of_stamps hreleased.stamps hplanned.wellFormed
    · change Backed progress.built metadata.packages
      rw [hmetadata]
      exact hreleased.backed (fun item hitem => (hplanned.items item hitem).2.2)
        (hplanned.backed h.backed)

theorem kept_run (h : (releases services).Run .initial tr world) :
    ∀ u ∈ states tr world, Kept u := by
  apply h.forall_states kept_initial
  rintro p - hp u ⟨-, rfl⟩
  exact hp.step p.2

def recordedArtifact (packages : List (String × PackageRecord)) (n platform : String) :
    Option ArtifactRecord :=
  (packages.lookup n).bind fun record => record.artifacts.lookup platform

/-- The package has an artifact for the platform of the call, which was built from the source that the
call has met, under the version that is recorded for it. -/
def Complete (services : List ServiceManifest) (world : World) (call : ReleaseCall) (n : String) : Prop :=
  ∃ found, artifactRecordForPackage services world.metadata n call.platform "" = .ok found ∧
    found.record.sourceHash = (call.sources n).sourceHash.text ∧
    found.version = found.record.version ∧
    (⟨n, found.version, call.platform, (call.sources n).sourceHash.text, found.artifact⟩ : Artifact) ∈
      world.built

theorem artifactRecordForPackage_ok_iff (ht : (targetsByName services n).isSome):
    artifactRecordForPackage services world.metadata n platform "" = .ok found ↔
      ∃ service record artifact, targetsByName services n = some service ∧
        world.metadata.packages.lookup n = some record ∧ record.artifacts.lookup platform = some artifact ∧
        found = ⟨service, record, artifact, record.version⟩ := by
  obtain ⟨service, hs⟩ := isSome_iff_exists.1 ht
  simp only [artifactRecordForPackage, hs]
  cases hl : world.metadata.packages.lookup n with
  | none => simp
  | some record =>
    cases ha : record.artifacts.lookup platform with
    | none => simp [ha]
    | some artifact =>
      simp only [ne_eq, not_true_eq_false, if_false, ha, Except.ok.injEq, some.injEq]
      constructor
      · rintro rfl
        exact ⟨service, record, artifact, rfl, rfl, ha, rfl⟩
      · rintro ⟨_, _, found, rfl, rfl, hf, rfl⟩
        obtain rfl : artifact = found := some.inj (ha.symm.trans hf)
        rfl

theorem target_of_selected
    (h : targetNamesFromArgs services packageNames = some names) (hn : n ∈ names) :
    (targetsByName services n).isSome := by
  rw [targetNamesFromArgs] at h
  split at h
  · obtain rfl := some.inj h
    rw [List.mem_insertionSort, List.mem_dedup] at hn
    obtain ⟨service, hs, rfl⟩ := List.mem_map.1 hn
    rw [targetsByName, List.find?_isSome]
    exact ⟨service, List.mem_reverse.2 hs, beq_self_eq_true _⟩
  · split at h
    · rename_i hall
      obtain rfl := some.inj h
      exact List.all_eq_true.1 hall n hn
    · cases h

/-- Where the record of a selected package names an artifact for the platform, the package is
complete. -/
theorem complete_iff_recorded (hk : Kept world)
    (hpackages : world.metadata.packages = packages) (ht : (targetsByName services n).isSome)
    (hstamp : stampOf packages n = some ((call.sources n).sourceHash.text, version)) :
    Complete services world call n ↔ (recordedArtifact packages n call.platform).isSome := by
  subst hpackages
  rw [stampOf, map_eq_some_iff] at hstamp
  obtain ⟨record, hl, hrecord⟩ := hstamp
  obtain ⟨hhash, -⟩ := Prod.mk.inj hrecord
  rw [recordedArtifact, hl, bind_some]
  constructor
  · rintro ⟨found, hfound, -⟩
    obtain ⟨service, record', artifact, -, hl', ha, -⟩ := (artifactRecordForPackage_ok_iff ht).1 hfound
    obtain rfl : record = record' := some.inj (hl.symm.trans hl')
    rw [ha]
    rfl
  · intro hsome
    obtain ⟨artifact, ha⟩ := isSome_iff_exists.1 hsome
    obtain ⟨service, hs⟩ := isSome_iff_exists.1 ht
    refine ⟨⟨service, record, artifact, record.version⟩,
      (artifactRecordForPackage_ok_iff ht).2 ⟨service, record, artifact, hs, hl, ha, rfl⟩, hhash, rfl, ?_⟩
    rw [← hhash]
    exact hk.backed n record call.platform artifact hl ha

/-- After a release that came to its end, a selected package is complete for the platform exactly when
its source had changed, it was forced, or it had an artifact for the platform before. -/
theorem complete_after_iff {tr : List (World × ReleaseCall)} {s : World}
    (h : (releases services).Run .initial tr s) :
    ∀ p ∈ tr, (cmdRelease services p.1 p.2).2 = true →
      ∀ names n, targetNamesFromArgs services p.2.package = some names → n ∈ names →
        (Complete services (cmdRelease services p.1 p.2).1 p.2 n ↔
          HashChanged p.1.metadata.packages p.2.sources n ∨ n ∈ p.2.forcePackage ∨
            (recordedArtifact p.1.metadata.packages n p.2.platform).isSome) := by
  rintro ⟨world, call⟩ hp hdone names n hnames hn
  have hk : Kept world := kept_run h _ (mem_states_of_mem hp)
  have hafter : Kept (cmdRelease services world call).1 := hk.step call
  have ht := target_of_selected hnames hn
  have hr : Released services world call (cmdRelease services world call) := released hk.wellFormed
  dsimp only at hdone ⊢
  generalize cmdRelease services world call = result at hr hdone hafter ⊢
  cases hr with
  | unplanned => cases hdone
  | failed names plan progress hnames hplanned hgrows => cases hdone
  | finished names' plan progress metadata hnames' hplanned hgrows hreleased hmetadata =>
    obtain rfl : names = names' := some.inj (hnames.symm.trans hnames')
    obtain ⟨record, hl, hrecord⟩ := hplanned.record n hn
    have hstamp : stampOf progress.packages n =
        some ((call.sources n).sourceHash.text, record.version) := by
      rw [hreleased.stamps, stampOf, hl, map_some, PackageRecord.stamp, hrecord.sourceHash]
    rw [complete_iff_recorded hafter hmetadata ht hstamp]
    constructor
    · intro hsome
      by_cases hwhy : HashChanged world.metadata.packages call.sources n ∨ n ∈ call.forcePackage
      · exact hwhy.imp_right .inl
      · right
        right
        have hnone : ∀ item ∈ plan.planned, item.name ≠ n := by
          rintro item hitem rfl
          exact hwhy (hplanned.items item hitem).2.1
        obtain ⟨before, hbefore, hartifacts, -⟩ := hrecord.same fun hc => hwhy (.inl hc)
        rw [recordedArtifact, hreleased.untouched n hnone, hl, bind_some, hartifacts] at hsome
        rw [recordedArtifact, hbefore, bind_some]
        exact hsome
    · intro hwhy
      by_cases hmade : HashChanged world.metadata.packages call.sources n ∨ n ∈ call.forcePackage
      · obtain ⟨item, hitem, rfl⟩ := hplanned.planned n hn hmade
        obtain ⟨found, hf, hsome⟩ := hreleased.released item hitem
        rw [recordedArtifact, hf, bind_some]
        exact hsome
      · obtain ⟨before, hbefore, hartifacts, -⟩ := hrecord.same fun hc => hmade (.inl hc)
        have hsome := (or_assoc.2 hwhy).resolve_left hmade
        rw [recordedArtifact, hbefore, bind_some, ← hartifacts] at hsome
        obtain ⟨artifact, ha⟩ := isSome_iff_exists.1 hsome
        obtain ⟨found, hf, hs⟩ := hreleased.recorded n record call.platform artifact hl ha
        rw [recordedArtifact, hf, bind_some]
        exact hs

end

def sampleServices : List ServiceManifest :=
  [⟨"audio-manager", "audio-manager", "python-wheel", "platform"⟩,
   ⟨"rtsp-feeder", "rtsp-feeder", "go-binary", "platform"⟩]

def firstSource : Source := ⟨⟨"sha256:01", by decide, by decide +kernel⟩, ["device/go.mod"]⟩

def releaseAll (platform : String) (source : Source) (failing : Option Nat) : ReleaseCall where
  package := []
  forcePackage := []
  platform := platform
  publishTarget := .cloudApi
  sources := fun _ => source
  plannedAt := "2026-04-20T03:48:57Z"
  builtAt := "2026-04-20T03:48:57Z"
  builds := fun index => if some index = failing then none else some ⟨"trakrai-0.1.0-py3-none-any.whl", "1b"⟩
  uploads := fun _ => .succeeded
  manifestWrites := true

def twoPlatforms : List ReleaseCall :=
  [releaseAll "linux/arm64" firstSource none, releaseAll "linux/amd64" firstSource none]

theorem replay_run (services : List ServiceManifest) (calls : List ReleaseCall) :
    (releases services).Run .initial
      (replay (fun world call => (cmdRelease services world call).1) .initial calls).1
      (replay (fun world call => (cmdRelease services world call).1) .initial calls).2 :=
  System.run_replay calls fun _ _ => trivial

theorem complete_after_iff_platforms :
    ∃ tr s, (releases sampleServices).Run .initial tr s ∧ tr.map Prod.snd = twoPlatforms ∧
      ∀ p ∈ tr, (cmdRelease sampleServices p.1 p.2).2 = true ∧
        (Complete sampleServices (cmdRelease sampleServices p.1 p.2).1 p.2 "rtsp-feeder" ↔
          p.2.platform = "linux/arm64") := by
  have hrun := replay_run sampleServices twoPlatforms
  have hall : ∀ p ∈ (replay (fun world call => (cmdRelease sampleServices world call).1) .initial
      twoPlatforms).1, (cmdRelease sampleServices p.1 p.2).2 = true ∧
        targetNamesFromArgs sampleServices p.2.package = some ["audio-manager", "rtsp-feeder"] ∧
        ((HashChanged p.1.metadata.packages p.2.sources "rtsp-feeder" ∨
          "rtsp-feeder" ∈ p.2.forcePackage ∨
            (recordedArtifact p.1.metadata.packages "rtsp-feeder" p.2.platform).isSome) ↔
          p.2.platform = "linux/arm64") := by
    decide +kernel
  refine ⟨_, _, hrun, replay_labels .., fun p hp => ?_⟩
  obtain ⟨hdone, hnames, hwhy⟩ := hall p hp
  have hcomplete := complete_after_iff hrun p hp hdone _ "rtsp-feeder" hnames (by decide)
  exact ⟨hdone, hcomplete.trans hwhy⟩

/-- The second platform gets no artifact. -/
theorem second_platform_missing :
    ¬ ∀ (services : List ServiceManifest) tr s, (releases services).Run .initial tr s →
      (∀ p ∈ tr, (cmdRelease services p.1 p.2).2 = true) →
        ∀ p ∈ tr, ∀ names n, targetNamesFromArgs services p.2.package = some names → n ∈ names →
          Complete services (cmdRelease services p.1 p.2).1 p.2 n := by
  intro h
  have hrun := replay_run sampleServices twoPlatforms
  have hlast : ∃ p ∈ (replay (fun world call => (cmdRelease sampleServices world call).1) .initial
      twoPlatforms).1, targetNamesFromArgs sampleServices p.2.package =
        some ["audio-manager", "rtsp-feeder"] ∧
      artifactRecordForPackage sampleServices (cmdRelease sampleServices p.1 p.2).1.metadata
        "rtsp-feeder" p.2.platform "" =
          .error "no published linux/amd64 artifact recorded for rtsp-feeder" := by
    decide +kernel
  obtain ⟨p, hp, hnames, hmissing⟩ := hlast
  obtain ⟨found, hfound, -⟩ := h sampleServices _ _ hrun (by decide +kernel) p hp _ "rtsp-feeder" hnames
    (by decide)
  rw [hmissing] at hfound
  cases hfound

end Trakrai.Devtool
