import Trakrai.Devtool.Packages
import Mathlib.Data.List.Induction

namespace Trakrai.Devtool
open Option List Lib

section
variable {services : List ServiceManifest} {sources : String → Source} {forcedNames names : List String}
  {packages old : List (String × PackageRecord)} {n : String}

def HashChanged (packages : List (String × PackageRecord)) (sources : String → Source) (n : String) : Prop :=
  (packages.lookup n).map (·.sourceHash) ≠ some (sources n).sourceHash.text

instance (packages : List (String × PackageRecord)) (sources : String → Source) (n : String) :
    Decidable (HashChanged packages sources n) :=
  inferInstanceAs (Decidable (_ ≠ _))

def recordedVersion (packages : List (String × PackageRecord)) (n : String) : String :=
  (packages.lookup n).elim "" (·.version)

/-- A record that `cmd_release` has written. -/
structure PackageRecord.WellFormed (record : PackageRecord) : Prop where
  sourceHash : ∃ h : SourceHash, record.sourceHash = h.text
  version : ∃ v : Semver, record.version = v.render

def WellFormedPackages (packages : List (String × PackageRecord)) : Prop :=
  ∀ n record, packages.lookup n = some record → record.WellFormed

structure PlannedRecord (old : List (String × PackageRecord)) (sources : String → Source) (n : String)
    (record : PackageRecord) : Prop where
  sourceHash : record.sourceHash = (sources n).sourceHash.text
  changed : HashChanged old sources n →
    record.artifacts = [] ∧ bumpPatch (recordedVersion old n) = some record.version
  same : ¬ HashChanged old sources n →
    ∃ before, old.lookup n = some before ∧ record.artifacts = before.artifacts ∧
      record.version = before.version

structure PlanStep (forcedNames : List String) (sources : String → Source) (n : String)
    (plan next : Plan) : Prop where
  packages : ∃ record, next.packages = setKey plan.packages n record ∧ record.WellFormed ∧
    PlannedRecord plan.packages sources n record ∧
    ∀ item ∈ next.planned, item ∈ plan.planned ∨ item.name = n ∧
      (HashChanged plan.packages sources n ∨ n ∈ forcedNames) ∧
      item.version = record.version ∧ item.sourceHash = record.sourceHash
  keeps : ∀ item ∈ plan.planned, item ∈ next.planned
  planned : HashChanged plan.packages sources n ∨ n ∈ forcedNames → ∃ item ∈ next.planned, item.name = n

theorem pyStrip_empty : pyStrip "" = "" := by decide

theorem nextVersion_cases (hw : WellFormedPackages packages) (sources : String → Source) (n : String) :
    HashChanged packages sources n ∧
      ((sources n).sourceHash.text != pyStrip ((packages.lookup n).elim "" (·.sourceHash))) = true ∧
      (∃ v : Semver, bumpPatch (pyStrip (recordedVersion packages n)) = some v.render ∧
        bumpPatch (recordedVersion packages n) = some v.render) ∨
    ¬ HashChanged packages sources n ∧
      ((sources n).sourceHash.text != pyStrip ((packages.lookup n).elim "" (·.sourceHash))) = false ∧
      ∃ record v, packages.lookup n = some record ∧ record.version = Semver.render v := by
  cases hl : packages.lookup n with
  | none =>
    left
    refine ⟨by simp [HashChanged, hl], ?_, initialVersion, ?_⟩
    · simpa [pyStrip_empty] using (sources n).sourceHash.ne_empty
    · rw [recordedVersion, hl, render_initialVersion]
      exact ⟨rfl, rfl⟩
  | some record =>
    obtain ⟨⟨h, hh⟩, v, hv⟩ := hw n record hl
    by_cases hsame : (sources n).sourceHash.text = h.text
    · right
      refine ⟨by simp [HashChanged, hl, hh, hsame], ?_, record, v, rfl, hv⟩
      simp [hh, h.stripped, hsame]
    · left
      refine ⟨?_, ?_, v.bumped, ?_⟩
      · simpa [HashChanged, hl, hh] using Ne.symm hsame
      · simpa [hh, h.stripped] using hsame
      · have hversion : recordedVersion packages n = v.render := by rw [recordedVersion, hl, ← hv]; rfl
        rw [hversion, v.pyStrip_render, v.bumpPatch_render]
        exact ⟨rfl, rfl⟩

theorem planTarget_step {next} (hw : WellFormedPackages plan.packages)
    (h : planTarget services sources forcedNames plan n = some next) :
    PlanStep forcedNames sources n plan next := by
  rw [planTarget] at h
  cases ht : targetsByName services n with
  | none => simp [ht] at h
  | some target =>
    simp only [ht] at h
    obtain ⟨version, hversion, rfl⟩ := map_eq_some_iff.1 h
    obtain ⟨hchanged, hbool, v, hstrip, hbump⟩ | ⟨hsame, hbool, record, v, hl, hv⟩ :=
      nextVersion_cases hw sources n
    · rw [hbool, if_pos rfl] at hversion
      obtain rfl : v.render = version := some.inj (hstrip.symm.trans hversion)
      simp only [hbool, Bool.true_or, if_true]
      constructor
      · refine ⟨_, rfl, ⟨⟨_, rfl⟩, v, rfl⟩, ⟨rfl, fun _ => ⟨rfl, hbump⟩, absurd hchanged⟩, ?_⟩
        intro item hitem
        rcases mem_append.1 hitem with hold | hnew
        · exact .inl hold
        · obtain rfl := mem_singleton.1 hnew
          exact .inr ⟨rfl, .inl hchanged, rfl, rfl⟩
      · exact fun item hitem => mem_append_left _ hitem
      · exact fun _ => ⟨_, mem_append_right _ (mem_singleton_self _), rfl⟩
    · rw [hbool, if_neg Bool.false_ne_true] at hversion
      have hstrip : pyStrip ((plan.packages.lookup n).elim "" (·.version)) = v.render := by
        rw [hl, elim_some, hv, v.pyStrip_render]
      rw [hstrip, if_neg v.render_ne_empty, some.injEq] at hversion
      subst hversion
      simp only [hbool, Bool.false_or]
      constructor
      · refine ⟨_, rfl, ⟨⟨_, rfl⟩, v, rfl⟩, ⟨rfl, fun hc => absurd hc hsame, fun _ => ?_⟩, ?_⟩
        · exact ⟨record, hl, by rw [hl]; rfl, hv.symm⟩
        · intro item hitem
          split at hitem
          · rename_i hforced
            rcases mem_append.1 hitem with hold | hnew
            · exact .inl hold
            · obtain rfl := mem_singleton.1 hnew
              exact .inr ⟨rfl, .inr (contains_iff_mem.1 hforced), rfl, rfl⟩
          · exact .inl hitem
      · intro item hitem
        split
        · exact mem_append_left _ hitem
        · exact hitem
      · rintro (hc | hforced)
        · exact absurd hc hsame
        · rw [if_pos (contains_iff_mem.2 hforced)]
          exact ⟨_, mem_append_right _ (mem_singleton_self _), rfl⟩

def PackageRecord.stamp (record : PackageRecord) : String × String := (record.sourceHash, record.version)

def stampOf (packages : List (String × PackageRecord)) (n : String) : Option (String × String) :=
  (packages.lookup n).map PackageRecord.stamp

structure Planned (old : List (String × PackageRecord)) (sources : String → Source)
    (forcedNames names : List String) (plan : Plan) : Prop where
  wellFormed : WellFormedPackages plan.packages
  untouched : ∀ n, n ∉ names → plan.packages.lookup n = old.lookup n
  record : ∀ n ∈ names, ∃ record, plan.packages.lookup n = some record ∧
    PlannedRecord old sources n record
  items : ∀ item ∈ plan.planned, item.name ∈ names ∧
    (HashChanged old sources item.name ∨ item.name ∈ forcedNames) ∧
    stampOf plan.packages item.name = some (item.sourceHash, item.version)
  planned : ∀ n ∈ names, HashChanged old sources n ∨ n ∈ forcedNames → ∃ item ∈ plan.planned, item.name = n

theorem Planned.nil (hw : WellFormedPackages old) :
    Planned old sources forcedNames [] ⟨[], old, changed⟩ :=
  ⟨hw, fun _ _ => rfl, nofun, nofun, nofun⟩

theorem wellFormed_setKey (hw : WellFormedPackages packages) (hr : record.WellFormed): WellFormedPackages (setKey packages n record) := by
  intro k found hl
  rw [lookup_setKey] at hl
  split at hl
  · cases hl
    exact hr
  · exact hw k found hl

theorem PlannedRecord.again (hl : packages.lookup n = some record)
    (h : PlannedRecord old sources n record) (h' : PlannedRecord packages sources n record') :
    PlannedRecord old sources n record' ∧ record'.stamp = record.stamp := by
  have hsame : ¬ HashChanged packages sources n := by
    simp [HashChanged, hl, h.sourceHash]
  obtain ⟨before, hbefore, hartifacts, hversion⟩ := h'.same hsame
  obtain rfl : record = before := some.inj (hl.symm.trans hbefore)
  constructor
  · refine ⟨h'.sourceHash, ?_, ?_⟩
    · rw [hartifacts, hversion]
      exact h.changed
    · rw [hartifacts, hversion]
      exact h.same
  · rw [PackageRecord.stamp, PackageRecord.stamp, h'.sourceHash, h.sourceHash, hversion]

theorem PlannedRecord.transfer (hl : packages.lookup n = old.lookup n)
    (h : PlannedRecord packages sources n record) : PlannedRecord old sources n record := by
  have hchanged : HashChanged packages sources n ↔ HashChanged old sources n := by
    rw [HashChanged, hl]
    rfl
  have hversion : recordedVersion packages n = recordedVersion old n := by
    rw [recordedVersion, hl]
    rfl
  refine ⟨h.sourceHash, fun hc => ?_, fun hs => ?_⟩
  · rw [← hversion]
    exact h.changed (hchanged.2 hc)
  · rw [← hl]
    exact h.same (mt hchanged.1 hs)

theorem Planned.step {next} (h : Planned old sources forcedNames names plan)
    (hs : PlanStep forcedNames sources n plan next) :
    Planned old sources forcedNames (names ++ [n]) next := by
  obtain ⟨record, hpackages, hwell, hrecord, hitems⟩ := hs.packages
  have hlookup (k : String) : next.packages.lookup k =
      if k = n then some record else plan.packages.lookup k := by
    rw [hpackages, lookup_setKey]
  have hown : next.packages.lookup n = some record := by rw [hlookup, if_pos rfl]
  have hplanned : PlannedRecord old sources n record ∧
      (n ∈ names → stampOf next.packages n = stampOf plan.packages n) := by
    by_cases hn : n ∈ names
    · obtain ⟨before, hl, hbefore⟩ := h.record n hn
      obtain ⟨hagain, hstamp⟩ := hbefore.again hl hrecord
      refine ⟨hagain, fun _ => ?_⟩
      rw [stampOf, stampOf, hown, hl]
      exact congrArg some hstamp
    · exact ⟨hrecord.transfer (h.untouched n hn), fun hn' => absurd hn' hn⟩
  have hstamp (k : String) (hk : k ∈ names) : stampOf next.packages k = stampOf plan.packages k := by
    by_cases hkn : k = n
    · subst hkn
      exact hplanned.2 hk
    · rw [stampOf, hlookup, if_neg hkn]
      rfl
  constructor
  · rw [hpackages]
    exact wellFormed_setKey h.wellFormed hwell
  · intro k hk
    rw [mem_append, mem_singleton, not_or] at hk
    rw [hlookup, if_neg hk.2]
    exact h.untouched k hk.1
  · intro k hk
    by_cases hkn : k = n
    · subst hkn
      exact ⟨record, hown, hplanned.1⟩
    · have hold : k ∈ names := by simpa [hkn] using hk
      obtain ⟨found, hl, hf⟩ := h.record k hold
      exact ⟨found, by rw [hlookup, if_neg hkn, hl], hf⟩
  · intro item hitem
    rcases hitems item hitem with hold | ⟨rfl, hwhy, hversion, hhash⟩
    · obtain ⟨hname, hwhy, hst⟩ := h.items item hold
      exact ⟨mem_append_left _ hname, hwhy, (hstamp _ hname).trans hst⟩
    · refine ⟨mem_append_right _ (mem_singleton_self _), ?_, ?_⟩
      · rcases hwhy with hc | hforced
        · by_cases hn : item.name ∈ names
          · obtain ⟨before, hl, hbefore⟩ := h.record _ hn
            exact absurd (by rw [hl, map_some, hbefore.sourceHash]) hc
          · rw [HashChanged, h.untouched _ hn] at hc
            exact .inl hc
        · exact .inr hforced
      · rw [stampOf, hown, hversion, hhash]
        rfl
  · intro k hk hwhy
    by_cases hold : k ∈ names
    · obtain ⟨item, hitem, hname⟩ := h.planned k hold hwhy
      exact ⟨item, hs.keeps item hitem, hname⟩
    · obtain rfl : k = n := by simpa [hold] using hk
      apply hs.planned
      rw [HashChanged, h.untouched k hold]
      exact hwhy

theorem planned_foldlM (hw : WellFormedPackages old)
    (h : names.foldlM (planTarget services sources forcedNames) ⟨[], old, changed⟩ = some plan) :
    Planned old sources forcedNames names plan := by
  induction names using List.reverseRecOn generalizing plan with
  | nil =>
    cases h
    exact .nil hw
  | append_singleton names n ih =>
    rw [foldlM_append, bind_eq_bind, bind_eq_some_iff] at h
    obtain ⟨before, hbefore, hlast⟩ := h
    rw [foldlM_cons, bind_eq_bind, bind_eq_some_iff] at hlast
    obtain ⟨next, hnext, hlast⟩ := hlast
    obtain rfl : next = plan := some.inj hlast
    have hplanned := ih hbefore
    exact hplanned.step (planTarget_step hplanned.wellFormed hnext)

theorem planTargets_planned (hw : WellFormedPackages metadata.packages)
    (h : planTargets services sources metadata packageNames forcedNames = some plan) :
    ∃ names, targetNamesFromArgs services packageNames = some names ∧
      Planned metadata.packages sources forcedNames names plan := by
  obtain ⟨names, hnames, hfold⟩ := bind_eq_some_iff.1 h
  exact ⟨names, hnames, planned_foldlM hw hfold⟩

end

section
variable {services : List ServiceManifest} {call : ReleaseCall} {index : Nat} {item : PlannedItem}
  {items : List PlannedItem} {progress next : Progress} {n : String}

def Made (call : ReleaseCall) (item : PlannedItem) (artifact : Artifact) : Prop :=
  ∃ service output, artifact = itemArtifact call service item output

theorem releaseItem_ok (h : releaseItem services call index item progress = .ok next) :
    ∃ artifact record, Made call item artifact ∧ progress.packages.lookup item.name = some record ∧
      next.packages = setKey progress.packages item.name (recordArtifact call artifact record) ∧
      next.built = progress.built ++ [artifact] := by
  unfold releaseItem at h
  split at h
  · rename_i target output _ _
    dsimp only at h
    split at h
    · split at h
      · rename_i record hl
        cases h
        exact ⟨_, record, ⟨target, output, rfl⟩, hl, rfl, rfl⟩
      · cases h
    · cases h
  · cases h

def Grows (call : ReleaseCall) (items : List PlannedItem) (progress next : Progress) : Prop :=
  (∀ artifact ∈ progress.built, artifact ∈ next.built) ∧
  (∀ artifact ∈ progress.published, artifact ∈ next.published) ∧
  ∀ artifact ∈ next.published, artifact ∈ progress.published ∨ ∃ item ∈ items, Made call item artifact

/-- What a run has done when it ends, well or not. -/
def ended : Except Progress Progress → Progress
  | .ok progress => progress
  | .error progress => progress

theorem Grows.refl (call : ReleaseCall) (items : List PlannedItem) (progress : Progress) :
    Grows call items progress progress :=
  ⟨fun _ h => h, fun _ h => h, fun _ h => .inl h⟩

theorem releaseItem_grows : Grows call [item] progress (ended (releaseItem services call index item progress)) := by
  unfold releaseItem
  split
  · rename_i target output _ _
    have hmade : Made call item (itemArtifact call target item output) := ⟨target, output, rfl⟩
    have hgrows (packages : List (String × PackageRecord)) : Grows call [item] progress {
        packages := packages
        built := progress.built ++ [itemArtifact call target item output]
        published :=
          if call.publishTarget = .none ∨ call.uploads index = .failed then progress.published
          else progress.published ++ [itemArtifact call target item output] } := by
      refine ⟨fun _ h => mem_append_left _ h, fun _ h => ?_, fun artifact h => ?_⟩
      · dsimp only
        split
        · exact h
        · exact mem_append_left _ h
      · dsimp only at h
        split at h
        · exact .inl h
        · rcases mem_append.1 h with hold | hnew
          · exact .inl hold
          · obtain rfl := mem_singleton.1 hnew
            exact .inr ⟨item, mem_singleton_self _, hmade⟩
    dsimp only
    split
    · split
      · exact hgrows _
      · exact hgrows _
    · exact hgrows _
  · exact .refl _ _ _

theorem Grows.trans (h : Grows call [item] progress next) (h' : Grows call items next later): Grows call (item :: items) progress later := by
  refine ⟨fun a ha => h'.1 a (h.1 a ha), fun a ha => h'.2.1 a (h.2.1 a ha), fun a ha => ?_⟩
  rcases h'.2.2 a ha with hnext | ⟨made, hmem, hmade⟩
  · rcases h.2.2 a hnext with hold | ⟨made, hmem, hmade⟩
    · exact .inl hold
    · exact .inr ⟨item, mem_cons_self .., mem_singleton.1 hmem ▸ hmade⟩
  · exact .inr ⟨made, mem_cons_of_mem _ hmem, hmade⟩

theorem releaseItems_grows (services : List ServiceManifest) (call : ReleaseCall) (index : Nat)
    (items : List PlannedItem) (progress : Progress) :
    Grows call items progress (ended (releaseItems services call index items progress)) := by
  induction items generalizing index progress with
  | nil => exact .refl _ _ _
  | cons item items ih =>
    have hitem : Grows call [item] progress (ended (releaseItem services call index item progress)) :=
      releaseItem_grows
    rw [releaseItems]
    cases hr : releaseItem services call index item progress with
    | ok next =>
      rw [hr] at hitem
      exact hitem.trans (ih (index + 1) next)
    | error next =>
      rw [hr] at hitem
      exact hitem.trans (.refl _ _ _)

def Backed (built : List Artifact) (packages : List (String × PackageRecord)) : Prop :=
  ∀ n record platform artifact, packages.lookup n = some record →
    record.artifacts.lookup platform = some artifact →
      (⟨n, record.version, platform, record.sourceHash, artifact⟩ : Artifact) ∈ built

def Consistent (items : List PlannedItem) (packages : List (String × PackageRecord)) : Prop :=
  ∀ item ∈ items, stampOf packages item.name = some (item.sourceHash, item.version)

structure ItemsReleased (call : ReleaseCall) (items : List PlannedItem)
    (progress next : Progress) : Prop where
  stamps : ∀ n, stampOf next.packages n = stampOf progress.packages n
  untouched : ∀ n, (∀ item ∈ items, item.name ≠ n) → next.packages.lookup n = progress.packages.lookup n
  recorded : ∀ n record platform artifact, progress.packages.lookup n = some record →
    record.artifacts.lookup platform = some artifact → ∃ record', next.packages.lookup n = some record' ∧
      (record'.artifacts.lookup platform).isSome
  released : ∀ item ∈ items, ∃ record, next.packages.lookup item.name = some record ∧
    (record.artifacts.lookup call.platform).isSome
  backed : Consistent items progress.packages → Backed progress.built progress.packages →
    Backed next.built next.packages

theorem ItemsReleased.nil (call : ReleaseCall) (progress : Progress) :
    ItemsReleased call [] progress progress where
  stamps _ := rfl
  untouched _ _ := rfl
  recorded _ record _ _ hl ha := ⟨record, hl, by rw [ha]; rfl⟩
  released := nofun
  backed _ h := h

theorem stampOf_setKey
    (hl : packages.lookup n = some record) (hstamp : record'.stamp = record.stamp) (k : String) :
    stampOf (setKey packages n record') k = stampOf packages k := by
  rw [stampOf, stampOf, lookup_setKey]
  split
  · rename_i hk
    rw [hk, hl]
    exact congrArg some hstamp
  · rfl

theorem lookup_recordArtifact (artifact : Artifact) (record : PackageRecord) (platform : String) :
    (recordArtifact call artifact record).artifacts.lookup platform =
      if platform = call.platform then some artifact.record else record.artifacts.lookup platform :=
  lookup_setKey ..

theorem releaseItem_released (h : releaseItem services call index item progress = .ok next) :
    ItemsReleased call [item] progress next := by
  obtain ⟨artifact, record, hmade, hl, hpackages, hbuilt⟩ := releaseItem_ok h
  have hlookup (k : String) : next.packages.lookup k =
      if k = item.name then some (recordArtifact call artifact record) else progress.packages.lookup k := by
    rw [hpackages, lookup_setKey]
  constructor
  · intro k
    have hstamp : (recordArtifact call artifact record).stamp = record.stamp := rfl
    rw [hpackages]
    exact stampOf_setKey hl hstamp k
  · intro k hk
    rw [hlookup, if_neg fun heq => hk item (mem_singleton_self _) heq.symm]
  · intro k found platform old hk hold
    rw [hlookup]
    split
    · rename_i hname
      obtain rfl : record = found := by
        rw [hname, hl] at hk
        exact some.inj hk
      refine ⟨_, rfl, ?_⟩
      rw [lookup_recordArtifact]
      split
      · rfl
      · rw [hold]
        rfl
    · exact ⟨found, hk, by rw [hold]; rfl⟩
  · intro item' hitem
    obtain rfl := mem_singleton.1 hitem
    refine ⟨_, by rw [hlookup, if_pos rfl], ?_⟩
    rw [lookup_recordArtifact, if_pos rfl]
    rfl
  · intro hconsistent hbacked k found platform made hk hfound
    rw [hlookup] at hk
    rw [hbuilt]
    split at hk
    · rename_i hname
      obtain rfl := some.inj hk
      rw [lookup_recordArtifact] at hfound
      split at hfound
      · rename_i hplatform
        obtain rfl := some.inj hfound
        obtain ⟨service, output, rfl⟩ := hmade
        have hstamp := hconsistent item (mem_singleton_self _)
        rw [stampOf, hl, map_some, some.injEq, PackageRecord.stamp, Prod.mk.injEq] at hstamp
        apply mem_append_right
        rw [mem_singleton, hname, hplatform]
        change (⟨item.name, record.version, call.platform, record.sourceHash, _⟩ : Artifact) = _
        rw [hstamp.1, hstamp.2]
        rfl
      · exact mem_append_left _ (hname ▸ hbacked _ record platform made hl hfound)
    · exact mem_append_left _ (hbacked k found platform made hk hfound)

theorem ItemsReleased.trans (h : ItemsReleased call [item] progress next)
    (h' : ItemsReleased call items next later) : ItemsReleased call (item :: items) progress later where
  stamps n := (h'.stamps n).trans (h.stamps n)
  untouched n hn := by
    rw [h'.untouched n fun other hother => hn other (mem_cons_of_mem _ hother)]
    apply h.untouched
    intro other hother
    obtain rfl := mem_singleton.1 hother
    exact hn other (mem_cons_self ..)
  recorded n record platform artifact hl ha := by
    obtain ⟨between, hb, hsome⟩ := h.recorded n record platform artifact hl ha
    obtain ⟨found, hf⟩ := isSome_iff_exists.1 hsome
    exact h'.recorded n between platform found hb hf
  released other hother := by
    rcases mem_cons.1 hother with rfl | hother
    · obtain ⟨between, hb, hsome⟩ := h.released other (mem_singleton_self _)
      obtain ⟨found, hf⟩ := isSome_iff_exists.1 hsome
      exact h'.recorded other.name between call.platform found hb hf
    · exact h'.released other hother
  backed hconsistent hbacked := by
    apply h'.backed
    · intro other hother
      rw [h.stamps]
      exact hconsistent other (mem_cons_of_mem _ hother)
    · apply h.backed _ hbacked
      intro other hother
      obtain rfl := mem_singleton.1 hother
      exact hconsistent other (mem_cons_self ..)

theorem releaseItems_released (h : releaseItems services call index items progress = .ok next) :
    ItemsReleased call items progress next := by
  induction items generalizing index progress with
  | nil =>
    cases h
    exact .nil call _
  | cons item items ih =>
    rw [releaseItems] at h
    cases hr : releaseItem services call index item progress with
    | ok between =>
      rw [hr] at h
      exact (releaseItem_released hr).trans (ih h)
    | error between =>
      rw [hr] at h
      cases h

end

end Trakrai.Devtool
