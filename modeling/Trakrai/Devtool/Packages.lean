import Mathlib.Data.List.Sort
import Trakrai.Lib.Json
import Trakrai.Lib.Text
import Trakrai.Lib.Transition

namespace Trakrai.Devtool
open String List Lib

def INITIAL_VERSION : String := "0.1.0"

structure Semver where
  major : Nat
  minor : Nat
  patch : Nat
deriving DecidableEq, Repr

/-- The order of the tuples that `parse_semver` gives. -/
def Semver.before (a b : Semver) : Prop :=
  a.major < b.major ∨ a.major = b.major ∧
    (a.minor < b.minor ∨ a.minor = b.minor ∧ a.patch < b.patch)

instance (a b : Semver) : Decidable (a.before b) := by
  rw [Semver.before]
  infer_instance

def readDigits (part : List Char) : Option Nat :=
  if part ≠ [] ∧ part.all Char.isDigit then some (Nat.ofDigitChars 10 part 0) else none

/-- `none` where `parse_semver` raises a `ValueError`. Of the decimal digits of Unicode, which `\d` and `int`
take as well, only those of ASCII are read. -/
def parseSemver (value : String) : Option Semver :=
  if value = "" then some ⟨0, 0, 0⟩
  else
    match (pyStrip value).toList.splitOn '.' with
    | [major, minor, patch] =>
      match readDigits major, readDigits minor, readDigits patch with
      | some major, some minor, some patch => some ⟨major, minor, patch⟩
      | _, _, _ => none
    | _ => none

/-- The text `f"{major}.{minor}.{patch}"`. -/
def Semver.render (v : Semver) : String :=
  String.ofList (Nat.toDigits 10 v.major ++ '.' :: (Nat.toDigits 10 v.minor ++
    '.' :: Nat.toDigits 10 v.patch))

def bumpPatch (value : String) : Option String :=
  if value = "" then some INITIAL_VERSION
  else (parseSemver value).map fun v => Semver.render { v with patch := v.patch + 1 }

theorem readDigits_toDigits (n : Nat) : readDigits (Nat.toDigits 10 n) = some n := by
  have hdigits : (Nat.toDigits 10 n).all Char.isDigit := by
    rw [all_eq_true]
    intro c hc
    exact Nat.isDigit_of_mem_toDigits (by decide) (by decide) hc
  rw [readDigits, if_pos ⟨Nat.toDigits_ne_nil, hdigits⟩, Nat.ofDigitChars_ten_toDigits]

theorem dot_not_mem_toDigits (n : Nat) : '.' ∉ Nat.toDigits 10 n := by
  intro h
  have hdigit := Nat.isDigit_of_mem_toDigits (b := 10) (by decide) (by decide) h
  cases hdigit

theorem not_space_of_isDigit (h : c.isDigit = true) : ¬ isPySpace c = true := by
  rw [Char.isDigit, Bool.and_eq_true, decide_eq_true_iff, decide_eq_true_iff] at h
  have hlow : 48 ≤ c.toNat := h.1
  have hhigh : c.toNat ≤ 57 := h.2
  intro hspace
  simp only [isPySpace, mem_cons, not_mem_nil, or_false, Bool.or_eq_true,
    Bool.and_eq_true, decide_eq_true_eq] at hspace
  omega

namespace Semver
variable (v : Semver)

theorem toList_render : v.render.toList = ['.'].intercalate
    [Nat.toDigits 10 v.major, Nat.toDigits 10 v.minor, Nat.toDigits 10 v.patch] := by
  rw [render, toList_ofList]
  simp [List.intercalate]

theorem render_ne_empty : v.render ≠ "" := by
  intro h
  have hlist := congrArg String.toList h
  rw [render, toList_ofList] at hlist
  simp at hlist

theorem pyStrip_render : pyStrip v.render = v.render := by
  apply trimWith_of_ends
  · intro c hc
    rw [render, toList_ofList, List.head?_append_of_ne_nil _ Nat.toDigits_ne_nil] at hc
    exact not_space_of_isDigit
      (Nat.isDigit_of_mem_toDigits (by decide) (by decide) (List.mem_of_mem_head? hc))
  · intro c hc
    have htext : v.render.toList =
        (Nat.toDigits 10 v.major ++ '.' :: (Nat.toDigits 10 v.minor ++ ['.'])) ++
          Nat.toDigits 10 v.patch := by
      simp [render]
    rw [htext, List.getLast?_append_of_ne_nil _ Nat.toDigits_ne_nil] at hc
    exact not_space_of_isDigit
      (Nat.isDigit_of_mem_toDigits (by decide) (by decide) (List.mem_of_getLast? hc))

theorem parse_render : parseSemver v.render = some v := by
  have hsplit : v.render.toList.splitOn '.' =
      [Nat.toDigits 10 v.major, Nat.toDigits 10 v.minor, Nat.toDigits 10 v.patch] := by
    rw [toList_render]
    apply splitOn_intercalate
    · simp only [forall_mem_cons]
      exact ⟨dot_not_mem_toDigits _, dot_not_mem_toDigits _, dot_not_mem_toDigits _, nofun⟩
    · exact cons_ne_nil _ _
  rw [parseSemver, if_neg v.render_ne_empty, pyStrip_render, hsplit]
  simp only [readDigits_toDigits]

def bumped : Semver := { v with patch := v.patch + 1 }

theorem bumpPatch_render : bumpPatch v.render = some v.bumped.render := by
  rw [bumpPatch, if_neg v.render_ne_empty, parse_render]
  rfl

theorem before_bumped : v.before v.bumped :=
  .inr ⟨rfl, .inr ⟨rfl, Nat.lt_succ_self _⟩⟩

theorem slash_not_mem_render : '/' ∉ v.render.toList := by
  have hdigit (n : Nat) : '/' ∉ Nat.toDigits 10 n := by
    intro h
    have hd := Nat.isDigit_of_mem_toDigits (b := 10) (by decide) (by decide) h
    cases hd
  rw [render, toList_ofList]
  simp [hdigit]

end Semver

def initialVersion : Semver := ⟨0, 1, 0⟩

theorem render_initialVersion : initialVersion.render = INITIAL_VERSION := by decide +kernel

def METADATA_SCHEMA_VERSION : Nat := 2

structure ServiceManifest where
  name : String
  packageName : String
  kind : String
  platformStrategy : String
deriving DecidableEq, Repr

def ServiceManifest.isPython (service : ServiceManifest) : Bool := service.kind == "python-wheel"
def ServiceManifest.isGoBinary (service : ServiceManifest) : Bool := service.kind == "go-binary"

/-- `TARGETS_BY_NAME`: of the services with one package name the last. -/
def targetsByName (services : List ServiceManifest) (name : String) : Option ServiceManifest :=
  services.reverse.find? (·.packageName == name)

structure ArtifactRecord where
  fileName : String
  remotePath : String
  sha256 : String
  updatedAt : String
deriving DecidableEq, Repr

structure HistoryEntry where
  fileName : String
  platform : String
  remotePath : String
  sha256 : String
  updatedAt : String
  version : String
deriving DecidableEq, Repr

structure PackageRecord where
  artifacts : List (String × ArtifactRecord)
  buildTarget : String
  history : List HistoryEntry
  kind : String
  serviceName : String
  sourceHash : String
  sourceInputs : List String
  targetType : String
  version : String
deriving DecidableEq, Repr

structure Metadata where
  schemaVersion : Nat
  updatedAt : String
  packages : List (String × PackageRecord)
deriving DecidableEq, Repr

/-- What `load_metadata` gives where there is no file. -/
def Metadata.initial : Metadata := ⟨METADATA_SCHEMA_VERSION, "", []⟩

/-- The text `sha256:` with the digest in hexadecimal. -/
structure SourceHash where
  text : String
  ne_empty : text ≠ ""
  stripped : pyStrip text = text

/-- What `compute_source_hash` gives for a package. -/
structure Source where
  sourceHash : SourceHash
  sourceInputs : List String

structure PlannedItem where
  forced : Bool
  hashChanged : Bool
  name : String
  platformStrategy : String
  previousVersion : String
  serviceName : String
  sourceHash : String
  targetType : String
  version : String
deriving DecidableEq, Repr

structure Plan where
  planned : List PlannedItem
  packages : List (String × PackageRecord)
  metadataChanged : Bool

/-- `none` where a package is unknown. -/
def targetNamesFromArgs (services : List ServiceManifest) (packageNames : List String) :
    Option (List String) :=
  if packageNames = [] then some ((services.map (·.packageName)).dedup.insertionSort (· ≤ ·))
  else if packageNames.all fun name => (targetsByName services name).isSome then some packageNames
  else none

/-- One name of `plan_targets`. `none` where the package is unknown or its version cannot be read. -/
def planTarget (services : List ServiceManifest) (sources : String → Source)
    (forcedNames : List String) (plan : Plan) (name : String) : Option Plan :=
  match targetsByName services name with
  | none => none
  | some target =>
    let existing := plan.packages.lookup name
    let sourceHash := (sources name).sourceHash.text
    let previousHash := pyStrip (existing.elim "" (·.sourceHash))
    let previousVersion := pyStrip (existing.elim "" (·.version))
    let hashChanged := sourceHash != previousHash
    let forced := forcedNames.contains name
    let version :=
      if hashChanged then bumpPatch previousVersion
      else some (if previousVersion = "" then INITIAL_VERSION else previousVersion)
    version.map fun version =>
      let nextEntry : PackageRecord := {
        artifacts := if hashChanged then [] else existing.elim [] (·.artifacts)
        buildTarget := target.kind
        history := existing.elim [] (·.history)
        kind := target.kind
        serviceName := target.name
        sourceHash := sourceHash
        sourceInputs := (sources name).sourceInputs
        targetType := target.kind
        version := version }
      { planned :=
          if hashChanged || forced then
            plan.planned ++ [{
              forced := forced
              hashChanged := hashChanged
              name := name
              platformStrategy := target.platformStrategy
              previousVersion := previousVersion
              serviceName := target.name
              sourceHash := sourceHash
              targetType := target.kind
              version := version }]
          else plan.planned
        packages := setKey plan.packages name nextEntry
        metadataChanged := plan.metadataChanged || existing != some nextEntry }

def planTargets (services : List ServiceManifest) (sources : String → Source) (metadata : Metadata)
    (packageNames forcedNames : List String) : Option Plan :=
  (targetNamesFromArgs services packageNames).bind fun names =>
    names.foldlM (planTarget services sources forcedNames) ⟨[], metadata.packages, false⟩

def normalizePlatformTag (platform strategy : String) : String :=
  if strategy = "universal" then "universal"
  else String.ofList (platform.toList.map fun c => if c = '/' then '-' else c)

/-- `PurePath.name`: the last part of a path that does not end in a slash. -/
def pathName (path : String) : String := ((jsSplit '/' path).getLast?).getD ""

/-- The name of the artifact that `build_artifact` leaves. -/
def artifactName (service : ServiceManifest) (version platform wheelName : String) : String :=
  if service.isGoBinary then
    pathName (service.packageName ++ "-" ++ normalizePlatformTag platform service.platformStrategy ++
      "-v" ++ version)
  else if service.isPython then pathName wheelName
  else pathName (service.packageName ++ "-v" ++ version ++ ".zip")

def remotePath (name version platformTag fileName : String) : String :=
  name ++ "/" ++ version ++ "/" ++ platformTag ++ "/" ++ fileName

inductive PublishTarget where
  | none
  | cloudApi
  | s3
deriving DecidableEq, Repr

/-- How an upload ends. Where the answer is lost, the object is stored all the same. -/
inductive Upload where
  | succeeded
  | failed
  | lost
deriving DecidableEq, Repr

structure BuildOutput where
  wheelName : String
  sha256 : String

/-- A call of `cmd_release` with `write_metadata` on, and what it meets: the sources, the times, the
builds and the uploads of the items in turn, and whether the release manifest can be written. -/
structure ReleaseCall where
  package : List String
  forcePackage : List String
  platform : String
  publishTarget : PublishTarget
  sources : String → Source
  plannedAt : String
  builtAt : String
  builds : Nat → Option BuildOutput
  uploads : Nat → Upload
  manifestWrites : Bool

structure Artifact where
  name : String
  version : String
  platform : String
  sourceHash : String
  record : ArtifactRecord
deriving DecidableEq, Repr

/-- The metadata that a run works on, and what it has built and published. -/
structure Progress where
  packages : List (String × PackageRecord)
  built : List Artifact
  published : List Artifact

def recordArtifact (call : ReleaseCall) (artifact : Artifact) (record : PackageRecord) : PackageRecord :=
  { record with
    artifacts := setKey record.artifacts call.platform artifact.record
    history := record.history ++ [⟨artifact.record.fileName, call.platform, artifact.record.remotePath,
      artifact.record.sha256, call.builtAt, artifact.version⟩] }

def itemArtifact (call : ReleaseCall) (service : ServiceManifest) (item : PlannedItem)
    (output : BuildOutput) : Artifact :=
  let fileName := artifactName service item.version call.platform output.wheelName
  let platformTag := normalizePlatformTag call.platform service.platformStrategy
  { name := item.name
    version := item.version
    platform := call.platform
    sourceHash := item.sourceHash
    record := ⟨fileName, remotePath item.name item.version platformTag fileName, output.sha256, call.builtAt⟩ }

/-- One item of a release. The run ends where a build or an upload fails. -/
def releaseItem (services : List ServiceManifest) (call : ReleaseCall) (index : Nat) (item : PlannedItem)
    (progress : Progress) : Except Progress Progress :=
  match targetsByName services item.name, call.builds index with
  | some target, some output =>
    let artifact := itemArtifact call target item output
    let progress := { progress with
      built := progress.built ++ [artifact]
      published :=
        if call.publishTarget = .none ∨ call.uploads index = .failed then progress.published
        else progress.published ++ [artifact] }
    if call.publishTarget = .none ∨ call.uploads index = .succeeded then
      match progress.packages.lookup item.name with
      | some record =>
        .ok { progress with
          packages := setKey progress.packages item.name (recordArtifact call artifact record) }
      | none => .error progress
    else .error progress
  | _, _ => .error progress

def releaseItems (services : List ServiceManifest) (call : ReleaseCall) :
    Nat → List PlannedItem → Progress → Except Progress Progress
  | _, [], progress => .ok progress
  | index, item :: items, progress =>
    match releaseItem services call index item progress with
    | .ok progress => releaseItems services call (index + 1) items progress
    | .error progress => .error progress

/-- The metadata file, and every artifact that was ever built or published. -/
structure World where
  metadata : Metadata
  built : List Artifact
  published : List Artifact

def World.initial : World := ⟨.initial, [], []⟩

/-- `cmd_release`, and whether it came to its end. The manifest is written after the metadata. -/
def cmdRelease (services : List ServiceManifest) (world : World) (call : ReleaseCall) : World × Bool :=
  match planTargets services call.sources world.metadata call.package call.forcePackage with
  | none => (world, false)
  | some plan =>
    match releaseItems services call 0 plan.planned ⟨plan.packages, world.built, world.published⟩ with
    | .error progress =>
      ({ world with built := progress.built, published := progress.published }, false)
    | .ok progress =>
      ({ metadata := { world.metadata with
          updatedAt := if plan.metadataChanged then call.plannedAt else world.metadata.updatedAt
          packages := progress.packages }
         built := progress.built
         published := progress.published }, call.manifestWrites)

def historyEntriesFor (metadata : Metadata) (packageName platform : String) : List HistoryEntry :=
  match metadata.packages.lookup packageName with
  | none => []
  | some record =>
    (record.history.filter (·.platform == platform)).insertionSort fun a b => b.updatedAt ≤ a.updatedAt

/-- An artifact as `artifact_record_for_package` returns it. -/
structure FoundArtifact where
  service : ServiceManifest
  record : PackageRecord
  artifact : ArtifactRecord
  version : String
deriving DecidableEq, Repr

def artifactRecordForPackage (services : List ServiceManifest) (metadata : Metadata)
    (packageName platform version : String) : Except String FoundArtifact :=
  match targetsByName services packageName with
  | none => .error packageName
  | some service =>
    match metadata.packages.lookup packageName with
    | none => .error ("package metadata is missing for " ++ packageName)
    | some record =>
      if version ≠ "" then
        match (historyEntriesFor metadata packageName platform).find? fun entry =>
          pyStrip entry.version == version with
        | some entry => .ok ⟨service, record,
          ⟨entry.fileName, entry.remotePath, entry.sha256, entry.updatedAt⟩, entry.version⟩
        | none => .error ("no published " ++ platform ++ " artifact recorded for " ++ packageName ++
          " version " ++ version)
      else
        match record.artifacts.lookup platform with
        | some artifact => .ok ⟨service, record, artifact, record.version⟩
        | none => .error ("no published " ++ platform ++ " artifact recorded for " ++ packageName)

/-- Runs of `cmd_release` one after the other. -/
def releases (services : List ServiceManifest) : System World ReleaseCall :=
  System.guarded (· = .initial) (fun _ _ => True) fun world call => (cmdRelease services world call).1

end Trakrai.Devtool
