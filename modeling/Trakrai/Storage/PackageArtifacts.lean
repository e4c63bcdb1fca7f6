import Mathlib
import Trakrai.Lib.Rounding
import Trakrai.Lib.StableSort
import Trakrai.Storage.DeviceSession

namespace Trakrai.Storage
open List Lib Backend

def defaultListLimit : Nat := 500

def packageStoragePrefix : String := "device-packages"

inductive StorageProviderName where
  | AZURE
  | MINIO
  | S3

structure StorageObjectSummary where
  key : String
  sizeBytes : Option Nat
  updatedAt : Option String

/-- The objects of a bucket in the order of their keys. A time is not an empty text. -/
structure Bucket where
  objects : List StorageObjectSummary
  sorted : objects.Pairwise fun a b => a.key < b.key
  stamped : ∀ object ∈ objects, object.updatedAt ≠ some ""

def Bucket.under (bucket : Bucket) (start : String) : List StorageObjectSummary :=
  bucket.objects.filter fun object => start.toList.isPrefixOf object.key.toList

def listObjects (bucket : Bucket) (start : String) (maxKeys : Nat) : List StorageObjectSummary :=
  ((bucket.under start).take maxKeys).filter (·.key ≠ "")

/-- The regular expression `^\d+\.\d+\.\d+$`. -/
def isSemver (version : String) : Bool :=
  match jsSplit '.' version with
  | [major, minor, patch] => [major, minor, patch].all fun part => part != "" && part.toList.all Char.isDigit
  | _ => false

structure AvailablePackageArtifact where
  fileName : String
  platform : String
  provider : StorageProviderName
  remotePath : String
  serviceName : String
  sizeBytes : Option Nat
  updatedAt : Option String
  version : String
  semver : isSemver version = true

/-- What is left to check of `availablePackageArtifactSchema`. -/
def AvailablePackageArtifact.accepted (artifact : AvailablePackageArtifact) : Bool :=
  artifact.fileName != "" && artifact.platform != "" && artifact.remotePath != "" && artifact.serviceName != "" &&
    artifact.updatedAt != some ""

def versionParts (version : String) : List Nat :=
  (jsSplit '.' version).map fun part => Nat.ofDigitChars 10 part.toList 0

/-- The sign of a difference, which is none where infinity is taken from infinity. -/
def difference : WithTop Nat → WithTop Nat → Option Ordering
  | none, none => none
  | none, some _ => some .gt
  | some _, none => some .lt
  | some right, some left => some (compare right left)

def compareParts : List (WithTop Nat) → List (WithTop Nat) → Option Ordering
  | [], [] => some .eq
  | [], right :: rightParts =>
    if difference right (0 : Nat) = some .eq then compareParts [] rightParts else difference right (0 : Nat)
  | left :: leftParts, [] =>
    if difference (0 : Nat) left = some .eq then compareParts leftParts [] else difference (0 : Nat) left
  | left :: leftParts, right :: rightParts =>
    if difference right left = some .eq then compareParts leftParts rightParts else difference right left

/-- The sign of the answer, or none for `NaN`. -/
def compareSemverDesc (left right : String) : Option Ordering :=
  compareParts ((versionParts left).map toBinary64) ((versionParts right).map toBinary64)

def parsePackageArtifact (providerName : StorageProviderName) (object : StorageObjectSummary) :
    Option AvailablePackageArtifact :=
  let expectedPrefix := packageStoragePrefix ++ "/"
  if expectedPrefix.toList.isPrefixOf object.key.toList then
    let relativePath := String.ofList (object.key.toList.drop expectedPrefix.length)
    match jsSplit '/' relativePath with
    | [serviceName, version, platform, fileName] =>
      if h : isSemver version = true then
        some {
          fileName := fileName
          platform := platform
          provider := providerName
          remotePath := relativePath
          serviceName := serviceName
          sizeBytes := object.sizeBytes
          updatedAt := object.updatedAt
          version := version
          semver := h }
      else none
    | _ => none
  else none

/-- The sign of `localeCompare`, which is a consistent comparison. -/
structure Collation where
  localeCompare : String → String → Ordering
  consistent : Std.TransCmp localeCompare

section
variable (collation : Collation)

/-- The comparison of `listAvailable`. The sort takes `NaN` for zero. -/
def Collation.compareArtifacts (left right : AvailablePackageArtifact) : Ordering :=
  let serviceNameComparison := collation.localeCompare left.serviceName right.serviceName
  if serviceNameComparison ≠ .eq then serviceNameComparison
  else
    match compareSemverDesc left.version right.version with
    | none => .eq
    | some .eq =>
      let platformComparison := collation.localeCompare left.platform right.platform
      if platformComparison ≠ .eq then platformComparison
      else collation.localeCompare left.fileName right.fileName
    | some versionComparison => versionComparison

def Collation.sortArtifacts (artifacts : List AvailablePackageArtifact) :
    List AvailablePackageArtifact :=
  artifacts.insertionSort fun left right => (collation.compareArtifacts left right).isLE = true

def listPrefix (serviceName : Option String) : Except TrpcError String :=
  match serviceName.filter (jsTrim · ≠ "") with
  | none => .ok (packageStoragePrefix ++ "/")
  | some serviceName => do
    let segments ← normalizeSegments serviceName "serviceName"
    .ok (posixJoin (packageStoragePrefix :: segments) ++ "/")

def listAvailable (providerName : StorageProviderName) (bucket : Bucket)
    (serviceName : Option String) : Except TrpcError (List AvailablePackageArtifact) := do
  if serviceName = some "" then .error (.badRequest "serviceName")
  else
    let start ← listPrefix serviceName
    let objects := listObjects bucket start defaultListLimit
    let artifacts := collation.sortArtifacts (objects.filterMap (parsePackageArtifact providerName))
    if artifacts.all (·.accepted) then .ok artifacts else .error (.internal "Output validation failed")

/-- By service, then by version with the highest first, then by platform and by file. -/
def Collation.releaseOrder (left right : AvailablePackageArtifact) : Ordering :=
  (collation.localeCompare left.serviceName right.serviceName).then
    ((compare (versionParts right.version) (versionParts left.version)).then
      ((collation.localeCompare left.platform right.platform).then
        (collation.localeCompare left.fileName right.fileName)))

end

section
variable {collation : Collation} {left right : List (WithTop Nat)} {artifact artifact' : AvailablePackageArtifact}

/-- The numbers of a version that are looked at. After infinity, no more are. -/
def upToInfinity : List (WithTop Nat) → List (WithTop Nat)
  | [] => []
  | n :: rest => n :: if n = ⊤ then [] else upToInfinity rest

theorem top_mem_upToInfinity : ⊤ ∈ upToInfinity numbers ↔ ⊤ ∈ numbers := by
  induction numbers with
  | nil => rfl
  | cons n rest ih =>
    rw [upToInfinity, mem_cons, mem_cons]
    by_cases hn : n = ⊤
    · simp [hn]
    · rw [if_neg hn, ih]

theorem compare_some (n m : Nat) : compare (n : WithTop Nat) m = compare n m :=
  (compare_iff ..).2 (WithTop.coe_strictMono.compares.2 ((compare_iff n m).1 rfl))

theorem difference_eq (r l : WithTop Nat) :
    difference r l = if r = ⊤ ∧ l = ⊤ then none else some (compare r l) := by
  cases r with
  | top =>
    cases l with
    | top => rfl
    | coe l => rw [if_neg (fun h => WithTop.coe_ne_top h.2), compare_gt_iff_gt.2 (WithTop.coe_lt_top l)]; rfl
  | coe r =>
    rw [if_neg (fun h => WithTop.coe_ne_top h.1)]
    cases l with
    | top => rw [compare_lt_iff_lt.2 (WithTop.coe_lt_top r)]; rfl
    | coe l => exact congrArg some (compare_some r l).symm

theorem compareParts_eq (h : left.length = right.length) : compareParts left right =
      if compare (upToInfinity right) (upToInfinity left) = .eq then if ⊤ ∈ left then none else some .eq
      else some (compare (upToInfinity right) (upToInfinity left)) := by
  induction left generalizing right with
  | nil =>
    obtain rfl := eq_nil_of_length_eq_zero h.symm
    simp [compareParts]
  | cons l left ih =>
    cases right with
    | nil => cases h
    | cons r right =>
      rw [compareParts, upToInfinity, upToInfinity, List.compare_cons_cons, difference_eq]
      by_cases heq : r = l
      · subst l
        by_cases htop : r = ⊤
        · simp [htop]
        · simp [htop, ih (Nat.succ.inj h), Ne.symm htop]
      · have hne : compare r l ≠ .eq := by simpa using heq
        have hboth : ¬ (r = ⊤ ∧ l = ⊤) := by
          rintro ⟨rfl, rfl⟩
          exact heq rfl
        rw [if_neg hboth, if_neg (by simpa using hne)]
        cases hrl : compare r l with
        | eq => exact absurd hrl hne
        | lt => rfl
        | gt => rfl

section
variable (artifact : AvailablePackageArtifact)

theorem length_versionParts : (versionParts artifact.version).length = 3 := by
  have h := artifact.semver
  rw [isSemver] at h
  split at h
  · rename_i hparts
    rw [versionParts, hparts]
    rfl
  · cases h

def AvailablePackageArtifact.numbers : List (WithTop Nat) :=
  (versionParts artifact.version).map toBinary64

/-- Platform and file, which are not looked at in a version with an infinite part. -/
def AvailablePackageArtifact.shown : String × String :=
  if ⊤ ∈ artifact.numbers then ("", "") else (artifact.platform, artifact.fileName)

end

theorem compareArtifacts_eq (collation : Collation) (a b : AvailablePackageArtifact) :
    collation.compareArtifacts a b = (collation.localeCompare a.serviceName b.serviceName).then
      ((compare (upToInfinity b.numbers) (upToInfinity a.numbers)).then
        ((collation.localeCompare a.shown.1 b.shown.1).then (collation.localeCompare a.shown.2 b.shown.2))) := by
  have hself : ∀ text, collation.localeCompare text text = .eq := by
    intro text
    have := collation.consistent
    exact Std.ReflCmp.compare_self
  have hlength : a.numbers.length = b.numbers.length := by
    rw [AvailablePackageArtifact.numbers, AvailablePackageArtifact.numbers, length_map, length_map,
      length_versionParts, length_versionParts]
  have hversion : compareSemverDesc a.version b.version =
      if compare (upToInfinity b.numbers) (upToInfinity a.numbers) = .eq then
        if ⊤ ∈ a.numbers then none else some .eq
      else some (compare (upToInfinity b.numbers) (upToInfinity a.numbers)) := compareParts_eq hlength
  rw [Collation.compareArtifacts, hversion]
  cases collation.localeCompare a.serviceName b.serviceName with
  | lt => rfl
  | gt => rfl
  | eq =>
    cases hcompare : compare (upToInfinity b.numbers) (upToInfinity a.numbers) with
    | lt => rfl
    | gt => rfl
    | eq =>
      have hkeys : upToInfinity b.numbers = upToInfinity a.numbers := by simpa using hcompare
      have htop : ⊤ ∈ b.numbers ↔ ⊤ ∈ a.numbers := by
        rw [← top_mem_upToInfinity, hkeys, top_mem_upToInfinity]
      by_cases hmem : ⊤ ∈ a.numbers
      · simp [AvailablePackageArtifact.shown, htop, hmem, hself]
      · simp only [AvailablePackageArtifact.shown, htop, hmem, if_true, if_false]
        cases collation.localeCompare a.platform b.platform <;> rfl

theorem compareArtifacts_trans (collation : Collation) : Std.TransCmp collation.compareArtifacts := by
  have := collation.consistent
  have hservice : Std.TransCmp fun a b : AvailablePackageArtifact =>
      collation.localeCompare a.serviceName b.serviceName :=
    transCmp_on collation.localeCompare AvailablePackageArtifact.serviceName
  have hopposite : Std.TransCmp fun a b : List (WithTop Nat) => compare b a := inferInstance
  have hversion : Std.TransCmp fun a b : AvailablePackageArtifact =>
      compare (upToInfinity b.numbers) (upToInfinity a.numbers) :=
    transCmp_on (fun a b : List (WithTop Nat) => compare b a) fun artifact : AvailablePackageArtifact =>
      upToInfinity artifact.numbers
  have hplatform : Std.TransCmp fun a b : AvailablePackageArtifact => collation.localeCompare a.shown.1 b.shown.1 :=
    transCmp_on collation.localeCompare fun artifact : AvailablePackageArtifact => artifact.shown.1
  have hfile : Std.TransCmp fun a b : AvailablePackageArtifact => collation.localeCompare a.shown.2 b.shown.2 :=
    transCmp_on collation.localeCompare fun artifact : AvailablePackageArtifact => artifact.shown.2
  have heq : collation.compareArtifacts = compareLex (fun a b => collation.localeCompare a.serviceName b.serviceName)
      (compareLex (fun a b => compare (upToInfinity b.numbers) (upToInfinity a.numbers))
        (compareLex (fun a b => collation.localeCompare a.shown.1 b.shown.1)
          fun a b => collation.localeCompare a.shown.2 b.shown.2)) := by
    funext a b
    exact compareArtifacts_eq collation a b
  rw [heq]
  infer_instance

theorem numbers_of_lt (h : ∀ part ∈ versionParts artifact.version, part < 2 ^ 53) :
    artifact.numbers = (versionParts artifact.version).map WithTop.some :=
  map_congr_left fun part hpart => toBinary64_of_lt (h part hpart)

theorem upToInfinity_coe (parts : List Nat) :
    upToInfinity (parts.map WithTop.some) = parts.map WithTop.some := by
  induction parts with
  | nil => rfl
  | cons part parts ih =>
    rw [map_cons, upToInfinity, if_neg (WithTop.coe_ne_top), ih]

theorem compare_coe (parts parts' : List Nat) :
    compare (parts.map WithTop.some) (parts'.map WithTop.some) = compare parts parts' := by
  induction parts generalizing parts' with
  | nil => cases parts' <;> rfl
  | cons part parts ih =>
    cases parts' with
    | nil => rfl
    | cons part' parts' =>
      rw [map_cons, map_cons, List.compare_cons_cons, List.compare_cons_cons, ih]
      congr 1
      exact compare_some part part'

theorem compareArtifacts_of_lt (ha : ∀ part ∈ versionParts a.version, part < 2 ^ 53)
    (hb : ∀ part ∈ versionParts b.version, part < 2 ^ 53) :
    collation.compareArtifacts a b = collation.releaseOrder a b := by
  have hshown : ∀ {artifact : AvailablePackageArtifact}, (∀ part ∈ versionParts artifact.version, part < 2 ^ 53) →
      artifact.shown = (artifact.platform, artifact.fileName) := by
    intro artifact h
    rw [AvailablePackageArtifact.shown, if_neg]
    rw [numbers_of_lt h]
    simp
  rw [compareArtifacts_eq, Collation.releaseOrder, hshown ha, hshown hb, numbers_of_lt ha, numbers_of_lt hb,
    upToInfinity_coe, upToInfinity_coe, compare_coe]

end

end Trakrai.Storage
