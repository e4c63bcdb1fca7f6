import Mathlib.Data.List.Dedup
import Mathlib.Data.List.Infix
import Trakrai.Lib.Except
import Trakrai.RuntimeManager.Persistence

namespace Trakrai.RuntimeManager
open List Lib

inductive Node where
  | dir
  | file (content : String)
deriving DecidableEq

/-- The nodes at a path and below, by the parts of their paths. -/
abbrev Tree := List String → Option Node

structure ZipEntry where
  name : String
  symlink : Bool := false
  isDir : Bool := false
  content : String := ""

structure Artifact where
  content : String := ""
  entries : List ZipEntry := []

/-- The calls of an update that may fail. The number is the index of an archive entry. -/
inductive Operation where
  | readState
  | stop
  | makeParent
  | createTemp
  | copyArtifact
  | replaceBinary
  | createStaging
  | openArchive
  | makeDirectory (index : Nat)
  | openEntry (index : Nat)
  | createFile (index : Nat)
  | extract (index : Nat)
  | readStaging
  | removePrevious
  | activate
  | setup
  | start
  | inspect
deriving DecidableEq

structure Failure where
  error : String
  /-- Whether the unit is active after a call of `systemctl`. -/
  active : Bool := false
  /-- The files that a recursive removal has not reached. -/
  kept : List String → Bool := fun _ => true

/-- The install path of a service and its unit. -/
structure Site where
  tree : Tree
  active : Bool

/-- One run of `applyUpdate`. -/
structure Update where
  service : ManagedServiceConfig
  artifact : Artifact
  /-- What `os.MkdirTemp` puts for the star. -/
  suffix : String := "1"
  print : GoPrint
  fails : Operation → Option Failure := fun _ => none

abbrev Phase := Site → Except String Unit × Site

def Phase.andThen (first second : Phase) : Phase := fun site =>
  match first site with
  | (.ok (), site) => second site
  | (.error error, site) => (.error error, site)

def Phase.onlyIf (c : Bool) (phase : Phase) : Phase := fun site =>
  if c then phase site else (.ok (), site)

namespace Tree

def empty : Tree := fun _ => none

def singleton (node : Node) : Tree := fun path => if path = [] then some node else none

def isFile (tree : Tree) (path : List String) : Bool :=
  match tree path with
  | some (.file _) => true
  | _ => false

/-- `os.MkdirAll`, which stops at a file. -/
def makeAll (tree : Tree) (path : List String) : Except String Tree :=
  if path.inits.any tree.isFile then .error "not a directory"
  else .ok fun other => if other <+: path then some .dir else tree other

/-- `os.OpenFile` and what is copied to the file. -/
def write (tree : Tree) (path : List String) (content : String) : Except String Tree :=
  if tree path = some .dir then .error "is a directory"
  else .ok fun other => if other = path then some (.file content) else tree other

def below (tree : Tree) (name : String) : Tree := fun path => tree (name :: path)

end Tree

namespace Update
variable (u : Update)

def attempt (operation : Operation) (text : String) : Except String Unit :=
  match u.fails operation with
  | none => .ok ()
  | some failure => .error (text ++ failure.error)

def stagingDir : String :=
  goJoin (goDir u.service.installPath)
    (goBase u.service.installPath ++ ".extract-" ++ u.suffix)

def targetPath (entry : ZipEntry) : String := goJoin u.stagingDir entry.name

/-- Where the target lies below the staging directory. -/
def place (entry : ZipEntry) : List String :=
  (goSegments (u.targetPath entry)).drop (goSegments u.stagingDir).length

def extractDirectory (index : Nat) (entry : ZipEntry) (tree : Tree) : Except String Tree := do
  u.attempt (.makeDirectory index) ("create zip directory " ++ goQuote u.print (u.targetPath entry) ++ ": ")
  tree.makeAll (u.place entry)

def extractFile (index : Nat) (entry : ZipEntry) (tree : Tree) : Except String Tree := do
  u.attempt (.makeDirectory index) ("create zip parent " ++ goQuote u.print (u.targetPath entry) ++ ": ")
  let tree ← tree.makeAll (u.place entry).dropLast
  u.attempt (.openEntry index) ("open zip entry " ++ goQuote u.print entry.name ++ ": ")
  u.attempt (.createFile index) ("create extracted file " ++ goQuote u.print (u.targetPath entry) ++ ": ")
  let tree ← tree.write (u.place entry) entry.content
  u.attempt (.extract index) ("extract zip entry " ++ goQuote u.print entry.name ++ ": ")
  pure tree

def extractEntry (index : Nat) (entry : ZipEntry) (tree : Tree) : Except String Tree :=
  if ¬ isPathWithinRoot u.stagingDir (u.targetPath entry) then
    .error ("zip entry " ++ goQuote u.print entry.name ++ " escapes destination")
  else if entry.symlink then
    .error ("zip entry " ++ goQuote u.print entry.name ++ " is a symlink and is not supported")
  else if entry.isDir then u.extractDirectory index entry tree
  else u.extractFile index entry tree

def extractFrom (index : Nat) : List ZipEntry → Tree → Except String Tree
  | [], tree => .ok tree
  | entry :: entries, tree => do
    let tree ← u.extractEntry index entry tree
    extractFrom (index + 1) entries tree

def unzipArchive : Except String Tree := do
  u.attempt .openArchive "open zip archive: "
  u.extractFrom 0 u.artifact.entries (.singleton .dir)

/-- The part of `installZip` before it touches the install path. -/
def stageArchive : Except String Tree := do
  u.attempt .makeParent "create install parent directory: "
  u.attempt .createStaging "create staging directory: "
  u.unzipArchive

/-- What `os.ReadDir` lists in the staging directory. -/
def stagedNames : List String := (u.artifact.entries.filterMap fun entry => (u.place entry).head?).dedup

/-- The tree at `replacementPath`. -/
def replacement (tree : Tree) : Tree :=
  match u.stagedNames with
  | [name] =>
    if u.fails .readStaging = none ∧ tree [name] = some .dir then tree.below name else tree
  | _ => tree

/-- The result, and what stands at the install path in the place of what stood there. -/
def installZip (previous : Tree) : Except String Unit × Tree :=
  if u.service.installPath = "" then (.error "install_path is required", previous)
  else
    match u.stageArchive with
    | .error error => (.error error, previous)
    | .ok tree =>
      match u.fails .removePrevious with
      | some failure =>
        (.error ("remove previous install path: " ++ failure.error),
          fun path => if failure.kept path then previous path else none)
      | none =>
        match u.attempt .activate "activate extracted archive: " with
        | .error error => (.error error, .empty)
        | .ok () => (.ok (), u.replacement tree)

def replaceBinary (previous : Tree) : Except String Unit :=
  if previous [] = some .dir then .error "replace binary: file exists"
  else u.attempt .replaceBinary "replace binary: "

def prepareBinary (previous : Tree) : Except String Unit := do
  u.attempt .makeParent "create install directory: "
  u.attempt .createTemp "create temporary binary: "
  u.attempt .copyArtifact ""
  u.replaceBinary previous

def installBinary (previous : Tree) : Except String Unit × Tree :=
  if u.service.installPath = "" then (.error "install_path is required", previous)
  else
    match u.prepareBinary previous with
    | .error error => (.error error, previous)
    | .ok () => (.ok (), .singleton (.file u.artifact.content))

def systemctl (operation : Operation) (active : Bool) (text : String) : Phase := fun site =>
  match u.fails operation with
  | none => (.ok (), { site with active })
  | some failure => (.error (text ++ failure.error), { site with active := failure.active })

def runSetupCommand : Phase := fun site => (u.attempt .setup "setup command failed: ", site)

def installWheel : Phase :=
  if u.service.setupCommand = [] then
    fun site => (.error "setup_command is required for wheel updates", site)
  else u.runSetupCommand

def atPath (install : Tree → Except String Unit × Tree) : Phase := fun site =>
  ((install site.tree).1, { site with tree := (install site.tree).2 })

def installArtifact : Phase :=
  if u.service.kind = "asset" ∨ u.service.kind = "zip" then atPath u.installZip
  else if u.service.kind = "binary" then atPath u.installBinary
  else if u.service.kind = "wheel" then u.installWheel
  else fun site => (.error ("unsupported update kind " ++ goQuote u.print u.service.kind), site)

def wasActive (site : Site) : Bool :=
  u.service.systemdUnit ≠ "" ∧ u.fails .readState = none ∧ site.active

def setUp : Phase :=
  Phase.onlyIf (u.service.setupCommand ≠ [] ∧ u.service.kind ≠ "wheel") u.runSetupCommand

def inspectManagedService : Phase := fun site => (u.attempt .inspect "", site)

/-- `applyUpdate` from the setup command on. -/
def finish (wasActive : Bool) : Phase :=
  u.setUp.andThen <|
  (Phase.onlyIf wasActive (u.systemctl .start true "start service after update: ")).andThen <|
  u.inspectManagedService

/-- `applyUpdate` from the state of the unit on. -/
def applyWith (wasActive : Bool) : Phase :=
  (Phase.onlyIf wasActive (u.systemctl .stop false "stop service before update: ")).andThen <|
  u.installArtifact.andThen <|
  u.finish wasActive

def applyUpdate : Phase := fun site => u.applyWith (u.wasActive site) site

def NeedsDir (entry : ZipEntry) (path : List String) : Prop :=
  path <+: u.place entry ∧ (entry.isDir = true ∨ path ≠ u.place entry)

def Fits (entry other : ZipEntry) : Prop :=
  (entry.isDir = false → ¬ u.NeedsDir other (u.place entry)) ∧
    (other.isDir = false → ¬ u.NeedsDir entry (u.place other))

structure Acceptable (entry : ZipEntry) : Prop where
  within : isPathWithinRoot u.stagingDir (u.targetPath entry) = true
  symlink : entry.symlink = false
  /-- The staging directory is not a file. -/
  place : entry.isDir = false → u.place entry ≠ []

/-- The archive holds a tree of files below the staging directory. -/
structure WellFormed : Prop where
  acceptable : ∀ entry ∈ u.artifact.entries, u.Acceptable entry
  fits : u.artifact.entries.Pairwise u.Fits

def placed (tree : Tree) (entry : ZipEntry) : Tree := fun path =>
  if entry.isDir = false ∧ path = u.place entry then some (.file entry.content)
  else if path <+: u.place entry then some .dir
  else tree path

def archiveTree : Tree := u.artifact.entries.foldl u.placed (.singleton .dir)

def extraction (index : Nat) (entry : ZipEntry) : List Operation :=
  if entry.isDir then [.makeDirectory index]
  else [.makeDirectory index, .openEntry index, .createFile index, .extract index]

def extractions (index : Nat) : List ZipEntry → List Operation
  | [] => []
  | entry :: entries => extraction index entry ++ extractions (index + 1) entries

def staging : List Operation :=
  [.makeParent, .createStaging, .openArchive] ++ extractions 0 u.artifact.entries

variable {u}

theorem attempt_eq_ok_iff : u.attempt operation text = .ok () ↔ u.fails operation = none := by
  unfold attempt
  cases u.fails operation with
  | none => simp
  | some failure => simp

theorem attempt_bind_eq_ok_iff : (u.attempt operation text >>= f) = .ok a ↔
      u.fails operation = none ∧ f () = .ok a := by
  rw [bind_eq_ok_iff]
  constructor
  · intro ⟨(), hfails, h⟩
    exact ⟨attempt_eq_ok_iff.1 hfails, h⟩
  · intro ⟨hfails, h⟩
    exact ⟨(), attempt_eq_ok_iff.2 hfails, h⟩

theorem prefix_dropLast_iff {path place : List String} (h : place ≠ []) :
    path <+: place.dropLast ↔ path <+: place ∧ path ≠ place := by
  have hplace : place.dropLast ++ [place.getLast h] = place := dropLast_append_getLast h
  have hsplit := @prefix_concat_iff _ path place.dropLast (place.getLast h)
  rw [hplace] at hsplit
  constructor
  · intro hp
    refine ⟨hsplit.2 (.inr hp), ?_⟩
    rintro rfl
    have hlength := hp.length_le
    rw [length_dropLast] at hlength
    have hpos := length_pos_iff.2 h
    omega
  · intro ⟨hp, hne⟩
    exact (hsplit.1 hp).resolve_left hne

structure Holds (u : Update) (extracted : List ZipEntry) (tree : Tree) : Prop where
  dir : ∀ path, tree path = some .dir ↔ path = [] ∨ ∃ entry ∈ extracted, u.NeedsDir entry path
  file : ∀ path, tree.isFile path = true ↔
    ∃ entry ∈ extracted, entry.isDir = false ∧ u.place entry = path

theorem holds_nil : Holds u [] (.singleton .dir) := by
  constructor
  · intro path
    by_cases h : path = [] <;> simp [Tree.singleton, h]
  · intro path
    by_cases h : path = [] <;> simp [Tree.singleton, Tree.isFile, h]

theorem makeAll_eq_ok_iff {tree tree' : Tree} {path : List String} :
    tree.makeAll path = .ok tree' ↔ (∀ other, other <+: path → tree.isFile other = false) ∧
      tree' = fun other => if other <+: path then some .dir else tree other := by
  have hany : path.inits.any tree.isFile = false ↔ ∀ other, other <+: path → tree.isFile other = false := by
    simp [any_eq_false]
  rw [Tree.makeAll, ← hany]
  cases path.inits.any tree.isFile <;> simp [eq_comm]

theorem write_eq_ok_iff {tree tree' : Tree} {path : List String} {content : String} :
    tree.write path content = .ok tree' ↔ tree path ≠ some .dir ∧
      tree' = fun other => if other = path then some (.file content) else tree other := by
  rw [Tree.write]
  split <;> simp_all [eq_comm]

theorem extractDirectory_eq_ok_iff {index : Nat} {entry : ZipEntry} {tree tree' : Tree}
    (hdir : entry.isDir = true) : u.extractDirectory index entry tree = .ok tree' ↔
      u.fails (.makeDirectory index) = none ∧
        (∀ other, other <+: u.place entry → tree.isFile other = false) ∧
        tree' = u.placed tree entry := by
  have hplaced : u.placed tree entry =
      fun other => if other <+: u.place entry then some .dir else tree other := by
    funext path
    simp [placed, hdir]
  rw [extractDirectory, attempt_bind_eq_ok_iff, makeAll_eq_ok_iff, hplaced]

theorem extractFile_eq_ok_iff {index : Nat} {entry : ZipEntry} {tree tree' : Tree}
    (hfile : entry.isDir = false) : u.extractFile index entry tree = .ok tree' ↔
      (∀ operation ∈ extraction index entry, u.fails operation = none) ∧
        (∀ other, other <+: (u.place entry).dropLast → tree.isFile other = false) ∧
        (u.place entry ≠ [] ∧ tree (u.place entry) ≠ some .dir) ∧
        tree' = u.placed tree entry := by
  have hops : (∀ operation ∈ extraction index entry, u.fails operation = none) ↔
      u.fails (.makeDirectory index) = none ∧ u.fails (.openEntry index) = none ∧
        u.fails (.createFile index) = none ∧ u.fails (.extract index) = none := by
    simp [extraction, hfile]
  have hself : u.place entry <+: (u.place entry).dropLast ↔ u.place entry = [] := by
    constructor
    · intro hp
      by_contra hne
      exact ((prefix_dropLast_iff hne).1 hp).2 rfl
    · intro hp
      rw [hp]
      exact nil_prefix
  have hplaced (hplace : u.place entry ≠ []) : (fun other =>
      if other = u.place entry then some (.file entry.content)
      else if other <+: (u.place entry).dropLast then some .dir else tree other) =
        u.placed tree entry := by
    funext other
    rw [placed]
    by_cases hother : other = u.place entry
    · simp [hother, hfile]
    · have hiff : other <+: (u.place entry).dropLast ↔ other <+: u.place entry := by
        rw [prefix_dropLast_iff hplace]
        exact and_iff_left hother
      simp only [hother, hiff, if_false, and_false]
  rw [extractFile, attempt_bind_eq_ok_iff, bind_eq_ok_iff, hops]
  simp only [makeAll_eq_ok_iff]
  constructor
  · intro ⟨hdir, parents, ⟨hfree, hparents⟩, h⟩
    rw [attempt_bind_eq_ok_iff, attempt_bind_eq_ok_iff, bind_eq_ok_iff] at h
    obtain ⟨hopen, hcreate, written, hwrite, h⟩ := h
    rw [attempt_bind_eq_ok_iff] at h
    obtain ⟨hextract, h⟩ := h
    obtain ⟨hnew, hwritten⟩ := write_eq_ok_iff.1 hwrite
    rw [hparents] at hnew
    have hplace : u.place entry ≠ [] := by
      intro hplace
      exact hnew (if_pos (hself.2 hplace))
    simp only [mt hself.1 hplace, if_false] at hnew
    cases h
    rw [hwritten, hparents]
    exact ⟨⟨hdir, hopen, hcreate, hextract⟩, hfree, ⟨hplace, hnew⟩, hplaced hplace⟩
  · intro ⟨⟨hdir, hopen, hcreate, hextract⟩, hfree, ⟨hplace, hnew⟩, htree⟩
    refine ⟨hdir, _, ⟨hfree, rfl⟩, ?_⟩
    rw [attempt_bind_eq_ok_iff, attempt_bind_eq_ok_iff, bind_eq_ok_iff]
    refine ⟨hopen, hcreate, _, write_eq_ok_iff.2 ⟨?_, rfl⟩, ?_⟩
    · simp only [mt hself.1 hplace, if_false]
      exact hnew
    · rw [attempt_bind_eq_ok_iff, htree, ← hplaced hplace]
      exact ⟨hextract, rfl⟩

theorem Holds.fits_iff
    (h : Holds u extracted tree) (hplace : entry.isDir = false → u.place entry ≠ []) :
    (∀ other ∈ extracted, u.Fits other entry) ↔
      (∀ path, u.NeedsDir entry path → tree.isFile path = false) ∧
        (entry.isDir = false → tree (u.place entry) ≠ some .dir) := by
  constructor
  · intro hfits
    constructor
    · intro path hpath
      rw [Bool.eq_false_iff, ne_eq, h.file]
      rintro ⟨other, hother, hfile, rfl⟩
      exact (hfits other hother).1 hfile hpath
    · intro hfile hdir
      rcases (h.dir _).1 hdir with hroot | ⟨other, hother, hneeds⟩
      · exact hplace hfile hroot
      · exact (hfits other hother).2 hfile hneeds
  · intro ⟨hfree, hnew⟩ other hother
    constructor
    · intro hfile hneeds
      have hno := hfree _ hneeds
      rw [Bool.eq_false_iff, ne_eq, h.file] at hno
      exact hno ⟨other, hother, hfile, rfl⟩
    · intro hfile hneeds
      exact hnew hfile ((h.dir _).2 (.inr ⟨other, hother, hneeds⟩))

theorem Holds.extractEntry {extracted : List ZipEntry} {tree tree' : Tree} {index : Nat}
    {entry : ZipEntry} (h : Holds u extracted tree) : u.extractEntry index entry tree = .ok tree' ↔
      (u.Acceptable entry ∧ ∀ other ∈ extracted, u.Fits other entry) ∧
        (∀ operation ∈ extraction index entry, u.fails operation = none) ∧
        tree' = u.placed tree entry := by
  rw [Update.extractEntry]
  by_cases hwithin : isPathWithinRoot u.stagingDir (u.targetPath entry) = true
  case neg =>
    rw [if_pos hwithin]
    exact ⟨nofun, fun hok => absurd hok.1.1.within hwithin⟩
  rw [if_neg (not_not.2 hwithin)]
  cases hsymlink : entry.symlink with
  | true =>
    rw [if_pos rfl]
    refine ⟨nofun, fun hok => ?_⟩
    have hno := hok.1.1.symlink
    rw [hsymlink] at hno
    cases hno
  | false =>
    rw [if_neg (by simp)]
    cases hdir : entry.isDir with
    | true =>
      have hplace : entry.isDir = false → u.place entry ≠ [] := by simp [hdir]
      have hneeds (path : List String) : u.NeedsDir entry path ↔ path <+: u.place entry := by
        simp [NeedsDir, hdir]
      have hacceptable : u.Acceptable entry := ⟨hwithin, hsymlink, hplace⟩
      rw [if_pos rfl, extractDirectory_eq_ok_iff hdir, h.fits_iff hplace]
      simp [hneeds, hdir, hacceptable, extraction, and_left_comm]
    | false =>
      have hacceptable : u.Acceptable entry ↔ u.place entry ≠ [] :=
        ⟨fun hok => hok.place hdir, fun hplace => ⟨hwithin, hsymlink, fun _ => hplace⟩⟩
      rw [if_neg (by simp), extractFile_eq_ok_iff hdir, hacceptable]
      by_cases hplace : u.place entry = []
      · simp [hplace]
      · have hneeds (path : List String) :
            u.NeedsDir entry path ↔ path <+: (u.place entry).dropLast := by
          simp [NeedsDir, hdir, prefix_dropLast_iff hplace]
        rw [h.fits_iff fun _ => hplace]
        simp only [hneeds, hdir, hplace, ne_eq, not_false_eq_true, true_and, forall_const]
        exact ⟨fun ⟨hops, hfree, hnew, htree⟩ => ⟨⟨hfree, hnew⟩, hops, htree⟩,
          fun ⟨⟨hfree, hnew⟩, hops, htree⟩ => ⟨hops, hfree, hnew, htree⟩⟩

theorem placed_file (h : entry.isDir = false ∧ path = u.place entry):
    u.placed tree entry path = some (.file entry.content) := if_pos h

theorem NeedsDir.not_file (h : u.NeedsDir entry path) :
    ¬ (entry.isDir = false ∧ path = u.place entry) := by
  intro ⟨hfile, hpath⟩
  rcases h.2 with hdir | hne
  · rw [hfile] at hdir
    cases hdir
  · exact hne hpath

theorem placed_dir (h : u.NeedsDir entry path): u.placed tree entry path = some .dir := by
  rw [placed, if_neg h.not_file, if_pos h.1]

theorem placed_other
    (hfile : ¬ (entry.isDir = false ∧ path = u.place entry)) (h : ¬ u.NeedsDir entry path) :
    u.placed tree entry path = tree path := by
  have habove : ¬ path <+: u.place entry := by
    intro habove
    cases hdir : entry.isDir with
    | true => exact h ⟨habove, .inl hdir⟩
    | false => exact h ⟨habove, .inr fun hpath => hfile ⟨hdir, hpath⟩⟩
  rw [placed, if_neg hfile, if_neg habove]

theorem Holds.placed (h : Holds u extracted tree) (hentry : u.Acceptable entry)
    (hfits : ∀ other ∈ extracted, u.Fits other entry) :
    Holds u (extracted ++ [entry]) (u.placed tree entry) := by
  obtain ⟨hfree, hnew⟩ := (h.fits_iff hentry.place).1 hfits
  constructor
  · intro path
    have hsplit : (∃ other ∈ extracted ++ [entry], u.NeedsDir other path) ↔
        (∃ other ∈ extracted, u.NeedsDir other path) ∨ u.NeedsDir entry path := by
      simp [or_and_right, exists_or]
    rw [hsplit, ← or_assoc, ← h.dir]
    by_cases hfile : entry.isDir = false ∧ path = u.place entry
    · have hneeds : ¬ u.NeedsDir entry path := fun hneeds => hneeds.not_file hfile
      have hdir := hnew hfile.1
      rw [← hfile.2] at hdir
      simp [hneeds, hdir, placed_file hfile]
    · by_cases hneeds : u.NeedsDir entry path
      · simp [placed_dir hneeds, hneeds]
      · simp [placed_other hfile hneeds, hneeds]
  · intro path
    have hsplit : (∃ other ∈ extracted ++ [entry], other.isDir = false ∧ u.place other = path) ↔
        (∃ other ∈ extracted, other.isDir = false ∧ u.place other = path) ∨
          (entry.isDir = false ∧ path = u.place entry) := by
      rw [eq_comm (a := path)]
      simp [or_and_right, exists_or]
    rw [hsplit, ← h.file]
    by_cases hfile : entry.isDir = false ∧ path = u.place entry
    · have hyes : (u.placed tree entry).isFile path = true := by
        rw [Tree.isFile, placed_file hfile]
      exact iff_of_true hyes (.inr hfile)
    · by_cases hneeds : u.NeedsDir entry path
      · have hno : (u.placed tree entry).isFile path = false := by
          rw [Tree.isFile, placed_dir hneeds]
        simp [hno, hfree path hneeds, hfile]
      · simp only [Tree.isFile, placed_other hfile hneeds, hfile, or_false]

theorem Holds.extractFrom (h : Holds u extracted tree): u.extractFrom index entries tree = .ok tree' ↔
      (∀ entry ∈ entries, u.Acceptable entry ∧ ∀ other ∈ extracted, u.Fits other entry) ∧
        entries.Pairwise u.Fits ∧
        (∀ operation ∈ extractions index entries, u.fails operation = none) ∧
        tree' = entries.foldl u.placed tree := by
  induction entries generalizing extracted tree index with
  | nil =>
    simp [Update.extractFrom, extractions, eq_comm]
  | cons entry entries ih =>
    rw [Update.extractFrom, bind_eq_ok_iff, forall_mem_cons, pairwise_cons, extractions,
      forall_mem_append, foldl_cons]
    constructor
    · intro ⟨next, hentry, hrest⟩
      obtain ⟨hok, hops, rfl⟩ := h.extractEntry.1 hentry
      obtain ⟨hall, hpairs, hcalls, htree⟩ := (ih (h.placed hok.1 hok.2)).1 hrest
      simp only [forall_mem_append, forall_mem_singleton] at hall
      exact ⟨⟨hok, fun other hother => ⟨(hall other hother).1, (hall other hother).2.1⟩⟩,
        ⟨fun other hother => (hall other hother).2.2, hpairs⟩, ⟨hops, hcalls⟩, htree⟩
    · intro ⟨⟨hok, hall⟩, ⟨hfirst, hpairs⟩, ⟨hops, hcalls⟩, htree⟩
      refine ⟨u.placed tree entry, h.extractEntry.2 ⟨hok, hops, rfl⟩, ?_⟩
      rw [ih (h.placed hok.1 hok.2)]
      refine ⟨fun other hother => ⟨(hall other hother).1, ?_⟩, hpairs, hcalls, htree⟩
      rw [forall_mem_append, forall_mem_singleton]
      exact ⟨(hall other hother).2, hfirst other hother⟩

theorem Holds.foldl (h : Holds u extracted tree)
    (hentries : ∀ entry ∈ entries, u.Acceptable entry ∧ ∀ other ∈ extracted, u.Fits other entry)
    (hfits : entries.Pairwise u.Fits) :
    Holds u (extracted ++ entries) (entries.foldl u.placed tree) := by
  induction entries generalizing extracted tree with
  | nil => simpa using h
  | cons entry entries ih =>
    obtain ⟨hfirst, hrest⟩ := forall_mem_cons.1 hentries
    obtain ⟨hbefore, hfits⟩ := pairwise_cons.1 hfits
    rw [foldl_cons, append_cons]
    apply ih (h.placed hfirst.1 hfirst.2) ?_ hfits
    intro other hother
    refine ⟨(hrest other hother).1, ?_⟩
    rw [forall_mem_append, forall_mem_singleton]
    exact ⟨(hrest other hother).2, hbefore other hother⟩

theorem WellFormed.holds (h : u.WellFormed) : Holds u u.artifact.entries u.archiveTree :=
  holds_nil.foldl (fun entry he => ⟨h.acceptable entry he, nofun⟩) h.fits

theorem replacement_root (tree : Tree) (h : tree [] = some .dir) :
    u.replacement tree [] = some .dir := by
  rw [replacement]
  rcases u.stagedNames with _ | ⟨name, _ | ⟨other, names⟩⟩
  · exact h
  · by_cases hname : u.fails .readStaging = none ∧ tree [name] = some .dir
    · simp only [if_pos hname]
      exact hname.2
    · simp only [if_neg hname]
      exact h
  · exact h

variable (u) in
def Staged : Prop := u.WellFormed ∧ ∀ operation ∈ u.staging, u.fails operation = none

theorem stageArchive_eq_ok_iff : u.stageArchive = .ok tree ↔ u.Staged ∧ tree = u.archiveTree := by
  rw [stageArchive, attempt_bind_eq_ok_iff, attempt_bind_eq_ok_iff, unzipArchive,
    attempt_bind_eq_ok_iff, holds_nil.extractFrom, Staged, staging]
  simp only [forall_mem_append, forall_mem_cons, archiveTree,
    not_mem_nil, false_imp_iff, implies_true, and_true]
  constructor
  · intro ⟨hparent, hstaging, hopen, hentries, hfits, hcalls, htree⟩
    exact ⟨⟨⟨hentries, hfits⟩, ⟨hparent, hstaging, hopen⟩, hcalls⟩, htree⟩
  · intro ⟨⟨hwell, ⟨hparent, hstaging, hopen⟩, hcalls⟩, htree⟩
    exact ⟨hparent, hstaging, hopen, hwell.acceptable, hwell.fits, hcalls, htree⟩

variable (u)

def newTree : Tree :=
  if u.service.kind = "binary" then .singleton (.file u.artifact.content)
  else u.replacement u.archiveTree

def Installs (previous : Tree) : Prop :=
  u.service.installPath ≠ "" ∧ if u.service.kind = "binary" then previous [] ≠ some .dir ∧
      ∀ operation ∈ [.makeParent, .createTemp, .copyArtifact, .replaceBinary],
        u.fails operation = none
    else u.Staged ∧ u.fails .removePrevious = none ∧ u.fails .activate = none

def Complete (previous tree : Tree) : Prop := tree = previous ∨ tree = u.newTree

/-- Where the new tree does not get in the place of the previous one, a complete one is left. -/
structure Exchange (previous : Tree) : Prop where
  removal : ∀ failure, u.fails .removePrevious = some failure →
    u.Complete previous fun path => if failure.kept path then previous path else none
  activation : u.fails .removePrevious = none → u.fails .activate ≠ none → previous = .empty

/-- A failed update leaves a complete installation, and an active service active. -/
def KeepsService (site : Site) : Prop :=
  ∀ error, (u.applyUpdate site).1 = .error error →
    u.Complete site.tree (u.applyUpdate site).2.tree ∧
      (site.active = true → (u.applyUpdate site).2.active = true)

/-- No call fails between the stop of the unit and its start, nor between the removal of the
previous tree and the activation of the new one. -/
structure Harmless (site : Site) : Prop where
  stop : u.wasActive site = true → ∀ failure, u.fails .stop = some failure → failure.active = true
  exchange : (u.wasActive site = true → u.fails .stop = none) → u.service.installPath ≠ "" →
    u.service.kind ≠ "binary" → u.Staged → u.Exchange site.tree
  install : u.wasActive site = true → u.fails .stop = none → u.Installs site.tree
  setup : u.wasActive site = true → u.fails .stop = none → u.service.setupCommand ≠ [] →
    u.fails .setup = none
  start : u.wasActive site = true → u.fails .stop = none →
    ∀ failure, u.fails .start = some failure → failure.active = true

variable {u}

theorem newTree_ne_empty (h : u.Staged) (hkind : u.service.kind ≠ "binary") :
    Tree.empty ≠ u.newTree := by
  intro hempty
  have hroot : u.newTree [] = some .dir := by
    rw [newTree, if_neg hkind]
    apply replacement_root
    exact (h.1.holds.dir []).2 (.inl rfl)
  rw [← hempty] at hroot
  cases hroot

theorem prepareBinary_eq_ok_iff : u.prepareBinary previous = .ok () ↔ previous [] ≠ some .dir ∧
      ∀ operation ∈ [.makeParent, .createTemp, .copyArtifact, .replaceBinary],
        u.fails operation = none := by
  rw [prepareBinary, attempt_bind_eq_ok_iff, attempt_bind_eq_ok_iff, attempt_bind_eq_ok_iff,
    replaceBinary]
  by_cases hdir : previous [] = some .dir
  · simp [hdir]
  · simp [hdir, attempt_eq_ok_iff]

inductive Installed (u : Update) (previous : Tree) : Except String Unit × Tree → Prop where
  | done (h : u.Installs previous) : Installed u previous (.ok (), u.newTree)
  | failed (error : String) (tree : Tree) (h : ¬ u.Installs previous)
      (hcomplete : u.Complete previous tree ↔
        (u.service.installPath ≠ "" → u.service.kind ≠ "binary" → u.Staged → u.Exchange previous)) :
      Installed u previous (.error error, tree)

theorem installed_failed (h : ¬ u.Installs previous)
    (hstaged : u.service.installPath ≠ "" → u.service.kind ≠ "binary" → ¬ u.Staged) :
    Installed u previous (.error error, previous) := by
  apply Installed.failed error previous h
  refine iff_of_true (.inl rfl) fun hpath hkind hs => ?_
  exact absurd hs (hstaged hpath hkind)

theorem installed_zip (hkind : u.service.kind ≠ "binary") (previous : Tree) :
    Installed u previous (u.installZip previous) := by
  have hinstalls : u.Installs previous ↔ u.service.installPath ≠ "" ∧
      u.Staged ∧ u.fails .removePrevious = none ∧ u.fails .activate = none := by
    rw [Installs, if_neg hkind]
  rw [installZip]
  by_cases hpath : u.service.installPath = ""
  · rw [if_pos hpath]
    exact installed_failed (fun h => (hinstalls.1 h).1 hpath) fun hne => absurd hpath hne
  rw [if_neg hpath]
  cases hstage : u.stageArchive with
  | error error =>
    have hstaged : ¬ u.Staged := by
      intro hstaged
      rw [stageArchive_eq_ok_iff.2 ⟨hstaged, rfl⟩] at hstage
      cases hstage
    exact installed_failed (fun h => hstaged (hinstalls.1 h).2.1) fun _ _ => hstaged
  | ok tree =>
    obtain ⟨hstaged, rfl⟩ := stageArchive_eq_ok_iff.1 hstage
    cases hremove : u.fails .removePrevious with
    | some failure =>
      apply Installed.failed
      · intro h
        rw [hinstalls, hremove] at h
        cases h.2.2.1
      · constructor
        · intro hcomplete _ _ _
          refine ⟨fun other hother => ?_, fun hnone => ?_⟩
          · obtain rfl : failure = other := Option.some.inj (hremove.symm.trans hother)
            exact hcomplete
          · rw [hremove] at hnone
            cases hnone
        · intro hexchange
          exact (hexchange hpath hkind hstaged).removal failure hremove
    | none =>
      cases hactivate : u.fails .activate with
      | some failure =>
        simp only [attempt, hactivate]
        apply Installed.failed
        · intro h
          rw [hinstalls, hactivate] at h
          cases h.2.2.2
        · constructor
          · rintro (hprevious | hnew) _ _ _
            · refine ⟨fun other hother => ?_, fun _ _ => hprevious.symm⟩
              rw [hremove] at hother
              cases hother
            · exact absurd hnew (newTree_ne_empty hstaged hkind)
          · intro hexchange
            have hprevious := (hexchange hpath hkind hstaged).activation hremove (by simp [hactivate])
            exact .inl hprevious.symm
      | none =>
        have hnew : u.newTree = u.replacement u.archiveTree := if_neg hkind
        simp only [attempt, hactivate, ← hnew]
        exact .done (hinstalls.2 ⟨hpath, hstaged, hremove, hactivate⟩)

theorem installed_binary (hkind : u.service.kind = "binary") (previous : Tree) :
    Installed u previous (u.installBinary previous) := by
  have hinstalls : u.Installs previous ↔
      u.service.installPath ≠ "" ∧ u.prepareBinary previous = .ok () := by
    rw [Installs, if_pos hkind, prepareBinary_eq_ok_iff]
  rw [installBinary]
  by_cases hpath : u.service.installPath = ""
  · rw [if_pos hpath]
    exact installed_failed (fun h => (hinstalls.1 h).1 hpath) fun hne => absurd hpath hne
  rw [if_neg hpath]
  cases hprepare : u.prepareBinary previous with
  | error error =>
    apply installed_failed
    · intro h
      rw [hinstalls, hprepare] at h
      cases h.2
    · exact fun _ hne => absurd hkind hne
  | ok done =>
    have hnew : u.newTree = .singleton (.file u.artifact.content) := if_pos hkind
    simp only [← hnew]
    exact .done (hinstalls.2 ⟨hpath, hprepare⟩)

theorem installed_artifact (hkind : u.service.kind ∈ ["asset", "binary", "zip"]) (site : Site) :
    ∃ result, Installed u site.tree result ∧
      u.installArtifact site = (result.1, { site with tree := result.2 }) := by
  simp only [mem_cons, not_mem_nil, or_false] at hkind
  rcases hkind with hkind | hkind | hkind
  · refine ⟨_, installed_zip (by simp [hkind]) site.tree, ?_⟩
    simp [installArtifact, hkind, atPath]
  · refine ⟨_, installed_binary hkind site.tree, ?_⟩
    simp [installArtifact, hkind, atPath]
  · refine ⟨_, installed_zip (by simp [hkind]) site.tree, ?_⟩
    simp [installArtifact, hkind, atPath]

theorem Installs.exchange {previous : Tree} (h : u.Installs previous)
    (hkind : u.service.kind ≠ "binary") : u.Exchange previous := by
  rw [Installs, if_neg hkind] at h
  obtain ⟨-, -, hremove, hactivate⟩ := h
  constructor
  · intro failure hfails
    rw [hremove] at hfails
    cases hfails
  · exact fun _ hfails => absurd hactivate hfails

theorem finish_idle (site : Site) : ∃ result, u.finish false site = (result, site) := by
  have hsetup : ∃ result, u.setUp site = (result, site) := by
    rw [setUp, Phase.onlyIf]
    split
    · exact ⟨_, rfl⟩
    · exact ⟨_, rfl⟩
  obtain ⟨result, hsetup⟩ := hsetup
  rw [finish, Phase.andThen, hsetup]
  cases result with
  | error error => exact ⟨_, rfl⟩
  | ok done => exact ⟨_, rfl⟩

/-- A unit that was stopped is active again unless the setup command or the start fails. -/
theorem finish_stopped (hkind : u.service.kind ≠ "wheel") (site : Site) (h : site.active = false) :
    (u.finish true site).2.tree = site.tree ∧
      ((∀ error, (u.finish true site).1 = .error error → (u.finish true site).2.active = true) ↔
        (u.service.setupCommand ≠ [] → u.fails .setup = none) ∧
          ∀ failure, u.fails .start = some failure → failure.active = true) := by
  have hsetup : u.setUp site = (.ok (), site) ∧
      (u.service.setupCommand ≠ [] → u.fails .setup = none) ∨
      ∃ error, u.setUp site = (.error error, site) ∧
        ¬ (u.service.setupCommand ≠ [] → u.fails .setup = none) := by
    rw [setUp, Phase.onlyIf]
    by_cases hcommand : u.service.setupCommand = []
    · simp [hcommand]
    · cases hfails : u.fails .setup with
      | none => simp [hcommand, hkind, runSetupCommand, attempt, hfails]
      | some failure => simp [hcommand, hkind, runSetupCommand, attempt, hfails]
  rcases hsetup with ⟨hsetup, hok⟩ | ⟨error, hsetup, hno⟩
  · rw [finish, Phase.andThen, hsetup]
    simp only [Phase.onlyIf, if_true, Phase.andThen, systemctl, iff_true_intro hok, true_and]
    cases hstart : u.fails .start with
    | none => simp [inspectManagedService]
    | some failure => simp
  · rw [finish, Phase.andThen, hsetup]
    refine ⟨rfl, iff_of_false (fun hactive => ?_) fun hok => hno hok.1⟩
    have hcontra := hactive error rfl
    rw [h] at hcontra
    cases hcontra

section
variable {site : Site}

theorem harmless_idle (hactive : u.wasActive site = false) : u.Harmless site ↔
    (u.service.installPath ≠ "" → u.service.kind ≠ "binary" → u.Staged → u.Exchange site.tree) := by
  have hno {p : Prop} : u.wasActive site = true → p := by simp [hactive]
  exact ⟨fun h => h.exchange hno, fun h => ⟨hno, fun _ => h, hno, hno, hno⟩⟩

theorem harmless_unstopped (hactive : u.wasActive site = true) {failure : Failure}
    (hstop : u.fails .stop = some failure) : u.Harmless site ↔ failure.active = true := by
  have hno {p : Prop} (hnone : u.fails .stop = none) : p := by
    rw [hstop] at hnone
    cases hnone
  constructor
  · exact fun h => h.stop hactive failure hstop
  · intro hfailure
    refine ⟨fun _ other hother => ?_, fun hnone => hno (hnone hactive), fun _ => hno, fun _ => hno,
      fun _ => hno⟩
    obtain rfl := Option.some.inj (hstop.symm.trans hother)
    exact hfailure

theorem harmless_stopped (hactive : u.wasActive site = true) (hstop : u.fails .stop = none) :
    u.Harmless site ↔ u.Installs site.tree ∧ (u.service.setupCommand ≠ [] → u.fails .setup = none) ∧
      ∀ failure, u.fails .start = some failure → failure.active = true := by
  constructor
  · exact fun h => ⟨h.install hactive hstop, h.setup hactive hstop, h.start hactive hstop⟩
  · intro ⟨hinstalls, hsetup, hstart⟩
    refine ⟨fun _ failure hfails => ?_, fun _ _ hkind _ => hinstalls.exchange hkind,
      fun _ _ => hinstalls, fun _ _ => hsetup, fun _ _ => hstart⟩
    rw [hstop] at hfails
    cases hfails

end

/-- A failed update leaves the service as it should exactly where nothing fails in between. -/
theorem keepsService_iff (u : Update) (hkind : u.service.kind ∈ ["asset", "binary", "zip"])
    (site : Site) : u.KeepsService site ↔ u.Harmless site := by
  have hwheel : u.service.kind ≠ "wheel" := by
    intro hwheel
    rw [hwheel] at hkind
    simp at hkind
  rw [KeepsService, applyUpdate, applyWith]
  cases hactive : u.wasActive site with
  | false =>
    obtain ⟨result, hinstalled, hartifact⟩ := installed_artifact hkind site
    rw [harmless_idle hactive, Phase.andThen, Phase.onlyIf, if_neg (by simp)]
    simp only [Phase.andThen, hartifact]
    cases hinstalled with
    | done h =>
      obtain ⟨result, hfinish⟩ := finish_idle (u := u) { site with tree := u.newTree }
      simp only [hfinish]
      exact iff_of_true (fun _ _ => ⟨.inr rfl, id⟩) fun _ hkind _ => h.exchange hkind
    | failed error tree h hcomplete =>
      rw [← hcomplete]
      exact ⟨fun hkeeps => (hkeeps error rfl).1, fun hc _ _ => ⟨hc, id⟩⟩
  | true =>
    have hsite : site.active = true := by
      simp only [wasActive, decide_eq_true_iff] at hactive
      exact hactive.2.2
    cases hstop : u.fails .stop with
    | some failure =>
      rw [harmless_unstopped hactive hstop]
      simp only [Phase.andThen, Phase.onlyIf, if_true, systemctl, hstop]
      exact ⟨fun hkeeps => (hkeeps _ rfl).2 hsite, fun h _ _ => ⟨.inl rfl, fun _ => h⟩⟩
    | none =>
      rw [harmless_stopped hactive hstop]
      obtain ⟨result, hinstalled, hartifact⟩ := installed_artifact hkind { site with active := false }
      simp only [Phase.andThen, Phase.onlyIf, if_true, systemctl, hstop, hartifact]
      cases hinstalled with
      | done h =>
        obtain ⟨htree, hiff⟩ := finish_stopped hwheel ⟨u.newTree, false⟩ rfl
        rw [iff_true_intro h, true_and, ← hiff]
        constructor
        · exact fun hkeeps error herror => (hkeeps error herror).2 hsite
        · exact fun h error herror => ⟨.inr htree, fun _ => h error herror⟩
      | failed error tree h hcomplete =>
        refine iff_of_false (fun hkeeps => ?_) fun hall => h hall.1
        have hcontra := (hkeeps error rfl).2 hsite
        cases hcontra

end Update

def servedUi : ManagedServiceConfig :=
  { name := "edge-ui", displayName := "Edge UI", kind := "zip"
    allowControl := true, allowUpdate := true, enabled := true
    execStart := ["python3", "-m", "http.server"], versionCommand := ["cat", "VERSION"]
    installPath := "/trakrai/ui", workingDirectory := "/trakrai"
    logPath := "/trakrai/logs/edge-ui.log", scriptPath := "/trakrai/scripts/start-edge-ui.sh"
    versionFile := "/trakrai/versions/edge-ui.txt", systemdUnit := "trakrai-edge-ui.service"
    restart := "always", restartSec := 2, wantedBy := "multi-user.target"
    after := ["network-online.target"] }

def runningUi : Site where
  tree
    | [] => some .dir
    | ["index.html"] => some (.file "<html></html>")
    | _ => none
  active := true

def notAnArchive : Update where
  service := servedUi
  artifact := { content := "<html></html>" }
  print := asciiPrint
  fails
    | .openArchive => some { error := "zip: not a valid zip file" }
    | _ => none

theorem keepsService_iff_notAnArchive :
    notAnArchive.KeepsService runningUi ↔ notAnArchive.Harmless runningUi :=
  Update.keepsService_iff notAnArchive (by decide) runningUi

theorem stopped_by_failed_update : ¬ ∀ (cfg : Settings) (u : Update) (site : Site),
      normalizeManagedService cfg u.service = .ok u.service →
      u.service.kind ∈ ["asset", "binary", "zip"] → u.KeepsService site := by
  intro h
  have hkeeps := h deviceSettings notAnArchive runningUi (by decide +kernel) (by decide +kernel)
  have hactive := (hkeeps "open zip archive: zip: not a valid zip file" (by decide)).2 rfl
  exact absurd hactive (by decide)

end Trakrai.RuntimeManager
