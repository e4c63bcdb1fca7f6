import Trakrai.Lib.GoRel
import Trakrai.RuntimeManager.Update

namespace Trakrai.RuntimeManager
open List Lib

theorem isPathWithinRoot_eq_goRel (root candidate : String) :
    isPathWithinRoot root candidate = match goRel root candidate with
      | none => false
      | some relPath => !climbs relPath := by
  have hiff := goRel_within_iff root candidate
  rw [Bool.eq_iff_iff, isPathWithinRoot]
  simp only [Bool.and_eq_true, beq_iff_eq, isPrefixOf_iff_prefix, bne_iff_ne, and_assoc]
  rw [← hiff]
  cases goRel root candidate with
  | none => simp
  | some relPath => simp

structure Breakage where
  error : String
  /-- How many directories of the path there are after `os.MkdirAll`. -/
  made : Nat := 0
  /-- What of the content has been copied. -/
  copied : String := ""

/-- One run of `unzipArchive` on the files that there are, by their places below the root. -/
structure Extraction where
  destination : String
  cwd : String
  cwd_rooted : isRooted cwd = true
  print : GoPrint
  fails : Operation → Option Breakage := fun _ => none

def Tree.fill (tree : Tree) (place : List String) : Tree := fun other =>
  if other <+: place ∧ tree other = none then some .dir else tree other

namespace Extraction
variable (x : Extraction)

def placeOf (path : String) : List String := locate x.cwd path

/-- A name of an archive has the separators of a path on Unix. -/
def targetPath (entry : ZipEntry) : String := goJoin x.destination entry.name

def mkdirAll (operation : Operation) (text path : String) (tree : Tree) : Except String Unit × Tree :=
  match x.fails operation with
  | some broken => (.error (text ++ broken.error), tree.fill ((x.placeOf path).take broken.made))
  | none =>
    if path = "" then (.error (text ++ "no such file or directory"), tree)
    else
      match tree.makeAll (x.placeOf path) with
      | .error error => (.error (text ++ error), tree)
      | .ok tree => (.ok (), tree)

/-- The file is created or emptied before anything is copied to it. -/
def copyFile (index : Nat) (entry : ZipEntry) (tree : Tree) : Except String Unit × Tree :=
  match x.fails (.openEntry index) with
  | some broken => (.error ("open zip entry " ++ goQuote x.print entry.name ++ ": " ++ broken.error), tree)
  | none =>
    match x.fails (.createFile index) with
    | some broken =>
      (.error ("create extracted file " ++ goQuote x.print (x.targetPath entry) ++ ": " ++ broken.error), tree)
    | none =>
      let content := match x.fails (.extract index) with
        | some broken => broken.copied
        | none => entry.content
      match tree.write (x.placeOf (x.targetPath entry)) content with
      | .error error =>
        (.error ("create extracted file " ++ goQuote x.print (x.targetPath entry) ++ ": " ++ error), tree)
      | .ok tree =>
        match x.fails (.extract index) with
        | some broken => (.error ("extract zip entry " ++ goQuote x.print entry.name ++ ": " ++ broken.error), tree)
        | none => (.ok (), tree)

def extractEntry (index : Nat) (entry : ZipEntry) (tree : Tree) : Except String Unit × Tree :=
  if ¬ isPathWithinRoot x.destination (x.targetPath entry) then
    (.error ("zip entry " ++ goQuote x.print entry.name ++ " escapes destination"), tree)
  else if entry.symlink then
    (.error ("zip entry " ++ goQuote x.print entry.name ++ " is a symlink and is not supported"), tree)
  else if entry.isDir then
    x.mkdirAll (.makeDirectory index) ("create zip directory " ++ goQuote x.print (x.targetPath entry) ++ ": ")
      (x.targetPath entry) tree
  else
    match x.mkdirAll (.makeDirectory index) ("create zip parent " ++ goQuote x.print (x.targetPath entry) ++ ": ")
        (goDir (x.targetPath entry)) tree with
    | (.error error, tree) => (.error error, tree)
    | (.ok (), tree) => x.copyFile index entry tree

def extractFrom (index : Nat) : List ZipEntry → Tree → Except String Unit × Tree
  | [], tree => (.ok (), tree)
  | entry :: entries, tree =>
    match x.extractEntry index entry tree with
    | (.error error, tree) => (.error error, tree)
    | (.ok (), tree) => extractFrom (index + 1) entries tree

def unzipArchive (entries : List ZipEntry) (tree : Tree) : Except String Unit × Tree :=
  match x.fails .openArchive with
  | some broken => (.error ("open zip archive: " ++ broken.error), tree)
  | none => x.extractFrom 0 entries tree

def Standing (tree : Tree) : Prop := ∀ path, path <+: x.placeOf x.destination → tree path = some .dir

end Extraction

/-- What changes lies at the place or below it, directories stay directories, and files files. -/
structure Grown (place : List String) (tree tree' : Tree) : Prop where
  inside : ∀ path, tree' path ≠ tree path → place <+: path
  dirs : ∀ path, tree path = some .dir → tree' path = some .dir
  files : ∀ path, tree.isFile path = true → tree'.isFile path = true

namespace Grown
variable {place path : List String} {tree tree' tree'' : Tree}

theorem refl (tree : Tree) : Grown place tree tree :=
  ⟨fun _ h => absurd rfl h, fun _ h => h, fun _ h => h⟩

theorem trans (h : Grown place tree tree') (h' : Grown place tree' tree'') : Grown place tree tree'' where
  inside path hpath := by
    by_cases hsame : tree' path = tree path
    · exact h'.inside path (hsame ▸ hpath)
    · exact h.inside path hsame
  dirs path hpath := h'.dirs path (h.dirs path hpath)
  files path hpath := h'.files path (h.files path hpath)

theorem fill (hstanding : ∀ path, path <+: place → tree path = some .dir)
    (hpath : path <+: place ∨ place <+: path) : Grown place tree (tree.fill path) where
  inside other hother := by
    rw [Tree.fill] at hother
    split at hother
    · rename_i hnew
      have hnone : ¬ other <+: place := fun hpre => by
        have hdir := hstanding other hpre
        rw [hnew.2] at hdir
        cases hdir
      rcases hpath with hpath | hpath
      · exact absurd (hnew.1.trans hpath) hnone
      · exact (List.prefix_or_prefix_of_prefix hpath hnew.1).resolve_right hnone
    · exact absurd rfl hother
  dirs other hother := by
    rw [Tree.fill, if_neg (by simp [hother])]
    exact hother
  files other hother := by
    have hsome : tree other ≠ none := fun hnone => by simp [Tree.isFile, hnone] at hother
    rw [Tree.isFile, Tree.fill, if_neg (by simp [hsome])]
    exact hother

theorem makeAll (hstanding : ∀ path, path <+: place → tree path = some .dir)
    (hpath : path <+: place ∨ place <+: path) (h : tree.makeAll path = .ok tree') :
    Grown place tree tree' ∧ tree' path = some .dir := by
  obtain ⟨hfree, rfl⟩ := Update.makeAll_eq_ok_iff.1 h
  have hfill : tree.fill path = fun other => if other <+: path then some .dir else tree other := by
    funext other
    rw [Tree.fill]
    by_cases hother : other <+: path
    · have hnofile := hfree other hother
      rw [Tree.isFile] at hnofile
      rcases hnode : tree other with _ | _ | content
      · simp [hother]
      · simp [hother]
      · rw [hnode] at hnofile
        cases hnofile
    · simp [hother]
  rw [← hfill]
  refine ⟨fill hstanding hpath, ?_⟩
  rw [hfill]
  exact if_pos (prefix_refl _)

theorem write (hpath : place <+: path) (h : tree.write path content = .ok tree') :
    Grown place tree tree' ∧ tree'.isFile path = true := by
  obtain ⟨hnew, rfl⟩ := Update.write_eq_ok_iff.1 h
  refine ⟨⟨fun other hother => ?_, fun other hother => ?_, fun other hother => ?_⟩, by simp [Tree.isFile]⟩
  · split at hother
    · rename_i he
      exact he ▸ hpath
    · exact absurd rfl hother
  · have hne : other ≠ path := fun he => hnew (he ▸ hother)
    rw [if_neg hne]
    exact hother
  · rw [Tree.isFile]
    split
    · rfl
    · rename_i hnode
      split at hnode
      · simp at hnode
      · rw [Tree.isFile] at hother
        split at hother
        · rename_i content hcontent
          exact absurd hcontent (hnode content)
        · cases hother

end Grown

namespace Extraction
variable {x : Extraction} {tree : Tree} {entry : ZipEntry}

theorem inside_of_within (h : isPathWithinRoot x.destination (x.targetPath entry) = true) :
    x.placeOf x.destination <+: x.placeOf (x.targetPath entry) := by
  simp only [isPathWithinRoot, Bool.and_eq_true, beq_iff_eq, isPrefixOf_iff_prefix, bne_iff_ne] at h
  exact locate_prefix x.cwd_rooted h.1.1 h.1.2 h.2

theorem mkdirAll_grown (hstanding : x.Standing tree) (operation : Operation) (text : String)
    (hpath : x.placeOf path <+: x.placeOf x.destination ∨ x.placeOf x.destination <+: x.placeOf path) :
    Grown (x.placeOf x.destination) tree (x.mkdirAll operation text path tree).2 ∧
      ((x.mkdirAll operation text path tree).1 = .ok () →
        (x.mkdirAll operation text path tree).2 (x.placeOf path) = some .dir) := by
  rw [mkdirAll]
  split
  · rename_i broken hbroken
    refine ⟨Grown.fill hstanding ?_, nofun⟩
    have htake := take_prefix broken.made (x.placeOf path)
    rcases hpath with hpath | hpath
    · exact .inl (htake.trans hpath)
    · exact prefix_or_prefix_of_prefix htake hpath
  · split
    · exact ⟨.refl tree, nofun⟩
    · split
      · exact ⟨.refl tree, nofun⟩
      · rename_i tree' hmade
        obtain ⟨hgrown, hdir⟩ := Grown.makeAll hstanding hpath hmade
        exact ⟨hgrown, fun _ => hdir⟩

theorem parent_comparable (hinside : x.placeOf x.destination <+: x.placeOf (x.targetPath entry)) :
    x.placeOf (goDir (x.targetPath entry)) <+: x.placeOf x.destination ∨
      x.placeOf x.destination <+: x.placeOf (goDir (x.targetPath entry)) := by
  have hdir : x.placeOf (goDir (x.targetPath entry)) <+: x.placeOf (x.targetPath entry) ∨
      x.placeOf (x.targetPath entry) <+: x.placeOf (goDir (x.targetPath entry)) := by
    rcases cleanPath_goJoin x.destination entry.name with hempty | hclean
    · have hhere : x.placeOf (goDir "") = x.placeOf "" := by
        rw [placeOf, placeOf, locate_eq_foldl x.cwd_rooted, locate_eq_foldl x.cwd_rooted]
        rfl
      rw [targetPath, hempty, hhere]
      exact .inl (prefix_refl _)
    · exact locate_goDir x.cwd_rooted hclean
  rcases hdir with hdir | hdir
  · exact prefix_or_prefix_of_prefix hdir hinside
  · exact .inr (hinside.trans hdir)

theorem copyFile_grown (index : Nat) (tree : Tree)
    (hpath : x.placeOf x.destination <+: x.placeOf (x.targetPath entry)) :
    Grown (x.placeOf x.destination) tree (x.copyFile index entry tree).2 ∧
      ((x.copyFile index entry tree).1 = .ok () →
        (x.copyFile index entry tree).2.isFile (x.placeOf (x.targetPath entry)) = true) := by
  rw [copyFile]
  split
  · exact ⟨.refl tree, nofun⟩
  · split
    · exact ⟨.refl tree, nofun⟩
    · dsimp only
      split
      · exact ⟨.refl tree, nofun⟩
      · rename_i tree' hwritten
        obtain ⟨hgrown, hfile⟩ := Grown.write hpath hwritten
        split
        · exact ⟨hgrown, nofun⟩
        · exact ⟨hgrown, fun _ => hfile⟩

def Extracted (x : Extraction) (tree : Tree) (entry : ZipEntry) : Prop :=
  if entry.isDir then tree (x.placeOf (x.targetPath entry)) = some .dir
  else tree.isFile (x.placeOf (x.targetPath entry)) = true

theorem Extracted.grown (h : x.Extracted tree entry) (hgrown : Grown place tree tree'): x.Extracted tree' entry := by
  rw [Extracted] at h ⊢
  split at h
  · rename_i hdir
    rw [if_pos hdir]
    exact hgrown.dirs _ h
  · rename_i hfile
    rw [if_neg hfile]
    exact hgrown.files _ h

/-- One entry changes nothing outside of the destination; and an entry that escapes or is a symbolic
link fails and changes nothing. -/
theorem extractEntry_grown (hstanding : x.Standing tree) (index : Nat) (entry : ZipEntry) :
    Grown (x.placeOf x.destination) tree (x.extractEntry index entry tree).2 ∧
      ((x.extractEntry index entry tree).1 = .ok () → entry.symlink = false ∧
        x.placeOf x.destination <+: x.placeOf (x.targetPath entry) ∧
        x.Extracted (x.extractEntry index entry tree).2 entry) ∧
      (entry.symlink = true ∨ ¬ x.placeOf x.destination <+: x.placeOf (x.targetPath entry) →
        ∃ error, x.extractEntry index entry tree = (.error error, tree)) := by
  rw [extractEntry]
  split
  · exact ⟨.refl tree, nofun, fun _ => ⟨_, rfl⟩⟩
  rename_i hwithin
  have hinside := inside_of_within (not_not.1 hwithin)
  split
  · exact ⟨.refl tree, nofun, fun _ => ⟨_, rfl⟩⟩
  rename_i hlink
  have hlink : entry.symlink = false := by simpa using hlink
  have hgood : ¬ (entry.symlink = true ∨ ¬ x.placeOf x.destination <+: x.placeOf (x.targetPath entry)) := by
    simp [hlink, hinside]
  split
  · rename_i hdir
    obtain ⟨hgrown, hmade⟩ := mkdirAll_grown hstanding (.makeDirectory index)
      ("create zip directory " ++ goQuote x.print (x.targetPath entry) ++ ": ") (.inr hinside)
    refine ⟨hgrown, fun hok => ⟨hlink, hinside, ?_⟩, fun h => absurd h hgood⟩
    rw [Extracted, if_pos hdir]
    exact hmade hok
  · rename_i hfile
    obtain ⟨hgrown, -⟩ := mkdirAll_grown hstanding (.makeDirectory index)
      ("create zip parent " ++ goQuote x.print (x.targetPath entry) ++ ": ") (parent_comparable hinside)
    split
    · rename_i error tree' hparent
      rw [hparent] at hgrown
      exact ⟨hgrown, nofun, fun h => absurd h hgood⟩
    · rename_i tree' hparent
      rw [hparent] at hgrown
      obtain ⟨hcopied, hwritten⟩ := copyFile_grown index tree' hinside
      refine ⟨hgrown.trans hcopied, fun hok => ⟨hlink, hinside, ?_⟩, fun h => absurd h hgood⟩
      rw [Extracted, if_neg hfile]
      exact hwritten hok

theorem Standing.grown (h : x.Standing tree) (hgrown : Grown (x.placeOf x.destination) tree tree'): x.Standing tree' :=
  fun path hpath => hgrown.dirs path (h path hpath)

theorem extractFrom_grown (hstanding : x.Standing tree) (index : Nat) (entries : List ZipEntry) :
    Grown (x.placeOf x.destination) tree (x.extractFrom index entries tree).2 ∧
      ((x.extractFrom index entries tree).1 = .ok () → ∀ entry ∈ entries, entry.symlink = false ∧
        x.placeOf x.destination <+: x.placeOf (x.targetPath entry) ∧
        x.Extracted (x.extractFrom index entries tree).2 entry) := by
  induction entries generalizing index tree with
  | nil => exact ⟨.refl tree, fun _ => forall_mem_nil _⟩
  | cons entry entries ih =>
    obtain ⟨hgrown, hgood, -⟩ := extractEntry_grown hstanding index entry
    rw [extractFrom]
    split
    · rename_i error tree' hentry
      rw [hentry] at hgrown
      exact ⟨hgrown, nofun⟩
    · rename_i tree' hentry
      rw [hentry] at hgrown hgood
      obtain ⟨hrest, hall⟩ := ih (hstanding.grown hgrown) (index + 1)
      refine ⟨hgrown.trans hrest, fun hok => forall_mem_cons.2 ⟨?_, hall hok⟩⟩
      obtain ⟨hlink, hinside, hthere⟩ := hgood rfl
      exact ⟨hlink, hinside, hthere.grown hrest⟩

theorem extractFrom_stops (hstanding : x.Standing tree) (index : Nat) (before after : List ZipEntry)
    (hbad : entry.symlink = true ∨ ¬ x.placeOf x.destination <+: x.placeOf (x.targetPath entry)) :
    (∃ error, (x.extractFrom index (before ++ entry :: after) tree).1 = .error error) ∧
      (x.extractFrom index (before ++ entry :: after) tree).2 = (x.extractFrom index before tree).2 := by
  induction before generalizing index tree with
  | nil =>
    obtain ⟨error, hentry⟩ := (extractEntry_grown hstanding index entry).2.2 hbad
    have hstop : x.extractFrom index (entry :: after) tree = (.error error, tree) := by
      rw [extractFrom, hentry]
    rw [nil_append, hstop]
    exact ⟨⟨error, rfl⟩, rfl⟩
  | cons first before ih =>
    obtain ⟨hgrown, -⟩ := extractEntry_grown hstanding index first
    rw [cons_append, extractFrom, extractFrom]
    split
    · rename_i error tree' hfirst
      exact ⟨⟨error, rfl⟩, rfl⟩
    · rename_i tree' hfirst
      rw [hfirst] at hgrown
      exact ih (hstanding.grown hgrown) (index + 1)

/-- Whatever an archive holds, whichever calls fail: nothing changes outside of the destination; the
archive is unpacked only if no entry escapes or is a symbolic link, and then every entry is there; and
at the first one that does or is, it fails and leaves what the entries before it have made. -/
theorem unzipArchive_contained (x : Extraction) (entries : List ZipEntry) (tree : Tree)
    (hstanding : x.Standing tree) :
    (∀ path, (x.unzipArchive entries tree).2 path ≠ tree path → x.placeOf x.destination <+: path) ∧
      ((x.unzipArchive entries tree).1 = .ok () → ∀ entry ∈ entries, entry.symlink = false ∧
        x.placeOf x.destination <+: x.placeOf (x.targetPath entry) ∧
        x.Extracted (x.unzipArchive entries tree).2 entry) ∧
      ∀ before entry after, entries = before ++ entry :: after →
        (entry.symlink = true ∨ ¬ x.placeOf x.destination <+: x.placeOf (x.targetPath entry)) →
        (∃ error, (x.unzipArchive entries tree).1 = .error error) ∧
          (x.unzipArchive entries tree).2 = (x.unzipArchive before tree).2 := by
  simp only [unzipArchive]
  split
  · exact ⟨fun _ h => absurd rfl h, nofun, fun _ _ _ _ _ => ⟨⟨_, rfl⟩, rfl⟩⟩
  · obtain ⟨hgrown, hall⟩ := extractFrom_grown hstanding 0 entries
    refine ⟨hgrown.inside, hall, fun before entry after he hbad => ?_⟩
    rw [he]
    exact extractFrom_stops hstanding 0 before after hbad

theorem isRooted_root : isRooted "/" = true := by decide

def staging : Extraction where
  destination := "/srv/.ui.extract-1"
  cwd := "/"
  cwd_rooted := isRooted_root
  print := asciiPrint

def stagingTree : Tree := fun path => if path <+: ["srv", ".ui.extract-1"] then some .dir else none

def climbingArchive : List ZipEntry :=
  [{ name := "ui/index.html", content := "ui" }, { name := "ui/../../../etc/passwd", content := "root" }]

theorem unzipArchive_contained_climbing :
    (∃ error, (staging.unzipArchive climbingArchive stagingTree).1 = .error error) ∧
      (staging.unzipArchive climbingArchive stagingTree).2 ["etc", "passwd"] = none ∧
      (staging.unzipArchive climbingArchive stagingTree).2 ["srv", ".ui.extract-1", "ui", "index.html"] =
        some (.file "ui") := by
  have hplace : staging.placeOf staging.destination = ["srv", ".ui.extract-1"] := by decide +kernel
  have hstanding : staging.Standing stagingTree := by
    intro path hpath
    rw [hplace] at hpath
    exact if_pos hpath
  obtain ⟨hinside, -, hstops⟩ := unzipArchive_contained staging climbingArchive stagingTree hstanding
  refine ⟨(hstops [_] _ [] rfl (.inr (by decide +kernel))).1, ?_, by decide +kernel⟩
  by_contra hchanged
  have hbelow := hinside ["etc", "passwd"] fun hsame => hchanged (hsame.trans (by decide))
  rw [hplace] at hbelow
  exact absurd hbelow (by decide)

end Extraction

end Trakrai.RuntimeManager
