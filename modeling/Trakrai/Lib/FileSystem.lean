import Mathlib.Data.List.Infix
import Trakrai.Lib.GoPath

namespace Trakrai.Lib

/-- Where a path leads, as the parts below the root. -/
def locate (cwd path : String) : List String :=
  goSegments (if isRooted path then path else cwd ++ "/" ++ path)

theorem locate_goJoin (hcwd : isRooted cwd = true) (hname : plainName name = true):
    locate cwd (goJoin dir name) = locate cwd dir ++ [name] := by
  have hclean := (cleanSegments_goSegments dir).append hname
  have hjoin : isRooted (goJoin dir name) = isRooted dir := by
    rw [goJoin_eq hname, isRooted_goRender hclean.ne]
  rw [locate, locate, hjoin]
  cases hdir : isRooted dir with
  | true =>
    rw [if_pos rfl, if_pos rfl, goJoin_eq hname, goSegments_goRender hclean]
  | false =>
    have hrooted (path : String) : isRooted (cwd ++ "/" ++ path) = true := by
      simp only [isRooted, beq_iff_eq] at hcwd ⊢
      simp [List.head?_append, hcwd]
    have hne := properSegment_iff.1 (plainName_iff.1 hname).1
    have hpush (kept : List String) : normalizeSegment false kept name = name :: kept := by
      simp [normalizeSegment, hne.1, hne.2.1, hne.2.2]
    have hbase (base : List String) : (goSegments dir).foldl (normalizeSegment false) base =
        (jsSplit '/' dir).foldl (normalizeSegment false) base := by
      rw [goSegments, hdir]
      exact foldl_normalizeSegment_clean false (List.forall_mem_nil _)
    have hparts : jsSplit '/' (goJoin dir name) = goSegments dir ++ [name] := by
      rw [goJoin_eq hname, hdir]
      rw [hdir] at hclean
      rw [jsSplit_goRender hclean.ne]
      simp
    rw [if_neg (by simp), if_neg (by simp), goSegments, goSegments, hrooted, hrooted,
      jsSplit_append_slash, jsSplit_append_slash, hparts]
    simp only [Bool.not_true, List.foldl_append, List.foldl_cons, List.foldl_nil, hbase, hpush,
      List.reverse_cons]

structure Fault (γ : Type) where
  error : String
  /-- The content of a file that was being written in its place. -/
  content : Option γ := none
  /-- The files that a recursive removal has not reached. -/
  kept : List String → Bool := fun _ => true

/-- The files, what a process has in memory, how many calls it has made, and which of its calls
on which path fail. -/
structure World (γ ρ : Type) where
  files : List String → Option γ
  memory : ρ
  calls : Nat := 0
  faults : Nat → List String → Option (Fault γ) := fun _ _ => none

/-- A process that stops at the first error that it does not handle. -/
abbrev Process (γ ρ α : Type) := ExceptT String (StateM (World γ ρ)) α

namespace Process
variable {γ ρ α β : Type}

def exec (p : Process γ ρ α) (w : World γ ρ) : Except String α × World γ ρ := p w

section
variable (path : List String)

def call (done : World γ ρ → World γ ρ)
    (failed : Fault γ → World γ ρ → World γ ρ) : Process γ ρ Unit := fun w =>
  let after := { w with calls := w.calls + 1 }
  match w.faults w.calls path with
  | none => (.ok (), done after)
  | some fault => (.error fault.error, failed fault after)

def setFile (w : World γ ρ) (path : List String) (content : Option γ) : World γ ρ :=
  { w with files := fun other => if other = path then content else w.files other }

def check : Process γ ρ Unit := call path id fun _ => id

/-- A program of its own that leaves the files alone. -/
def run : Process γ ρ Unit := check []

def replace (content : γ) : Process γ ρ Unit :=
  call path (setFile · path (some content)) fun _ => id

def overwrite (content : γ) : Process γ ρ Unit :=
  call path (setFile · path (some content)) fun fault w => setFile w path fault.content

def remove : Process γ ρ Unit := call path (setFile · path none) fun _ => id

def removeAll : Process γ ρ Unit :=
  call path (fun w => { w with files := fun other => if path <+: other then none else w.files other })
    fun fault w => { w with
      files := fun other => if path <+: other ∧ ¬ fault.kept other then none else w.files other }

def mount (tree : List String → Option γ) : Process γ ρ Unit :=
  call path (fun w => { w with
    files := fun other => if path <+: other then tree (other.drop path.length) else w.files other })
    fun _ => id

def load : Process γ ρ ρ := fun w => (.ok w.memory, w)

def store (memory : ρ) : Process γ ρ Unit := fun w => (.ok (), { w with memory })

def look : Process γ ρ (Option γ) := fun w => (.ok (w.files path), w)

end

def attempt (p : Process γ ρ Unit) : Process γ ρ Unit := fun w => (.ok (), (p.exec w).2)

def onlyIf (c : Prop) [Decidable c] (p : Process γ ρ Unit) : Process γ ρ Unit :=
  if c then p else pure ()

def ofExcept (x : Except String α) : Process γ ρ α := fun w => (x, w)

/-- An error is told with what was being done. -/
def context (text : String) (p : Process γ ρ α) : Process γ ρ α := fun w =>
  ((p.exec w).1.mapError (text ++ ·), (p.exec w).2)

/-- What follows in any case, without a word on its own errors. -/
def deferring (p : Process γ ρ α) (last : Process γ ρ Unit) : Process γ ρ α := fun w =>
  ((p.exec w).1, (last.exec (p.exec w).2).2)

variable {p : Process γ ρ α} {f : α → Process γ ρ β} {w : World γ ρ}

theorem exec_bind : exec (p >>= f) w = match exec p w with
    | (.ok a, w') => exec (f a) w'
    | (.error error, w') => (.error error, w') := by
  change (ExceptT.bindCont f (exec p w).1 : StateM _ _) (exec p w).2 = _
  split
  · rename_i heq
    rw [heq]
    rfl
  · rename_i heq
    rw [heq]
    rfl

section
variable {R : World γ ρ → World γ ρ → Prop}

/-- Whatever becomes of the process, the worlds before and after it are related. -/
def Keeps (R : World γ ρ → World γ ρ → Prop) (p : Process γ ρ α) : Prop := ∀ w, R w (exec p w).2

theorem Keeps.mono (h : ∀ {w w'}, R w w' → S w w') (hp : Keeps R p): Keeps S p := fun w => h (hp w)

theorem Keeps.pure (hrefl : ∀ w, R w w) (a : α) : Keeps R (pure a : Process γ ρ α) :=
  fun w => hrefl w

theorem Keeps.bind (htrans : ∀ {u v w}, R u v → R v w → R u w) (hp : Keeps R p)
    (hf : ∀ a, Keeps R (f a)) : Keeps R (p >>= f) := by
  intro w
  have hfirst := hp w
  rw [exec_bind]
  cases h : exec p w with
  | mk result w' =>
    rw [h] at hfirst
    cases result with
    | ok a => exact htrans hfirst (hf a w')
    | error error => exact hfirst

theorem Keeps.onlyIf (hrefl : ∀ w, R w w) {c : Prop} [Decidable c] {p : Process γ ρ Unit}
    (hp : c → Keeps R p) : Keeps R (onlyIf c p) := by
  rw [Process.onlyIf]
  split
  · exact hp ‹_›
  · exact Keeps.pure hrefl ()

theorem Keeps.attempt {p : Process γ ρ Unit} (hp : Keeps R p) : Keeps R (attempt p) := fun w => hp w

theorem Keeps.context (hp : Keeps R p) : Keeps R (context text p) := fun w => hp w

theorem Keeps.deferring (htrans : ∀ {u v w}, R u v → R v w → R u w)
    (hp : Keeps R p) (hlast : Keeps R last) : Keeps R (deferring p last) :=
  fun w => htrans (hp w) (hlast _)

theorem Keeps.call (hdone : ∀ w : World γ ρ, R w (done { w with calls := w.calls + 1 }))
    (hfailed : ∀ fault (w : World γ ρ), R w (failed fault { w with calls := w.calls + 1 })) :
    Keeps R (call path done failed) := by
  intro w
  simp only [exec, Process.call]
  split
  · exact hdone w
  · exact hfailed _ w

theorem Keeps.ofExcept (hrefl : ∀ w, R w w) (x : Except String α) :
    Keeps R (ofExcept x : Process γ ρ α) := fun w => hrefl w

theorem Keeps.load (hrefl : ∀ w, R w w) : Keeps R (load : Process γ ρ ρ) := fun w => hrefl w

theorem Keeps.look (hrefl : ∀ w, R w w) (path : List String) :
    Keeps R (look path : Process γ ρ (Option γ)) := fun w => hrefl w

end

structure Touches (region : List String → Prop) (w w' : World γ ρ) : Prop where
  files : ∀ path, ¬ region path → w'.files path = w.files path
  faults : w'.faults = w.faults

/-- No file outside a region changes, and nothing in memory. -/
structure Within (region : List String → Prop) (w w' : World γ ρ) : Prop extends
    Touches region w w' where
  memory : w'.memory = w.memory

section
variable {region region' : List String → Prop} {path : List String}

theorem Touches.refl (w : World γ ρ) : Touches region w w := ⟨fun _ _ => rfl, rfl⟩

theorem Touches.trans (h : Touches region u v) (h' : Touches region v w) : Touches region u w :=
  ⟨fun path hpath => (h'.files path hpath).trans (h.files path hpath), h'.faults.trans h.faults⟩

theorem Within.refl (w : World γ ρ) : Within region w w := ⟨.refl w, rfl⟩

theorem Within.trans (h : Within region u v) (h' : Within region v w) :
    Within region u w := ⟨h.toTouches.trans h'.toTouches, h'.memory.trans h.memory⟩

theorem Within.mono (h : Within region w w') (hregion : ∀ path, region path → region' path): Within region' w w' :=
  ⟨⟨fun path hpath => h.files path fun hp => hpath (hregion path hp), h.faults⟩, h.memory⟩

theorem Keeps.within (hp : Keeps (Within region) p) (hregion : ∀ path, region path → region' path) :
    Keeps (Within region') p := hp.mono fun h => h.mono hregion

theorem Keeps.touches (hp : Keeps (Within region) p) (hregion : ∀ path, region path → region' path) :
    Keeps (Touches region') p := hp.mono fun h => (h.mono hregion).toTouches

theorem Within.setFile (w : World γ ρ) (h : region path) :
    Within region w (setFile { w with calls := w.calls + 1 } path content) := by
  refine ⟨⟨fun other hother => ?_, rfl⟩, rfl⟩
  apply if_neg
  rintro rfl
  exact hother h

theorem Within.call (w : World γ ρ) : Within region w { w with calls := w.calls + 1 } :=
  ⟨⟨fun _ _ => rfl, rfl⟩, rfl⟩

theorem keeps_check : Keeps (Within region) (check path : Process γ ρ Unit) :=
  .call (fun w => .call w) fun _ w => .call w

theorem keeps_run : Keeps (Within region) (run : Process γ ρ Unit) := keeps_check

theorem keeps_replace (h : region path) :
    Keeps (Within region) (replace path content : Process γ ρ Unit) :=
  .call (fun w => .setFile w h) fun _ w => .call w

theorem keeps_overwrite (h : region path) :
    Keeps (Within region) (overwrite path content : Process γ ρ Unit) :=
  .call (fun w => .setFile w h) fun _ w => .setFile w h

theorem keeps_remove (h : region path) : Keeps (Within region) (remove path : Process γ ρ Unit) :=
  .call (fun w => .setFile w h) fun _ w => .call w

theorem keeps_removeAll (h : ∀ other, path <+: other → region other) :
    Keeps (Within region) (removeAll path : Process γ ρ Unit) := by
  apply Keeps.call
  · intro w
    refine ⟨⟨fun other hother => ?_, rfl⟩, rfl⟩
    apply if_neg
    exact fun hbelow => hother (h other hbelow)
  · intro fault w
    refine ⟨⟨fun other hother => ?_, rfl⟩, rfl⟩
    apply if_neg
    exact fun hbelow => hother (h other hbelow.1)

theorem keeps_mount (h : ∀ other, path <+: other → region other) :
    Keeps (Within region) (mount path tree : Process γ ρ Unit) := by
  apply Keeps.call
  · intro w
    refine ⟨⟨fun other hother => ?_, rfl⟩, rfl⟩
    apply if_neg
    exact fun hbelow => hother (h other hbelow)
  · exact fun _ w => .call w

theorem keeps_store (memory : ρ) : Keeps (Touches region) (store memory : Process γ ρ Unit) :=
  fun _ => ⟨fun _ _ => rfl, rfl⟩

end

def Faultless (w : World γ ρ) : Prop := ∀ n path, w.faults n path = none

def Sure (p : Process γ ρ α) : Prop := ∀ w, Faultless w → ∃ a, (exec p w).1 = .ok a

section
variable {path : List String}

theorem Sure.pure (a : α) : Sure (pure a : Process γ ρ α) := fun _ _ => ⟨a, rfl⟩

theorem Sure.bind (hp : Sure p) (hkeeps : Keeps (Within region) p) (hf : ∀ a, Sure (f a)): Sure (p >>= f) := by
  intro w hw
  obtain ⟨a, ha⟩ := hp w hw
  have hfaults := (hkeeps w).faults
  rw [exec_bind]
  cases h : exec p w with
  | mk result w' =>
    rw [h] at ha hfaults
    obtain rfl : result = .ok a := ha
    exact hf a w' fun n path => by rw [hfaults]; exact hw n path

theorem Sure.call : Sure (call path done failed) := by
  intro w hw
  refine ⟨(), ?_⟩
  simp only [exec, Process.call, hw w.calls path]

theorem Sure.onlyIf {c : Prop} [Decidable c] {p : Process γ ρ Unit} (hp : Sure p) :
    Sure (onlyIf c p) := by
  rw [Process.onlyIf]
  split
  · exact hp
  · exact .pure ()

theorem Sure.attempt (p : Process γ ρ Unit) : Sure (attempt p) := fun _ _ => ⟨(), rfl⟩

theorem Sure.context (hp : Sure p) : Sure (context text p) := by
  intro w hw
  obtain ⟨a, ha⟩ := hp w hw
  exact ⟨a, congrArg (Except.mapError (text ++ ·)) ha⟩

end

/-- What a file holds after a call has overwritten it. -/
def left (w : World γ ρ) (path : List String) (content : γ) : Option γ :=
  match w.faults w.calls path with
  | none => some content
  | some fault => fault.content

theorem files_overwrite : (exec (overwrite path content) w).2.files path = left w path content := by
  have hset (w : World γ ρ) (content : Option γ) : (setFile w path content).files path = content :=
    if_pos rfl
  simp only [exec, overwrite, call, left]
  cases w.faults w.calls path with
  | none => exact hset _ _
  | some fault => exact hset _ _

/-- From a world that meets `P` the process returns in one that meets `Q`, or stops with an error
in one that meets `E`. -/
def Meets (P : World γ ρ → Prop) (p : Process γ ρ α) (Q : α → World γ ρ → Prop)
    (E : World γ ρ → Prop) : Prop :=
  ∀ w, P w → match exec p w with
    | (.ok a, w') => Q a w'
    | (.error _, w') => E w'

section
variable {P : World γ ρ → Prop} {Q : α → World γ ρ → Prop} {S : β → World γ ρ → Prop}
  {E : World γ ρ → Prop}

theorem Meets.trivial : Meets P p (fun _ _ => True) (fun _ => True) := by
  intro w _
  cases exec p w with
  | mk result w' => cases result <;> exact True.intro

theorem meets_iff : Meets P p (fun _ => R) R ↔ ∀ w, P w → R (exec p w).2 := by
  refine forall_congr' fun w => imp_congr_right fun _ => ?_
  cases exec p w with
  | mk result w' => cases result <;> rfl

theorem Meets.pure (h : ∀ w, P w → Q a w) : Meets P (pure a : Process γ ρ α) Q E := h

theorem Meets.bind (hp : Meets P p Q E) (hf : ∀ a, Meets (Q a) (f a) S E) :
    Meets P (p >>= f) S E := by
  intro w hw
  have hfirst := hp w hw
  rw [exec_bind]
  cases h : exec p w with
  | mk result w' =>
    rw [h] at hfirst
    cases result with
    | ok a => exact hf a w' hfirst
    | error error => exact hfirst

theorem Meets.conseq (h : Meets P' p Q' E') (hP : ∀ w, P w → P' w) (hQ : ∀ a w, Q' a w → Q a w)
    (hE : ∀ w, E' w → E w) : Meets P p Q E := by
  intro w hw
  have hw' := h w (hP w hw)
  cases hexec : exec p w with
  | mk result w' =>
    rw [hexec] at hw'
    cases result with
    | ok a => exact hQ a w' hw'
    | error error => exact hE w' hw'

theorem Meets.ofExcept (h : ∀ a w, x = .ok a → P w → Q a w) (herror : ∀ w, P w → E w): Meets P (Process.ofExcept x) Q E := by
  intro w hw
  cases x with
  | ok a => exact h a w rfl hw
  | error error => exact herror w hw

theorem Meets.store {memory : ρ} {Q : Unit → World γ ρ → Prop}
    (h : ∀ w, P w → Q () { w with memory }) : Meets P (Process.store memory) Q E := h

theorem Meets.context (h : Meets P p Q E) : Meets P (context text p) Q E := by
  intro w hw
  have hw' := h w hw
  simp only [exec, Process.context]
  rw [exec] at hw'
  cases hexec : p w with
  | mk result w' =>
    rw [hexec] at hw'
    cases result <;> exact hw'

theorem Meets.of_keeps (hp : Keeps R p)
    (hstable : ∀ w w', R w w' → P w → P w') (herror : ∀ w, P w → E w) :
    Meets P p (fun _ => P) E := by
  intro w hw
  have hw' := hstable w _ (hp w) hw
  cases h : exec p w with
  | mk result w' =>
    rw [h] at hw'
    cases result with
    | ok a => exact hw'
    | error error => exact herror w' hw'

end

end Process

end Trakrai.Lib
