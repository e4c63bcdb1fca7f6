import Mathlib.Data.List.Induction
import Trakrai.Engine.Generations

namespace Trakrai.Engine
open List Lib

/-- What a service knows about its workflow. -/
structure Loaded (α : Type) where
  engine : Option (WorkflowEngine α) := none
  workflowHash : String := ""
  workflowName : String := ""
  workflowLoaded : Bool := false
  workflowError : String := ""

def Service.loaded (s : Service α) : Loaded α where
  engine := s.engine
  workflowHash := s.workflowHash
  workflowName := s.workflowName
  workflowLoaded := s.workflowLoaded
  workflowError := s.workflowError

def Loaded.install (engine : WorkflowEngine α) (name digest : String) : Loaded α where
  engine := some engine
  workflowHash := digest
  workflowName := name
  workflowLoaded := true

def Loaded.fail (loaded : Loaded α) (error : String) (workflowHash : Option String) : Loaded α where
  workflowHash := workflowHash.getD loaded.workflowHash
  workflowError := error

section
variable [PyObject α] (config : ServiceConfig α)

/-- What the load of a new content gives. -/
def Loaded.load (loaded : Loaded α) (bytes : List UInt8) : Loaded α :=
  match config.load bytes with
  | .error error => loaded.fail ("failed to load workflow file " ++ config.filePath ++ ": " ++ error)
      (some (config.digest bytes))
  | .ok (engine, name) => .install engine name (config.digest bytes)

/-- What a whole `_reload_workflow` gives. -/
def Loaded.reload (force : Bool) (loaded : Loaded α) : Poll → Loaded α
  | .error error =>
    loaded.fail ("failed to read workflow file " ++ config.filePath ++ ": " ++ error) none
  | .ok bytes =>
    if !force && config.digest bytes = loaded.workflowHash then loaded else loaded.load config bytes

/-- What a row of polls gives, the first of which is forced. -/
def Loaded.after : List Poll → Loaded α
  | [] => {}
  | first :: rest => rest.foldl (Loaded.reload config false) (Loaded.reload config true {} first)

def Watcher.finish (force : Bool) (loaded : Loaded α) : Watcher α → Loaded α
  | .idle => loaded
  | .digested bytes => loaded.reload config force (.ok bytes)
  | .discarding bytes | .dropping bytes _ | .notifying bytes _ | .loading bytes =>
    loaded.load config bytes
  | .installing engine name digest => .install engine name digest
  | .failing error workflowHash => loaded.fail error workflowHash

def lastDigest (polls : List Poll) : String :=
  ((polls.filterMap (·.toOption)).getLast?.map config.digest).getD ""

/-- The workflow in `bytes` was read by a poll that loaded it, the first one or one after another
content, and since then every poll could read the file and found the same digest. -/
def ReadableSince (polls : List Poll) (bytes : List UInt8) : Prop :=
  ∃ earlier first later, polls = earlier ++ .ok first :: later ∧
    (earlier = [] ∨ config.digest first ≠ lastDigest config earlier) ∧
    (∀ poll ∈ later, ∃ content, poll = .ok content ∧ config.digest content = config.digest first) ∧
    config.load first = config.load bytes

end

section
variable [PyObject α] {config : ServiceConfig α} {s t : Service α} {a : Service.Action α}

omit [PyObject α] in
theorem lastDigest_error (polls : List Poll) (error : String) :
    lastDigest config (polls ++ [.error error]) = lastDigest config polls := by
  simp [lastDigest, Except.toOption]

omit [PyObject α] in
theorem lastDigest_ok (polls : List Poll) (bytes : List UInt8) :
    lastDigest config (polls ++ [.ok bytes]) = config.digest bytes := by
  simp [lastDigest, Except.toOption]

theorem after_concat (polls : List Poll) (poll : Poll) : Loaded.after config (polls ++ [poll]) =
      (Loaded.after config polls).reload config polls.isEmpty poll := by
  cases polls with
  | nil => rfl
  | cons first rest => simp [Loaded.after, foldl_append]

theorem load_hash (loaded : Loaded α) (bytes : List UInt8) :
    (loaded.load config bytes).workflowHash = config.digest bytes := by
  rw [Loaded.load]
  split <;> rfl

theorem after_hash (polls : List Poll) :
    (Loaded.after config polls).workflowHash = lastDigest config polls := by
  induction polls using List.reverseRecOn with
  | nil => rfl
  | append_singleton polls poll ih =>
    rw [after_concat]
    cases poll with
    | error error =>
      rw [lastDigest_error]
      exact ih
    | ok bytes =>
      rw [lastDigest_ok, Loaded.reload]
      split
      · rename_i hsame
        exact (of_decide_eq_true (Bool.and_eq_true_iff.1 hsame).2).symm
      · exact load_hash _ _

/-- What the service knows, with the reload that is under way brought to its end, is what the polls
give. -/
structure Tracks (config : ServiceConfig α) (s : Service α) : Prop where
  after : s.watcher.finish config (!s.started) s.loaded = Loaded.after config s.polls
  polls : s.polls = [] ↔ s.started = false ∧ s.watcher = .idle

theorem Tracks.step (h : Tracks config s) (hstep : ServiceStep config s a t) : Tracks config t := by
  have hafter {watcher : Watcher α} (hw : s.watcher = watcher) :
      watcher.finish config (!s.started) s.loaded = Loaded.after config s.polls := hw ▸ h.after
  have hne {watcher : Watcher α} (hw : s.watcher = watcher) (hidle : watcher ≠ .idle) : s.polls ≠ [] :=
    fun hnil => hidle (hw ▸ (h.polls.1 hnil).2)
  have hbusy {watcher watcher' : Watcher α} (hw : s.watcher = watcher) (hidle : watcher ≠ .idle)
      (hidle' : watcher' ≠ .idle) : s.polls = [] ↔ s.started = false ∧ watcher' = .idle :=
    iff_of_false (hne hw hidle) fun hboth => hidle' hboth.2
  have hover {watcher : Watcher α} (hw : s.watcher = watcher) (hidle : watcher ≠ .idle) :
      s.polls = [] ↔ true = false ∧ (.idle : Watcher α) = .idle :=
    iff_of_false (hne hw hidle) fun hboth => Bool.noConfusion hboth.1
  cases hstep with
  | pollError hwatcher =>
    refine ⟨?_, iff_of_false (append_ne_nil_of_right_ne_nil _ (cons_ne_nil _ _)) nofun⟩
    rw [after_concat, ← hafter hwatcher]
    rfl
  | pollOk hwatcher =>
    refine ⟨?_, iff_of_false (append_ne_nil_of_right_ne_nil _ (cons_ne_nil _ _)) nofun⟩
    have hforce : (!s.started) = s.polls.isEmpty := by
      rw [Bool.eq_iff_iff, List.isEmpty_iff, h.polls, Bool.not_eq_true']
      simp [hwatcher]
    rw [after_concat, ← hafter hwatcher, ← hforce]
    rfl
  | @same bytes hwatcher hstarted hsame =>
    refine ⟨?_, hstarted ▸ hover hwatcher nofun⟩
    have hskip : s.loaded.reload config (!s.started) (.ok bytes) = s.loaded := by
      rw [Loaded.reload, if_pos]
      rw [hstarted, Bool.and_eq_true, decide_eq_true_iff]
      exact ⟨rfl, hsame⟩
    exact hskip.symm.trans (hafter hwatcher)
  | @bump bytes hwatcher hnew =>
    refine ⟨?_, hbusy hwatcher nofun nofun⟩
    have hload : s.loaded.reload config (!s.started) (.ok bytes) = s.loaded.load config bytes := by
      rw [Loaded.reload, if_neg]
      rw [Bool.and_eq_true, Bool.not_not, decide_eq_true_iff, not_and_or, Bool.not_eq_true]
      exact hnew
    exact hload.symm.trans (hafter hwatcher)
  | discarded hwatcher | drop hwatcher | countDropped hwatcher | notify hwatcher =>
    have hsaw := hafter hwatcher
    exact ⟨hsaw, hbusy hwatcher nofun nofun⟩
  | loadError hwatcher hload | loadOk hwatcher hload =>
    have hsaw := hafter hwatcher
    refine ⟨?_, hbusy hwatcher nofun nofun⟩
    rw [← hsaw, Watcher.finish, Loaded.load, hload]
    rfl
  | install hwatcher | fail hwatcher =>
    have hsaw := hafter hwatcher
    exact ⟨hsaw, hover hwatcher nofun⟩
  | _ => exact ⟨h.after, h.polls⟩

theorem tracks (h : (Service.system config).Reachable s) : Tracks config s := by
  apply h.invariant
  · intro s hs
    rw [show s = {} from hs]
    exact ⟨rfl, by simp⟩
  · intro s a t h hstep
    exact h.step (Service.stepped hstep)

/-- A workflow is loaded by a poll that found a new digest, and only as long as all polls after it
could read the file. -/
theorem after_loaded (h : (Loaded.after config polls).engine = some engine):
    ∃ earlier first later, polls = earlier ++ .ok first :: later ∧
      (earlier = [] ∨ config.digest first ≠ lastDigest config earlier) ∧
      (∀ poll ∈ later, ∃ content, poll = .ok content ∧ config.digest content = config.digest first) ∧
      config.load first = .ok (engine, (Loaded.after config polls).workflowName) ∧
      lastDigest config polls = config.digest first := by
  induction polls using List.reverseRecOn with
  | nil => cases h
  | append_singleton polls poll ih =>
    rw [after_concat] at h ⊢
    cases poll with
    | error error => cases h
    | ok bytes =>
      rw [Loaded.reload] at h ⊢
      rw [lastDigest_ok]
      split at h
      · rename_i hsame
        obtain ⟨earlier, first, later, rfl, hnew, hlater, hload, hdigest⟩ := ih h
        have hbytes : config.digest bytes = config.digest first := by
          rw [← hdigest, ← after_hash]
          exact of_decide_eq_true (Bool.and_eq_true_iff.1 hsame).2
        refine ⟨earlier, first, later ++ [.ok bytes], by simp, hnew, ?_, ?_, hbytes⟩
        · exact forall_mem_append_singleton hlater ⟨bytes, rfl, hbytes⟩
        · rw [if_pos hsame]
          exact hload
      · rename_i hnew
        rw [if_neg hnew]
        rw [Bool.and_eq_true, Bool.not_eq_true', decide_eq_true_iff, not_and_or,
          Bool.not_eq_false, List.isEmpty_iff, after_hash] at hnew
        refine ⟨polls, bytes, [], rfl, hnew, nofun, ?_, rfl⟩
        rw [Loaded.load] at h ⊢
        split at h
        · cases h
        · rename_i loaded name hload
          cases h
          exact hload

theorem after_readable (hnew : earlier = [] ∨ config.digest first ≠ lastDigest config earlier)
    (hlater : ∀ poll ∈ later, ∃ content, poll = .ok content ∧
      config.digest content = config.digest first) :
    Loaded.after config (earlier ++ .ok first :: later) =
      (Loaded.after config earlier).load config first := by
  induction later using List.reverseRecOn with
  | nil =>
    rw [after_concat, Loaded.reload, if_neg]
    rw [Bool.and_eq_true, Bool.not_eq_true', decide_eq_true_iff, not_and_or, Bool.not_eq_false,
      List.isEmpty_iff, after_hash]
    exact hnew
  | append_singleton later poll ih =>
    obtain ⟨hbefore, hpoll⟩ := forall_mem_append.1 hlater
    obtain ⟨content, rfl, hdigest⟩ := hpoll poll (mem_singleton_self poll)
    have hloaded := ih hbefore
    rw [← cons_append, ← append_assoc, after_concat, hloaded, Loaded.reload, if_pos]
    rw [Bool.and_eq_true, decide_eq_true_iff, load_hash]
    exact ⟨by simp, hdigest⟩

/-- When the last poll has read a valid workflow file, the service is loaded with it exactly if no
poll failed to read the file since the one that loaded it. -/
theorem loaded_iff_readableSince (h : (Service.system config).Reachable s)
    (hidle : s.watcher = .idle) {earlier : List Poll} {bytes : List UInt8}
    (hpolls : s.polls = earlier ++ [.ok bytes]) {engine : WorkflowEngine α} {name : String}
    (hload : config.load bytes = .ok (engine, name)) :
    s.loaded = .install engine name (config.digest bytes) ↔ ReadableSince config s.polls bytes := by
  have hafter := (tracks h).after
  rw [hidle] at hafter
  change s.loaded = Loaded.after config s.polls at hafter
  rw [hafter]
  constructor
  · intro hinstalled
    obtain ⟨before, first, later, heq, hnew, hlater, hfirst, -⟩ :=
      after_loaded (congrArg Loaded.engine hinstalled)
    refine ⟨before, first, later, heq, hnew, hlater, ?_⟩
    rw [hfirst, hload, hinstalled]
    rfl
  · rintro ⟨before, first, later, heq, hnew, hlater, hfirst⟩
    have hloaded := after_readable hnew hlater
    have hdigest : config.digest bytes = config.digest first := by
      rw [← load_hash (Loaded.after config before) first, ← hloaded, after_hash, ← heq, hpolls,
        lastDigest_ok]
    rw [heq, hloaded, Loaded.load, hfirst, hload, hdigest]

end

def Watcher.isIdle : Watcher α → Bool
  | .idle => true
  | _ => false

theorem Watcher.isIdle_iff {watcher : Watcher α} : watcher.isIdle = true ↔ watcher = .idle := by
  cases watcher <;> simp [Watcher.isIdle]

theorem loaded_iff_readableSince_counters : ∃ s engine,
    (Service.system countersConfig).Reachable s ∧
      countersConfig.load (workflowFile ["n1"]) = .ok (engine, "") ∧
      s.polls = [.ok (workflowFile ["n1"]), .ok (workflowFile ["n1"])] ∧
      s.loaded = .install engine "" (countersConfig.digest (workflowFile ["n1"])) := by
  have hplay : (play (Service.move countersConfig) {} (firstLoad ["n1"] ++
      ([.poll (.ok (workflowFile ["n1"])), .watcher] : List (Service.Action PyValue)))).any
        (fun r => r.2.watcher.isIdle && r.2.polls = [.ok (workflowFile ["n1"]), .ok (workflowFile ["n1"])]) = true := by
    decide +kernel
  obtain ⟨⟨tr, s⟩, hs, hcheck⟩ := (Option.any_eq_true _ _).1 hplay
  obtain ⟨hidle, hpolls⟩ := Bool.and_eq_true_iff.1 hcheck
  have hreach : (Service.system countersConfig).Reachable s :=
    ⟨{}, tr, rfl, System.run_play hs fun _ _ => trivial⟩
  obtain ⟨engine, hload⟩ : ∃ engine,
      countersConfig.load (workflowFile ["n1"]) = .ok (engine, "") := ⟨_, rfl⟩
  have hpolls : s.polls = [.ok (workflowFile ["n1"])] ++ [.ok (workflowFile ["n1"])] :=
    of_decide_eq_true hpolls
  refine ⟨s, engine, hreach, hload, hpolls, ?_⟩
  apply (loaded_iff_readableSince hreach (Watcher.isIdle_iff.1 hidle) hpolls hload).2
  exact ⟨[], _, [.ok (workflowFile ["n1"])], hpolls, .inl rfl, by simp, rfl⟩

/-- The file cannot be read once; when it can be read again, with the same content, the service
stays without a workflow. -/
theorem unloaded_after_read_error : ∃ s engine,
    (Service.system countersConfig).Reachable s ∧ s.watcher = .idle ∧
      s.polls.getLast? = some (.ok (workflowFile ["n1"])) ∧
      countersConfig.load (workflowFile ["n1"]) = .ok (engine, "") ∧ s.engine = none ∧
      s.workflowLoaded = false := by
  have hplay : (play (Service.move countersConfig) {} (firstLoad ["n1"] ++
      ([.poll (.error "[Errno 2] No such file or directory: 'workflow.json'"), .watcher,
        .poll (.ok (workflowFile ["n1"])), .watcher] : List (Service.Action PyValue)))).any
        (fun r => r.2.watcher.isIdle && (r.2.polls.getLast? = some (.ok (workflowFile ["n1"])) &&
            (r.2.engine.isNone && !r.2.workflowLoaded))) = true := by
    decide +kernel
  obtain ⟨⟨tr, s⟩, hs, hcheck⟩ := (Option.any_eq_true _ _).1 hplay
  simp only [Bool.and_eq_true, decide_eq_true_iff, Option.isNone_iff_eq_none, Bool.not_eq_true'] at hcheck
  obtain ⟨hidle, hpolls, hengine, hloaded⟩ := hcheck
  exact ⟨s, _, ⟨{}, tr, rfl, System.run_play hs fun _ _ => trivial⟩, Watcher.isIdle_iff.1 hidle, hpolls,
    rfl, hengine, hloaded⟩

end Trakrai.Engine
