import Trakrai.Engine.Coverage
import Trakrai.Engine.Service

namespace Trakrai.Engine
open List Lib

/-- A reload has begun a generation and has not installed or unloaded its workflow yet. -/
def Watcher.isReloading : Watcher α → Bool
  | .discarding _ | .dropping _ _ | .notifying _ _ | .loading _ | .installing _ _ _ => true
  | .failing _ workflowHash => workflowHash.isSome
  | .idle | .digested _ => false

theorem forall_mem_append_singleton {p : β → Prop} {l : List β} {b : β} (hl : ∀ a ∈ l, p a) (hb : p b) :
    ∀ a ∈ l ++ [b], p a := by
  rw [forall_mem_append]
  exact ⟨hl, forall_mem_singleton.2 hb⟩

section
variable [PyObject α]

section
variable (config : ServiceConfig α)

def Loads (contents : List (List UInt8)) (generation : Nat)
    (engine : WorkflowEngine α) : Prop :=
  0 < generation ∧ ∃ bytes name, contents[generation - 1]? = some bytes ∧
    config.load bytes = .ok (engine, name)

def Reply.Matches (contents : List (List UInt8))
    (engine : Option (WorkflowEngine α)) (reply : Reply α) : Prop :=
  ∀ target requestId run, reply = .result target requestId run →
    ∃ e, engine = some e ∧ Loads config contents run.workflowGeneration e

def Watcher.About (contents : List (List UInt8)) : Watcher α → Prop
  | .discarding bytes | .dropping bytes _ | .notifying bytes _ | .loading bytes =>
    contents.getLast? = some bytes
  | .installing engine name _ => ∃ bytes, contents.getLast? = some bytes ∧
    config.load bytes = .ok (engine, name)
  | _ => True

/-- The engine that the worker has is the one for its job, or its job is too old. -/
def Worker.Matches (contents : List (List UInt8)) (generation : Nat) :
    Worker α → Prop
  | .taken job => job.generation ≤ generation
  | .picked job (some engine) | .executed job engine _ =>
    job.generation < generation ∨ Loads config contents job.generation engine
  | .counted job engine _ => Loads config contents job.generation engine
  | .serialized _ engine run => Loads config contents run.workflowGeneration engine
  | .replying _ engine reply => reply.Matches config contents engine
  | _ => True

end

structure Generations (config : ServiceConfig α) (s : Service α) : Prop where
  length : s.contents.length = s.workflowGeneration
  about : s.watcher.About config s.contents
  engine : s.watcher.isReloading = false → ∀ e, s.engine = some e →
    Loads config s.contents s.workflowGeneration e
  command : ∀ source requestId payload loaded generation,
    s.command = .checked source requestId payload loaded generation → generation ≤ s.workflowGeneration
  queue : ∀ job ∈ s.queue, job.generation ≤ s.workflowGeneration
  worker : s.worker.Matches config s.contents s.workflowGeneration
  published : ∀ entry ∈ s.published, entry.reply.Matches config s.contents entry.engine

/-- If the worker takes up the engine while a reload is under way, its job is not of the generation
that the reload has begun. -/
def Service.picksInTime (s : Service α) : Service.Action α → Bool
  | .worker =>
    match s.worker with
    | .taken job =>
      !(s.watcher.isReloading && s.engine.isSome && job.generation == s.workflowGeneration)
    | _ => true
  | _ => true

variable {config : ServiceConfig α} {s t : Service α} {a : Service.Action α}

section
variable {contents : List (List UInt8)}

theorem Loads.append {generation : Nat} {engine : WorkflowEngine α}
    (h : Loads config contents generation engine) (bytes : List UInt8) :
    Loads config (contents ++ [bytes]) generation engine := by
  obtain ⟨hpos, content, name, hget, hload⟩ := h
  refine ⟨hpos, content, name, ?_, hload⟩
  rw [List.getElem?_append_left (List.getElem?_eq_some_iff.1 hget).1]
  exact hget

theorem Reply.matches_error {engine : Option (WorkflowEngine α)}
    {target requestId error : String} :
    (Reply.error target requestId error).Matches config contents engine := nofun

theorem Reply.Matches.append {engine : Option (WorkflowEngine α)}
    {reply : Reply α} (h : reply.Matches config contents engine) (bytes : List UInt8) :
    reply.Matches config (contents ++ [bytes]) engine := by
  intro target requestId run hreply
  obtain ⟨e, he, hloads⟩ := h target requestId run hreply
  exact ⟨e, he, hloads.append bytes⟩

theorem loads_last {bytes : List UInt8} {engine : WorkflowEngine α}
    {name : String} (hlast : contents.getLast? = some bytes)
    (hload : config.load bytes = .ok (engine, name)) :
    Loads config contents contents.length engine := by
  refine ⟨?_, bytes, name, ?_, hload⟩
  · apply length_pos_of_ne_nil
    rintro rfl
    cases hlast
  · rw [← List.getLast?_eq_getElem?]
    exact hlast

theorem Worker.Matches.bump {generation : Nat} {worker : Worker α}
    (h : worker.Matches config contents generation) (bytes : List UInt8) :
    worker.Matches config (contents ++ [bytes]) (generation + 1) := by
  cases worker with
  | taken job => exact Nat.le_succ_of_le h
  | picked job engine =>
    cases engine with
    | none => trivial
    | some engine => exact h.imp Nat.lt_succ_of_lt fun h => h.append bytes
  | executed job engine outcome => exact h.imp Nat.lt_succ_of_lt fun h => h.append bytes
  | counted job engine result => exact h.append bytes
  | serialized job engine run => exact h.append bytes
  | replying job engine reply => exact h.append bytes
  | idle | unloaded => trivial

end

theorem Generations.step (h : Generations config s) (hpick : s.picksInTime a)
    (hstep : ServiceStep config s a t) : Generations config t := by
  have hold {watcher : Watcher α} (hw : s.watcher = watcher) (hnot : watcher.isReloading = false) :=
    h.engine (hw ▸ hnot)
  have habout {watcher : Watcher α} (hw : s.watcher = watcher) : watcher.About config s.contents :=
    hw ▸ h.about
  have hmatches {worker : Worker α} (hw : s.worker = worker) :
      worker.Matches config s.contents s.workflowGeneration := hw ▸ h.worker
  cases hstep with
  | receive | refuse => exact ⟨h.length, h.about, h.engine, nofun, h.queue, h.worker, h.published⟩
  | check hcommand =>
    refine ⟨h.length, h.about, h.engine, ?_, h.queue, h.worker, h.published⟩
    intro source requestId payload loaded generation heq
    cases heq
    exact Nat.le_refl _
  | put hcommand =>
    refine ⟨h.length, h.about, h.engine, nofun, ?_, h.worker, h.published⟩
    intro job hjob
    rcases mem_append.1 hjob with hjob | hjob
    · exact h.queue job hjob
    · rw [mem_singleton.1 hjob]
      exact h.command _ _ _ _ _ hcommand
  | answer =>
    exact ⟨h.length, h.about, h.engine, nofun, h.queue, h.worker,
      forall_mem_append_singleton h.published Reply.matches_error⟩
  | take hstarted hworker hqueue =>
    obtain ⟨hjob, hrest⟩ := forall_mem_cons.1 (hqueue ▸ h.queue)
    exact ⟨h.length, h.about, h.engine, h.command, hrest, hjob, h.published⟩
  | @pick job hworker =>
    refine ⟨h.length, h.about, h.engine, h.command, h.queue, ?_, h.published⟩
    have hle : job.generation ≤ s.workflowGeneration := hmatches hworker
    cases hengine : s.engine with
    | none => trivial
    | some engine =>
      cases hreloading : s.watcher.isReloading with
      | true =>
        simp only [Service.picksInTime, hworker, hreloading, hengine, Option.isSome_some, Bool.and_self,
          Bool.true_and, Bool.not_eq_true', beq_eq_false_iff_ne] at hpick
        exact .inl (Nat.lt_of_le_of_ne hle hpick)
      | false =>
        rcases Nat.lt_or_eq_of_le hle with hlt | heq
        · exact .inl hlt
        · right
          rw [heq]
          exact h.engine hreloading engine hengine
  | replyUnloaded =>
    exact ⟨h.length, h.about, h.engine, h.command, h.queue, trivial,
      forall_mem_append_singleton h.published Reply.matches_error⟩
  | countUnloaded => exact ⟨h.length, h.about, h.engine, h.command, h.queue, trivial, h.published⟩
  | execute hworker =>
    have hsame := hmatches hworker
    exact ⟨h.length, h.about, h.engine, h.command, h.queue, hsame, h.published⟩
  | countRaised | countStale =>
    exact ⟨h.length, h.about, h.engine, h.command, h.queue, Reply.matches_error, h.published⟩
  | countFresh hworker hfresh =>
    refine ⟨h.length, h.about, h.engine, h.command, h.queue, ?_, h.published⟩
    exact (hmatches hworker).resolve_left fun hlt => absurd hfresh (Nat.ne_of_lt hlt)
  | serialize hworker =>
    have hsame := hmatches hworker
    exact ⟨h.length, h.about, h.engine, h.command, h.queue, hsame, h.published⟩
  | record hworker =>
    refine ⟨h.length, h.about, h.engine, h.command, h.queue, ?_, h.published⟩
    intro target requestId run hreply
    cases hreply
    exact ⟨_, rfl, hmatches hworker⟩
  | workerReply hworker =>
    exact ⟨h.length, h.about, h.engine, h.command, h.queue, trivial,
      forall_mem_append_singleton h.published (hmatches hworker)⟩
  | pollError hwatcher | pollOk hwatcher | same hwatcher =>
    exact ⟨h.length, trivial, fun _ => hold hwatcher rfl, h.command, h.queue, h.worker, h.published⟩
  | @bump bytes hwatcher hnew =>
    refine ⟨?_, List.getLast?_concat, nofun, ?_, ?_, h.worker.bump bytes, ?_⟩
    · rw [length_append, h.length]
      rfl
    · intro source requestId payload loaded generation heq
      exact Nat.le_succ_of_le (h.command source requestId payload loaded generation heq)
    · intro job hjob
      exact Nat.le_succ_of_le (h.queue job hjob)
    · intro entry hentry
      exact (h.published entry hentry).append bytes
  | discarded hwatcher | countDropped hwatcher =>
    have hsame := habout hwatcher
    exact ⟨h.length, hsame, nofun, h.command, h.queue, h.worker, h.published⟩
  | drop hwatcher hqueue =>
    obtain ⟨-, hrest⟩ := forall_mem_cons.1 (hqueue ▸ h.queue)
    have hsame := habout hwatcher
    exact ⟨h.length, hsame, nofun, h.command, hrest, h.worker, h.published⟩
  | notify hwatcher =>
    have hsame := habout hwatcher
    exact ⟨h.length, hsame, nofun, h.command, h.queue, h.worker,
      forall_mem_append_singleton h.published Reply.matches_error⟩
  | loadError => exact ⟨h.length, trivial, nofun, h.command, h.queue, h.worker, h.published⟩
  | loadOk hwatcher hload =>
    exact ⟨h.length, ⟨_, habout hwatcher, hload⟩, nofun, h.command, h.queue, h.worker, h.published⟩
  | install hwatcher =>
    obtain ⟨bytes, hlast, hload⟩ := habout hwatcher
    refine ⟨h.length, trivial, ?_, h.command, h.queue, h.worker, h.published⟩
    intro _ e he
    cases he
    rw [← h.length]
    exact loads_last hlast hload
  | fail => exact ⟨h.length, trivial, nofun, h.command, h.queue, h.worker, h.published⟩

theorem Generations.start (config : ServiceConfig α) : Generations config {} :=
  ⟨rfl, trivial, nofun, nofun, nofun, trivial, nofun⟩

/-- As long as the worker takes up its engines in time, each result that is published under a
generation is one of the engine that the content for this generation loads to. -/
theorem published_result_matches {tr : List (Service α × Service.Action α)}
    (hr : (Service.system config).Run {} tr t)
    (hpicks : ∀ p ∈ tr, p.1.picksInTime p.2 = true) :
    ∀ u ∈ states tr t, ∀ entry ∈ u.published, ∀ target requestId run,
      entry.reply = .result target requestId run →
        ∃ e, entry.engine = some e ∧ Loads config u.contents run.workflowGeneration e := by
  have hinv : ∀ u ∈ states tr t, Generations config u := by
    refine hr.forall_states (.start config) ?_
    intro p hp hg u hstep
    exact hg.step (hpicks p hp) (Service.stepped hstep)
  intro u hu
  exact (hinv u hu).published

end

def asciiBytes (text : String) : List UInt8 := text.toList.map fun c => UInt8.ofNat c.toNat

def workflowFile (ids : List String) : List UInt8 :=
  asciiBytes ("\x7b\"nodes\": [" ++ ", ".intercalate (ids.map fun id =>
    "\x7b\"id\": \"" ++ id ++ "\", \"type\": \"count-persons\"\x7d") ++ "], \"edges\": []\x7d")

def countersWorkflow (ids : List String) : WorkflowDefinition PyValue where
  nodes := ids.map fun id => { id, type := "count-persons" }
  edges := []

def countersConfig : ServiceConfig PyValue where
  filePath := "workflow.json"
  maxPending := 256
  maxWorkers := 4
  resultHistorySize := 20
  registry := countingRegistry
  parse bytes :=
    if bytes = workflowFile ["n1"] then .ok (countersWorkflow ["n1"], "")
    else if bytes = workflowFile ["n1", "n2"] then .ok (countersWorkflow ["n1", "n2"], "")
    else .error "Expecting value: line 1 column 1 (char 0)"
  digest bytes :=
    if bytes = workflowFile ["n1"] then
      "93175c7d3b087eb3bb37a0ef0f14b6b1f1d4cabd6163a573bc5b0aa6fc3cd94a"
    else if bytes = workflowFile ["n1", "n2"] then
      "fb134cdafa4b09e22abaa090428f1ab46a31fc8ab2d46701b01b727637820ac0"
    else "e3b0c44298fc1c149afbf4c8996fb92427ae41e4649b934ca495991b7852b855"

def firstLoad (ids : List String) : List (Service.Action PyValue) :=
  .poll (.ok (workflowFile ids)) :: .replicate 4 .watcher

def counted : WorkflowExecutionResult PyValue where
  success := true
  nodeResults := []
  errors := []
  outputs := [("n1", .singleton "count" (.int 3))]

def workOne : List (Service.Action PyValue) :=
  [.worker, .worker, .execute (.returned counted), .worker, .worker, .worker, .worker]

def Published.isResult (entry : Published α) : Bool :=
  match entry.reply with
  | .result _ _ _ => true
  | .error _ _ _ => false

theorem published_result_matches_counters : ∃ tr s entry target requestId run,
    (Service.system countersConfig).Run {} tr s ∧ entry ∈ s.published ∧
      entry.reply = .result target requestId run ∧
      ∃ e, entry.engine = some e ∧ Loads countersConfig s.contents run.workflowGeneration e := by
  have hplay : (play (Service.move countersConfig) {} (firstLoad ["n1"] ++
      ([.receive "live-feed" "r1" (.ok .none), .command, .command] : List (Service.Action PyValue)) ++
        workOne)).any (fun r =>
        r.1.all (fun p => p.1.picksInTime p.2) && r.2.published.any (·.isResult)) = true := by
    decide +kernel
  obtain ⟨⟨tr, s⟩, hs, hcheck⟩ := (Option.any_eq_true _ _).1 hplay
  obtain ⟨hpicks, hpublished⟩ := Bool.and_eq_true_iff.1 hcheck
  obtain ⟨entry, hentry, hresult⟩ := any_eq_true.1 hpublished
  have hrun : (Service.system countersConfig).Run {} tr s := System.run_play hs fun _ _ => trivial
  cases hreply : entry.reply with
  | error target requestId error => rw [Published.isResult, hreply] at hresult; cases hresult
  | result target requestId run =>
    exact ⟨tr, s, entry, target, requestId, run, hrun, hentry, hreply,
      published_result_matches hrun (all_eq_true.1 hpicks) s (end_mem_states tr s) entry hentry
        target requestId run hreply⟩

def Published.isMismatch (config : ServiceConfig PyValue) (contents : List (List UInt8))
    (entry : Published PyValue) : Bool :=
  match entry.reply, entry.engine with
  | .result _ _ run, some engine =>
    (contents[run.workflowGeneration - 1]?).any fun bytes =>
      match config.load bytes with
      | .ok (loaded, _) => loaded.workflow.nodes.length != engine.workflow.nodes.length
      | .error _ => false
  | _, _ => false

theorem Published.isMismatch_spec {config : ServiceConfig PyValue} {contents : List (List UInt8)}
    {entry : Published PyValue} (h : entry.isMismatch config contents = true) :
    ∃ target requestId run, entry.reply = .result target requestId run ∧
      ¬ ∃ e, entry.engine = some e ∧ Loads config contents run.workflowGeneration e := by
  rw [Published.isMismatch] at h
  split at h
  · rename_i target requestId run engine hreply hengine
    refine ⟨target, requestId, run, hreply, ?_⟩
    rintro ⟨e, he, hpos, bytes, name, hget, hload⟩
    rw [hengine, Option.some.injEq] at he
    subst he
    simp [hget, hload] at h
  · cases h

/-- The file changes. A request that comes in after the reload has begun the second generation, and
before it installs the new workflow, is executed by the old one; the result is published as one of
the second generation. -/
theorem old_engine_publishes_new_generation : ∃ tr s entry target requestId run,
    (Service.system countersConfig).Run {} tr s ∧ entry ∈ s.published ∧
      entry.reply = .result target requestId run ∧
      ¬ ∃ e, entry.engine = some e ∧ Loads countersConfig s.contents run.workflowGeneration e := by
  have hplay : (play (Service.move countersConfig) {} (firstLoad ["n1"] ++
      ([.poll (.ok (workflowFile ["n1", "n2"])), .watcher, .receive "live-feed" "r1" (.ok .none),
        .command, .watcher, .command] : List (Service.Action PyValue)) ++ workOne)).any (fun r =>
        r.2.published.any (·.isMismatch countersConfig r.2.contents)) = true := by
    decide +kernel
  obtain ⟨⟨tr, s⟩, hs, hcheck⟩ := (Option.any_eq_true _ _).1 hplay
  obtain ⟨entry, hentry, hmismatch⟩ := any_eq_true.1 hcheck
  obtain ⟨target, requestId, run, hreply, hnot⟩ := Published.isMismatch_spec hmismatch
  exact ⟨tr, s, entry, target, requestId, run, System.run_play hs fun _ _ => trivial, hentry, hreply,
    hnot⟩

end Trakrai.Engine
