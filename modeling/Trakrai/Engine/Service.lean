import Trakrai.Engine.Execution

namespace Trakrai.Engine
open Bool Lib

/-- A look at the workflow file: its bytes, or the error of the read. -/
abbrev Poll := Except String (List UInt8)

/-- The configuration of `WorkflowService`, with the parts of it that lie outside: the registered
nodes, the reading of JSON, and SHA-256. -/
structure ServiceConfig (α : Type) where
  filePath : String
  /-- `queue.max_pending`; a queue with a bound of zero or less takes everything. -/
  maxPending : Int
  maxWorkers : Int
  resultHistorySize : Nat
  registry : NodeRegistry α
  /-- The workflow and the name in a workflow file. -/
  parse : List UInt8 → Except String (WorkflowDefinition α × String)
  /-- `sha256(raw_bytes).hexdigest()`. -/
  digest : List UInt8 → String

def ServiceConfig.load [PyObject α] (config : ServiceConfig α) (bytes : List UInt8) :
    Except String (WorkflowEngine α × String) := do
  let (workflow, name) ← config.parse bytes
  let engine ← loadWorkflow config.registry config.maxWorkers workflow
  .ok (engine, name)

structure QueuedDetection (α : Type) where
  payload : α
  requestId : String
  sourceService : String
  generation : Nat
  /-- How many requests were put into the queue before. -/
  ticket : Nat

/-- `result_payload["run"]`. -/
structure Run (α : Type) where
  result : WorkflowExecutionResult α
  workflowGeneration : Nat
  workflowHash : String

inductive Reply (α : Type) where
  | error (target requestId error : String)
  | result (target requestId : String) (run : Run α)

/-- A reply that is out, with the request of the queue that it is for and, if it is a result, the
engine that computed it. -/
structure Published (α : Type) where
  reply : Reply α
  ticket : Option Nat := none
  engine : Option (WorkflowEngine α) := none

/-- What became of `engine.execute`. -/
inductive Executed (α : Type) where
  | raised (error : String)
  | returned (result : WorkflowExecutionResult α)

inductive Command (α : Type) where
  | idle
  /-- With a request that is normalized. -/
  | received (sourceService requestId : String) (payload : α)
  | checked (sourceService requestId : String) (payload : α) (loaded : Bool) (generation : Nat)
  /-- About to publish an error. -/
  | refusing (sourceService requestId error : String)

/-- Where `_worker_loop` stands. -/
inductive Worker (α : Type) where
  | idle
  | taken (job : QueuedDetection α)
  | picked (job : QueuedDetection α) (engine : Option (WorkflowEngine α))
  /-- The reply is out that no workflow is loaded. -/
  | unloaded (job : QueuedDetection α)
  | executed (job : QueuedDetection α) (engine : WorkflowEngine α) (outcome : Executed α)
  | counted (job : QueuedDetection α) (engine : WorkflowEngine α) (result : WorkflowExecutionResult α)
  | serialized (job : QueuedDetection α) (engine : WorkflowEngine α) (run : Run α)
  | replying (job : QueuedDetection α) (engine : Option (WorkflowEngine α)) (reply : Reply α)

/-- Where `_reload_workflow` stands. -/
inductive Watcher (α : Type) where
  | idle
  | digested (bytes : List UInt8)
  | discarding (bytes : List UInt8)
  | dropping (bytes : List UInt8) (job : QueuedDetection α)
  | notifying (bytes : List UInt8) (job : QueuedDetection α)
  | loading (bytes : List UInt8)
  | installing (engine : WorkflowEngine α) (name digest : String)
  /-- At `_set_workflow_error`. -/
  | failing (error : String) (workflowHash : Option String)

/-- `WorkflowService` and its threads. -/
structure Service (α : Type) where
  queue : List (QueuedDetection α) := []
  results : List (Run α) := []
  engine : Option (WorkflowEngine α) := none
  workflowGeneration : Nat := 0
  workflowHash : String := ""
  workflowName : String := ""
  workflowLoaded : Bool := false
  workflowError : String := ""
  activeRequestId : String := ""
  activeGeneration : Nat := 0
  processedRuns : Nat := 0
  failedRuns : Nat := 0
  droppedRuns : Nat := 0
  reloadCount : Nat := 0
  /-- The first load of the workflow is over, and the threads run. -/
  started : Bool := false
  command : Command α := .idle
  worker : Worker α := .idle
  watcher : Watcher α := .idle
  /-- The senders and the ids of the requests that were put into the queue. -/
  accepted : List (String × String) := []
  published : List (Published α) := []
  polls : List Poll := []
  /-- The contents of the workflow file that the generations are for, the first one first. -/
  contents : List (List UInt8) := []

namespace Service

inductive Action (α : Type) where
  /-- A command comes in, with what normalizing it gives. -/
  | receive (sourceService requestId : String) (normalized : Except String α)
  | command
  | worker
  /-- `engine.execute` comes to its end. -/
  | execute (outcome : Executed α)
  /-- The file is read. -/
  | poll (file : Poll)
  | watcher

def discardedError : String :=
  "workflow changed while this run was executing; result was discarded"

def publish (s : Service α) (entry : Published α) : Service α :=
  { s with published := s.published ++ [entry] }

def reply (s : Service α) (job : QueuedDetection α) (engine : Option (WorkflowEngine α))
    (reply : Reply α) : Service α :=
  s.publish { reply, ticket := some job.ticket, engine }

/-- `put_nowait` raises `queue.Full`. -/
def isFull (config : ServiceConfig α) (s : Service α) : Bool :=
  0 < config.maxPending ∧ config.maxPending ≤ s.queue.length

/-- A step of `_handle_enqueue_detection`. -/
def commandStep (config : ServiceConfig α) (s : Service α) : Option (Service α) :=
  match s.command with
  | .idle => none
  | .received sourceService requestId payload =>
    some { s with
      command := .checked sourceService requestId payload (s.workflowLoaded && s.engine.isSome)
        s.workflowGeneration }
  | .checked sourceService requestId payload loaded generation =>
    if !loaded then
      some { s with
        command := .refusing sourceService requestId
          (if s.workflowError = "" then "workflow is not currently loaded" else s.workflowError) }
    else if s.isFull config then
      some { s with command := .refusing sourceService requestId "workflow queue is full" }
    else
      some { s with
        queue := s.queue ++
          [{ payload, requestId, sourceService, generation, ticket := s.accepted.length }]
        accepted := s.accepted ++ [(sourceService, requestId)]
        command := .idle }
  | .refusing sourceService requestId error =>
    some { s.publish { reply := .error sourceService requestId error } with command := .idle }

/-- A step of `_worker_loop`, up to the end of `engine.execute`. -/
def workerStep (config : ServiceConfig α) (s : Service α) : Option (Service α) :=
  match s.worker with
  | .idle =>
    match s.queue with
    | [] => none
    | job :: queue => some { s with queue, worker := .taken job }
  | .taken job =>
    some { s with
      worker := .picked job s.engine
      activeRequestId := job.requestId
      activeGeneration := job.generation }
  | .picked job none =>
    some { s.reply job none (.error job.sourceService job.requestId "workflow is not currently loaded") with
      worker := .unloaded job }
  | .picked _ (some _) => none
  | .unloaded _ => some { s with failedRuns := s.failedRuns + 1, activeRequestId := "", worker := .idle }
  | .executed job _ (.raised error) =>
    some { s with
      failedRuns := s.failedRuns + 1
      activeRequestId := ""
      worker := .replying job none (.error job.sourceService job.requestId
        (if job.generation ≠ s.workflowGeneration then discardedError else error)) }
  | .executed job engine (.returned result) =>
    if job.generation ≠ s.workflowGeneration then
      some { s with
        droppedRuns := s.droppedRuns + 1
        activeRequestId := ""
        worker := .replying job none (.error job.sourceService job.requestId discardedError) }
    else
      some { s with
        processedRuns := if result.success then s.processedRuns + 1 else s.processedRuns
        failedRuns := if result.success then s.failedRuns else s.failedRuns + 1
        activeRequestId := ""
        worker := .counted job engine result }
  | .counted job engine result =>
    some { s with
      worker := .serialized job engine
        { result, workflowGeneration := job.generation, workflowHash := s.workflowHash } }
  | .serialized job engine run =>
    some { s with
      results := (run :: s.results).take config.resultHistorySize
      worker := .replying job (some engine) (.result job.sourceService job.requestId run) }
  | .replying job engine reply =>
    some { s.reply job engine reply with worker := .idle }

/-- A step of `_reload_workflow`, from the read of the file on. -/
def watcherStep [PyObject α] (config : ServiceConfig α) (s : Service α) : Option (Service α) :=
  match s.watcher with
  | .idle => none
  | .digested bytes =>
    if s.started && config.digest bytes = s.workflowHash then some { s with watcher := .idle }
    else
      some { s with
        workflowGeneration := s.workflowGeneration + 1
        contents := s.contents ++ [bytes]
        watcher := .discarding bytes }
  | .discarding bytes =>
    match s.queue with
    | [] => some { s with watcher := .loading bytes }
    | job :: queue => some { s with queue, watcher := .dropping bytes job }
  | .dropping bytes job =>
    some { s with droppedRuns := s.droppedRuns + 1, watcher := .notifying bytes job }
  | .notifying bytes job =>
    some { s.reply job none (.error job.sourceService job.requestId
        "queued run was discarded because workflow reloaded") with
      watcher := .discarding bytes }
  | .loading bytes =>
    match config.load bytes with
    | .error error =>
      some { s with
        watcher := .failing ("failed to load workflow file " ++ config.filePath ++ ": " ++ error)
          (some (config.digest bytes)) }
    | .ok (engine, name) => some { s with watcher := .installing engine name (config.digest bytes) }
  | .installing engine name digest =>
    some { s with
      engine := some engine
      workflowHash := digest
      workflowName := name
      workflowLoaded := true
      workflowError := ""
      reloadCount := s.reloadCount + 1
      started := true
      watcher := .idle }
  | .failing error workflowHash =>
    some { s with
      engine := none
      workflowLoaded := false
      workflowError := error
      workflowName := ""
      workflowHash := workflowHash.getD s.workflowHash
      started := true
      watcher := .idle }

/-- The worker and the commands wait for the first load of the workflow, which is forced. -/
def move [PyObject α] (config : ServiceConfig α) (s : Service α) : Action α → Option (Service α)
  | .receive sourceService requestId normalized =>
    match s.started, s.command with
    | true, .idle =>
      match normalized with
      | .error error => some { s with command := .refusing sourceService requestId error }
      | .ok payload => some { s with command := .received sourceService requestId payload }
    | _, _ => none
  | .command => s.commandStep config
  | .worker => if s.started then s.workerStep config else none
  | .execute outcome =>
    match s.worker with
    | .picked job (some engine) => some { s with worker := .executed job engine outcome }
    | _ => none
  | .poll file =>
    match s.watcher with
    | .idle =>
      some { s with
        polls := s.polls ++ [file]
        watcher := match file with
          | .error error =>
            .failing ("failed to read workflow file " ++ config.filePath ++ ": " ++ error) none
          | .ok bytes => .digested bytes }
    | _ => none
  | .watcher => s.watcherStep config

/-- The service under any order of the steps of its threads. -/
def system [PyObject α] (config : ServiceConfig α) : System (Service α) (Action α) :=
  .ofMoves (· = {}) (fun _ _ => True) (move config)

end Service

inductive ServiceStep [PyObject α] (config : ServiceConfig α) (s : Service α) :
    Service.Action α → Service α → Prop where
  | receive (h : s.command = .idle) : ServiceStep config s a { s with command := .received source requestId payload }
  | check (h : s.command = .received source requestId payload) :
    ServiceStep config s .command { s with
      command := .checked source requestId payload (s.workflowLoaded && s.engine.isSome) s.workflowGeneration }
  | refuse : ServiceStep config s a { s with command := .refusing source requestId error }
  | put (h : s.command = .checked source requestId payload true generation) :
    ServiceStep config s .command { s with
      queue := s.queue ++ [⟨payload, requestId, source, generation, s.accepted.length⟩]
      accepted := s.accepted ++ [(source, requestId)]
      command := .idle }
  | answer : ServiceStep config s .command { s.publish { reply := .error source requestId error } with command := .idle }
  | take (hstarted : s.started = true) (h : s.worker = .idle) (hqueue : s.queue = job :: queue) :
    ServiceStep config s .worker { s with queue, worker := .taken job }
  | pick (h : s.worker = .taken job) : ServiceStep config s .worker { s with
      worker := .picked job s.engine
      activeRequestId := job.requestId
      activeGeneration := job.generation }
  | replyUnloaded (h : s.worker = .picked job none) :
    ServiceStep config s .worker { s.reply job none (.error job.sourceService job.requestId error) with
      worker := .unloaded job }
  | countUnloaded (h : s.worker = .unloaded job) : ServiceStep config s .worker { s with
      failedRuns := s.failedRuns + 1, activeRequestId := "", worker := .idle }
  | execute (h : s.worker = .picked job (some engine)) :
    ServiceStep config s (.execute outcome) { s with worker := .executed job engine outcome }
  | countRaised (h : s.worker = .executed job engine (.raised text)) :
    ServiceStep config s .worker { s with
      failedRuns := s.failedRuns + 1
      activeRequestId := ""
      worker := .replying job none (.error job.sourceService job.requestId error) }
  | countStale (h : s.worker = .executed job engine (.returned result))
    (hstale : job.generation ≠ s.workflowGeneration) :
    ServiceStep config s .worker { s with
      droppedRuns := s.droppedRuns + 1
      activeRequestId := ""
      worker := .replying job none (.error job.sourceService job.requestId Service.discardedError) }
  | countFresh (h : s.worker = .executed job engine (.returned result))
    (hfresh : job.generation = s.workflowGeneration) :
    ServiceStep config s .worker { s with
      processedRuns := if result.success then s.processedRuns + 1 else s.processedRuns
      failedRuns := if result.success then s.failedRuns else s.failedRuns + 1
      activeRequestId := ""
      worker := .counted job engine result }
  | serialize (h : s.worker = .counted job engine result) : ServiceStep config s .worker { s with
      worker := .serialized job engine ⟨result, job.generation, s.workflowHash⟩ }
  | record (h : s.worker = .serialized job engine run) : ServiceStep config s .worker { s with
      results := (run :: s.results).take config.resultHistorySize
      worker := .replying job (some engine) (.result job.sourceService job.requestId run) }
  | workerReply (h : s.worker = .replying job engine reply) :
    ServiceStep config s .worker { s.reply job engine reply with worker := .idle }
  | pollError (h : s.watcher = .idle) : ServiceStep config s (.poll (.error text)) { s with
      polls := s.polls ++ [.error text]
      watcher := .failing ("failed to read workflow file " ++ config.filePath ++ ": " ++ text) none }
  | pollOk (h : s.watcher = .idle) :
    ServiceStep config s (.poll (.ok bytes)) { s with polls := s.polls ++ [.ok bytes], watcher := .digested bytes }
  | same (h : s.watcher = .digested bytes) (hstarted : s.started = true)
    (hsame : config.digest bytes = s.workflowHash) : ServiceStep config s .watcher { s with watcher := .idle }
  | bump (h : s.watcher = .digested bytes)
    (hnew : s.started = false ∨ config.digest bytes ≠ s.workflowHash) :
    ServiceStep config s .watcher { s with
      workflowGeneration := s.workflowGeneration + 1
      contents := s.contents ++ [bytes]
      watcher := .discarding bytes }
  | discarded (h : s.watcher = .discarding bytes) : ServiceStep config s .watcher { s with watcher := .loading bytes }
  | drop (h : s.watcher = .discarding bytes) (hqueue : s.queue = job :: queue) :
    ServiceStep config s .watcher { s with queue, watcher := .dropping bytes job }
  | countDropped (h : s.watcher = .dropping bytes job) :
    ServiceStep config s .watcher { s with droppedRuns := s.droppedRuns + 1, watcher := .notifying bytes job }
  | notify (h : s.watcher = .notifying bytes job) :
    ServiceStep config s .watcher { s.reply job none (.error job.sourceService job.requestId error) with
      watcher := .discarding bytes }
  | loadError (h : s.watcher = .loading bytes) (hload : config.load bytes = .error text) :
    ServiceStep config s .watcher { s with
      watcher := .failing ("failed to load workflow file " ++ config.filePath ++ ": " ++ text)
        (some (config.digest bytes)) }
  | loadOk (h : s.watcher = .loading bytes) (hload : config.load bytes = .ok (engine, name)) :
    ServiceStep config s .watcher { s with watcher := .installing engine name (config.digest bytes) }
  | install (h : s.watcher = .installing engine name digest) :
    ServiceStep config s .watcher { s with
      engine := some engine
      workflowHash := digest
      workflowName := name
      workflowLoaded := true
      workflowError := ""
      reloadCount := s.reloadCount + 1
      started := true
      watcher := .idle }
  | fail (h : s.watcher = .failing error workflowHash) : ServiceStep config s .watcher { s with
      engine := none
      workflowLoaded := false
      workflowError := error
      workflowName := ""
      workflowHash := workflowHash.getD s.workflowHash
      started := true
      watcher := .idle }

namespace Service

section
variable [PyObject α] {config : ServiceConfig α} {s t : Service α}

theorem stepped_command (h : s.commandStep config = some t) : ServiceStep config s .command t := by
  rw [commandStep] at h
  split at h
  · cases h
  · cases h
    exact .check ‹_›
  · rename_i source id payload loaded generation hcommand
    split at h
    · cases h
      exact .refuse
    · rename_i hloaded
      rw [not_eq_true', not_eq_false] at hloaded
      split at h
      · cases h
        exact .refuse
      · cases h
        exact .put (hloaded ▸ hcommand)
  · cases h
    exact .answer

theorem stepped_worker (hstarted : s.started = true) (h : s.workerStep config = some t) : ServiceStep config s .worker t := by
  rw [workerStep] at h
  split at h
  · split at h
    · cases h
    · cases h
      exact .take hstarted ‹_› ‹_›
  · cases h
    exact .pick ‹_›
  · cases h
    exact .replyUnloaded ‹_›
  · cases h
  · cases h
    exact .countUnloaded ‹_›
  · cases h
    exact .countRaised ‹_›
  · split at h
    · cases h
      exact .countStale ‹_› ‹_›
    · cases h
      exact .countFresh ‹_› (not_not.1 ‹_›)
  · cases h
    exact .serialize ‹_›
  · cases h
    exact .record ‹_›
  · cases h
    exact .workerReply ‹_›

theorem stepped_watcher (h : s.watcherStep config = some t) : ServiceStep config s .watcher t := by
  rw [watcherStep] at h
  split at h
  · cases h
  · split at h
    · rename_i hsame
      rw [and_eq_true, decide_eq_true_iff] at hsame
      cases h
      exact .same ‹_› hsame.1 hsame.2
    · rename_i hnew
      rw [and_eq_true, decide_eq_true_iff, not_and_or, not_eq_true] at hnew
      cases h
      exact .bump ‹_› hnew
  · split at h
    · cases h
      exact .discarded ‹_›
    · cases h
      exact .drop ‹_› ‹_›
  · cases h
    exact .countDropped ‹_›
  · cases h
    exact .notify ‹_›
  · split at h
    · cases h
      exact .loadError ‹_› ‹_›
    · cases h
      exact .loadOk ‹_› ‹_›
  · cases h
    exact .install ‹_›
  · cases h
    exact .fail ‹_›

theorem stepped (h : (system config).step s a t) : ServiceStep config s a t := by
  replace h : move config s a = some t := h.2
  cases a with
  | receive source id normalized =>
    rw [move.eq_def] at h
    dsimp only at h
    split at h
    · split at h
      · cases h
        exact .refuse
      · cases h
        exact .receive ‹_›
    · cases h
  | command => exact stepped_command h
  | worker =>
    rw [move.eq_def] at h
    dsimp only at h
    split at h
    · exact stepped_worker ‹_› h
    · cases h
  | execute outcome =>
    rw [move.eq_def] at h
    dsimp only at h
    split at h
    · cases h
      exact .execute ‹_›
    · cases h
  | poll file =>
    rw [move.eq_def] at h
    dsimp only at h
    split at h
    · cases h
      cases file with
      | error text => exact .pollError ‹_›
      | ok bytes => exact .pollOk ‹_›
    · cases h
  | watcher => exact stepped_watcher h

end

end Service

end Trakrai.Engine
