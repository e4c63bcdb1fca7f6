import Mathlib.Logic.Function.Basic
import Trakrai.Lib.Transition
import Trakrai.CloudTransfer.Store

namespace Trakrai.CloudTransfer
open Option Lib

structure QueueConfig where
  initialBackoffSec : Nat
  maxBackoffSec : Nat

/-- The wait of `nextAttemptTime` in seconds: doubled with every attempt, up to a limit. -/
def QueueConfig.backoff (cfg : QueueConfig) (attempts : Nat) : Nat :=
  min (cfg.initialBackoffSec * 2 ^ (max attempts 1 - 1)) cfg.maxBackoffSec

/-- `nextAttemptTime(attempts, now)` is the instant `next`. -/
def QueueConfig.isNextAttempt (cfg : QueueConfig) (attempts : Nat) (now next : Instant) : Bool :=
  next.nanos == now.nanos + cfg.backoff attempts * 10 ^ 9

/-- What `handleUpload` or `handleDownload` returns: the object key and no error, or an
error that is or is not a `temporaryError`. -/
inductive Outcome where
  | success (objectKey : String)
  | failure (temporary : Bool) (message objectKey : String)
deriving DecidableEq

/-- The one store write that ends `processTransfer`. -/
inductive Mark where
  | completed (objectKey : String) (completedAt : Instant)
  | failed (message : String) (updatedAt : Instant)
  | retry (nextAttemptAt : Instant) (message objectKey : String) (updatedAt : Instant)
deriving DecidableEq

def Mark.state : Mark → TransferState
  | .completed .. => .completed
  | .failed .. => .failed
  | .retry .. => .retryWait

def Mark.apply (rows : Store) (id : String) : Mark → Store
  | .completed objectKey completedAt => rows.markCompleted id objectKey completedAt
  | .failed message updatedAt => rows.markFailed id message updatedAt
  | .retry nextAttemptAt message objectKey updatedAt =>
    rows.markRetry id nextAttemptAt message objectKey updatedAt

/-- `processTransfer`: `started` is its first reading of the clock, `finished` the one after
the network operation, `next` the time `nextAttemptTime` gives for `finished`. -/
def processTransfer (transfer : Transfer) (started : Instant) (outcome : Outcome)
    (finished next : Instant) : Mark :=
  if transfer.deadlineAt.any (· ≤ started) then
    .failed "transfer deadline expired before processing started" started
  else
    match outcome with
    | .success objectKey => .completed objectKey finished
    | .failure temporary message objectKey =>
      if !temporary || transfer.deadlineAt.any (· ≤ next) then .failed message finished
      else .retry next message objectKey finished

/-- Where a `workerLoop` stands. -/
inductive Worker where
  | idle
  | polled (now : Instant)
  | processing (transfer : Transfer)
deriving DecidableEq

inductive Phase where
  | down
  | starting
  | serving
deriving DecidableEq

/-- The persisted table and the worker loops of the current process. -/
structure Queue (W : Type) where
  rows : Store
  workers : W → Worker
  phase : Phase

/-- The arguments of `enqueueUpload` and `enqueueDownload` that reach the stored row. -/
structure EnqueueRequest where
  id : String
  direction : Direction
  deviceID : String
  remotePath : String
  scope : StorageScope
  localPath : String
  contentType : String
  metadataJSON : String
  now : Instant
  deadline : Option Instant
deriving DecidableEq

/-- The `Transfer` literal of `enqueueUpload` and `enqueueDownload`. -/
def EnqueueRequest.transfer (request : EnqueueRequest) : Transfer where
  id := request.id
  direction := request.direction
  deviceID := request.deviceID
  remotePath := request.remotePath
  scope := request.scope
  objectKey := ""
  localPath := request.localPath
  contentType := request.contentType
  metadataJSON := request.metadataJSON
  state := .queued
  attempts := 0
  lastError := ""
  createdAt := request.now
  updatedAt := request.now
  nextAttemptAt := some request.now
  startedAt := none
  completedAt := none
  deadlineAt := request.deadline

inductive Action (W : Type) where
  | enqueue (request : EnqueueRequest)
  | sweep (w : W) (now : Instant)
  | acquire (w : W) (found : Option String)
  | finish (w : W) (started : Instant) (outcome : Outcome) (finished next : Instant)
  | stop
  | reset (now : Instant)
  | launch (now : Instant)

/-- The worker state after `AcquireDueTransfer` returned. -/
def Worker.ofAcquired : Option Transfer → Worker
  | none => .idle
  | some transfer => .processing transfer

section
variable {W : Type} [DecidableEq W]

def Queue.setWorker (q : Queue W) (w : W) (x : Worker) : Queue W :=
  { q with workers := Function.update q.workers w x }

/-- One atomic step. A worker polls with the sweep and the claim as two transactions; the
store write of `processTransfer` is the third. `stop` ends the process at any point, and
the next one runs `ResetRunningTransfers` and `MarkExpired` before it starts workers. -/
def Queue.step (cfg : QueueConfig) (q : Queue W) : Action W → Option (Queue W)
  | .enqueue request =>
    if q.phase = .serving then
      (q.rows.enqueue request.transfer).map fun rows => { q with rows := rows }
    else none
  | .sweep w now =>
    if q.phase = .serving ∧ q.workers w = .idle then
      some ({ q with rows := q.rows.markExpired now }.setWorker w (.polled now))
    else none
  | .acquire w found =>
    match q.workers w with
    | .polled now =>
      (q.rows.acquireDueTransfer now found).map fun (transfer, rows) =>
        { q with rows := rows }.setWorker w (Worker.ofAcquired transfer)
    | _ => none
  | .finish w started outcome finished next =>
    match q.workers w with
    | .processing transfer =>
      if cfg.isNextAttempt transfer.attempts finished next then
        let mark := processTransfer transfer started outcome finished next
        some ({ q with rows := mark.apply q.rows transfer.id }.setWorker w .idle)
      else none
    | _ => none
  | .stop => some { q with workers := fun _ => .idle, phase := .down }
  | .reset now =>
    if q.phase = .down then
      some { q with rows := q.rows.resetRunningTransfers now, phase := .starting }
    else none
  | .launch now =>
    if q.phase = .starting then
      some { q with rows := q.rows.markExpired now, phase := .serving }
    else none

/-- The transfer queue of a device, from an empty table and before the first start. -/
def queueSystem (W : Type) [DecidableEq W] (cfg : QueueConfig) : System (Queue W) (Action W) where
  init q := q = ⟨[], fun _ => .idle, .down⟩
  step q a q' := q.step cfg a = some q'

def Queue.exec (cfg : QueueConfig) (q : Queue W) :
    List (Action W) → Option (List (Queue W × Action W) × Queue W)
  | [] => some ([], q)
  | a :: actions =>
    match q.step cfg a with
    | none => none
    | some q' => (q'.exec cfg actions).map fun (tr, q'') => ((q, a) :: tr, q'')

theorem Queue.run_of_exec (h : q.exec cfg actions = some (tr, q')) :
    (queueSystem W cfg).Run q tr q' := by
  induction actions generalizing q tr with
  | nil =>
    cases h
    exact .nil _
  | cons a actions ih =>
    simp only [Queue.exec] at h
    split at h
    · cases h
    · rename_i q₁ hs
      obtain ⟨⟨tr', q''⟩, hr, he⟩ := map_eq_some_iff.1 h
      cases he
      exact .cons hs (ih hr)

inductive StepCases (cfg : QueueConfig) (q : Queue W) : Action W → Queue W → Prop where
  | enqueue (request : EnqueueRequest) (hs : q.phase = .serving)
      (hfree : q.rows.get request.id = none) :
      StepCases cfg q (.enqueue request)
        { q with rows := q.rows ++ [Store.withDefaults request.transfer] }
  | sweep (w : W) (now : Instant) (hs : q.phase = .serving) (hw : q.workers w = .idle) :
      StepCases cfg q (.sweep w now)
        ({ q with rows := q.rows.markExpired now }.setWorker w (.polled now))
  | nothingDue (w : W) (now : Instant) (hw : q.workers w = .polled now)
      (hn : q.rows.filter (Store.isDue now) = []) :
      StepCases cfg q (.acquire w none) (q.setWorker w .idle)
  | acquired (w : W) (now : Instant) (r : Transfer) (hw : q.workers w = .polled now)
      (hr : r ∈ q.rows.acquirable now) :
      StepCases cfg q (.acquire w (some r.id))
        ({ q with rows := q.rows.updateById r.id fun _ => Store.claim now r }.setWorker w
          (.processing (Store.claim now r)))
  | finish (w : W) (started : Instant) (outcome : Outcome) (finished next : Instant)
      (transfer : Transfer) (hw : q.workers w = .processing transfer) (mark : Mark)
      (hm : mark = processTransfer transfer started outcome finished next) :
      StepCases cfg q (.finish w started outcome finished next)
        ({ q with rows := mark.apply q.rows transfer.id }.setWorker w .idle)
  | stop : StepCases cfg q .stop { q with workers := fun _ => .idle, phase := .down }
  | reset (now : Instant) (hd : q.phase = .down) : StepCases cfg q (.reset now)
        { q with rows := q.rows.resetRunningTransfers now, phase := .starting }
  | launch (now : Instant) (hs : q.phase = .starting) : StepCases cfg q (.launch now)
        { q with rows := q.rows.markExpired now, phase := .serving }

theorem step_cases (h : (queueSystem W cfg).step q a q'): StepCases cfg q a q' := by
  change q.step cfg a = some q' at h
  cases a with
  | enqueue request =>
    simp only [Queue.step] at h
    split at h
    · rename_i hs
      obtain ⟨rows, hr, rfl⟩ := map_eq_some_iff.1 h
      obtain ⟨hfree, rfl⟩ := Store.enqueue_cases hr
      exact .enqueue request hs hfree
    · cases h
  | sweep w now =>
    simp only [Queue.step] at h
    split at h
    · rename_i hs
      cases h
      exact .sweep w now hs.1 hs.2
    · cases h
  | acquire w found =>
    simp only [Queue.step] at h
    split at h
    · rename_i now hw
      obtain ⟨⟨transfer, rows⟩, hr, rfl⟩ := map_eq_some_iff.1 h
      cases found with
      | none =>
        obtain ⟨hn, rfl, rfl⟩ := Store.acquire_none_cases hr
        exact .nothingDue w now hw hn
      | some id =>
        obtain ⟨r, hm, rfl, rfl, rfl⟩ := Store.acquire_some_cases hr
        exact .acquired w now r hw hm
    · cases h
  | finish w started outcome finished next =>
    simp only [Queue.step] at h
    split at h
    · rename_i transfer hw
      split at h
      · cases h
        exact .finish w started outcome finished next transfer hw _ rfl
      · cases h
    · cases h
  | stop =>
    cases h
    exact .stop
  | reset now =>
    simp only [Queue.step] at h
    split at h
    · rename_i hd
      cases h
      exact .reset now hd
    · cases h
  | launch now =>
    simp only [Queue.step] at h
    split at h
    · rename_i hs
      cases h
      exact .launch now hs
    · cases h

end

end Trakrai.CloudTransfer
