import Mathlib.Data.List.Basic
import Trakrai.Lib.Text
import Trakrai.CloudTransfer.Timestamp

namespace Trakrai.CloudTransfer
open List Lib

inductive Direction where
  | download
  | upload
deriving DecidableEq, Repr

inductive StorageScope where
  | device
  | package
deriving DecidableEq, Repr

inductive TransferState where
  | completed
  | failed
  | queued
  | retryWait
  | running
deriving DecidableEq, Repr

def TransferState.terminal : TransferState → Bool
  | .completed | .failed => true
  | .queued | .retryWait | .running => false

/-- A row of the `transfers` table. A time column holds the instant whose `formatTime`
is the stored text. -/
structure Transfer where
  id : String
  direction : Direction
  deviceID : String
  remotePath : String
  scope : StorageScope
  objectKey : String
  localPath : String
  contentType : String
  metadataJSON : String
  state : TransferState
  attempts : Nat
  lastError : String
  createdAt : Instant
  updatedAt : Instant
  nextAttemptAt : Option Instant
  startedAt : Option Instant
  completedAt : Option Instant
  deadlineAt : Option Instant
deriving DecidableEq

/-- The `transfers` table. -/
abbrev Store := List Transfer

namespace Store

section
variable (rows : Store)

def get (id : String) : Option Transfer := rows.find? (·.id == id)

def stateOf (id : String) : Option TransferState := (rows.get id).map Transfer.state

/-- `UPDATE transfers SET … WHERE id = ?`. -/
def updateById (id : String) (set : Transfer → Transfer) : Store :=
  rows.map fun r => if r.id = id then set r else r

/-- `Enqueue` fills in the next attempt when the caller left it out. -/
def withDefaults (transfer : Transfer) : Transfer :=
  { transfer with nextAttemptAt := transfer.nextAttemptAt.or (some transfer.createdAt) }

/-- `INSERT INTO transfers`; the primary key rejects an id that is taken. -/
def enqueue (transfer : Transfer) : Option Store :=
  if rows.any (·.id == transfer.id) then none else some (rows ++ [withDefaults transfer])

section
variable (now : Instant)

/-- The `WHERE` clause of `AcquireDueTransfer`. -/
def isDue (r : Transfer) : Bool :=
  (r.state == .queued || r.state == .retryWait) &&
    r.nextAttemptAt.all fun t => formatTime t ≤ formatTime now

/-- `COALESCE(next_attempt_at, created_at)`. -/
def attemptTime (r : Transfer) : Instant := r.nextAttemptAt.getD r.createdAt

/-- `ORDER BY COALESCE(next_attempt_at, created_at), created_at`, on the stored text. -/
def sortsBefore (r r' : Transfer) : Bool :=
  formatTime (attemptTime r) < formatTime (attemptTime r') ||
    (formatTime (attemptTime r) == formatTime (attemptTime r') &&
      formatTime r.createdAt ≤ formatTime r'.createdAt)

/-- The rows that `LIMIT 1` may return; ties are the database's choice. -/
def acquirable : List Transfer :=
  (rows.filter (isDue now)).filter fun r => (rows.filter (isDue now)).all (sortsBefore r)

/-- The row as `AcquireDueTransfer` writes it back and returns it. -/
def claim (record : Transfer) : Transfer :=
  { record with
    state := .running
    attempts := record.attempts + 1
    startedAt := some now
    updatedAt := now
    nextAttemptAt := none }

/-- `AcquireDueTransfer`, with the id of the row the query found. -/
def acquireDueTransfer : Option String → Option (Option Transfer × Store)
  | none => if rows.filter (isDue now) = [] then some (none, rows) else none
  | some id =>
    match (rows.acquirable now).find? (·.id == id) with
    | none => none
    | some record =>
      some (some (claim now record), rows.updateById record.id fun _ => claim now record)

def markCompleted (id objectKey : String) (completedAt : Instant) : Store :=
  rows.updateById id fun r =>
    { r with
      state := .completed
      objectKey := objectKey
      completedAt := some completedAt
      updatedAt := completedAt
      nextAttemptAt := none
      lastError := "" }

def markRetry (id : String) (nextAttemptAt : Instant) (message objectKey : String)
    (updatedAt : Instant) : Store :=
  rows.updateById id fun r =>
    { r with
      state := .retryWait
      nextAttemptAt := some nextAttemptAt
      lastError := goTrimSpace message
      updatedAt := updatedAt
      objectKey := objectKey }

def markFailed (id message : String) (updatedAt : Instant) : Store :=
  rows.updateById id fun r =>
    { r with
      state := .failed
      lastError := goTrimSpace message
      updatedAt := updatedAt
      nextAttemptAt := none }

def resetRunningTransfers : Store :=
  rows.map fun r =>
    if r.state = .running then
      { r with
        state := .retryWait
        nextAttemptAt := some now
        updatedAt := now
        lastError := if r.lastError = "" then
          "cloud-transfer restarted before prior attempt completed" else r.lastError }
    else r

/-- The `WHERE` clause of `MarkExpired`. -/
def isExpired (r : Transfer) : Bool :=
  !r.state.terminal && r.deadlineAt.any fun t => formatTime t ≤ formatTime now

def expire (r : Transfer) : Transfer :=
  { r with
    state := .failed
    updatedAt := now
    nextAttemptAt := none
    lastError := if r.lastError = "" then
      "transfer deadline expired before completion" else r.lastError }

def markExpired : Store :=
  rows.map fun r => if isExpired now r then expire now r else r

theorem get_map (hf : ∀ r : Transfer, (f r).id = r.id) (id : String) :
    get (rows.map f) id = (rows.get id).map f := by
  induction rows with
  | nil => rfl
  | cons r rows ih =>
    simp only [get, map_cons, List.find?_cons, hf] at ih ⊢
    cases hr : r.id == id with
    | true => rfl
    | false => exact ih

theorem get_id {rows : Store} {id : String} (h : rows.get id = some r) : r.id = id := by
  simpa using List.find?_some h

theorem get_of_mem {rows : Store} (hn : (rows.map Transfer.id).Nodup) (h : r ∈ rows) :
    rows.get r.id = some r := by
  induction rows with
  | nil => cases h
  | cons r' rows ih =>
    rw [map_cons, nodup_cons] at hn
    simp only [get, List.find?_cons] at ih ⊢
    rcases mem_cons.1 h with rfl | h
    · simp
    · have hne : (r'.id == r.id) = false := by
        simp only [beq_eq_false_iff_ne]
        intro he
        exact hn.1 (he ▸ mem_map_of_mem h)
      rw [hne]
      exact ih hn.2 h

theorem get_updateById {f : Transfer → Transfer} (id id' : String)
    (hf : ∀ r, r.id = id → (f r).id = id) :
    (rows.updateById id f).get id' = (rows.get id').map fun r => if id' = id then f r else r := by
  have hkeep (r : Transfer) : (if r.id = id then f r else r).id = r.id := by
    split
    · rename_i he
      rw [hf r he, he]
    · rfl
  rw [updateById, get_map rows hkeep]
  cases hr : rows.get id' with
  | none => rfl
  | some r => simp only [Option.map_some, get_id hr]

theorem get_markExpired (id : String) : (rows.markExpired now).get id =
      (rows.get id).map fun r => if isExpired now r then expire now r else r := by
  apply get_map
  intro r
  split <;> rfl

theorem get_resetRunningTransfers (id : String) :
    (rows.resetRunningTransfers now).get id = (rows.get id).map fun r =>
      if r.state = .running then
        { r with
          state := .retryWait
          nextAttemptAt := some now
          updatedAt := now
          lastError := if r.lastError = "" then
            "cloud-transfer restarted before prior attempt completed" else r.lastError }
      else r := by
  apply get_map
  intro r
  split <;> rfl

end

theorem enqueue_cases {rows rows' : Store} (h : rows.enqueue t = some rows') :
    rows.get t.id = none ∧ rows' = rows ++ [withDefaults t] := by
  unfold enqueue at h
  split at h
  · cases h
  · rename_i hfree
    cases h
    refine ⟨?_, rfl⟩
    simpa [get, List.find?_eq_none, any_eq_true] using hfree

theorem get_append_singleton (r : Transfer) (id : String)
    (hfree : rows.get r.id = none) :
    Store.get (rows ++ [r]) id = if id = r.id then some r else rows.get id := by
  simp only [get, List.find?_append, List.find?_cons, List.find?_nil] at hfree ⊢
  by_cases he : id = r.id
  · subst id
    simp only [hfree, beq_self_eq_true, Option.none_or, if_true]
  · have hb : (r.id == id) = false := by simpa using Ne.symm he
    simp only [hb, Option.or_none, if_neg he]

end

theorem acquire_some_cases {rows rows' : Store} {id : String}
    (h : rows.acquireDueTransfer now (some id) = some (res, rows')) :
    ∃ r ∈ rows.acquirable now, r.id = id ∧ res = some (claim now r) ∧
      rows' = rows.updateById id fun _ => claim now r := by
  unfold acquireDueTransfer at h
  simp only at h
  split at h
  · cases h
  · rename_i r hr
    cases h
    have hid : r.id = id := by simpa using List.find?_some hr
    exact ⟨r, List.mem_of_find?_eq_some hr, hid, rfl, by rw [hid]⟩

theorem acquire_none_cases {rows rows' : Store}
    (h : rows.acquireDueTransfer now none = some (res, rows')) :
    rows.filter (isDue now) = [] ∧ res = none ∧ rows' = rows := by
  unfold acquireDueTransfer at h
  simp only at h
  split at h
  · rename_i he
    cases h
    exact ⟨he, rfl, rfl⟩
  · cases h

theorem mem_acquirable {rows : Store} (h : r ∈ rows.acquirable now) :
    r ∈ rows ∧ isDue now r ∧ ∀ r' ∈ rows, isDue now r' → sortsBefore r r' := by
  simp only [acquirable, mem_filter, all_eq_true] at h
  exact ⟨h.1.1, h.1.2, fun r' hr' hd => h.2 r' ⟨hr', hd⟩⟩

theorem waiting_of_isDue (h : isDue now r) : r.state = .queued ∨ r.state = .retryWait := by
  simp only [isDue, Bool.and_eq_true, Bool.or_eq_true, beq_iff_eq] at h
  exact h.1

end Store

end Trakrai.CloudTransfer
