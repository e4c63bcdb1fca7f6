import Mathlib.Data.List.Sort
import Trakrai.Lib.Table
import Trakrai.Lib.Text
import Trakrai.Lib.Transition

namespace Trakrai.AudioManager
open Lib

/-- What the requests depend on that lies outside or in the configuration. -/
structure Config where
  /-- `queue.max_pending`; a queue with a bound of zero or less takes everything. -/
  maxPending : Int
  dedupeWindowSec : Int
  defaultLanguage : String
  defaultAddress : String
  /-- `str.lower`. -/
  lower : String → String
  /-- `hashlib.sha256(…).hexdigest()` of the UTF-8 bytes of a text. -/
  sha256 : String → String

/-- `AudioManagerAudioRequest`. -/
structure PlayAudio where
  cameraId : Option String := none
  cameraName : Option String := none
  dedupeKey : Option String := none
  language : Option String := none
  message : Option String := none
  playLocal : Option Bool := none
  playSpeaker : Option Bool := none
  requestId : Option String := none
  speakerAddress : Option String := none
  speakerCode : Option String := none
  speakerMessageId : Option String := none
  text : Option String := none

structure AudioRequest where
  requestId : String
  text : String
  language : String
  playLocal : Bool
  playSpeaker : Bool
  speakerAddress : String
  speakerMessageId : String
  speakerCode : String
  cameraId : String
  cameraName : String
  dedupeKey : String
deriving DecidableEq

def computeDedupeKey (config : Config) (text language : String) (playLocal playSpeaker : Bool)
    (speakerAddress speakerMessageId speakerCode : String) : String :=
  config.sha256 ("|".intercalate [pyStrip text, config.lower (pyStrip language),
    if playLocal then "1" else "0", if playSpeaker then "1" else "0", pyStrip speakerAddress,
    pyStrip speakerMessageId, pyStrip speakerCode])

def string (value : Option String) : String := pyStrip (value.getD "")

def orElse (value other : String) : String := if value = "" then other else value

/-- `parse_audio_request`. A request without an id is given a new one. -/
def parseAudioRequest (config : Config) (uuid : String) (payload : PlayAudio) :
    Except String AudioRequest :=
  let requestId := orElse (string payload.requestId) uuid
  let text := orElse (string payload.text) (string payload.message)
  let language := orElse (orElse (string payload.language) config.defaultLanguage) "en"
  let playLocal := payload.playLocal.getD true
  let playSpeaker := payload.playSpeaker.getD false
  let speakerAddress := orElse (string payload.speakerAddress) config.defaultAddress
  let speakerMessageId := string payload.speakerMessageId
  let speakerCode := string payload.speakerCode
  if !playLocal && !playSpeaker then
    .error "audio request must enable at least one target (local or speaker)"
  else if playLocal && text == "" then
    .error "audio request requires non-empty text when playLocal is enabled"
  else if playSpeaker && speakerAddress == "" then
    .error "audio request requires speakerAddress or a configured default speaker address"
  else
    let dedupeKey := orElse (string payload.dedupeKey) (computeDedupeKey config text language
      playLocal playSpeaker speakerAddress speakerMessageId speakerCode)
    .ok { requestId, text, language, playLocal, playSpeaker, speakerAddress, speakerMessageId,
          speakerCode, cameraId := string payload.cameraId, cameraName := string payload.cameraName,
          dedupeKey }

inductive JobState where
  | queued
  | processing
  | completed
  | failed
  | deduped
deriving DecidableEq

def JobState.terminal : JobState → Bool
  | .completed | .failed | .deduped => true
  | .queued | .processing => false

/-- `local_state` and `speaker_state`. -/
inductive OutputState where
  | pending
  | notRequested
  | completed
  | failed
deriving DecidableEq

/-- A row of the table `jobs`. -/
structure AudioJob extends AudioRequest where
  id : String
  sourceService : String
  state : JobState
  localState : OutputState := .pending
  speakerState : OutputState := .pending
  speakerPayload : String := ""
  audioPath : String := ""
  attempts : Nat := 0
  error : String := ""
  createdAt : Int
  updatedAt : Int
  completedAt : Int := 0
deriving DecidableEq

def AudioJob.played (job : AudioJob) : Bool :=
  (!job.playLocal || job.localState == .completed) &&
    (!job.playSpeaker || job.speakerState == .completed)

structure Outputs where
  localState : OutputState := .notRequested
  speakerState : OutputState := .notRequested
  speakerPayload : String := ""
  audioPath : String := ""

def AudioJob.withOutputs (job : AudioJob) (outputs : Outputs) : AudioJob :=
  { job with
    localState := outputs.localState
    speakerState := outputs.speakerState
    speakerPayload := outputs.speakerPayload
    audioPath := outputs.audioPath }

/-- The `SET` clauses of `mark_processing`, `mark_completed` and `mark_failed`. -/
def AudioJob.process (now : Int) (job : AudioJob) : AudioJob :=
  { job with state := .processing, attempts := job.attempts + 1, updatedAt := now }

def AudioJob.complete (outputs : Outputs) (now : Int) (job : AudioJob) : AudioJob :=
  { job.withOutputs outputs with
    state := .completed, error := "", updatedAt := now, completedAt := now }

def AudioJob.fail (error : String) (outputs : Outputs) (now : Int) (job : AudioJob) : AudioJob :=
  { job.withOutputs outputs with state := .failed, error, updatedAt := now, completedAt := now }

/-- `AudioJobStore`: the rows of the table. -/
abbrev Store := List AudioJob

namespace Store

section
variable (rows : Store)

section
variable (id : String)

def stateOf : Option JobState :=
  (rows.find? (·.id == id)).map AudioJob.state

/-- `UPDATE jobs SET … WHERE id = ?`. -/
def update (set : AudioJob → AudioJob) : Store :=
  rows.map (setWhere AudioJob.id id set)

/-- `get_job`; a job that is not there is a `KeyError`. -/
def getJob : Option AudioJob := rows.find? (·.id == id)

def requeue (now : Int) (job : AudioJob) : AudioJob :=
  if job.state.terminal then job else { job with state := .queued, updatedAt := now }

def requeueIncompleteJobs (now : Int) : Store × List AudioJob :=
  let rows := rows.map (requeue now)
  (rows, (rows.filter (·.state = .queued)).insertionSort fun a b => a.createdAt ≤ b.createdAt)

def createJob (request : AudioRequest) (sourceService : String)
    (now : Int) : Store × AudioJob :=
  let job := { request with
    id, sourceService := pyStrip sourceService, state := .queued, createdAt := now, updatedAt := now }
  (rows ++ [job], job)

def createDedupedJob (request : AudioRequest) (sourceService : String)
    (previous : AudioJob) (now : Int) : Store × AudioJob :=
  let job := { request with
    id, sourceService := pyStrip sourceService, state := .deduped
    localState := previous.localState, speakerState := previous.speakerState
    speakerPayload := previous.speakerPayload, audioPath := previous.audioPath
    createdAt := now, updatedAt := now, completedAt := now }
  (rows ++ [job], job)

/-- The `WHERE` clause of `find_recent_success`. -/
def isRecentSuccess (dedupeKey : String) (cutoff : Int) (job : AudioJob) : Bool :=
  job.dedupeKey == dedupeKey && (job.state == .completed || job.state == .deduped) &&
    cutoff ≤ job.completedAt

def findRecentSuccess (dedupeKey : String) (cutoff : Int) : Option AudioJob :=
  ((rows.filter (isRecentSuccess dedupeKey cutoff)).insertionSort fun a b =>
    b.completedAt ≤ a.completedAt).head?

def markProcessing (now : Int) : Store :=
  rows.update id (AudioJob.process now)

def markCompleted (outputs : Outputs) (now : Int) : Store :=
  rows.update id (AudioJob.complete outputs now)

end

def markFailed (id error : String) (outputs : Outputs) (now : Int) : Store :=
  rows.update id (AudioJob.fail error outputs now)

end

end Store

inductive Reply where
  | job (target : String) (job : AudioJob)
  | result (job : AudioJob)
  | error (target requestId requestType error : String)

/-- Whether the process runs; `left` are the jobs that its start has still to put into the queue. -/
inductive Process where
  | down
  | starting (left : List String)
  | running

/-- Where the command thread is in `_handle_play_audio`; `asked` is the time at which it looked for
an earlier success. -/
inductive Command where
  | idle
  | dedupe (request : AudioRequest) (source : String) (previous : AudioJob) (asked : Int)
  | answer (source : String) (deduped : AudioJob)
  | create (request : AudioRequest) (source : String) (asked : Int)
  | created (source : String) (job : AudioJob)
  | full (source : String) (job : AudioJob)

/-- Where the worker thread is in `_worker_loop`, with its local variables. -/
inductive Worker where
  | idle
  | taken (id : String)
  | playing (job : AudioJob)
  | delivering (job : AudioJob) (outputs : Outputs)
  | completing (job : AudioJob) (outputs : Outputs)
  | logging (job completed : AudioJob) (outputs : Outputs)
  | publishing (completed : AudioJob)
  | failing (job : AudioJob) (outputs : Outputs) (error : String)
  | loggingFailure (failed : AudioJob) (error : String)
  | dead

/-- `AudioService`: the rows of the database outlive the process. -/
structure AudioService where
  rows : Store := []
  process : Process := .down
  queue : List String := []
  command : Command := .idle
  worker : Worker := .idle
  sent : List Reply := []

/-- What `tts.generate` and `playback.play` do. -/
inductive Playback where
  | generateRaises (error : String)
  | playRaises (audioPath error : String)
  | played (audioPath : String)

/-- What `speaker.deliver` does. -/
inductive Delivery where
  | raises (error : String)
  | delivered (payload : String)

/-- The steps of the process and its threads. A step that looks at the clock has the time. -/
inductive Action where
  | boot (now : Int)
  | requeue
  | crash
  | playAudio (payload : PlayAudio) (source uuid : String) (now : Int)
  | createDedupedJob (id : String) (now : Int)
  | publishDeduped
  | createJob (id : String) (now : Int)
  | putNowait
  | rejectFull (now : Int)
  | get
  | markProcessing (now : Int)
  | play (playback : Playback)
  | deliver (delivery : Delivery)
  | markCompleted (now : Int)
  | logCompleted (raises : Option String)
  | publishResult
  | markFailed (now : Int)
  | logFailed (raises : Bool)

/-- `put_nowait` raises `queue.Full`. -/
def isFull (config : Config) (queue : List String) : Bool :=
  0 < config.maxPending && config.maxPending ≤ queue.length

/-- The states of the outputs that `_worker_loop` records for a job that failed. -/
def failedOutputs (job : AudioJob) (outputs : Outputs) : Outputs :=
  let orFailed (state : OutputState) (requested : Bool) : OutputState :=
    if state ≠ .notRequested then state else if requested then .failed else .notRequested
  { outputs with
    localState := orFailed outputs.localState job.playLocal
    speakerState := orFailed outputs.speakerState job.playSpeaker }

namespace AudioService

section
variable (s : AudioService)

def boot (now : Int) : AudioService :=
  let (rows, jobs) := s.rows.requeueIncompleteJobs now
  { rows, process := .starting (jobs.map AudioJob.id), sent := s.sent }

/-- One turn of the loop of `_requeue_incomplete_jobs`; the first job that does not fit ends it. -/
def requeue (config : Config) (s : AudioService) : AudioService :=
  match s.process with
  | .starting (id :: left) =>
    if isFull config s.queue then { s with process := .running }
    else { s with queue := s.queue ++ [id], process := .starting left }
  | .starting [] => { s with process := .running }
  | _ => s

def crash : AudioService := { rows := s.rows, sent := s.sent }

/-- `_handle_play_audio` up to `find_recent_success`. -/
def playAudio (config : Config) (s : AudioService) (payload : PlayAudio) (source uuid : String)
    (now : Int) : AudioService :=
  match parseAudioRequest config uuid payload with
  | .error error =>
    { s with sent := s.sent ++ [.error source (string payload.requestId) "play-audio" error] }
  | .ok request =>
    match s.rows.findRecentSuccess request.dedupeKey (now - config.dedupeWindowSec) with
    | some previous => { s with command := .dedupe request source previous now }
    | none => { s with command := .create request source now }

def createDedupedJob (id : String) (now : Int) : AudioService :=
  match s.command with
  | .dedupe request source previous _ =>
    let (rows, job) := s.rows.createDedupedJob id request source previous now
    { s with rows, command := .answer source job }
  | _ => s

def publishDeduped : AudioService :=
  match s.command with
  | .answer source job => { s with sent := s.sent ++ [.job source job], command := .idle }
  | _ => s

def createJob (id : String) (now : Int) : AudioService :=
  match s.command with
  | .create request source _ =>
    let (rows, job) := s.rows.createJob id request source now
    { s with rows, command := .created source job }
  | _ => s

def putNowait (config : Config) (s : AudioService) : AudioService :=
  match s.command with
  | .created source job =>
    if isFull config s.queue then { s with command := .full source job }
    else
      { s with
        queue := s.queue ++ [job.id], sent := s.sent ++ [.job source job], command := .idle }
  | _ => s

def rejectFull (now : Int) : AudioService :=
  match s.command with
  | .full source job =>
    { s with
      rows := s.rows.markFailed job.id "audio queue is full"
        { localState := .failed, speakerState := .failed } now
      sent := s.sent ++ [.error source job.requestId "play-audio" "audio queue is full"]
      command := .idle }
  | _ => s

def get : AudioService :=
  match s.queue with
  | id :: queue => { s with queue, worker := .taken id }
  | [] => s

def markProcessing (now : Int) : AudioService :=
  match s.worker with
  | .taken id =>
    let rows := s.rows.markProcessing id now
    { s with rows, worker := ((rows.getJob id).map Worker.playing).getD .idle }
  | _ => s

def play (playback : Playback) : AudioService :=
  match s.worker with
  | .playing job =>
    if job.playLocal then
      match playback with
      | .generateRaises error => { s with worker := .failing job {} error }
      | .playRaises audioPath error => { s with worker := .failing job { audioPath } error }
      | .played audioPath =>
        { s with worker := .delivering job { audioPath, localState := .completed } }
    else { s with worker := .delivering job {} }
  | _ => s

def deliver (delivery : Delivery) : AudioService :=
  match s.worker with
  | .delivering job outputs =>
    if job.playSpeaker then
      match delivery with
      | .raises error => { s with worker := .failing job outputs error }
      | .delivered speakerPayload =>
        { s with worker := .completing job { outputs with speakerPayload, speakerState := .completed } }
    else { s with worker := .completing job outputs }
  | _ => s

def markCompleted (now : Int) : AudioService :=
  match s.worker with
  | .completing job outputs =>
    let rows := s.rows.markCompleted job.id outputs now
    { s with
      rows
      worker := ((rows.getJob job.id).map (Worker.logging job · outputs)).getD
        (.failing job outputs job.id) }
  | _ => s

/-- `_append_event` of a completed job. What it raises is handled like a failure of the job. -/
def logCompleted (raises : Option String) : AudioService :=
  match s.worker with
  | .logging job completed outputs =>
    match raises with
    | some error => { s with worker := .failing job outputs error }
    | none => { s with worker := .publishing completed }
  | _ => s

def publishResult : AudioService :=
  match s.worker with
  | .publishing completed => { s with sent := s.sent ++ [.result completed], worker := .idle }
  | _ => s

def markFailed (now : Int) : AudioService :=
  match s.worker with
  | .failing job outputs error =>
    let rows := s.rows.markFailed job.id error (failedOutputs job outputs) now
    { s with rows, worker := ((rows.getJob job.id).map (Worker.loggingFailure · error)).getD .dead }
  | _ => s

/-- `_append_event` of a failed job. What it raises ends the thread. -/
def logFailed (raises : Bool) : AudioService :=
  match s.worker with
  | .loggingFailure failed error =>
    if raises then { s with worker := .dead }
    else
      { s with
        sent := s.sent ++ [.error failed.sourceService failed.requestId "play-audio" error]
        worker := .idle }
  | _ => s

def after (config : Config) (s : AudioService) : Action → AudioService
  | .boot now => s.boot now
  | .requeue => s.requeue config
  | .crash => s.crash
  | .playAudio payload source uuid now => s.playAudio config payload source uuid now
  | .createDedupedJob id now => s.createDedupedJob id now
  | .publishDeduped => s.publishDeduped
  | .createJob id now => s.createJob id now
  | .putNowait => s.putNowait config
  | .rejectFull now => s.rejectFull now
  | .get => s.get
  | .markProcessing now => s.markProcessing now
  | .play playback => s.play playback
  | .deliver delivery => s.deliver delivery
  | .markCompleted now => s.markCompleted now
  | .logCompleted raises => s.logCompleted raises
  | .publishResult => s.publishResult
  | .markFailed now => s.markFailed now
  | .logFailed raises => s.logFailed raises

/-- A step of a thread takes a running process, and the thread has to be there. A new id is new. -/
def Enabled : Action → Prop
  | .boot _ => s.process = .down
  | .requeue => ∃ left, s.process = .starting left
  | .crash => s.process ≠ .down
  | .playAudio _ _ _ _ => s.process = .running ∧ s.command = .idle
  | .createDedupedJob id _ => s.process = .running ∧
      (∃ request source previous asked, s.command = .dedupe request source previous asked) ∧
      ∀ job ∈ s.rows, job.id ≠ id
  | .publishDeduped => s.process = .running ∧ ∃ source job, s.command = .answer source job
  | .createJob id _ => s.process = .running ∧
      (∃ request source asked, s.command = .create request source asked) ∧
      ∀ job ∈ s.rows, job.id ≠ id
  | .putNowait => s.process = .running ∧ ∃ source job, s.command = .created source job
  | .rejectFull _ => s.process = .running ∧ ∃ source job, s.command = .full source job
  | .get => s.process = .running ∧ s.worker = .idle ∧ s.queue ≠ []
  | .markProcessing _ => s.process = .running ∧ ∃ id, s.worker = .taken id
  | .play _ => s.process = .running ∧ ∃ job, s.worker = .playing job
  | .deliver _ => s.process = .running ∧ ∃ job outputs, s.worker = .delivering job outputs
  | .markCompleted _ => s.process = .running ∧ ∃ job outputs, s.worker = .completing job outputs
  | .logCompleted _ => s.process = .running ∧
      ∃ job completed outputs, s.worker = .logging job completed outputs
  | .publishResult => s.process = .running ∧ ∃ completed, s.worker = .publishing completed
  | .markFailed _ => s.process = .running ∧ ∃ job outputs error, s.worker = .failing job outputs error
  | .logFailed _ => s.process = .running ∧ ∃ failed error, s.worker = .loggingFailure failed error

end

end AudioService

/-- The audio manager with its process, its command thread and its worker thread. -/
def system (config : Config) : System AudioService Action :=
  .guarded (· = {}) AudioService.Enabled (AudioService.after config)

end Trakrai.AudioManager
