import Trakrai.AudioManager.Service

namespace Trakrai.AudioManager
open List Lib

def AudioRequest.requested (request : AudioRequest) : Bool :=
  request.playLocal || request.playSpeaker

theorem requested_of_parse (h : parseAudioRequest config uuid payload = .ok request) :
    request.requested = true := by
  simp only [parseAudioRequest] at h
  split at h
  · cases h
  · rename_i htarget
    split at h
    · cases h
    · split at h
      · cases h
      · cases h
        simp only [AudioRequest.requested]
        revert htarget
        cases payload.playLocal.getD true <;> cases payload.playSpeaker.getD false <;> simp

def Store.Holds (rows : Store) (job : AudioJob) (state : JobState) : Prop :=
  ∃ row, rows.getJob job.id = some row ∧ row.toAudioRequest = job.toAudioRequest ∧ row.state = state

def Outputs.Complete (outputs : Outputs) (job : AudioJob) : Prop :=
  (job.playLocal = true → outputs.localState = .completed) ∧
    (job.playSpeaker = true → outputs.speakerState = .completed)

def Outputs.Missing (outputs : Outputs) (job : AudioJob) : Prop :=
  (job.playLocal = true ∧ outputs.localState = .notRequested) ∨
    (job.playSpeaker = true ∧ outputs.speakerState = .notRequested)

def Worker.Sound (rows : Store) : Worker → Prop
  | .idle | .taken _ | .dead => True
  | .playing job => rows.Holds job .processing
  | .delivering job outputs => rows.Holds job .processing ∧
      (job.playLocal = true → outputs.localState = .completed) ∧
      outputs.speakerState = .notRequested
  | .completing job outputs => rows.Holds job .processing ∧ outputs.Complete job
  | .logging job completed outputs =>
      rows.Holds job .completed ∧ outputs.Complete job ∧ rows.Holds completed .completed
  | .publishing completed => rows.Holds completed .completed
  | .failing job outputs _ => (rows.Holds job .processing ∧ outputs.Missing job) ∨
      (rows.Holds job .completed ∧ outputs.Complete job)
  | .loggingFailure failed _ => rows.Holds failed .failed

def Command.Sound (rows : Store) : Command → Prop
  | .idle => True
  | .dedupe request _ _ _ => request.requested = true
  | .answer _ job => rows.Holds job .deduped
  | .create request _ _ => request.requested = true
  | .created _ job | .full _ job => rows.Holds job .queued

/-- The job that the worker has taken and not yet begun. -/
def Worker.taking : Worker → List String
  | .taken id => [id]
  | _ => []

def Command.putting : Command → List String
  | .created _ job | .full _ job => [job.id]
  | _ => []

/-- The jobs that the start has still to put into the queue. -/
def Process.left : Process → List String
  | .starting left => left
  | _ => []

def AudioService.waiting (s : AudioService) : List String :=
  s.process.left ++ s.queue ++ s.worker.taking ++ s.command.putting

structure Inv (s : AudioService) : Prop where
  nodup : (s.rows.map AudioJob.id).Nodup
  requested : ∀ job ∈ s.rows, job.requested = true
  waiting : s.waiting.Nodup
  queued : ∀ id ∈ s.waiting, s.rows.stateOf id = some .queued
  command : s.command.Sound s.rows
  worker : s.worker.Sound s.rows
  threads : s.process ≠ .running → s.command = .idle ∧ s.worker = .idle

theorem inv_initial : Inv {} where
  nodup := nodup_nil
  requested := fun _ h => absurd h not_mem_nil
  waiting := nodup_nil
  queued := fun _ h => absurd h not_mem_nil
  command := trivial
  worker := trivial
  threads := fun _ => ⟨rfl, rfl⟩

section
variable {rows rows' : Store} {s t : AudioService} {id other : String} {job : AudioJob}

theorem stateOf_eq_some_iff :
    rows.stateOf id = some state ↔ ∃ row, rows.getJob id = some row ∧ row.state = state := by
  rw [Store.stateOf, Option.map_eq_some_iff]
  rfl

theorem Store.Holds.stateOf (h : rows.Holds job state) : rows.stateOf job.id = some state := by
  obtain ⟨row, hrow, -, hstate⟩ := h
  exact stateOf_eq_some_iff.2 ⟨row, hrow, hstate⟩

theorem ne_of_stateOf (h : rows.stateOf id = some state) (h' : rows.stateOf other = some state')
    (hne : state ≠ state') : id ≠ other := by
  rintro rfl
  rw [h, Option.some.injEq] at h'
  exact hne h'

def Store.Changes (rows rows' : Store) (id : String) : Prop :=
  ∀ other, other ≠ id → rows'.getJob other = rows.getJob other

theorem Store.Changes.holds (h : rows.Changes rows' id) (hjob : rows.Holds job state)
    (hne : job.id ≠ id) : rows'.Holds job state := by
  obtain ⟨row, hrow, hsame⟩ := hjob
  exact ⟨row, (h _ hne).trans hrow, hsame⟩

theorem Store.Changes.stateOf (h : rows.Changes rows' id) (hne : other ≠ id) :
    rows'.stateOf other = rows.stateOf other := by
  have hget := h other hne
  rw [Store.getJob, Store.getJob] at hget
  rw [Store.stateOf, Store.stateOf, hget]

theorem changes_update {set : AudioJob → AudioJob} (hset : ∀ job, (set job).id = job.id) :
    rows.Changes (rows.update id set) id :=
  fun _ hne => find?_setWhere_of_ne hset hne

theorem changes_append (job : AudioJob) : rows.Changes (rows ++ [job]) job.id := by
  intro other hne
  apply find?_key_append
  intro row hrow
  rw [mem_singleton.1 hrow]
  exact hne.symm

theorem holds_update {set : AudioJob → AudioJob} (hset : ∀ job, (set job).id = job.id)
    (hrequest : ∀ job, (set job).toAudioRequest = job.toAudioRequest)
    (hstate : ∀ job, (set job).state = state) (h : rows.Holds job old) :
    (rows.update job.id set).Holds job state := by
  obtain ⟨row, hrow, hsame, -⟩ := h
  exact ⟨set row, find?_setWhere hset hrow, (hrequest row).trans hsame, hstate row⟩

theorem getJob_append_new (h : ∀ row ∈ rows, row.id ≠ job.id) :
    (rows ++ [job]).getJob job.id = some job := by
  rw [Store.getJob, find?_key_append_new h]
  simp

theorem Worker.Sound.changes {worker : Worker} (h : worker.Sound rows) (hrows : rows.Changes rows' id)
    (hne : ∀ job state, rows.Holds job state → state ≠ .queued → job.id ≠ id) :
    worker.Sound rows' := by
  have hholds {job : AudioJob} {state : JobState} (hjob : rows.Holds job state)
      (hstate : state ≠ .queued) : rows'.Holds job state :=
    hrows.holds hjob (hne job state hjob hstate)
  cases worker with
  | idle => trivial
  | taken id => trivial
  | playing job => exact hholds h nofun
  | delivering job outputs => exact ⟨hholds h.1 nofun, h.2⟩
  | completing job outputs => exact ⟨hholds h.1 nofun, h.2⟩
  | logging job completed outputs =>
    exact ⟨hholds h.1 nofun, h.2.1, hholds h.2.2 nofun⟩
  | publishing completed => exact hholds h nofun
  | failing job outputs error =>
    rcases h with h | h
    · exact .inl ⟨hholds h.1 nofun, h.2⟩
    · exact .inr ⟨hholds h.1 nofun, h.2⟩
  | loggingFailure failed error => exact hholds h nofun
  | dead => trivial

theorem Command.Sound.changes {command : Command} (h : command.Sound rows)
    (hrows : rows.Changes rows' id)
    (hne : ∀ job, rows.Holds job .deduped ∨ job.id ∈ command.putting → job.id ≠ id) :
    command.Sound rows' := by
  cases command with
  | idle => trivial
  | dedupe request source previous asked => exact h
  | answer source job => exact hrows.holds h (hne job (.inl h))
  | create request source asked => exact h
  | created source job => exact hrows.holds h (hne job (.inr (mem_singleton_self _)))
  | full source job => exact hrows.holds h (hne job (.inr (mem_singleton_self _)))

theorem Inv.keep (h : Inv s) (hrows : t.rows = s.rows) (hnodup : t.waiting.Nodup)
    (hsub : ∀ id ∈ t.waiting, id ∈ s.waiting) (hcommand : t.command.Sound s.rows)
    (hworker : t.worker.Sound s.rows)
    (hthreads : t.process ≠ .running → t.command = .idle ∧ t.worker = .idle) : Inv t where
  nodup := hrows ▸ h.nodup
  requested := hrows ▸ h.requested
  waiting := hnodup
  queued := fun id hid => hrows ▸ h.queued id (hsub id hid)
  command := hrows ▸ hcommand
  worker := hrows ▸ hworker
  threads := hthreads

theorem Inv.setWorker (h : Inv s) (hrun : s.process = .running) (worker : Worker)
    (hworker : worker.Sound s.rows) (htaking : worker.taking = s.worker.taking) (sent : List Reply) :
    Inv { s with worker, sent } := by
  have hwaiting : ({ s with worker, sent } : AudioService).waiting = s.waiting := by
    simp only [AudioService.waiting, htaking]
  refine h.keep rfl ?_ ?_ h.command hworker fun hne => (hne hrun).elim
  · rw [hwaiting]
    exact h.waiting
  · rw [hwaiting]
    exact fun _ hid => hid

theorem Inv.setCommand (h : Inv s) (hrun : s.process = .running) (command : Command)
    (hcommand : command.Sound s.rows) (hputting : command.putting = s.command.putting)
    (sent : List Reply) : Inv { s with command, sent } := by
  have hwaiting : ({ s with command, sent } : AudioService).waiting = s.waiting := by
    simp only [AudioService.waiting, hputting]
  refine h.keep rfl ?_ ?_ hcommand h.worker fun hne => (hne hrun).elim
  · rw [hwaiting]
    exact h.waiting
  · rw [hwaiting]
    exact fun _ hid => hid

theorem Inv.update (h : Inv s) {set : AudioJob → AudioJob} (hrows : t.rows = s.rows.update id set)
    (hset : ∀ job, (set job).id = job.id)
    (hrequest : ∀ job, (set job).toAudioRequest = job.toAudioRequest) (hsub : t.waiting.Sublist s.waiting)
    (hid : id ∉ t.waiting) (hcommand : t.command.Sound t.rows) (hworker : t.worker.Sound t.rows)
    (hrun : t.process = .running) : Inv t where
  nodup := by
    rw [hrows, Store.update, map_key_setWhere hset]
    exact h.nodup
  requested := by
    rw [hrows]
    intro job hjob
    rcases mem_setWhere hjob with hjob | ⟨old, hold, -, rfl⟩
    · exact h.requested job hjob
    · rw [hrequest]
      exact h.requested old hold
  waiting := h.waiting.sublist hsub
  queued := by
    intro other hother
    have hne : other ≠ id := fun heq => hid (heq ▸ hother)
    rw [hrows, (changes_update hset).stateOf hne]
    exact h.queued other (hsub.subset hother)
  command := hcommand
  worker := hworker
  threads := fun hne => (hne hrun).elim

theorem Store.Holds.mem (h : rows.Holds job state) : ∃ row ∈ rows, row.id = job.id := by
  obtain ⟨row, hrow, -⟩ := h
  exact ⟨row, mem_of_find?_key hrow⟩

theorem mem_of_stateOf (h : rows.stateOf id = some state) : ∃ row ∈ rows, row.id = id := by
  obtain ⟨row, hrow, -⟩ := stateOf_eq_some_iff.1 h
  exact ⟨row, mem_of_find?_key hrow⟩

theorem Inv.insert (h : Inv s) (job : AudioJob) (hfresh : ∀ row ∈ s.rows, row.id ≠ job.id)
    (hrequested : job.requested = true) (hrows : t.rows = s.rows ++ [job]) (hworker : t.worker = s.worker)
    (hwaiting : t.waiting = s.waiting ∨ t.waiting = s.waiting ++ [job.id] ∧ job.state = .queued)
    (hcommand : t.command.Sound t.rows) (hrun : t.process = .running) : Inv t := by
  have hchanges : s.rows.Changes t.rows job.id := by
    rw [hrows]
    exact changes_append job
  have hnew : t.rows.getJob job.id = some job := by
    rw [hrows]
    exact getJob_append_new hfresh
  have hold : ∀ id ∈ s.waiting, id ≠ job.id ∧ t.rows.stateOf id = some .queued := by
    intro id hid
    have hstate := h.queued id hid
    obtain ⟨row, hrow, rfl⟩ := mem_of_stateOf hstate
    have hne := hfresh row hrow
    exact ⟨hne, (hchanges.stateOf hne).trans hstate⟩
  refine ⟨?_, ?_, ?_, ?_, hcommand, ?_, fun hne => (hne hrun).elim⟩
  · rw [hrows]
    apply nodup_append_row h.nodup
    rw [any_key_iff]
    rintro ⟨row, hrow, hid⟩
    exact hfresh row hrow hid
  · rw [hrows]
    intro row hrow
    rcases mem_append.1 hrow with hrow | hrow
    · exact h.requested row hrow
    · rw [mem_singleton.1 hrow]
      exact hrequested
  · rcases hwaiting with hwaiting | ⟨hwaiting, -⟩
    · rw [hwaiting]
      exact h.waiting
    · rw [hwaiting]
      apply List.Nodup.append h.waiting (nodup_singleton _)
      intro id hid hjob
      exact (hold id hid).1 (mem_singleton.1 hjob)
  · intro id hid
    rcases hwaiting with hwaiting | ⟨hwaiting, hstate⟩
    · rw [hwaiting] at hid
      exact (hold id hid).2
    · rw [hwaiting] at hid
      rcases mem_append.1 hid with hid | hid
      · exact (hold id hid).2
      · rw [mem_singleton.1 hid]
        exact stateOf_eq_some_iff.2 ⟨job, hnew, hstate⟩
  · rw [hworker]
    apply h.worker.changes hchanges
    intro other state hother _
    obtain ⟨row, hrow, hid⟩ := hother.mem
    rw [← hid]
    exact hfresh row hrow

end

end Trakrai.AudioManager
