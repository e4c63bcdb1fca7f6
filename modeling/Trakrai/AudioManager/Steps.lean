import Trakrai.AudioManager.Invariant

namespace Trakrai.AudioManager
open List Lib

section
variable {config : Config} {s : AudioService} {rows : Store} {id : String} {job : AudioJob}

theorem stateOf_of_mem (hnodup : (rows.map AudioJob.id).Nodup) (h : job ∈ rows) :
    rows.stateOf job.id = some job.state := by
  rw [Store.stateOf, find?_key_of_mem hnodup h rfl, Option.map_some]

theorem id_requeue (now : Int) (job : AudioJob) : (Store.requeue now job).id = job.id := by
  rw [Store.requeue]
  split
  · rfl
  · rfl

theorem map_id_requeue (rows : Store) (now : Int) :
    (rows.map (Store.requeue now)).map AudioJob.id = rows.map AudioJob.id := by
  rw [map_map]
  exact map_congr_left fun job _ => id_requeue now job

theorem mem_requeueIncompleteJobs : job ∈ (rows.requeueIncompleteJobs now).2 ↔
      job ∈ (rows.requeueIncompleteJobs now).1 ∧ job.state = .queued := by
  simp only [Store.requeueIncompleteJobs, mem_insertionSort, mem_filter, decide_eq_true_eq]

theorem nodup_requeueIncompleteJobs (h : (rows.map AudioJob.id).Nodup) (now : Int) :
    ((rows.requeueIncompleteJobs now).2.map AudioJob.id).Nodup := by
  have hperm := (perm_insertionSort (fun a b : AudioJob => a.createdAt ≤ b.createdAt)
    ((rows.map (Store.requeue now)).filter (·.state = .queued))).map AudioJob.id
  apply hperm.nodup_iff.2
  have hrows := h
  rw [← map_id_requeue rows now] at hrows
  exact hrows.sublist (filter_sublist.map AudioJob.id)

theorem changes_markProcessing (rows : Store) (id : String) (now : Int) :
    rows.Changes (rows.markProcessing id now) id :=
  changes_update fun _ => rfl

theorem changes_markCompleted (rows : Store) (id : String) (outputs : Outputs) (now : Int) :
    rows.Changes (rows.markCompleted id outputs now) id :=
  changes_update fun _ => rfl

theorem changes_markFailed (rows : Store) (id error : String) (outputs : Outputs) (now : Int) :
    rows.Changes (rows.markFailed id error outputs now) id :=
  changes_update fun _ => rfl

theorem Inv.boot (h : Inv s) (now : Int) : Inv (s.boot now) where
  nodup := by
    change ((s.rows.map (Store.requeue now)).map AudioJob.id).Nodup
    rw [map_id_requeue]
    exact h.nodup
  requested := by
    intro job hjob
    obtain ⟨old, hold, rfl⟩ := mem_map.1 hjob
    have hrequested := h.requested old hold
    rw [Store.requeue]
    split
    · exact hrequested
    · exact hrequested
  waiting := by
    simp only [AudioService.waiting, AudioService.boot, Process.left, Worker.taking, Command.putting,
      append_nil]
    exact nodup_requeueIncompleteJobs h.nodup now
  queued := by
    intro id hid
    simp only [AudioService.waiting, AudioService.boot, Process.left, Worker.taking,
      Command.putting, append_nil] at hid
    obtain ⟨job, hjob, rfl⟩ := mem_map.1 hid
    obtain ⟨hmem, hstate⟩ := mem_requeueIncompleteJobs.1 hjob
    have hnodup : ((s.rows.map (Store.requeue now)).map AudioJob.id).Nodup := by
      rw [map_id_requeue]
      exact h.nodup
    rw [← hstate]
    exact stateOf_of_mem hnodup hmem
  command := trivial
  worker := trivial
  threads := fun _ => ⟨rfl, rfl⟩

theorem Inv.crash (h : Inv s) : Inv s.crash :=
  h.keep rfl nodup_nil nofun trivial trivial fun _ => ⟨rfl, rfl⟩

theorem Inv.requeue (h : Inv s) (hstarting : s.process = .starting left) :
    Inv (s.requeue config) := by
  have hnot : s.process ≠ .running := by
    rw [hstarting]
    nofun
  obtain ⟨hcommand, hworker⟩ := h.threads hnot
  have hwaiting : s.waiting = left ++ s.queue := by
    simp [AudioService.waiting, hstarting, hcommand, hworker, Process.left, Worker.taking,
      Command.putting]
  have hnodup := h.waiting
  rw [hwaiting] at hnodup
  have hdrop : Inv { s with process := .running } := by
    have hrest : ({ s with process := .running } : AudioService).waiting = s.queue := by
      simp [AudioService.waiting, hcommand, hworker, Process.left, Worker.taking, Command.putting]
    refine h.keep rfl ?_ ?_ h.command h.worker fun hne => (hne rfl).elim
    · rw [hrest]
      exact hnodup.of_append_right
    · rw [hrest, hwaiting]
      exact fun id hid => mem_append_right _ hid
  rw [AudioService.requeue, hstarting]
  cases left with
  | nil => exact hdrop
  | cons id left =>
    dsimp only
    split
    · exact hdrop
    · have hmoved : ({ s with queue := s.queue ++ [id], process := .starting left } :
          AudioService).waiting = left ++ (s.queue ++ [id]) := by
        simp [AudioService.waiting, hcommand, hworker, Process.left, Worker.taking, Command.putting]
      have hperm : (left ++ (s.queue ++ [id])).Perm (id :: left ++ s.queue) := by
        rw [← append_assoc]
        exact perm_append_singleton id (left ++ s.queue)
      refine h.keep rfl ?_ ?_ h.command h.worker fun _ => ⟨hcommand, hworker⟩
      · rw [hmoved]
        exact hperm.nodup_iff.2 hnodup
      · rw [hmoved, hwaiting]
        exact fun id hid => hperm.mem_iff.1 hid

theorem Inv.playAudio (h : Inv s) (hrun : s.process = .running) (hidle : s.command = .idle)
    (payload : PlayAudio) (source uuid : String) (now : Int) :
    Inv (s.playAudio config payload source uuid now) := by
  have hputting : s.command.putting = [] := by
    rw [hidle]
    rfl
  rw [AudioService.playAudio]
  split
  · exact h.setCommand hrun s.command h.command rfl _
  · rename_i request hparse
    have hrequested := requested_of_parse hparse
    split
    · rename_i previous _
      exact h.setCommand hrun (.dedupe request source previous now) hrequested hputting.symm _
    · exact h.setCommand hrun (.create request source now) hrequested hputting.symm _

theorem Inv.createDedupedJob (h : Inv s) (hrun : s.process = .running)
    (hcommand : s.command = .dedupe request source previous asked)
    (hfresh : ∀ row ∈ s.rows, row.id ≠ id) (now : Int) : Inv (s.createDedupedJob id now) := by
  have hrequest := h.command
  rw [hcommand] at hrequest
  rw [AudioService.createDedupedJob, hcommand]
  refine h.insert (s.rows.createDedupedJob id request source previous now).2 hfresh hrequest rfl
    rfl (.inl ?_) ?_ hrun
  · simp [AudioService.waiting, hcommand, Command.putting]
  · exact ⟨_, getJob_append_new hfresh, rfl, rfl⟩

theorem Inv.publishDeduped (h : Inv s) (hrun : s.process = .running)
    (hcommand : s.command = .answer source job) : Inv s.publishDeduped := by
  rw [AudioService.publishDeduped, hcommand]
  refine h.setCommand hrun .idle trivial ?_ _
  rw [hcommand]
  rfl

theorem Inv.createJob (h : Inv s) (hrun : s.process = .running)
    (hcommand : s.command = .create request source asked) (hfresh : ∀ row ∈ s.rows, row.id ≠ id)
    (now : Int) : Inv (s.createJob id now) := by
  have hrequest := h.command
  rw [hcommand] at hrequest
  rw [AudioService.createJob, hcommand]
  refine h.insert (s.rows.createJob id request source now).2 hfresh hrequest rfl rfl
    (.inr ⟨?_, rfl⟩) ?_ hrun
  · simp [AudioService.waiting, hcommand, Command.putting, Store.createJob]
  · exact ⟨_, getJob_append_new hfresh, rfl, rfl⟩

theorem Inv.putNowait (h : Inv s) (hrun : s.process = .running)
    (hcommand : s.command = .created source job) : Inv (s.putNowait config) := by
  have hholds := h.command
  rw [hcommand] at hholds
  rw [AudioService.putNowait, hcommand]
  dsimp only
  split
  · refine h.setCommand hrun (.full source job) hholds ?_ _
    rw [hcommand]
    rfl
  · have hwaiting : s.waiting = s.process.left ++ s.queue ++ s.worker.taking ++ [job.id] := by
      rw [AudioService.waiting, hcommand]
      rfl
    have hperm : (s.process.left ++ (s.queue ++ [job.id]) ++ s.worker.taking ++ []).Perm s.waiting := by
      simp only [hwaiting, append_nil, append_assoc]
      exact .append_left _ (.append_left _ perm_append_comm)
    refine h.keep rfl (hperm.nodup_iff.2 h.waiting) (fun id hid => hperm.mem_iff.1 hid) trivial
      h.worker fun hne => (hne hrun).elim

theorem Inv.rejectFull (h : Inv s) (hrun : s.process = .running)
    (hcommand : s.command = .full source job) (now : Int) : Inv (s.rejectFull now) := by
  have hholds := h.command
  rw [hcommand] at hholds
  have hwaiting : s.waiting = (s.process.left ++ s.queue ++ s.worker.taking ++ []) ++ [job.id] := by
    simp only [AudioService.waiting, hcommand, Command.putting, append_nil]
  have hnodup := h.waiting
  rw [hwaiting] at hnodup
  rw [AudioService.rejectFull, hcommand]
  refine h.update rfl (fun _ => rfl) (fun _ => rfl) ?_ ?_ trivial ?_ hrun
  · rw [hwaiting]
    exact sublist_append_left _ _
  · intro hmem
    exact (nodup_append.1 hnodup).2.2 _ hmem _ (mem_singleton_self _) rfl
  · refine h.worker.changes (changes_markFailed s.rows job.id _ _ now) ?_
    intro other state hother hstate
    exact ne_of_stateOf hother.stateOf hholds.stateOf hstate

theorem Inv.get (h : Inv s) (hrun : s.process = .running) (hworker : s.worker = .idle) :
    Inv s.get := by
  rw [AudioService.get]
  split
  · rename_i id queue hqueue
    have hwaiting : s.waiting = s.process.left ++ id :: queue ++ [] ++ s.command.putting := by
      rw [AudioService.waiting, hqueue, hworker]
      rfl
    have hperm : (s.process.left ++ queue ++ [id] ++ s.command.putting).Perm s.waiting := by
      rw [hwaiting, append_nil, append_assoc s.process.left]
      exact List.Perm.append_right _ (List.Perm.append_left _ (perm_append_singleton id queue))
    exact h.keep rfl (hperm.nodup_iff.2 h.waiting) (fun id hid => hperm.mem_iff.1 hid) h.command
      trivial fun hne => (hne hrun).elim
  · exact h

theorem Inv.command_changes (h : Inv s) (hrows : s.rows.Changes rows id)
    (hstate : s.rows.stateOf id = some state) (hne : state ≠ .deduped)
    (hputting : id ∉ s.command.putting) : s.command.Sound rows := by
  apply h.command.changes hrows
  intro job hjob
  rcases hjob with hjob | hjob
  · exact ne_of_stateOf hjob.stateOf hstate hne.symm
  · rintro rfl
    exact hputting hjob

theorem Inv.not_waiting (h : Inv s) (hstate : s.rows.stateOf id = some state)
    (hne : state ≠ .queued) : id ∉ s.waiting :=
  fun hmem => ne_of_stateOf (h.queued id hmem) hstate hne.symm rfl

theorem putting_subset_waiting : ∀ id ∈ s.command.putting, id ∈ s.waiting :=
  fun _ hid => mem_append_right _ hid

theorem Inv.record (h : Inv s) (hrun : s.process = .running) (set : AudioJob → AudioJob)
    (hset : ∀ job, (set job).id = job.id)
    (hrequest : ∀ job, (set job).toAudioRequest = job.toAudioRequest)
    (hholds : s.rows.Holds job state) (hqueued : state ≠ .queued) (hdeduped : state ≠ .deduped)
    (worker : Worker) (htaking : worker.taking = s.worker.taking)
    (hworker : worker.Sound (s.rows.update job.id set)) :
    Inv { s with rows := s.rows.update job.id set, worker } := by
  have hwaiting : ({ s with rows := s.rows.update job.id set, worker } : AudioService).waiting =
      s.waiting := by
    simp only [AudioService.waiting, htaking]
  have hnot := h.not_waiting hholds.stateOf hqueued
  refine h.update rfl hset hrequest ?_ ?_ ?_ hworker hrun
  · rw [hwaiting]
  · rw [hwaiting]
    exact hnot
  · apply h.command_changes (changes_update hset) hholds.stateOf hdeduped
    intro hmem
    exact hnot (putting_subset_waiting _ hmem)

theorem getJob_update (set : AudioJob → AudioJob) (hset : ∀ job, (set job).id = job.id)
    (h : rows.getJob id = some job) : (rows.update id set).getJob id = some (set job) :=
  find?_setWhere hset h

theorem id_of_getJob (h : rows.getJob id = some job) : job.id = id := (mem_of_find?_key h).2

theorem Inv.markProcessing (h : Inv s) (hrun : s.process = .running) (hworker : s.worker = .taken id)
    (now : Int) : Inv (s.markProcessing now) := by
  have hwaiting : s.waiting = s.process.left ++ s.queue ++ [id] ++ s.command.putting := by
    rw [AudioService.waiting, hworker]
    rfl
  have hid : id ∈ s.waiting := by
    rw [hwaiting]
    simp
  have hstate := h.queued id hid
  obtain ⟨row, hrow, -⟩ := stateOf_eq_some_iff.1 hstate
  have hnodup := h.waiting
  rw [hwaiting, append_assoc] at hnodup
  have hnot : id ∉ s.process.left ++ s.queue ++ [] ++ s.command.putting := by
    rw [append_nil]
    exact (nodup_cons.1 (nodup_middle.1 hnodup)).1
  have hjob : (s.rows.markProcessing id now).getJob id = some (row.process now) :=
    getJob_update (AudioJob.process now) (fun _ => rfl) hrow
  have hafter : s.markProcessing now = { s with
      rows := s.rows.markProcessing id now, worker := .playing (row.process now) } := by
    rw [AudioService.markProcessing, hworker]
    simp only [hjob, Option.map_some, Option.getD_some]
  rw [hafter]
  refine h.update rfl (fun _ => rfl) (fun _ => rfl) ?_ hnot ?_ ?_ hrun
  · rw [hwaiting]
    exact .append_right (.append_left (nil_sublist _) _) _
  · apply h.command_changes (changes_markProcessing s.rows id now) hstate (by rintro ⟨⟩)
    intro hmem
    exact hnot (mem_append_right _ hmem)
  · obtain rfl : row.id = id := id_of_getJob hrow
    exact ⟨_, hjob, rfl, rfl⟩

theorem Inv.play (h : Inv s) (hrun : s.process = .running) (hworker : s.worker = .playing job)
    (playback : Playback) : Inv (s.play playback) := by
  have hholds := h.worker
  rw [hworker] at hholds
  have htaking : s.worker.taking = [] := by
    rw [hworker]
    rfl
  rw [AudioService.play, hworker]
  dsimp only
  by_cases hlocal : job.playLocal = true
  · rw [if_pos hlocal]
    cases playback with
    | generateRaises error =>
      exact h.setWorker hrun (.failing job {} error) (.inl ⟨hholds, .inl ⟨hlocal, rfl⟩⟩) htaking.symm _
    | playRaises audioPath error =>
      exact h.setWorker hrun (.failing job { audioPath } error) (.inl ⟨hholds, .inl ⟨hlocal, rfl⟩⟩)
        htaking.symm _
    | played audioPath =>
      exact h.setWorker hrun (.delivering job { audioPath, localState := .completed })
        ⟨hholds, fun _ => rfl, rfl⟩ htaking.symm _
  · rw [if_neg hlocal]
    exact h.setWorker hrun (.delivering job {}) ⟨hholds, fun hl => (hlocal hl).elim, rfl⟩
      htaking.symm _

theorem Inv.deliver (h : Inv s) (hrun : s.process = .running)
    (hworker : s.worker = .delivering job outputs) (delivery : Delivery) : Inv (s.deliver delivery) := by
  have hsound := h.worker
  rw [hworker] at hsound
  obtain ⟨hholds, hlocal, hspeaker⟩ := hsound
  have htaking : s.worker.taking = [] := by
    rw [hworker]
    rfl
  rw [AudioService.deliver, hworker]
  dsimp only
  by_cases hrequested : job.playSpeaker = true
  · rw [if_pos hrequested]
    cases delivery with
    | raises error =>
      exact h.setWorker hrun (.failing job outputs error)
        (.inl ⟨hholds, .inr ⟨hrequested, hspeaker⟩⟩) htaking.symm _
    | delivered speakerPayload =>
      exact h.setWorker hrun (.completing job { outputs with speakerPayload, speakerState := .completed })
        ⟨hholds, hlocal, fun _ => rfl⟩ htaking.symm _
  · rw [if_neg hrequested]
    exact h.setWorker hrun (.completing job outputs)
      ⟨hholds, hlocal, fun hr => (hrequested hr).elim⟩ htaking.symm _

theorem Inv.logCompleted (h : Inv s) (hrun : s.process = .running)
    (hworker : s.worker = .logging job completed outputs) (raises : Option String) :
    Inv (s.logCompleted raises) := by
  have hsound := h.worker
  rw [hworker] at hsound
  obtain ⟨hholds, hcomplete, hsame⟩ := hsound
  have htaking : s.worker.taking = [] := by
    rw [hworker]
    rfl
  rw [AudioService.logCompleted, hworker]
  cases raises with
  | some error =>
    exact h.setWorker hrun (.failing job outputs error) (.inr ⟨hholds, hcomplete⟩) htaking.symm _
  | none => exact h.setWorker hrun (.publishing completed) hsame htaking.symm _

theorem Inv.publishResult (h : Inv s) (hrun : s.process = .running)
    (hworker : s.worker = .publishing completed) : Inv s.publishResult := by
  rw [AudioService.publishResult, hworker]
  refine h.setWorker hrun .idle trivial ?_ _
  rw [hworker]
  rfl

theorem Inv.logFailed (h : Inv s) (hrun : s.process = .running)
    (hworker : s.worker = .loggingFailure failed error) (raises : Bool) :
    Inv (s.logFailed raises) := by
  have htaking : s.worker.taking = [] := by
    rw [hworker]
    rfl
  rw [AudioService.logFailed, hworker]
  cases raises with
  | true => exact h.setWorker hrun .dead trivial htaking.symm _
  | false => exact h.setWorker hrun .idle trivial htaking.symm _

theorem Inv.markCompleted (h : Inv s) (hrun : s.process = .running)
    (hworker : s.worker = .completing job outputs) (now : Int) : Inv (s.markCompleted now) := by
  have hsound := h.worker
  rw [hworker] at hsound
  obtain ⟨hholds, hcomplete⟩ := hsound
  obtain ⟨row, hrow, -⟩ := id hholds
  have hjob : (s.rows.markCompleted job.id outputs now).getJob job.id =
      some (row.complete outputs now) := getJob_update _ (fun _ => rfl) hrow
  have hafter : s.markCompleted now = { s with
      rows := s.rows.markCompleted job.id outputs now
      worker := .logging job (row.complete outputs now) outputs } := by
    rw [AudioService.markCompleted, hworker]
    simp only [hjob, Option.map_some, Option.getD_some]
  rw [hafter]
  refine h.record hrun (AudioJob.complete outputs now) (fun _ => rfl) (fun _ => rfl) hholds nofun nofun _
    ?_ ?_
  · rw [hworker]
    rfl
  · have hsame : (row.complete outputs now).id = job.id := id_of_getJob hjob
    refine ⟨holds_update (fun _ => rfl) (fun _ => rfl) (fun _ => rfl) hholds, hcomplete, ?_⟩
    exact ⟨_, hsame ▸ hjob, rfl, rfl⟩

theorem Inv.markFailed (h : Inv s) (hrun : s.process = .running)
    (hworker : s.worker = .failing job outputs error) (now : Int) : Inv (s.markFailed now) := by
  have hsound := h.worker
  rw [hworker] at hsound
  obtain ⟨state, hholds, hqueued, hdeduped⟩ :
      ∃ state, s.rows.Holds job state ∧ state ≠ .queued ∧ state ≠ .deduped := by
    rcases hsound with hsound | hsound
    · exact ⟨_, hsound.1, nofun, nofun⟩
    · exact ⟨_, hsound.1, nofun, nofun⟩
  obtain ⟨row, hrow, -⟩ := id hholds
  have hjob : (s.rows.markFailed job.id error (failedOutputs job outputs) now).getJob job.id =
      some (row.fail error (failedOutputs job outputs) now) := getJob_update _ (fun _ => rfl) hrow
  have hafter : s.markFailed now = { s with
      rows := s.rows.markFailed job.id error (failedOutputs job outputs) now
      worker := .loggingFailure (row.fail error (failedOutputs job outputs) now) error } := by
    rw [AudioService.markFailed, hworker]
    simp only [hjob, Option.map_some, Option.getD_some]
  rw [hafter]
  refine h.record hrun (AudioJob.fail error (failedOutputs job outputs) now) (fun _ => rfl)
    (fun _ => rfl) hholds hqueued hdeduped _ ?_ ?_
  · rw [hworker]
    rfl
  · have hsame : (row.fail error (failedOutputs job outputs) now).id = job.id := id_of_getJob hjob
    exact ⟨_, hsame ▸ hjob, rfl, rfl⟩

theorem Inv.after (h : Inv s) (henabled : s.Enabled a) : Inv (s.after config a) := by
  cases a with
  | boot now => exact h.boot now
  | requeue =>
    obtain ⟨left, hstarting⟩ := henabled
    exact h.requeue hstarting
  | crash => exact h.crash
  | playAudio payload source uuid now => exact h.playAudio henabled.1 henabled.2 payload source uuid now
  | createDedupedJob id now =>
    obtain ⟨hrun, ⟨request, source, previous, asked, hcommand⟩, hfresh⟩ := henabled
    exact h.createDedupedJob hrun hcommand hfresh now
  | publishDeduped =>
    obtain ⟨hrun, source, job, hcommand⟩ := henabled
    exact h.publishDeduped hrun hcommand
  | createJob id now =>
    obtain ⟨hrun, ⟨request, source, asked, hcommand⟩, hfresh⟩ := henabled
    exact h.createJob hrun hcommand hfresh now
  | putNowait =>
    obtain ⟨hrun, source, job, hcommand⟩ := henabled
    exact h.putNowait hrun hcommand
  | rejectFull now =>
    obtain ⟨hrun, source, job, hcommand⟩ := henabled
    exact h.rejectFull hrun hcommand now
  | get => exact h.get henabled.1 henabled.2.1
  | markProcessing now =>
    obtain ⟨hrun, id, hworker⟩ := henabled
    exact h.markProcessing hrun hworker now
  | play playback =>
    obtain ⟨hrun, job, hworker⟩ := henabled
    exact h.play hrun hworker playback
  | deliver delivery =>
    obtain ⟨hrun, job, outputs, hworker⟩ := henabled
    exact h.deliver hrun hworker delivery
  | markCompleted now =>
    obtain ⟨hrun, job, outputs, hworker⟩ := henabled
    exact h.markCompleted hrun hworker now
  | logCompleted raises =>
    obtain ⟨hrun, job, completed, outputs, hworker⟩ := henabled
    exact h.logCompleted hrun hworker raises
  | publishResult =>
    obtain ⟨hrun, completed, hworker⟩ := henabled
    exact h.publishResult hrun hworker
  | markFailed now =>
    obtain ⟨hrun, job, outputs, error, hworker⟩ := henabled
    exact h.markFailed hrun hworker now
  | logFailed raises =>
    obtain ⟨hrun, failed, error, hworker⟩ := henabled
    exact h.logFailed hrun hworker raises

theorem inv_states (hrun : (system config).Run {} tr s) : ∀ t ∈ states tr s, Inv t := by
  apply hrun.forall_states inv_initial
  rintro p - hp u ⟨henabled, rfl⟩
  exact hp.after henabled

end

end Trakrai.AudioManager
