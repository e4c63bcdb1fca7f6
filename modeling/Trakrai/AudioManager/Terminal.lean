import Trakrai.AudioManager.Steps

namespace Trakrai.AudioManager
open List Lib

inductive RowsChange (s : AudioService) : Store → Prop where
  | same : RowsChange s s.rows
  | requeue (now : Int) : RowsChange s (s.rows.map (Store.requeue now))
  | dedupe {id : String} (hcommand : s.command = .dedupe request source previous asked)
      (hfresh : ∀ row ∈ s.rows, row.id ≠ id) (now : Int) :
      RowsChange s (s.rows.createDedupedJob id request source previous now).1
  | create {id : String} (hcommand : s.command = .create request source asked)
      (hfresh : ∀ row ∈ s.rows, row.id ≠ id) (now : Int) :
      RowsChange s (s.rows.createJob id request source now).1
  | reject (hcommand : s.command = .full source job) (now : Int) :
      RowsChange s (s.rows.markFailed job.id "audio queue is full"
        { localState := .failed, speakerState := .failed } now)
  | process {id : String} (hworker : s.worker = .taken id) (now : Int) :
      RowsChange s (s.rows.markProcessing id now)
  | complete (hworker : s.worker = .completing job outputs) (now : Int) :
      RowsChange s (s.rows.markCompleted job.id outputs now)
  | fail (hworker : s.worker = .failing job outputs error) (now : Int) :
      RowsChange s (s.rows.markFailed job.id error (failedOutputs job outputs) now)

section
variable {config : Config} {s : AudioService} {rows : Store} {id : String} {job : AudioJob}

theorem rowsChange (config : Config) (henabled : s.Enabled a) : RowsChange s (s.after config a).rows := by
  cases a with
  | boot now => exact .requeue now
  | requeue =>
    obtain ⟨left, hstarting⟩ := henabled
    simp only [AudioService.after, AudioService.requeue, hstarting]
    cases left with
    | nil => exact .same
    | cons id left =>
      dsimp only
      split
      · exact .same
      · exact .same
  | crash => exact .same
  | playAudio payload source uuid now =>
    simp only [AudioService.after, AudioService.playAudio]
    split
    · exact .same
    · split
      · exact .same
      · exact .same
  | createDedupedJob id now =>
    obtain ⟨-, ⟨request, source, previous, asked, hcommand⟩, hfresh⟩ := henabled
    simp only [AudioService.after, AudioService.createDedupedJob, hcommand]
    exact .dedupe hcommand hfresh now
  | publishDeduped =>
    obtain ⟨-, source, job, hcommand⟩ := henabled
    simp only [AudioService.after, AudioService.publishDeduped, hcommand]
    exact .same
  | createJob id now =>
    obtain ⟨-, ⟨request, source, asked, hcommand⟩, hfresh⟩ := henabled
    simp only [AudioService.after, AudioService.createJob, hcommand]
    exact .create hcommand hfresh now
  | putNowait =>
    obtain ⟨-, source, job, hcommand⟩ := henabled
    simp only [AudioService.after, AudioService.putNowait, hcommand]
    split
    · exact .same
    · exact .same
  | rejectFull now =>
    obtain ⟨-, source, job, hcommand⟩ := henabled
    simp only [AudioService.after, AudioService.rejectFull, hcommand]
    exact .reject hcommand now
  | get =>
    simp only [AudioService.after, AudioService.get]
    split
    · exact .same
    · exact .same
  | markProcessing now =>
    obtain ⟨-, id, hworker⟩ := henabled
    simp only [AudioService.after, AudioService.markProcessing, hworker]
    exact .process hworker now
  | play playback =>
    obtain ⟨-, job, hworker⟩ := henabled
    simp only [AudioService.after, AudioService.play, hworker]
    split
    · cases playback with
      | generateRaises error => exact .same
      | playRaises audioPath error => exact .same
      | played audioPath => exact .same
    · exact .same
  | deliver delivery =>
    obtain ⟨-, job, outputs, hworker⟩ := henabled
    simp only [AudioService.after, AudioService.deliver, hworker]
    split
    · cases delivery with
      | raises error => exact .same
      | delivered payload => exact .same
    · exact .same
  | markCompleted now =>
    obtain ⟨-, job, outputs, hworker⟩ := henabled
    simp only [AudioService.after, AudioService.markCompleted, hworker]
    exact .complete hworker now
  | logCompleted raises =>
    obtain ⟨-, job, completed, outputs, hworker⟩ := henabled
    simp only [AudioService.after, AudioService.logCompleted, hworker]
    cases raises with
    | some error => exact .same
    | none => exact .same
  | publishResult =>
    obtain ⟨-, completed, hworker⟩ := henabled
    simp only [AudioService.after, AudioService.publishResult, hworker]
    exact .same
  | markFailed now =>
    obtain ⟨-, job, outputs, error, hworker⟩ := henabled
    simp only [AudioService.after, AudioService.markFailed, hworker]
    exact .fail hworker now
  | logFailed raises =>
    obtain ⟨-, failed, error, hworker⟩ := henabled
    simp only [AudioService.after, AudioService.logFailed, hworker]
    cases raises with
    | true => exact .same
    | false => exact .same

def Worker.Honest : Worker → Prop
  | .failing job outputs _ => outputs.Missing job
  | _ => True

/-- The event log takes the event of a completed job. -/
def Action.Logs : Action → Prop
  | .logCompleted raises => raises = none
  | _ => True

theorem Outputs.Missing.not_complete {outputs : Outputs} (h : outputs.Missing job) :
    ¬ outputs.Complete job := by
  rintro ⟨hlocal, hspeaker⟩
  rcases h with ⟨hrequested, hstate⟩ | ⟨hrequested, hstate⟩
  · rw [hlocal hrequested] at hstate
    cases hstate
  · rw [hspeaker hrequested] at hstate
    cases hstate

theorem Inv.holds_of_failing (h : Inv s) (hhonest : s.worker.Honest)
    (hworker : s.worker = .failing job outputs error) :
    s.rows.Holds job .processing ∧ outputs.Missing job := by
  have hsound := h.worker
  rw [hworker] at hsound hhonest
  rcases hsound with hsound | ⟨-, hcomplete⟩
  · exact hsound
  · exact (hhonest.not_complete hcomplete).elim

theorem Inv.honest_after (h : Inv s) (henabled : s.Enabled a) (hhonest : s.worker.Honest)
    (hlogs : a.Logs) : (s.after config a).worker.Honest := by
  cases a with
  | boot now => trivial
  | requeue =>
    simp only [AudioService.after, AudioService.requeue]
    split
    · split
      · exact hhonest
      · exact hhonest
    · exact hhonest
    · exact hhonest
  | crash => trivial
  | playAudio payload source uuid now =>
    simp only [AudioService.after, AudioService.playAudio]
    split
    · exact hhonest
    · split
      · exact hhonest
      · exact hhonest
  | createDedupedJob id now =>
    obtain ⟨-, ⟨request, source, previous, asked, hcommand⟩, -⟩ := henabled
    simp only [AudioService.after, AudioService.createDedupedJob, hcommand]
    exact hhonest
  | publishDeduped =>
    obtain ⟨-, source, job, hcommand⟩ := henabled
    simp only [AudioService.after, AudioService.publishDeduped, hcommand]
    exact hhonest
  | createJob id now =>
    obtain ⟨-, ⟨request, source, asked, hcommand⟩, -⟩ := henabled
    simp only [AudioService.after, AudioService.createJob, hcommand]
    exact hhonest
  | putNowait =>
    obtain ⟨-, source, job, hcommand⟩ := henabled
    simp only [AudioService.after, AudioService.putNowait, hcommand]
    split
    · exact hhonest
    · exact hhonest
  | rejectFull now =>
    obtain ⟨-, source, job, hcommand⟩ := henabled
    simp only [AudioService.after, AudioService.rejectFull, hcommand]
    exact hhonest
  | get =>
    simp only [AudioService.after, AudioService.get]
    split
    · trivial
    · exact hhonest
  | markProcessing now =>
    obtain ⟨-, id, hworker⟩ := henabled
    simp only [AudioService.after, AudioService.markProcessing, hworker]
    cases (s.rows.markProcessing id now).getJob id with
    | none => trivial
    | some row => trivial
  | play playback =>
    obtain ⟨-, job, hworker⟩ := henabled
    simp only [AudioService.after, AudioService.play, hworker]
    split
    · rename_i hlocal
      cases playback with
      | generateRaises error => exact .inl ⟨hlocal, rfl⟩
      | playRaises audioPath error => exact .inl ⟨hlocal, rfl⟩
      | played audioPath => trivial
    · trivial
  | deliver delivery =>
    obtain ⟨-, job, outputs, hworker⟩ := henabled
    have hsound := h.worker
    rw [hworker] at hsound
    simp only [AudioService.after, AudioService.deliver, hworker]
    split
    · rename_i hrequested
      cases delivery with
      | raises error => exact .inr ⟨hrequested, hsound.2.2⟩
      | delivered payload => trivial
    · trivial
  | markCompleted now =>
    obtain ⟨-, job, outputs, hworker⟩ := henabled
    have hsound := h.worker
    rw [hworker] at hsound
    obtain ⟨row, hrow, -⟩ := hsound.1
    have hjob : (s.rows.markCompleted job.id outputs now).getJob job.id =
        some (row.complete outputs now) := getJob_update _ (fun _ => rfl) hrow
    simp only [AudioService.after, AudioService.markCompleted, hworker, hjob, Option.map_some,
      Option.getD_some]
    trivial
  | logCompleted raises =>
    obtain ⟨-, job, completed, outputs, hworker⟩ := henabled
    obtain rfl : raises = none := hlogs
    simp only [AudioService.after, AudioService.logCompleted, hworker]
    trivial
  | publishResult =>
    obtain ⟨-, completed, hworker⟩ := henabled
    simp only [AudioService.after, AudioService.publishResult, hworker]
    trivial
  | markFailed now =>
    obtain ⟨-, job, outputs, error, hworker⟩ := henabled
    simp only [AudioService.after, AudioService.markFailed, hworker]
    cases (s.rows.markFailed job.id error (failedOutputs job outputs) now).getJob job.id with
    | none => trivial
    | some row => trivial
  | logFailed raises =>
    obtain ⟨-, failed, error, hworker⟩ := henabled
    simp only [AudioService.after, AudioService.logFailed, hworker]
    cases raises with
    | true => trivial
    | false => trivial

def Final (s t : AudioService) : Prop :=
  ∀ id state, s.rows.stateOf id = some state → state.terminal = true →
    t.rows.stateOf id = some state

theorem Store.Changes.final (h : rows.Changes rows' other) (hother : rows.stateOf other = some state')
    (hopen : state'.terminal = false) (hid : rows.stateOf id = some state)
    (hterminal : state.terminal = true) : rows'.stateOf id = some state := by
  have hne : id ≠ other := by
    apply ne_of_stateOf hid hother
    rintro rfl
    rw [hterminal] at hopen
    cases hopen
  exact (h.stateOf hne).trans hid

theorem stateOf_requeue (now : Int) (hid : rows.stateOf id = some state)
    (hterminal : state.terminal = true) :
    Store.stateOf (rows.map (Store.requeue now)) id = some state := by
  obtain ⟨row, hrow, rfl⟩ := stateOf_eq_some_iff.1 hid
  have hsame : Store.requeue now row = row := if_pos hterminal
  apply stateOf_eq_some_iff.2
  refine ⟨row, ?_, rfl⟩
  rw [Store.getJob, find?_key_map (id_requeue now)]
  rw [Store.getJob] at hrow
  rw [hrow, Option.map_some, hsame]

theorem Inv.stateOf_after (h : Inv s) (henabled : s.Enabled a) (hid : s.rows.stateOf id = some state)
    (hterminal : state.terminal = true)
    (hfail : ∀ job outputs error, s.worker = .failing job outputs error → id ≠ job.id) :
    (s.after config a).rows.stateOf id = some state := by
  have hfresh {new : String} {job : AudioJob} (hnew : ∀ row ∈ s.rows, row.id ≠ new)
      (hjob : job.id = new) : Store.stateOf (s.rows ++ [job]) id = some state := by
    obtain ⟨row, hrow, rfl⟩ := mem_of_stateOf hid
    have hne : row.id ≠ job.id := by
      rw [hjob]
      exact hnew row hrow
    exact ((changes_append job).stateOf hne).trans hid
  have hchange := rowsChange config henabled
  generalize (s.after config a).rows = rows' at hchange ⊢
  cases hchange with
  | same => exact hid
  | requeue now => exact stateOf_requeue now hid hterminal
  | dedupe hcommand hnew now => exact hfresh hnew rfl
  | create hcommand hnew now => exact hfresh hnew rfl
  | reject hcommand now =>
    have hholds := h.command
    rw [hcommand] at hholds
    exact (changes_markFailed _ _ _ _ now).final hholds.stateOf rfl hid hterminal
  | @process taken hworker now =>
    have hqueued : s.rows.stateOf taken = some .queued := by
      apply h.queued
      rw [AudioService.waiting, hworker]
      exact mem_append_left _ (mem_append_right _ (mem_singleton_self _))
    exact (changes_markProcessing _ _ now).final hqueued rfl hid hterminal
  | complete hworker now =>
    have hsound := h.worker
    rw [hworker] at hsound
    exact (changes_markCompleted _ _ _ now).final hsound.1.stateOf rfl hid hterminal
  | fail hworker now =>
    exact ((changes_markFailed _ _ _ _ now).stateOf (hfail _ _ _ hworker)).trans hid

theorem Inv.final_after (h : Inv s) (henabled : s.Enabled a) (hhonest : s.worker.Honest) :
    Final s (s.after config a) := by
  intro id state hid hterminal
  apply h.stateOf_after henabled hid hterminal
  intro job outputs error hworker
  apply ne_of_stateOf hid (h.holds_of_failing hhonest hworker).1.stateOf
  rintro rfl
  cases hterminal

def FailedMissing (rows : Store) : Prop :=
  ∀ job ∈ rows, job.state = .failed → job.played = false

theorem FailedMissing.update (h : FailedMissing rows) {set : AudioJob → AudioJob}
    (hset : ∀ old ∈ rows, old.id = id → (set old).state = .failed → (set old).played = false) :
    FailedMissing (rows.update id set) := by
  intro job hjob hstate
  rcases mem_setWhere hjob with hjob | ⟨old, hold, hid, rfl⟩
  · exact h job hjob hstate
  · exact hset old hold hid hstate

theorem FailedMissing.append (h : FailedMissing rows) (hjob : job.state ≠ .failed) :
    FailedMissing (rows ++ [job]) := by
  intro other hother hstate
  rcases mem_append.1 hother with hother | hother
  · exact h other hother hstate
  · rw [mem_singleton.1 hother] at hstate
    exact (hjob hstate).elim

theorem played_fail_of_requested (hrequested : job.requested = true) (error : String) (now : Int) :
    (job.fail error { localState := .failed, speakerState := .failed } now).played = false := by
  change ((!job.playLocal || false) && (!job.playSpeaker || false)) = false
  revert hrequested
  rw [AudioRequest.requested]
  cases job.playLocal <;> cases job.playSpeaker <;> simp

theorem played_fail_of_missing {old : AudioJob} {outputs : Outputs} (hmissing : outputs.Missing job)
    (hsame : old.toAudioRequest = job.toAudioRequest) (error : String) (now : Int) :
    (old.fail error (failedOutputs job outputs) now).played = false := by
  have hlocal : old.playLocal = job.playLocal := congrArg AudioRequest.playLocal hsame
  have hspeaker : old.playSpeaker = job.playSpeaker := congrArg AudioRequest.playSpeaker hsame
  change ((!old.playLocal || (failedOutputs job outputs).localState == .completed) &&
    (!old.playSpeaker || (failedOutputs job outputs).speakerState == .completed)) = false
  rw [hlocal, hspeaker]
  rcases hmissing with ⟨hrequested, hstate⟩ | ⟨hrequested, hstate⟩
  · simp [failedOutputs, hrequested, hstate]
  · simp [failedOutputs, hrequested, hstate]

theorem Inv.failedMissing_after (h : Inv s) (henabled : s.Enabled a) (hhonest : s.worker.Honest)
    (hfailed : FailedMissing s.rows) : FailedMissing (s.after config a).rows := by
  have hchange := rowsChange config henabled
  generalize (s.after config a).rows = rows' at hchange ⊢
  cases hchange with
  | same => exact hfailed
  | requeue now =>
    intro job hjob hstate
    obtain ⟨old, hold, rfl⟩ := mem_map.1 hjob
    rw [Store.requeue] at hstate ⊢
    split at hstate
    · rename_i hterminal
      rw [if_pos hterminal]
      exact hfailed old hold hstate
    · cases hstate
  | dedupe hcommand hnew now => exact hfailed.append (by rintro ⟨⟩)
  | create hcommand hnew now => exact hfailed.append (by rintro ⟨⟩)
  | reject hcommand now =>
    apply hfailed.update
    intro old hold _ _
    exact played_fail_of_requested (h.requested old hold) _ now
  | process hworker now | complete hworker now =>
    apply hfailed.update
    intro old _ _ hstate
    cases hstate
  | fail hworker now =>
    obtain ⟨⟨row, hrow, hsame, -⟩, hmissing⟩ := h.holds_of_failing hhonest hworker
    apply hfailed.update
    intro old hold hid _
    have hfound := find?_key_of_mem h.nodup hold hid
    obtain rfl : old = row := Option.some.inj (hfound.symm.trans hrow)
    exact played_fail_of_missing hmissing hsame _ now

def CompletedPlayed (rows : Store) : Prop :=
  ∀ job ∈ rows, job.state = .completed → job.played = true

theorem CompletedPlayed.update (h : CompletedPlayed rows) {set : AudioJob → AudioJob}
    (hset : ∀ old ∈ rows, old.id = id → (set old).state = .completed → (set old).played = true) :
    CompletedPlayed (rows.update id set) := by
  intro job hjob hstate
  rcases mem_setWhere hjob with hjob | ⟨old, hold, hid, rfl⟩
  · exact h job hjob hstate
  · exact hset old hold hid hstate

theorem played_complete {old : AudioJob} {outputs : Outputs} (hcomplete : outputs.Complete job)
    (hsame : old.toAudioRequest = job.toAudioRequest) (now : Int) :
    (old.complete outputs now).played = true := by
  have hlocal : old.playLocal = job.playLocal := congrArg AudioRequest.playLocal hsame
  have hspeaker : old.playSpeaker = job.playSpeaker := congrArg AudioRequest.playSpeaker hsame
  change ((!old.playLocal || outputs.localState == .completed) &&
    (!old.playSpeaker || outputs.speakerState == .completed)) = true
  rw [hlocal, hspeaker]
  simp only [Bool.and_eq_true, Bool.or_eq_true, Bool.not_eq_true', beq_iff_eq]
  refine ⟨?_, ?_⟩
  · cases hl : job.playLocal with
    | false => exact .inl rfl
    | true => exact .inr (hcomplete.1 hl)
  · cases hs : job.playSpeaker with
    | false => exact .inl rfl
    | true => exact .inr (hcomplete.2 hs)

theorem Inv.completedPlayed_after (h : Inv s) (henabled : s.Enabled a)
    (hplayed : CompletedPlayed s.rows) : CompletedPlayed (s.after config a).rows := by
  have hchange := rowsChange config henabled
  generalize (s.after config a).rows = rows' at hchange ⊢
  cases hchange with
  | same => exact hplayed
  | requeue now =>
    intro job hjob hstate
    obtain ⟨old, hold, rfl⟩ := mem_map.1 hjob
    rw [Store.requeue] at hstate ⊢
    split at hstate
    · rename_i hterminal
      rw [if_pos hterminal]
      exact hplayed old hold hstate
    · cases hstate
  | dedupe hcommand hnew now | create hcommand hnew now =>
    exact forall_mem_append.2 ⟨hplayed, forall_mem_singleton.2 (by rintro ⟨⟩)⟩
  | reject hcommand now | process hworker now | fail hworker now =>
    apply hplayed.update
    intro old _ _ hstate
    cases hstate
  | complete hworker now =>
    have hsound := h.worker
    rw [hworker] at hsound
    obtain ⟨⟨row, hrow, hsame, -⟩, hcomplete⟩ := hsound
    apply hplayed.update
    intro old hold hid _
    obtain rfl : old = row := Option.some.inj ((find?_key_of_mem h.nodup hold hid).symm.trans hrow)
    exact played_complete hcomplete hsame now

end

/-- In every run in which the event log takes the events of completed jobs, no job that is over
changes its state, and only jobs with an output missing have failed. -/
theorem outcomes_final (hrun : (system config).Run {} tr s) (hlogs : ∀ p ∈ tr, p.2.Logs) :
    (states tr s).Pairwise Final ∧ ∀ t ∈ states tr s, FailedMissing t.rows := by
  have hhonest : ∀ t ∈ states tr s, Inv t ∧ t.worker.Honest ∧ FailedMissing t.rows := by
    refine hrun.forall_states (I := fun t => Inv t ∧ t.worker.Honest ∧ FailedMissing t.rows)
      ⟨inv_initial, trivial, fun _ h => absurd h not_mem_nil⟩ ?_
    rintro p hp ⟨hinv, hhonest, hfailed⟩ u ⟨henabled, rfl⟩
    exact ⟨hinv.after henabled, hinv.honest_after henabled hhonest (hlogs p hp),
      hinv.failedMissing_after henabled hhonest hfailed⟩
  constructor
  · refine (hrun.pairwise (I := fun _ => True) (fun _ _ _ h _ => h) ?_ (fun _ _ => trivial) trivial ?_).1
    · intro t u v htu huv id state hid hterminal
      exact huv id state (htu id state hid hterminal) hterminal
    · rintro p hp - u ⟨henabled, rfl⟩
      obtain ⟨hinv, hhonest, -⟩ := hhonest p.1 (mem_states_of_mem hp)
      exact hinv.final_after henabled hhonest
  · exact fun t ht => (hhonest t ht).2.2

/-- In every run only a job all of whose outputs were played is recorded as completed, and what is being
played is a job in process. -/
theorem completed_played (hrun : (system config).Run {} tr s) : ∀ t ∈ states tr s,
    (∀ job ∈ t.rows, job.state = .completed → job.played = true) ∧
      ∀ job, t.worker = .playing job → t.rows.Holds job .processing := by
  have hall : ∀ t ∈ states tr s, Inv t ∧ CompletedPlayed t.rows := by
    apply hrun.forall_states (I := fun t => Inv t ∧ CompletedPlayed t.rows)
      ⟨inv_initial, fun _ h => absurd h not_mem_nil⟩
    rintro p - ⟨hinv, hplayed⟩ u ⟨henabled, rfl⟩
    exact ⟨hinv.after henabled, hinv.completedPlayed_after henabled hplayed⟩
  intro t ht
  obtain ⟨hinv, hplayed⟩ := hall t ht
  refine ⟨hplayed, fun job hplay => ?_⟩
  have hsound := hinv.worker
  rwa [hplay] at hsound

def sampleConfig : Config where
  maxPending := 1
  dedupeWindowSec := 10
  defaultLanguage := "en"
  defaultAddress := ""
  lower := id
  sha256 := id

def playOnce : List Action :=
  [.boot 0, .requeue, .playAudio { text := some "hi" } "ui" "r1" 1, .createJob "j1" 1, .putNowait,
    .get, .markProcessing 2, .play (.played "hi.wav"), .deliver (.raises ""), .markCompleted 3]

theorem enabled_playOnce :
    ∀ p ∈ (replay (AudioService.after sampleConfig) {} playOnce).1, p.1.Enabled p.2 := by
  intro p hp
  simp only [playOnce, replay, mem_cons, not_mem_nil, or_false] at hp
  obtain rfl | rfl | rfl | rfl | rfl | rfl | rfl | rfl | rfl | rfl := hp
  · rfl
  · exact ⟨_, rfl⟩
  · exact ⟨rfl, rfl⟩
  · exact ⟨rfl, ⟨_, _, _, rfl⟩, fun _ h => absurd h not_mem_nil⟩
  · exact ⟨rfl, _, _, rfl⟩
  · exact ⟨rfl, rfl, cons_ne_nil _ _⟩
  · exact ⟨rfl, _, rfl⟩
  · exact ⟨rfl, _, rfl⟩
  · exact ⟨rfl, _, _, rfl⟩
  · exact ⟨rfl, _, _, rfl⟩

def afterPlayOnce : AudioService := (replay (AudioService.after sampleConfig) {} playOnce).2

theorem run_playOnce : (system sampleConfig).Run {}
    (replay (AudioService.after sampleConfig) {} playOnce).1 afterPlayOnce :=
  System.run_replay playOnce enabled_playOnce

theorem outcomes_final_playOnce :
    ∃ tr s, (system sampleConfig).Run {} tr s ∧ tr.map Prod.snd = playOnce ∧ (∀ p ∈ tr, p.2.Logs) ∧
      (states tr s).Pairwise Final ∧ ∀ t ∈ states tr s, FailedMissing t.rows := by
  have hall : ∀ a ∈ playOnce, a.Logs := by
    intro a ha
    simp only [playOnce, mem_cons, not_mem_nil, or_false] at ha
    obtain rfl | rfl | rfl | rfl | rfl | rfl | rfl | rfl | rfl | rfl := ha
    all_goals trivial
  have hlabels := replay_labels (AudioService.after sampleConfig) {} playOnce
  have hlogs : ∀ p ∈ (replay (AudioService.after sampleConfig) {} playOnce).1, p.2.Logs := by
    intro p hp
    have hmem := mem_map_of_mem (f := Prod.snd) hp
    rw [hlabels] at hmem
    exact hall p.2 hmem
  exact ⟨_, _, run_playOnce, hlabels, hlogs, outcomes_final run_playOnce hlogs⟩

theorem completed_played_playOnce : ∃ tr s, (system sampleConfig).Run {} tr s ∧ tr.map Prod.snd = playOnce ∧
    ∀ job ∈ s.rows, job.played = true := by
  refine ⟨_, _, run_playOnce, replay_labels .., fun job hjob => ?_⟩
  refine (completed_played run_playOnce _ (end_mem_states _ _)).1 job hjob ?_
  have hall : ∀ job ∈ afterPlayOnce.rows, job.state = .completed := by decide +kernel
  exact hall job hjob

/-- The event log cannot take the event of a completed job, which is then recorded as failed. -/
theorem completed_job_fails : ∃ tr s, (system sampleConfig).Run {} tr afterPlayOnce ∧
      (∃ tr', (system sampleConfig).Run afterPlayOnce tr' s ∧
        tr'.map Prod.snd = [.logCompleted (some "No space left on device"), .markFailed 4]) ∧
      afterPlayOnce.rows.stateOf "j1" = some .completed ∧
      s.rows.map (fun job => (job.id, job.state, job.played)) = [("j1", .failed, true)] := by
  have hrun : (system sampleConfig).Run afterPlayOnce
      (replay (AudioService.after sampleConfig) afterPlayOnce
        [.logCompleted (some "No space left on device"), .markFailed 4]).1
      (replay (AudioService.after sampleConfig) afterPlayOnce
        [.logCompleted (some "No space left on device"), .markFailed 4]).2 := by
    apply System.run_replay
    intro p hp
    rcases mem_cons.1 hp with rfl | hp
    · exact ⟨rfl, _, _, _, rfl⟩
    · rw [mem_singleton.1 hp]
      exact ⟨rfl, _, _, _, rfl⟩
  exact ⟨_, _, run_playOnce, ⟨_, hrun, replay_labels _ _ _⟩, rfl, rfl⟩

end Trakrai.AudioManager
