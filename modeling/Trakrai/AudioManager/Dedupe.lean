import Trakrai.AudioManager.Conservation

namespace Trakrai.AudioManager
open List Lib

/-- How a job came to count as played in a run: the worker had all its outputs, or it repeats a
job with its key that counts as played and was over no longer than the window when it was asked
for. -/
inductive Played (config : Config) (tr : List (AudioService × Action)) :
    String → String → Int → Prop where
  | completed {job : AudioJob} (hstep : (u, .markCompleted now) ∈ tr)
      (hworker : u.worker = .completing job outputs) (hcomplete : outputs.Complete job) :
      Played config tr job.id job.dedupeKey now
  | deduped {previous : AudioJob} {id : String} (hstep : (u, .createDedupedJob id now) ∈ tr)
      (hcommand : u.command = .dedupe request source previous asked)
      (hkey : previous.dedupeKey = request.dedupeKey)
      (hrecent : asked - config.dedupeWindowSec ≤ previous.completedAt)
      (hprevious : Played config tr previous.id previous.dedupeKey previous.completedAt) :
      Played config tr id request.dedupeKey now

/-- A request for which there was no recent success when it came. -/
def Fresh (config : Config) (tr : List (AudioService × Action)) (request : AudioRequest) (asked : Int) :
    Prop :=
  ∃ u payload source uuid, (u, .playAudio payload source uuid asked) ∈ tr ∧
    parseAudioRequest config uuid payload = .ok request ∧
    ∀ job ∈ u.rows, Store.isRecentSuccess request.dedupeKey (asked - config.dedupeWindowSec) job = false

def Command.Sourced (config : Config) (tr : List (AudioService × Action)) : Command → Prop
  | .dedupe request _ previous asked =>
      Store.isRecentSuccess request.dedupeKey (asked - config.dedupeWindowSec) previous = true ∧
      Played config tr previous.id previous.dedupeKey previous.completedAt
  | .create request _ asked => Fresh config tr request asked
  | .answer _ job => Played config tr job.id job.dedupeKey job.completedAt
  | .created _ job | .full _ job => job.state = .queued
  | .idle => True

/-- The rows of successes, the replies and the new jobs have their origin in the run. -/
structure Sourced (config : Config) (tr : List (AudioService × Action)) (s : AudioService) : Prop where
  rows : ∀ job ∈ s.rows, job.state = .completed ∨ job.state = .deduped →
    Played config tr job.id job.dedupeKey job.completedAt
  command : s.command.Sourced config tr
  sent : ∀ target job, .job target job ∈ s.sent → job.state = .deduped →
    Played config tr job.id job.dedupeKey job.completedAt
  created : ∀ u id now, (u, .createJob id now) ∈ tr → ∃ request source asked,
    u.command = .create request source asked ∧ Fresh config tr request asked

section
variable {config : Config} {s : AudioService} {rows : Store} {id : String} {job : AudioJob}
  {tr more : List (AudioService × Action)}

theorem Played.mono (h : Played config tr id key now) (hsub : ∀ p ∈ tr, p ∈ more) :
    Played config more id key now := by
  induction h with
  | completed hstep hworker hcomplete => exact .completed (hsub _ hstep) hworker hcomplete
  | deduped hstep hcommand hkey hrecent _ ih => exact .deduped (hsub _ hstep) hcommand hkey hrecent ih

theorem Fresh.mono (h : Fresh config tr request asked) (hsub : ∀ p ∈ tr, p ∈ more) :
    Fresh config more request asked := by
  obtain ⟨u, payload, source, uuid, hstep, hrest⟩ := h
  exact ⟨u, payload, source, uuid, hsub _ hstep, hrest⟩

theorem Command.Sourced.mono {command : Command} (h : command.Sourced config tr)
    (hsub : ∀ p ∈ tr, p ∈ more) : command.Sourced config more := by
  cases command with
  | idle => trivial
  | dedupe request source previous asked => exact ⟨h.1, h.2.mono hsub⟩
  | answer source job => exact Played.mono h hsub
  | create request source asked => exact Fresh.mono h hsub
  | created source job => exact h
  | full source job => exact h

theorem findRecentSuccess_some (h : rows.findRecentSuccess key cutoff = some job) :
    job ∈ rows ∧ Store.isRecentSuccess key cutoff job = true := by
  have hmem := List.mem_of_mem_head? h
  rw [mem_insertionSort] at hmem
  exact mem_filter.1 hmem

theorem findRecentSuccess_none (h : rows.findRecentSuccess key cutoff = none) :
    ∀ job ∈ rows, Store.isRecentSuccess key cutoff job = false := by
  intro job hjob
  by_contra hrecent
  have hmem : job ∈ rows.filter (Store.isRecentSuccess key cutoff) :=
    mem_filter.2 ⟨hjob, by simpa using hrecent⟩
  rw [Store.findRecentSuccess, List.head?_eq_none_iff] at h
  have hsorted := (mem_insertionSort fun a b : AudioJob => b.completedAt ≤ a.completedAt).2 hmem
  rw [h] at hsorted
  cases hsorted

theorem isRecentSuccess_iff : Store.isRecentSuccess key cutoff job = true ↔
    job.dedupeKey = key ∧ (job.state = .completed ∨ job.state = .deduped) ∧
      cutoff ≤ job.completedAt := by
  simp [Store.isRecentSuccess, and_assoc]

def AudioJob.Success (job : AudioJob) : Prop := job.state = .completed ∨ job.state = .deduped

theorem Sourced.step {t : AudioService} {p : AudioService × Action} (h : Sourced config tr s)
    (hrows : ∀ job ∈ t.rows, job.Success → job ∈ s.rows ∨
      Played config (tr ++ [p]) job.id job.dedupeKey job.completedAt)
    (hcommand : t.command = s.command ∨ t.command.Sourced config (tr ++ [p]))
    (hsent : ∀ target job, .job target job ∈ t.sent → .job target job ∈ s.sent ∨
      s.command = .answer target job ∨ s.command = .created target job)
    (hcreated : ∀ id now, p.2 = .createJob id now → ∃ request source asked,
      p.1.command = .create request source asked ∧ Fresh config tr request asked) :
    Sourced config (tr ++ [p]) t := by
  have hsub : ∀ q ∈ tr, q ∈ tr ++ [p] := fun _ hq => mem_append_left _ hq
  constructor
  case rows =>
    intro job hjob hsuccess
    rcases hrows job hjob hsuccess with hold | hplayed
    · exact (h.rows job hold hsuccess).mono hsub
    · exact hplayed
  case command =>
    rcases hcommand with hcommand | hcommand
    · rw [hcommand]
      exact h.command.mono hsub
    · exact hcommand
  case sent =>
    intro target job hjob hstate
    rcases hsent target job hjob with hold | hanswer | hnew
    · exact (h.sent target job hold hstate).mono hsub
    · have hplayed := h.command
      rw [hanswer] at hplayed
      exact Played.mono hplayed hsub
    · have hqueued : s.command.Sourced config tr := h.command
      rw [hnew] at hqueued
      rw [show job.state = .queued from hqueued] at hstate
      cases hstate
  case created =>
    intro u id now hmem
    rcases mem_append.1 hmem with hmem | hmem
    · obtain ⟨request, source, asked, hcreate, hfresh⟩ := h.created u id now hmem
      exact ⟨request, source, asked, hcreate, hfresh.mono hsub⟩
    · obtain rfl : (u, .createJob id now) = p := mem_singleton.1 hmem
      obtain ⟨request, source, asked, hcreate, hfresh⟩ := hcreated id now rfl
      exact ⟨request, source, asked, hcreate, hfresh.mono hsub⟩

theorem success_requeue (h : job ∈ rows.map (Store.requeue now)) (hsuccess : job.Success) :
    job ∈ rows := by
  obtain ⟨old, hold, rfl⟩ := mem_map.1 h
  rw [Store.requeue] at hsuccess ⊢
  split at hsuccess
  · rename_i hterminal
    rw [if_pos hterminal]
    exact hold
  · rcases hsuccess with hstate | hstate
    · cases hstate
    · cases hstate

theorem success_update {set : AudioJob → AudioJob} (h : job ∈ rows.update id set)
    (hsuccess : job.Success) (hset : ∀ old, ¬ (set old).Success) : job ∈ rows := by
  rcases mem_setWhere h with hold | ⟨old, -, -, rfl⟩
  · exact hold
  · exact (hset old hsuccess).elim

theorem Sourced.worker {t : AudioService} {a : Action} (h : Sourced config tr s)
    (hrows : t.rows = s.rows) (hcommand : t.command = s.command)
    (hsent : ∀ target job, .job target job ∈ t.sent → .job target job ∈ s.sent)
    (hworker : a.ofWorker = true) : Sourced config (tr ++ [(s, a)]) t := by
  refine h.step ?_ (.inl hcommand) (fun target job hjob => .inl (hsent target job hjob)) ?_
  · intro job hjob _
    rw [hrows] at hjob
    exact .inl hjob
  · rintro id now rfl
    cases hworker

theorem not_success_process (now : Int) (job : AudioJob) : ¬ (job.process now).Success := by
  rintro (hstate | hstate)
  · cases hstate
  · cases hstate

theorem not_success_fail (error : String) (outputs : Outputs) (now : Int) (job : AudioJob) :
    ¬ (job.fail error outputs now).Success := by
  rintro (hstate | hstate)
  · cases hstate
  · cases hstate

theorem Sourced.playAudio (h : Sourced config tr s) (payload : PlayAudio) (source uuid : String)
    (now : Int) : Sourced config (tr ++ [(s, .playAudio payload source uuid now)])
      (s.playAudio config payload source uuid now) := by
  have hlast : (s, Action.playAudio payload source uuid now) ∈
      tr ++ [(s, .playAudio payload source uuid now)] :=
    mem_append_right _ (mem_singleton_self _)
  rw [AudioService.playAudio]
  split
  · refine h.step (fun job hjob _ => .inl hjob) (.inl rfl) ?_ (by rintro _ _ ⟨⟩)
    intro target job hjob
    rcases mem_append.1 hjob with hjob | hjob
    · exact .inl hjob
    · cases mem_singleton.1 hjob
  · rename_i request hparse
    split
    · rename_i previous hfound
      obtain ⟨hmem, hrecent⟩ := findRecentSuccess_some hfound
      refine h.step (fun job hjob _ => .inl hjob) (.inr ⟨hrecent, ?_⟩)
        (fun target job hjob => .inl hjob) (by rintro _ _ ⟨⟩)
      have hplayed := h.rows previous hmem (isRecentSuccess_iff.1 hrecent).2.1
      exact hplayed.mono fun _ hq => mem_append_left _ hq
    · rename_i hfound
      exact h.step (fun job hjob _ => .inl hjob)
        (.inr ⟨s, payload, source, uuid, hlast, hparse, findRecentSuccess_none hfound⟩)
        (fun target job hjob => .inl hjob) (by rintro _ _ ⟨⟩)

theorem Sourced.createDedupedJob (h : Sourced config tr s)
    (hcommand : s.command = .dedupe request source previous asked) (now : Int) :
    Sourced config (tr ++ [(s, .createDedupedJob id now)]) (s.createDedupedJob id now) := by
  have hlast : (s, Action.createDedupedJob id now) ∈ tr ++ [(s, .createDedupedJob id now)] :=
    mem_append_right _ (mem_singleton_self _)
  have hsourced := h.command
  rw [hcommand] at hsourced
  obtain ⟨hrecent, hprevious⟩ := hsourced
  obtain ⟨hkey, -, hcutoff⟩ := isRecentSuccess_iff.1 hrecent
  have hplayed : Played config (tr ++ [(s, .createDedupedJob id now)]) id request.dedupeKey now :=
    .deduped hlast hcommand hkey hcutoff (hprevious.mono fun _ hq => mem_append_left _ hq)
  rw [AudioService.createDedupedJob, hcommand]
  refine h.step ?_ (.inr hplayed) (fun target job hjob => .inl hjob) (by rintro _ _ ⟨⟩)
  intro job hjob _
  rcases mem_append.1 hjob with hjob | hjob
  · exact .inl hjob
  · rw [mem_singleton.1 hjob]
    exact .inr hplayed

theorem Sourced.createJob (h : Sourced config tr s)
    (hcommand : s.command = .create request source asked) (now : Int) :
    Sourced config (tr ++ [(s, .createJob id now)]) (s.createJob id now) := by
  have hsourced := h.command
  rw [hcommand] at hsourced
  rw [AudioService.createJob, hcommand]
  refine h.step ?_ (.inr rfl) (fun target job hjob => .inl hjob)
    (fun _ _ _ => ⟨request, source, asked, hcommand, hsourced⟩)
  intro job hjob hsuccess
  rcases mem_append.1 hjob with hjob | hjob
  · exact .inl hjob
  · rw [mem_singleton.1 hjob] at hsuccess
    rcases hsuccess with hstate | hstate
    · cases hstate
    · cases hstate

theorem Sourced.putNowait (h : Sourced config tr s) (hcommand : s.command = .created source job) :
    Sourced config (tr ++ [(s, .putNowait)]) (s.putNowait config) := by
  have hqueued := h.command
  rw [hcommand] at hqueued
  rw [AudioService.putNowait, hcommand]
  dsimp only
  split
  · exact h.step (fun job hjob _ => .inl hjob) (.inr hqueued) (fun target job hjob => .inl hjob) (by rintro _ _ ⟨⟩)
  · refine h.step (fun job hjob _ => .inl hjob) (.inr trivial) ?_ (by rintro _ _ ⟨⟩)
    intro target other hother
    rcases mem_append.1 hother with hother | hother
    · exact .inl hother
    · cases mem_singleton.1 hother
      exact .inr (.inr hcommand)

theorem Inv.sourced_markCompleted (h : Inv s) (hsourced : Sourced config tr s)
    (hworker : s.worker = .completing job outputs) (now : Int) :
    Sourced config (tr ++ [(s, .markCompleted now)]) (s.markCompleted now) := by
  have hlast : (s, Action.markCompleted now) ∈ tr ++ [(s, .markCompleted now)] :=
    mem_append_right _ (mem_singleton_self _)
  have hsound := h.worker
  rw [hworker] at hsound
  obtain ⟨⟨row, hrow, hsame, -⟩, hcomplete⟩ := hsound
  rw [AudioService.markCompleted, hworker]
  refine hsourced.step ?_ (.inl rfl) (fun target job hjob => .inl hjob) (by rintro _ _ ⟨⟩)
  intro other hother _
  rcases mem_setWhere hother with hold | ⟨old, hold, hid, rfl⟩
  · exact .inl hold
  · have hfound := find?_key_of_mem h.nodup hold hid
    obtain rfl : old = row := Option.some.inj (hfound.symm.trans hrow)
    have hkey : (old.complete outputs now).dedupeKey = job.dedupeKey :=
      congrArg AudioRequest.dedupeKey hsame
    have hsameid : (old.complete outputs now).id = job.id := hid
    right
    rw [hkey, hsameid]
    exact .completed hlast hworker hcomplete

theorem Inv.sourced_after (h : Inv s) (hsourced : Sourced config tr s) (henabled : s.Enabled a) :
    Sourced config (tr ++ [(s, a)]) (s.after config a) := by
  cases a with
  | boot now =>
    exact hsourced.step (fun job hjob hsuccess => .inl (success_requeue hjob hsuccess)) (.inr trivial)
      (fun target job hjob => .inl hjob) (by rintro _ _ ⟨⟩)
  | requeue =>
    obtain ⟨left, hstarting⟩ := henabled
    have hkeep {t : AudioService} (hrows : t.rows = s.rows) (hcommand : t.command = s.command)
        (hsent : t.sent = s.sent) : Sourced config (tr ++ [(s, .requeue)]) t :=
      hsourced.step (fun job hjob _ => .inl (hrows ▸ hjob)) (.inl hcommand)
        (fun target job hjob => .inl (hsent ▸ hjob)) (by rintro _ _ ⟨⟩)
    simp only [AudioService.after, AudioService.requeue, hstarting]
    cases left with
    | nil => exact hkeep rfl rfl rfl
    | cons id left =>
      dsimp only
      split
      · exact hkeep rfl rfl rfl
      · exact hkeep rfl rfl rfl
  | crash =>
    exact hsourced.step (fun job hjob _ => .inl hjob) (.inr trivial)
      (fun target job hjob => .inl hjob) (by rintro _ _ ⟨⟩)
  | playAudio payload source uuid now => exact hsourced.playAudio payload source uuid now
  | createDedupedJob id now =>
    obtain ⟨-, ⟨request, source, previous, asked, hcommand⟩, -⟩ := henabled
    exact hsourced.createDedupedJob hcommand now
  | publishDeduped =>
    obtain ⟨-, source, job, hcommand⟩ := henabled
    simp only [AudioService.after, AudioService.publishDeduped, hcommand]
    refine hsourced.step (fun job hjob _ => .inl hjob) (.inr trivial) ?_ (by rintro _ _ ⟨⟩)
    intro target other hother
    rcases mem_append.1 hother with hother | hother
    · exact .inl hother
    · cases mem_singleton.1 hother
      exact .inr (.inl hcommand)
  | createJob id now =>
    obtain ⟨-, ⟨request, source, asked, hcommand⟩, -⟩ := henabled
    exact hsourced.createJob hcommand now
  | putNowait =>
    obtain ⟨-, source, job, hcommand⟩ := henabled
    exact hsourced.putNowait hcommand
  | rejectFull now =>
    obtain ⟨-, source, job, hcommand⟩ := henabled
    simp only [AudioService.after, AudioService.rejectFull, hcommand]
    refine hsourced.step ?_ (.inr trivial) ?_ (by rintro _ _ ⟨⟩)
    · intro other hother hsuccess
      exact .inl (success_update hother hsuccess (not_success_fail _ _ now))
    · intro target other hother
      rcases mem_append.1 hother with hother | hother
      · exact .inl hother
      · cases mem_singleton.1 hother
  | markCompleted now =>
    obtain ⟨-, job, outputs, hworker⟩ := henabled
    exact h.sourced_markCompleted hsourced hworker now
  | get =>
    simp only [AudioService.after, AudioService.get]
    split
    · exact hsourced.worker rfl rfl (fun _ _ hjob => hjob) rfl
    · exact hsourced.worker rfl rfl (fun _ _ hjob => hjob) rfl
  | markProcessing now =>
    obtain ⟨-, id, hworker⟩ := henabled
    simp only [AudioService.after, AudioService.markProcessing, hworker]
    refine hsourced.step ?_ (.inl rfl) (fun target job hjob => .inl hjob) (by rintro _ _ ⟨⟩)
    intro other hother hsuccess
    exact .inl (success_update hother hsuccess (not_success_process now))
  | play playback =>
    obtain ⟨-, job, hworker⟩ := henabled
    simp only [AudioService.after, AudioService.play, hworker]
    split
    · cases playback with
      | generateRaises error => exact hsourced.worker rfl rfl (fun _ _ hjob => hjob) rfl
      | playRaises audioPath error => exact hsourced.worker rfl rfl (fun _ _ hjob => hjob) rfl
      | played audioPath => exact hsourced.worker rfl rfl (fun _ _ hjob => hjob) rfl
    · exact hsourced.worker rfl rfl (fun _ _ hjob => hjob) rfl
  | deliver delivery =>
    obtain ⟨-, job, outputs, hworker⟩ := henabled
    simp only [AudioService.after, AudioService.deliver, hworker]
    split
    · cases delivery with
      | raises error => exact hsourced.worker rfl rfl (fun _ _ hjob => hjob) rfl
      | delivered payload => exact hsourced.worker rfl rfl (fun _ _ hjob => hjob) rfl
    · exact hsourced.worker rfl rfl (fun _ _ hjob => hjob) rfl
  | logCompleted raises =>
    obtain ⟨-, job, completed, outputs, hworker⟩ := henabled
    simp only [AudioService.after, AudioService.logCompleted, hworker]
    cases raises with
    | some error => exact hsourced.worker rfl rfl (fun _ _ hjob => hjob) rfl
    | none => exact hsourced.worker rfl rfl (fun _ _ hjob => hjob) rfl
  | publishResult =>
    obtain ⟨-, completed, hworker⟩ := henabled
    simp only [AudioService.after, AudioService.publishResult, hworker]
    refine hsourced.worker rfl rfl ?_ rfl
    intro target other hother
    rcases mem_append.1 hother with hother | hother
    · exact hother
    · cases mem_singleton.1 hother
  | markFailed now =>
    obtain ⟨-, job, outputs, error, hworker⟩ := henabled
    simp only [AudioService.after, AudioService.markFailed, hworker]
    refine hsourced.step ?_ (.inl rfl) (fun target job hjob => .inl hjob) (by rintro _ _ ⟨⟩)
    intro other hother hsuccess
    exact .inl (success_update hother hsuccess (not_success_fail _ _ now))
  | logFailed raises =>
    obtain ⟨-, failed, error, hworker⟩ := henabled
    simp only [AudioService.after, AudioService.logFailed, hworker]
    cases raises with
    | true => exact hsourced.worker rfl rfl (fun _ _ hjob => hjob) rfl
    | false =>
      refine hsourced.worker rfl rfl ?_ rfl
      intro target other hother
      rcases mem_append.1 hother with hother | hother
      · exact hother
      · cases mem_singleton.1 hother

def Worker.jobId : Worker → Option String
  | .idle | .dead => none
  | .taken id => some id
  | .playing job | .delivering job _ | .completing job _ | .logging job _ _ | .failing job _ _ =>
      some job.id
  | .publishing job | .loggingFailure job _ => some job.id

theorem Inv.deduped_silent (h : Inv s) (hid : s.rows.stateOf id = some .deduped) :
    s.worker.jobId ≠ some id ∧ id ∉ s.waiting := by
  refine ⟨?_, h.not_waiting hid (by rintro ⟨⟩)⟩
  have hne {job : AudioJob} {state : JobState} (hholds : s.rows.Holds job state)
      (hstate : state ≠ .deduped) : some job.id ≠ some id := by
    intro heq
    exact ne_of_stateOf hholds.stateOf hid hstate (Option.some.inj heq)
  have hsound := h.worker
  cases hworker : s.worker with
  | idle => rintro ⟨⟩
  | dead => rintro ⟨⟩
  | taken taken =>
    have hmem : taken ∈ s.waiting := by
      simp [mem_waiting, hworker, Worker.taking]
    intro heq
    exact ne_of_stateOf (h.queued taken hmem) hid (by rintro ⟨⟩) (Option.some.inj heq)
  | playing job =>
    rw [hworker] at hsound
    exact hne hsound (by rintro ⟨⟩)
  | delivering job outputs | completing job outputs | logging job completed outputs =>
    rw [hworker] at hsound
    exact hne hsound.1 (by rintro ⟨⟩)
  | publishing completed =>
    rw [hworker] at hsound
    exact hne hsound (by rintro ⟨⟩)
  | failing job outputs error =>
    rw [hworker] at hsound
    rcases hsound with hsound | hsound
    · exact hne hsound.1 (by rintro ⟨⟩)
    · exact hne hsound.1 (by rintro ⟨⟩)
  | loggingFailure failed error =>
    rw [hworker] at hsound
    exact hne hsound (by rintro ⟨⟩)

theorem Inv.deduped_after (h : Inv s) (henabled : s.Enabled a)
    (hid : s.rows.stateOf id = some .deduped) : (s.after config a).rows.stateOf id = some .deduped := by
  apply h.stateOf_after henabled hid rfl
  rintro job outputs error hworker rfl
  have hsilent := (h.deduped_silent hid).1
  rw [hworker] at hsilent
  exact hsilent rfl

end

structure Deduplicated (config : Config) (tr : List (AudioService × Action)) (s : AudioService) :
    Prop where
  /-- A job is made for the worker only if there was no recent success when it was asked for. -/
  fresh : ∀ u id now, (u, .createJob id now) ∈ tr → ∃ request source asked,
    u.command = .create request source asked ∧ Fresh config tr request asked
  /-- A success goes back to a job that was played. -/
  played : ∀ job ∈ s.rows, job.Success → Played config tr job.id job.dedupeKey job.completedAt
  /-- So does a reply to a request that is deduped. -/
  answered : ∀ target job, .job target job ∈ s.sent → job.state = .deduped →
    Played config tr job.id job.dedupeKey job.completedAt
  /-- A deduped job stays one and is never given to the worker. -/
  silent : (states tr s).Pairwise fun t u => ∀ id, t.rows.stateOf id = some .deduped →
    u.rows.stateOf id = some .deduped ∧ u.worker.jobId ≠ some id ∧ id ∉ u.waiting

theorem deduplicated (hrun : (system config).Run {} tr s) : Deduplicated config tr s := by
  have hinitial : Inv {} ∧ Sourced config [] {} :=
    ⟨inv_initial, fun _ h => absurd h not_mem_nil, trivial,
      fun _ _ h => absurd h not_mem_nil, fun _ _ _ h => absurd h not_mem_nil⟩
  have hsourced := hrun.trace_invariant (I := fun tr s => Inv s ∧ Sourced config tr s) (by
    rintro tr s a t ⟨hinv, hsourced⟩ ⟨henabled, rfl⟩
    exact ⟨hinv.after henabled, hinv.sourced_after hsourced henabled⟩) hinitial
  rw [nil_append] at hsourced
  refine ⟨hsourced.2.created, hsourced.2.rows, hsourced.2.sent, ?_⟩
  have hinv := inv_states hrun
  have hkept : (states tr s).Pairwise fun t u => ∀ id, t.rows.stateOf id = some .deduped →
      u.rows.stateOf id = some .deduped := by
    refine (hrun.pairwise (I := fun _ => True) (fun _ _ h => h) ?_ (fun _ _ => trivial) trivial ?_).1
    · intro t u v htu huv id hid
      exact huv id (htu id hid)
    · rintro p hp - u ⟨henabled, rfl⟩ id hid
      exact (hinv p.1 (mem_states_of_mem hp)).deduped_after henabled hid
  apply List.Pairwise.imp_of_mem _ hkept
  intro t u _ hu hdeduped id hid
  have hid' := hdeduped id hid
  exact ⟨hid', (hinv u hu).deduped_silent hid'⟩

theorem deduplicated_playOnce :
    ∃ tr, (system sampleConfig).Run {} tr afterPlayOnce ∧ tr.map Prod.snd = playOnce ∧
      Deduplicated sampleConfig tr afterPlayOnce :=
  ⟨_, run_playOnce, replay_labels _ _ _, deduplicated run_playOnce⟩

def openConfig : Config := { sampleConfig with maxPending := 0 }

def repeated : List Action :=
  [.boot 0, .requeue, .playAudio { text := some "hi" } "ui" "r1" 1, .createJob "j1" 1, .putNowait,
    .playAudio { text := some "hi" } "ui" "r2" 2, .createJob "j2" 2, .putNowait,
    .get, .markProcessing 3, .play (.played "hi.wav"), .deliver (.raises ""), .markCompleted 3,
    .logCompleted none, .publishResult,
    .get, .markProcessing 4, .play (.played "hi.wav"), .deliver (.raises ""), .markCompleted 4,
    .logCompleted none, .publishResult,
    .playAudio { text := some "hi" } "ui" "r3" 13, .createDedupedJob "d1" 13, .publishDeduped,
    .playAudio { text := some "hi" } "ui" "r4" 22, .createDedupedJob "d2" 22, .publishDeduped]

/-- The first two requests are both played, and the last one is deduped eighteen seconds after. -/
theorem repeated_played_twice :
    ∃ tr s, (system openConfig).Run {} tr s ∧ tr.map Prod.snd = repeated ∧
      s.rows.map (fun job => (job.id, job.state, job.played, job.completedAt)) =
        [("j1", .completed, true, 3), ("j2", .completed, true, 4), ("d1", .deduped, true, 13),
          ("d2", .deduped, true, 22)] ∧
      (s.rows.map fun job => job.dedupeKey).dedup.length = 1 ∧ openConfig.dedupeWindowSec = 10 := by
  have hrun : (system openConfig).Run {}
      (replay (AudioService.after openConfig) {} repeated).1
      (replay (AudioService.after openConfig) {} repeated).2 := by
    apply System.run_replay
    intro p hp
    simp only [repeated, replay, mem_cons, not_mem_nil, or_false] at hp
    obtain rfl | rfl | rfl | rfl | rfl | rfl | rfl | rfl | rfl | rfl | rfl | rfl | rfl | rfl |
      rfl | rfl | rfl | rfl | rfl | rfl | rfl | rfl | rfl | rfl | rfl | rfl | rfl | rfl := hp
    · rfl
    · exact ⟨_, rfl⟩
    · exact ⟨rfl, rfl⟩
    · exact ⟨rfl, ⟨_, _, _, rfl⟩, by decide⟩
    · exact ⟨rfl, _, _, rfl⟩
    · exact ⟨rfl, rfl⟩
    · exact ⟨rfl, ⟨_, _, _, rfl⟩, by decide⟩
    · exact ⟨rfl, _, _, rfl⟩
    · exact ⟨rfl, rfl, cons_ne_nil _ _⟩
    · exact ⟨rfl, _, rfl⟩
    · exact ⟨rfl, _, rfl⟩
    · exact ⟨rfl, _, _, rfl⟩
    · exact ⟨rfl, _, _, rfl⟩
    · exact ⟨rfl, _, _, _, rfl⟩
    · exact ⟨rfl, _, rfl⟩
    · exact ⟨rfl, rfl, cons_ne_nil _ _⟩
    · exact ⟨rfl, _, rfl⟩
    · exact ⟨rfl, _, rfl⟩
    · exact ⟨rfl, _, _, rfl⟩
    · exact ⟨rfl, _, _, rfl⟩
    · exact ⟨rfl, _, _, _, rfl⟩
    · exact ⟨rfl, _, rfl⟩
    · exact ⟨rfl, rfl⟩
    · exact ⟨rfl, ⟨_, _, _, _, rfl⟩, by decide⟩
    · exact ⟨rfl, _, _, rfl⟩
    · exact ⟨rfl, rfl⟩
    · exact ⟨rfl, ⟨_, _, _, _, rfl⟩, by decide⟩
    · exact ⟨rfl, _, _, rfl⟩
  exact ⟨_, _, hrun, replay_labels _ _ _, rfl, by decide, rfl⟩

end Trakrai.AudioManager
