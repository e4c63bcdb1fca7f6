import Trakrai.AudioManager.Terminal

namespace Trakrai.AudioManager
open List Lib

def Fits (config : Config) (rows : Store) : Prop :=
  config.maxPending ≤ 0 ∨ (rows.countP (!·.state.terminal) : Int) ≤ config.maxPending

/-- A start finds room for the jobs it has to queue again. -/
def AudioService.StartFits (config : Config) (s : AudioService) : Action → Prop
  | .boot _ => Fits config s.rows
  | _ => True

/-- Every queued job is on its way to the worker, and what a start has still to queue fits. -/
structure Covered (config : Config) (s : AudioService) : Prop where
  queued : s.process ≠ .down → ∀ id, s.rows.stateOf id = some .queued → id ∈ s.waiting
  room : ∀ left, s.process = .starting left →
    config.maxPending ≤ 0 ∨ (s.queue.length + left.length : Int) ≤ config.maxPending

section
variable {config : Config} {s t : AudioService} {rows : Store} {id other : String} {job : AudioJob}

theorem countP_requeue (rows : Store) (now : Int) :
    ((rows.requeueIncompleteJobs now).2.map AudioJob.id).length =
      rows.countP (!·.state.terminal) := by
  have hperm := perm_insertionSort (fun a b : AudioJob => a.createdAt ≤ b.createdAt)
    ((rows.map (Store.requeue now)).filter (·.state = .queued))
  have hlength : (rows.requeueIncompleteJobs now).2.length =
      ((rows.map (Store.requeue now)).filter (·.state = .queued)).length := hperm.length_eq
  rw [length_map, hlength, ← countP_eq_length_filter, countP_map]
  apply countP_congr
  intro job _
  simp only [Function.comp_apply, Store.requeue]
  by_cases hterminal : job.state.terminal = true
  · have hne : job.state ≠ .queued := by
      intro hqueued
      rw [hqueued] at hterminal
      cases hterminal
    simp [hterminal, hne]
  · simp [hterminal]

theorem covered_boot (hfits : Fits config s.rows) (now : Int) : Covered config (s.boot now) := by
  have hwaiting : (s.boot now).waiting = (s.rows.requeueIncompleteJobs now).2.map AudioJob.id := by
    simp [AudioService.waiting, AudioService.boot, Process.left, Worker.taking, Command.putting]
  constructor
  case queued =>
    intro _ id hid
    obtain ⟨row, hrow, hstate⟩ := stateOf_eq_some_iff.1 hid
    obtain ⟨hmem, rfl⟩ := mem_of_find?_key hrow
    rw [hwaiting]
    exact mem_map_of_mem (mem_requeueIncompleteJobs.2 ⟨hmem, hstate⟩)
  case room =>
    intro left hleft
    obtain rfl : (s.rows.requeueIncompleteJobs now).2.map AudioJob.id = left := by
      injection hleft
    rw [countP_requeue]
    rcases hfits with hfits | hfits
    · exact .inl hfits
    · right
      change ((0 : Nat) + _ : Int) ≤ _
      omega

theorem Covered.requeue (h : Covered config s) (hstarting : s.process = .starting left) :
    Covered config (s.requeue config) := by
  have hnot : s.process ≠ .down := by
    rw [hstarting]
    rintro ⟨⟩
  have hqueued := h.queued hnot
  rw [AudioService.requeue, hstarting]
  cases left with
  | nil =>
    refine ⟨fun _ id hid => ?_, by rintro _ ⟨⟩⟩
    have hmem := hqueued id hid
    rw [AudioService.waiting, hstarting] at hmem
    exact hmem
  | cons id left =>
    have hroom := h.room _ hstarting
    have hfull : isFull config s.queue = false := by
      simp only [isFull, Bool.and_eq_false_iff, decide_eq_false_iff_not]
      rw [length_cons] at hroom
      omega
    simp only [hfull, Bool.false_eq_true, if_false]
    constructor
    case queued =>
      intro _ other hother
      have hmem := hqueued other hother
      simp only [AudioService.waiting, hstarting, Process.left, mem_append, mem_cons] at hmem
      simp only [AudioService.waiting, Process.left, mem_append, mem_singleton]
      tauto
    case room =>
      intro rest hrest
      obtain rfl : left = rest := by injection hrest
      simp only [length_append, length_cons, length_nil] at hroom ⊢
      omega

theorem Covered.keep (h : Covered config s) (hrun : s.process = .running) (hrows : t.rows = s.rows)
    (hsub : ∀ id ∈ s.waiting, id ∈ t.waiting) (hprocess : t.process = .running) :
    Covered config t := by
  have hnot : s.process ≠ .down := by
    rw [hrun]
    nofun
  constructor
  case queued =>
    intro _ id hid
    rw [hrows] at hid
    exact hsub id (h.queued hnot id hid)
  case room =>
    intro left hleft
    rw [hprocess] at hleft
    cases hleft

theorem Covered.update (h : Covered config s) (hrun : s.process = .running)
    (set : AudioJob → AudioJob) (hrows : t.rows = s.rows.update id set)
    (hset : ∀ job, (set job).id = job.id) (hstate : ∀ job, (set job).state ≠ .queued)
    (hsub : ∀ other ∈ s.waiting, other ≠ id → other ∈ t.waiting) (hprocess : t.process = .running) :
    Covered config t := by
  have hnot : s.process ≠ .down := by
    rw [hrun]
    nofun
  constructor
  case queued =>
    intro _ other hother
    rw [hrows] at hother
    have hne : other ≠ id := by
      rintro rfl
      obtain ⟨row, hrow, hqueued⟩ := stateOf_eq_some_iff.1 hother
      rw [Store.getJob, Store.update, find?_key_map (key_setWhere hset other)] at hrow
      obtain ⟨old, hold, rfl⟩ := Option.map_eq_some_iff.1 hrow
      rw [setWhere, if_pos (mem_of_find?_key hold).2] at hqueued
      exact hstate old hqueued
    rw [(changes_update hset).stateOf hne] at hother
    exact hsub other (h.queued hnot other hother) hne
  case room =>
    intro left hleft
    rw [hprocess] at hleft
    cases hleft

theorem Covered.insert (h : Covered config s) (hrun : s.process = .running)
    (hrows : t.rows = s.rows ++ [job]) (hfresh : ∀ row ∈ s.rows, row.id ≠ job.id)
    (hsub : ∀ id ∈ s.waiting, id ∈ t.waiting) (hnew : job.state = .queued → job.id ∈ t.waiting)
    (hprocess : t.process = .running) : Covered config t := by
  have hnot : s.process ≠ .down := by
    rw [hrun]
    nofun
  constructor
  case queued =>
    intro _ id hid
    rw [hrows] at hid
    by_cases hne : id = job.id
    · subst hne
      obtain ⟨row, hrow, hqueued⟩ := stateOf_eq_some_iff.1 hid
      rw [getJob_append_new hfresh, Option.some.injEq] at hrow
      rw [← hrow] at hqueued
      exact hnew hqueued
    · rw [(changes_append job).stateOf hne] at hid
      exact hsub id (h.queued hnot id hid)
  case room =>
    intro left hleft
    rw [hprocess] at hleft
    cases hleft

theorem mem_waiting : id ∈ s.waiting ↔
    id ∈ s.process.left ∨ id ∈ s.queue ∨ id ∈ s.worker.taking ∨ id ∈ s.command.putting := by
  simp only [AudioService.waiting, mem_append, or_assoc]

theorem Covered.setWorker (h : Covered config s) (hrun : s.process = .running)
    (htaking : s.worker.taking = []) (worker : Worker) (sent : List Reply) :
    Covered config { s with worker, sent } := by
  refine h.keep hrun rfl ?_ hrun
  intro id hid
  simp only [mem_waiting, htaking, not_mem_nil, false_or] at hid ⊢
  tauto

theorem covered_after (hcovered : Covered config s) (henabled : s.Enabled a)
    (hfits : s.StartFits config a) : Covered config (s.after config a) := by
  cases a with
  | boot now => exact covered_boot hfits now
  | requeue =>
    obtain ⟨left, hstarting⟩ := henabled
    exact hcovered.requeue hstarting
  | crash => exact ⟨fun hne => (hne rfl).elim, by rintro _ ⟨⟩⟩
  | playAudio payload source uuid now =>
    obtain ⟨hrun, hidle⟩ := henabled
    have hsub (command : Command) : ∀ id ∈ s.waiting, id ∈ ({ s with command } : AudioService).waiting := by
      intro id hid
      simp only [mem_waiting, hidle, Command.putting, not_mem_nil, or_false] at hid ⊢
      tauto
    simp only [AudioService.after, AudioService.playAudio]
    split
    · exact hcovered.keep hrun rfl (fun id hid => hid) hrun
    · split
      · exact hcovered.keep hrun rfl (hsub _) hrun
      · exact hcovered.keep hrun rfl (hsub _) hrun
  | createDedupedJob id now =>
    obtain ⟨hrun, ⟨request, source, previous, asked, hcommand⟩, hfresh⟩ := henabled
    simp only [AudioService.after, AudioService.createDedupedJob, hcommand]
    refine hcovered.insert hrun rfl hfresh ?_ (by rintro ⟨⟩) hrun
    intro other hother
    simpa [mem_waiting, hcommand, Command.putting] using hother
  | publishDeduped =>
    obtain ⟨hrun, source, job, hcommand⟩ := henabled
    simp only [AudioService.after, AudioService.publishDeduped, hcommand]
    refine hcovered.keep hrun rfl ?_ hrun
    intro other hother
    simpa [mem_waiting, hcommand, Command.putting] using hother
  | createJob id now =>
    obtain ⟨hrun, ⟨request, source, asked, hcommand⟩, hfresh⟩ := henabled
    simp only [AudioService.after, AudioService.createJob, hcommand]
    refine hcovered.insert hrun rfl hfresh ?_ ?_ hrun
    · intro other hother
      simp only [mem_waiting, hcommand, Command.putting, not_mem_nil, or_false] at hother ⊢
      tauto
    · intro _
      simp [mem_waiting, Command.putting, Store.createJob]
  | putNowait =>
    obtain ⟨hrun, source, job, hcommand⟩ := henabled
    simp only [AudioService.after, AudioService.putNowait, hcommand]
    split
    · refine hcovered.keep hrun rfl ?_ hrun
      intro other hother
      simpa [mem_waiting, hcommand, Command.putting] using hother
    · refine hcovered.keep hrun rfl ?_ hrun
      intro other hother
      simp only [mem_waiting, hcommand, Command.putting, mem_append] at hother ⊢
      tauto
  | rejectFull now =>
    obtain ⟨hrun, source, job, hcommand⟩ := henabled
    simp only [AudioService.after, AudioService.rejectFull, hcommand]
    refine hcovered.update hrun (AudioJob.fail "audio queue is full"
      { localState := .failed, speakerState := .failed } now) rfl (fun _ => rfl) (fun _ => by rintro ⟨⟩) ?_ hrun
    intro other hother hne
    simp only [mem_waiting, hcommand, Command.putting, mem_singleton] at hother ⊢
    tauto
  | get =>
    obtain ⟨hrun, hworker, -⟩ := henabled
    simp only [AudioService.after, AudioService.get]
    split
    · rename_i hqueue
      refine hcovered.keep hrun rfl ?_ hrun
      intro other hother
      simp only [mem_waiting, hworker, hqueue, Worker.taking, mem_cons] at hother ⊢
      tauto
    · exact hcovered
  | markProcessing now =>
    obtain ⟨hrun, id, hworker⟩ := henabled
    simp only [AudioService.after, AudioService.markProcessing, hworker]
    refine hcovered.update hrun (AudioJob.process now) rfl (fun _ => rfl) (fun _ => by rintro ⟨⟩) ?_ hrun
    intro other hother hne
    simp only [mem_waiting, hworker, Worker.taking, mem_singleton] at hother ⊢
    tauto
  | play playback =>
    obtain ⟨hrun, job, hworker⟩ := henabled
    have htaking : s.worker.taking = [] := by rw [hworker]; rfl
    simp only [AudioService.after, AudioService.play, hworker]
    split
    · cases playback with
      | generateRaises error => exact hcovered.setWorker hrun htaking _ _
      | playRaises audioPath error => exact hcovered.setWorker hrun htaking _ _
      | played audioPath => exact hcovered.setWorker hrun htaking _ _
    · exact hcovered.setWorker hrun htaking _ _
  | deliver delivery =>
    obtain ⟨hrun, job, outputs, hworker⟩ := henabled
    have htaking : s.worker.taking = [] := by rw [hworker]; rfl
    simp only [AudioService.after, AudioService.deliver, hworker]
    split
    · cases delivery with
      | raises error => exact hcovered.setWorker hrun htaking _ _
      | delivered payload => exact hcovered.setWorker hrun htaking _ _
    · exact hcovered.setWorker hrun htaking _ _
  | markCompleted now =>
    obtain ⟨hrun, job, outputs, hworker⟩ := henabled
    simp only [AudioService.after, AudioService.markCompleted, hworker]
    refine hcovered.update hrun (AudioJob.complete outputs now) rfl (fun _ => rfl) (fun _ => by rintro ⟨⟩) ?_
      hrun
    intro other hother _
    simp only [mem_waiting, hworker, Worker.taking, not_mem_nil, false_or] at hother ⊢
    tauto
  | logCompleted raises =>
    obtain ⟨hrun, job, completed, outputs, hworker⟩ := henabled
    have htaking : s.worker.taking = [] := by rw [hworker]; rfl
    simp only [AudioService.after, AudioService.logCompleted, hworker]
    cases raises with
    | some error => exact hcovered.setWorker hrun htaking _ _
    | none => exact hcovered.setWorker hrun htaking _ _
  | publishResult =>
    obtain ⟨hrun, completed, hworker⟩ := henabled
    have htaking : s.worker.taking = [] := by rw [hworker]; rfl
    simp only [AudioService.after, AudioService.publishResult, hworker]
    exact hcovered.setWorker hrun htaking _ _
  | markFailed now =>
    obtain ⟨hrun, job, outputs, error, hworker⟩ := henabled
    simp only [AudioService.after, AudioService.markFailed, hworker]
    refine hcovered.update hrun (AudioJob.fail error (failedOutputs job outputs) now) rfl
      (fun _ => rfl) (fun _ => by rintro ⟨⟩) ?_ hrun
    intro other hother _
    simp only [mem_waiting, hworker, Worker.taking, not_mem_nil, false_or] at hother ⊢
    tauto
  | logFailed raises =>
    obtain ⟨hrun, failed, error, hworker⟩ := henabled
    have htaking : s.worker.taking = [] := by rw [hworker]; rfl
    simp only [AudioService.after, AudioService.logFailed, hworker]
    cases raises with
    | true => exact hcovered.setWorker hrun htaking _ _
    | false => exact hcovered.setWorker hrun htaking _ _

def Action.ofWorker : Action → Bool
  | .get | .markProcessing _ | .play _ | .deliver _ | .markCompleted _ | .logCompleted _
  | .publishResult | .markFailed _ | .logFailed _ => true
  | _ => false

/-- A bound for the steps that the worker has left with its job. -/
def Worker.rank : Worker → Nat
  | .idle | .dead => 0
  | .taken _ => 7
  | .playing _ => 6
  | .delivering _ _ => 5
  | .completing _ _ => 4
  | .logging _ _ _ => 3
  | .failing _ _ _ => 2
  | .publishing _ | .loggingFailure _ _ => 1

/-- A bound for the steps of the worker until it takes a job from the queue. -/
def AudioService.distance (s : AudioService) (id : String) : Nat :=
  s.worker.rank + 8 * s.queue.idxOf id

theorem worker_step (config : Config) (henabled : s.Enabled a) (hworker : a.ofWorker = true) :
    (s.after config a).process = .running ∧
    ((∃ id queue, s.worker = .idle ∧ s.queue = id :: queue ∧ (s.after config a).queue = queue ∧
      (s.after config a).worker = .taken id) ∨
    (s.after config a).queue = s.queue ∧ (s.after config a).worker.rank < s.worker.rank) := by
  cases a with
  | get =>
    obtain ⟨hrun, hidle, hqueue⟩ := henabled
    obtain ⟨id, queue, hcons⟩ := exists_cons_of_ne_nil hqueue
    simp only [AudioService.after, AudioService.get, hcons]
    exact ⟨hrun, .inl ⟨id, queue, hidle, rfl, rfl, rfl⟩⟩
  | markProcessing now =>
    obtain ⟨hrun, id, hw⟩ := henabled
    simp only [AudioService.after, AudioService.markProcessing, hw]
    refine ⟨hrun, .inr ⟨trivial, ?_⟩⟩
    cases (s.rows.markProcessing id now).getJob id <;> simp [Worker.rank]
  | play playback =>
    obtain ⟨hrun, job, hw⟩ := henabled
    simp only [AudioService.after, AudioService.play, hw]
    split
    · cases playback <;> simp [Worker.rank, hrun]
    · simp [Worker.rank, hrun]
  | deliver delivery =>
    obtain ⟨hrun, job, outputs, hw⟩ := henabled
    simp only [AudioService.after, AudioService.deliver, hw]
    split
    · cases delivery <;> simp [Worker.rank, hrun]
    · simp [Worker.rank, hrun]
  | markCompleted now =>
    obtain ⟨hrun, job, outputs, hw⟩ := henabled
    simp only [AudioService.after, AudioService.markCompleted, hw]
    refine ⟨hrun, .inr ⟨trivial, ?_⟩⟩
    cases (s.rows.markCompleted job.id outputs now).getJob job.id <;> simp [Worker.rank]
  | logCompleted raises =>
    obtain ⟨hrun, job, completed, outputs, hw⟩ := henabled
    simp only [AudioService.after, AudioService.logCompleted, hw]
    cases raises <;> simp [Worker.rank, hrun]
  | publishResult =>
    obtain ⟨hrun, completed, hw⟩ := henabled
    simp [AudioService.after, AudioService.publishResult, hw, Worker.rank, hrun]
  | markFailed now =>
    obtain ⟨hrun, job, outputs, error, hw⟩ := henabled
    simp only [AudioService.after, AudioService.markFailed, hw]
    refine ⟨hrun, .inr ⟨trivial, ?_⟩⟩
    cases (s.rows.markFailed job.id error (failedOutputs job outputs) now).getJob job.id <;>
      simp [Worker.rank]
  | logFailed raises =>
    obtain ⟨hrun, failed, error, hw⟩ := henabled
    simp only [AudioService.after, AudioService.logFailed, hw]
    cases raises <;> simp [Worker.rank, hrun]
  | _ => cases hworker

/-- The command thread leaves the worker alone, and adds to the queue at its end. -/
theorem command_step (config : Config) (henabled : s.Enabled a) (hrun : s.process = .running)
    (hworker : a.ofWorker = false) (hcrash : a ≠ .crash) :
    (s.after config a).process = .running ∧ (s.after config a).worker = s.worker ∧
      ∃ added, (s.after config a).queue = s.queue ++ added := by
  have hsame : ∃ added, s.queue = s.queue ++ added := ⟨[], (append_nil _).symm⟩
  cases a with
  | boot now =>
    have hdown : s.process = .down := henabled
    rw [hrun] at hdown
    cases hdown
  | requeue =>
    obtain ⟨left, hstarting⟩ := henabled
    rw [hrun] at hstarting
    cases hstarting
  | crash => exact (hcrash rfl).elim
  | playAudio payload source uuid now =>
    simp only [AudioService.after, AudioService.playAudio]
    split
    · exact ⟨hrun, rfl, hsame⟩
    · split
      · exact ⟨hrun, rfl, hsame⟩
      · exact ⟨hrun, rfl, hsame⟩
  | createDedupedJob id now =>
    obtain ⟨-, ⟨request, source, previous, asked, hcommand⟩, -⟩ := henabled
    simp only [AudioService.after, AudioService.createDedupedJob, hcommand]
    exact ⟨hrun, trivial, hsame⟩
  | publishDeduped =>
    obtain ⟨-, source, job, hcommand⟩ := henabled
    simp only [AudioService.after, AudioService.publishDeduped, hcommand]
    exact ⟨hrun, trivial, hsame⟩
  | createJob id now =>
    obtain ⟨-, ⟨request, source, asked, hcommand⟩, -⟩ := henabled
    simp only [AudioService.after, AudioService.createJob, hcommand]
    exact ⟨hrun, trivial, hsame⟩
  | putNowait =>
    obtain ⟨-, source, job, hcommand⟩ := henabled
    simp only [AudioService.after, AudioService.putNowait, hcommand]
    split
    · exact ⟨hrun, rfl, hsame⟩
    · exact ⟨hrun, rfl, [job.id], rfl⟩
  | rejectFull now =>
    obtain ⟨-, source, job, hcommand⟩ := henabled
    simp only [AudioService.after, AudioService.rejectFull, hcommand]
    exact ⟨hrun, trivial, hsame⟩
  | _ => cases hworker

theorem distance_after (config : Config) (henabled : s.Enabled a) (hrun : s.process = .running)
    (hcrash : a ≠ .crash) (hid : id ∈ s.queue) :
    (s.after config a).process = .running ∧ ((s.after config a).worker = .taken id ∨
      id ∈ (s.after config a).queue ∧
        (if a.ofWorker then 1 else 0) + (s.after config a).distance id ≤ s.distance id) := by
  cases hworker : a.ofWorker with
  | true =>
    obtain ⟨hafter, ⟨first, queue, hidle, hqueue, hrest, htaken⟩ | ⟨hqueue, hrank⟩⟩ :=
      worker_step config henabled hworker
    · refine ⟨hafter, ?_⟩
      by_cases hfirst : first = id
      · left
        rw [htaken, hfirst]
      · right
        rw [hqueue] at hid
        have hmem : id ∈ queue := (mem_cons.1 hid).resolve_left (Ne.symm hfirst)
        rw [hrest]
        refine ⟨hmem, ?_⟩
        simp only [AudioService.distance, hidle, htaken, hqueue, hrest, Worker.rank,
          idxOf_cons_ne queue hfirst, if_true]
        omega
    · refine ⟨hafter, .inr ⟨hqueue ▸ hid, ?_⟩⟩
      simp only [AudioService.distance, hqueue, if_true]
      omega
  | false =>
    obtain ⟨hafter, hsame, added, hqueue⟩ := command_step config henabled hrun hworker hcrash
    refine ⟨hafter, .inr ⟨?_, ?_⟩⟩
    · rw [hqueue]
      exact mem_append_left _ hid
    · simp only [AudioService.distance, hsame, hqueue, idxOf_append_of_mem hid,
        Bool.false_eq_true, if_false]
      omega

theorem taken_or_distance (hrun : (system config).Run s tr t) (hrunning : s.process = .running)
    (hcrash : ∀ p ∈ tr, p.2 ≠ .crash) (hid : id ∈ s.queue) :
    (∃ u ∈ states tr t, u.worker = .taken id) ∨
      id ∈ t.queue ∧ tr.countP (·.2.ofWorker) + t.distance id ≤ s.distance id := by
  induction hrun with
  | nil s => exact .inr ⟨hid, Nat.le_of_eq (Nat.zero_add _)⟩
  | @cons s a m tr t hstep hrest ih =>
    obtain ⟨henabled, rfl⟩ := hstep
    obtain ⟨hfirst, hcrash⟩ := forall_mem_cons.1 hcrash
    obtain ⟨hafter, htaken | ⟨hmem, hdistance⟩⟩ :=
      distance_after config henabled hrunning hfirst hid
    · exact .inl ⟨_, mem_cons_of_mem _ hrest.mem_states, htaken⟩
    · rcases ih hafter hcrash hmem with ⟨u, hu, htaken⟩ | ⟨hend, hcount⟩
      · exact .inl ⟨u, mem_cons_of_mem _ hu, htaken⟩
      · right
        rw [countP_cons]
        dsimp only
        exact ⟨hend, by omega⟩

theorem Inv.alive_after (h : Inv s) (henabled : s.Enabled a) (halive : s.worker ≠ .dead)
    (hlogs : a ≠ .logFailed true) : (s.after config a).worker ≠ .dead := by
  cases hworker : a.ofWorker with
  | false =>
    cases a with
    | boot now => rintro ⟨⟩
    | requeue =>
      simp only [AudioService.after, AudioService.requeue]
      split
      · split
        · exact halive
        · exact halive
      · exact halive
      · exact halive
    | crash => rintro ⟨⟩
    | _ =>
      obtain ⟨-, hsame, -⟩ := command_step config henabled henabled.1 hworker (by rintro ⟨⟩)
      rw [hsame]
      exact halive
  | true =>
    cases a with
    | get =>
      obtain ⟨-, hidle, hqueue⟩ := henabled
      obtain ⟨id, queue, hcons⟩ := exists_cons_of_ne_nil hqueue
      simp [AudioService.after, AudioService.get, hcons]
    | markProcessing now =>
      obtain ⟨-, id, hw⟩ := henabled
      simp only [AudioService.after, AudioService.markProcessing, hw]
      cases (s.rows.markProcessing id now).getJob id <;> simp
    | play playback =>
      obtain ⟨-, job, hw⟩ := henabled
      simp only [AudioService.after, AudioService.play, hw]
      split
      · cases playback <;> simp
      · simp
    | deliver delivery =>
      obtain ⟨-, job, outputs, hw⟩ := henabled
      simp only [AudioService.after, AudioService.deliver, hw]
      split
      · cases delivery <;> simp
      · simp
    | markCompleted now =>
      obtain ⟨-, job, outputs, hw⟩ := henabled
      simp only [AudioService.after, AudioService.markCompleted, hw]
      cases (s.rows.markCompleted job.id outputs now).getJob job.id <;> simp
    | logCompleted raises =>
      obtain ⟨-, job, completed, outputs, hw⟩ := henabled
      simp only [AudioService.after, AudioService.logCompleted, hw]
      cases raises <;> simp
    | publishResult =>
      obtain ⟨-, completed, hw⟩ := henabled
      simp [AudioService.after, AudioService.publishResult, hw]
    | markFailed now =>
      obtain ⟨-, job, outputs, error, hw⟩ := henabled
      have hsound := h.worker
      rw [hw] at hsound
      obtain ⟨state, hholds⟩ : ∃ state, s.rows.Holds job state := by
        rcases hsound with hsound | hsound
        · exact ⟨_, hsound.1⟩
        · exact ⟨_, hsound.1⟩
      obtain ⟨row, hrow, -⟩ := hholds
      have hjob : (s.rows.markFailed job.id error (failedOutputs job outputs) now).getJob job.id =
          some (row.fail error (failedOutputs job outputs) now) :=
        getJob_update _ (fun _ => rfl) hrow
      simp [AudioService.after, AudioService.markFailed, hw, hjob]
    | logFailed raises =>
      obtain ⟨-, failed, error, hw⟩ := henabled
      simp only [AudioService.after, AudioService.logFailed, hw]
      cases raises with
      | true => exact (hlogs rfl).elim
      | false => simp
    | _ => cases hworker

theorem worker_enabled (hrun : s.process = .running) (halive : s.worker ≠ .dead)
    (hid : id ∈ s.queue) : ∃ a : Action, a.ofWorker = true ∧ s.Enabled a := by
  cases hworker : s.worker with
  | idle => exact ⟨.get, rfl, hrun, hworker, ne_nil_of_mem hid⟩
  | taken id => exact ⟨.markProcessing 0, rfl, hrun, id, hworker⟩
  | playing job => exact ⟨.play (.played ""), rfl, hrun, job, hworker⟩
  | delivering job outputs => exact ⟨.deliver (.raises ""), rfl, hrun, job, outputs, hworker⟩
  | completing job outputs => exact ⟨.markCompleted 0, rfl, hrun, job, outputs, hworker⟩
  | logging job completed outputs => exact ⟨.logCompleted none, rfl, hrun, job, completed, outputs, hworker⟩
  | publishing completed => exact ⟨.publishResult, rfl, hrun, completed, hworker⟩
  | failing job outputs error => exact ⟨.markFailed 0, rfl, hrun, job, outputs, error, hworker⟩
  | loggingFailure failed error => exact ⟨.logFailed false, rfl, hrun, failed, error, hworker⟩
  | dead => exact (halive hworker).elim

end

/-- Every queued job is in the queue once or being taken, and is offered to the worker. -/
structure Conserved (config : Config) (s : AudioService) : Prop where
  once : ∀ job ∈ s.rows, job.state = .queued → (s.queue ++ s.worker.taking).count job.id = 1
  enabled : ∀ id ∈ s.queue, ∃ a : Action, a.ofWorker = true ∧ s.Enabled a
  offered : ∀ id ∈ s.queue, ∀ tr t, (system config).Run s tr t → (∀ p ∈ tr, p.2 ≠ .crash) →
    s.distance id < tr.countP (·.2.ofWorker) → ∃ u ∈ states tr t, u.worker = .taken id

/-- In every run in which each start finds room for the jobs that are not over, and in which the
event log takes the events of failed jobs, in every state in which the command thread is not
between the row of a job and the queue. -/
theorem queue_conserved (hrun : (system config).Run {} tr s)
    (hfits : ∀ p ∈ tr, p.1.StartFits config p.2) (hlogs : ∀ p ∈ tr, p.2 ≠ .logFailed true) :
    ∀ t ∈ states tr s, t.process = .running → t.command.putting = [] → Conserved config t := by
  have hinv : ∀ t ∈ states tr s, Inv t ∧ Covered config t ∧ t.worker ≠ .dead := by
    refine hrun.forall_states (I := fun t => Inv t ∧ Covered config t ∧ t.worker ≠ .dead)
      ⟨inv_initial, ⟨fun hne => (hne rfl).elim, by rintro _ ⟨⟩⟩, by rintro ⟨⟩⟩ ?_
    rintro p hp ⟨hinv, hcovered, halive⟩ u ⟨henabled, rfl⟩
    exact ⟨hinv.after henabled, covered_after hcovered henabled (hfits p hp),
      hinv.alive_after henabled halive (hlogs p hp)⟩
  intro t ht hrunning hputting
  obtain ⟨hinv, hcovered, halive⟩ := hinv t ht
  have hwaiting : t.waiting = t.queue ++ t.worker.taking := by
    rw [AudioService.waiting, hrunning, hputting, append_nil]
    rfl
  constructor
  case once =>
    intro job hjob hstate
    have hqueued : t.rows.stateOf job.id = some .queued := by
      rw [← hstate]
      exact stateOf_of_mem hinv.nodup hjob
    have hnot : t.process ≠ .down := by
      rw [hrunning]
      rintro ⟨⟩
    have hmem := hcovered.queued hnot job.id hqueued
    have hnodup := hinv.waiting
    rw [hwaiting] at hmem hnodup
    exact count_eq_one_of_mem hnodup hmem
  case enabled => exact fun id hid => worker_enabled hrunning halive hid
  case offered =>
    intro id hid tr' u hrun' hcrash hcount
    rcases taken_or_distance hrun' hrunning hcrash hid with htaken | ⟨-, hdistance⟩
    · exact htaken
    · omega

def putOnce : List Action :=
  [.boot 0, .requeue, .playAudio { text := some "hi" } "ui" "r1" 1, .createJob "j1" 1, .putNowait]

/-- One job is queued, in the queue once, and the worker can get it. -/
theorem queue_conserved_putOnce :
    ∃ tr s, (system sampleConfig).Run {} tr s ∧ tr.map Prod.snd = putOnce ∧
      (∀ p ∈ tr, p.1.StartFits sampleConfig p.2) ∧ (∀ p ∈ tr, p.2 ≠ .logFailed true) ∧
      s.rows.stateOf "j1" = some .queued ∧ s.queue = ["j1"] ∧ Conserved sampleConfig s := by
  have hall : ∀ p ∈ (replay (AudioService.after sampleConfig) {} putOnce).1,
      p.1.Enabled p.2 ∧ p.1.StartFits sampleConfig p.2 ∧ p.2 ≠ .logFailed true := by
    intro p hp
    simp only [putOnce, replay, mem_cons, not_mem_nil, or_false] at hp
    obtain rfl | rfl | rfl | rfl | rfl := hp
    · exact ⟨rfl, .inr (by decide), by rintro ⟨⟩⟩
    · exact ⟨⟨_, rfl⟩, trivial, by rintro ⟨⟩⟩
    · exact ⟨⟨rfl, rfl⟩, trivial, by rintro ⟨⟩⟩
    · exact ⟨⟨rfl, ⟨_, _, _, rfl⟩, fun _ h => absurd h not_mem_nil⟩, trivial, by rintro ⟨⟩⟩
    · exact ⟨⟨rfl, _, _, rfl⟩, trivial, by rintro ⟨⟩⟩
  have hrun : (system sampleConfig).Run {}
      (replay (AudioService.after sampleConfig) {} putOnce).1
      (replay (AudioService.after sampleConfig) {} putOnce).2 :=
    System.run_replay putOnce fun p hp => (hall p hp).1
  have hfits : ∀ p ∈ (replay (AudioService.after sampleConfig) {} putOnce).1,
      p.1.StartFits sampleConfig p.2 := fun p hp => (hall p hp).2.1
  have hlogs : ∀ p ∈ (replay (AudioService.after sampleConfig) {} putOnce).1,
      p.2 ≠ .logFailed true := fun p hp => (hall p hp).2.2
  have hconserved := queue_conserved hrun hfits hlogs _ (end_mem_states _ _) rfl rfl
  exact ⟨_, _, hrun, replay_labels _ _ _, hfits, hlogs, by decide +kernel, rfl, hconserved⟩

def crashWhenFull : List Action :=
  [.boot 0, .requeue, .playAudio { text := some "hi" } "ui" "r1" 1, .createJob "j1" 1, .putNowait,
    .get, .markProcessing 2, .playAudio { text := some "ho" } "ui" "r2" 3, .createJob "j2" 3,
    .putNowait, .crash, .boot 4, .requeue, .requeue]

theorem queued_job_lost :
    ∃ tr s, (system sampleConfig).Run {} tr s ∧ tr.map Prod.snd = crashWhenFull ∧
      s.process = .running ∧ s.command.putting = [] ∧ s.rows.stateOf "j2" = some .queued ∧
      (s.queue ++ s.worker.taking).count "j2" = 0 := by
  have hrun : (system sampleConfig).Run {}
      (replay (AudioService.after sampleConfig) {} crashWhenFull).1
      (replay (AudioService.after sampleConfig) {} crashWhenFull).2 := by
    apply System.run_replay
    intro p hp
    simp only [crashWhenFull, replay, mem_cons, not_mem_nil, or_false] at hp
    obtain rfl | rfl | rfl | rfl | rfl | rfl | rfl | rfl | rfl | rfl | rfl | rfl | rfl | rfl := hp
    · rfl
    · exact ⟨_, rfl⟩
    · exact ⟨rfl, rfl⟩
    · exact ⟨rfl, ⟨_, _, _, rfl⟩, fun _ h => absurd h not_mem_nil⟩
    · exact ⟨rfl, _, _, rfl⟩
    · exact ⟨rfl, rfl, cons_ne_nil _ _⟩
    · exact ⟨rfl, _, rfl⟩
    · exact ⟨rfl, rfl⟩
    · refine ⟨rfl, ⟨_, _, _, rfl⟩, ?_⟩
      intro row hrow
      rw [mem_singleton.1 hrow]
      decide
    · exact ⟨rfl, _, _, rfl⟩
    · rintro ⟨⟩
    · rfl
    · exact ⟨_, rfl⟩
    · exact ⟨_, rfl⟩
  exact ⟨_, _, hrun, replay_labels _ _ _, rfl, rfl, rfl, rfl⟩

end Trakrai.AudioManager
