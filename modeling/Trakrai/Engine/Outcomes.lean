import Trakrai.Engine.Generations

namespace Trakrai.Engine
open List Lib

def Reply.address : Reply α → String × String
  | .error target requestId _ => (target, requestId)
  | .result target requestId _ => (target, requestId)

def QueuedDetection.address (job : QueuedDetection α) : String × String :=
  (job.sourceService, job.requestId)

def Worker.unanswered : Worker α → List (QueuedDetection α)
  | .taken job | .picked job _ | .executed job _ _ | .counted job _ _ | .serialized job _ _
  | .replying job _ _ => [job]
  | .idle | .unloaded _ => []

/-- The job that a reload has taken and not replied to. -/
def Watcher.unanswered : Watcher α → List (QueuedDetection α)
  | .dropping _ job | .notifying _ job => [job]
  | _ => []

/-- The number of jobs that the worker has taken and not counted. -/
def Worker.uncounted : Worker α → Nat
  | .taken _ | .picked _ _ | .unloaded _ | .executed _ _ _ => 1
  | _ => 0

def Watcher.uncounted : Watcher α → Nat
  | .dropping _ _ => 1
  | _ => 0

namespace Service

def answered (s : Service α) : List Nat := s.published.filterMap (·.ticket)

/-- The requests that left the queue and are not replied to. -/
def held (s : Service α) : List (QueuedDetection α) := s.worker.unanswered ++ s.watcher.unanswered

end Service

/-- Each request that was put into the queue is counted, or it is queued or taken. -/
def Service.Balanced (s : Service α) : Prop :=
  s.accepted.length = s.processedRuns + s.failedRuns + s.droppedRuns + s.queue.length +
    (s.worker.uncounted + s.watcher.uncounted)

/-- How often a request is replied to, in the queue or taken. -/
def places (published : List (Published α)) (queue : List (QueuedDetection α)) (worker : Worker α)
    (watcher : Watcher α) (n : Nat) : Nat :=
  (published.filterMap (·.ticket)).count n + (queue.map (·.ticket)).count n +
    ((worker.unanswered.map (·.ticket)).count n + (watcher.unanswered.map (·.ticket)).count n)

/-- Each request that was put into the queue is in one place. -/
def Service.Placed (s : Service α) : Prop :=
  ∀ n, places s.published s.queue s.worker s.watcher n = if n < s.accepted.length then 1 else 0

/-- Replies go to the senders of the requests. -/
structure Service.Addressed (s : Service α) : Prop where
  queue : ∀ job ∈ s.queue, s.accepted[job.ticket]? = some job.address
  worker : ∀ job ∈ s.worker.unanswered, s.accepted[job.ticket]? = some job.address
  watcher : ∀ job ∈ s.watcher.unanswered, s.accepted[job.ticket]? = some job.address
  replying : ∀ job engine reply, s.worker = .replying job engine reply → reply.address = job.address
  published : ∀ entry ∈ s.published, ∀ n, entry.ticket = some n →
    s.accepted[n]? = some entry.reply.address

theorem places_publish (published : List (Published α)) (entry : Published α)
    (queue : List (QueuedDetection α)) (worker : Worker α) (watcher : Watcher α) (n : Nat) :
    places (published ++ [entry]) queue worker watcher n =
      places published queue worker watcher n + if entry.ticket = some n then 1 else 0 := by
  have hcount : ((published ++ [entry]).filterMap (·.ticket)).count n =
      (published.filterMap (·.ticket)).count n + if entry.ticket = some n then 1 else 0 := by
    rw [filterMap_append, count_append]
    cases hticket : entry.ticket <;> simp [hticket, count_singleton]
  rw [places, places, hcount]
  omega

section
variable [PyObject α] {config : ServiceConfig α} {s t : Service α} {a : Service.Action α}

theorem Service.Balanced.step (h : s.Balanced) (hstep : ServiceStep config s a t) : t.Balanced := by
  rw [Service.Balanced] at h ⊢
  cases hstep with
  | receive | check | refuse | answer => exact h
  | put =>
    simp only [length_append, length_singleton]
    omega
  | take hstarted hworker hqueue =>
    rw [hworker, hqueue] at h
    simp only [Worker.uncounted, length_cons] at h ⊢
    omega
  | pick hworker | replyUnloaded hworker | execute hworker | serialize hworker | record hworker
  | workerReply hworker =>
    rw [hworker] at h
    exact h
  | countUnloaded hworker | countRaised hworker | countStale hworker =>
    rw [hworker] at h
    simp only [Worker.uncounted] at h ⊢
    omega
  | countFresh hworker =>
    rw [hworker] at h
    simp only [Worker.uncounted] at h ⊢
    split <;> omega
  | drop hwatcher hqueue =>
    rw [hwatcher, hqueue] at h
    simp only [Watcher.uncounted, length_cons] at h ⊢
    omega
  | countDropped hwatcher =>
    rw [hwatcher] at h
    simp only [Watcher.uncounted] at h ⊢
    omega
  | pollError hwatcher | pollOk hwatcher | same hwatcher | bump hwatcher | discarded hwatcher
  | notify hwatcher | loadError hwatcher | loadOk hwatcher | install hwatcher | fail hwatcher =>
    rw [hwatcher] at h
    exact h

theorem Service.Placed.step (h : s.Placed) (hstep : ServiceStep config s a t) : t.Placed := by
  intro n
  replace h := h n
  cases hstep with
  | receive | check | refuse => exact h
  | answer =>
    rw [← Nat.add_zero (places _ _ _ _ _)] at h
    exact (places_publish ..).trans h
  | put =>
    simp only [places, map_append, map_cons, map_nil, count_append,
      count_singleton, length_append, length_singleton, beq_iff_eq] at h ⊢
    split at h <;> split <;> split <;> omega
  | take hstarted hworker hqueue =>
    rw [hworker, hqueue] at h
    rw [← h]
    simp only [places, Worker.unanswered, map_cons, map_nil, count_cons, count_nil]
    omega
  | pick hworker | execute hworker | countRaised hworker | countStale hworker | countFresh hworker
  | serialize hworker | record hworker | countUnloaded hworker =>
    rw [hworker] at h
    exact h
  | replyUnloaded hworker | workerReply hworker =>
    rw [hworker] at h
    refine (places_publish s.published _ s.queue _ s.watcher n).trans (.trans ?_ h)
    simp only [places, Worker.unanswered, map_cons, map_nil, count_cons, count_nil,
      Option.some.injEq, beq_iff_eq]
    omega
  | drop hwatcher hqueue =>
    rw [hwatcher, hqueue] at h
    rw [← h]
    simp only [places, Watcher.unanswered, map_cons, map_nil, count_cons, count_nil]
    omega
  | notify hwatcher =>
    rw [hwatcher] at h
    refine (places_publish s.published _ s.queue s.worker _ n).trans (.trans ?_ h)
    simp only [places, Watcher.unanswered, map_cons, map_nil, count_cons, count_nil,
      Option.some.injEq, beq_iff_eq]
    omega
  | pollError hwatcher | pollOk hwatcher | same hwatcher | bump hwatcher | discarded hwatcher
  | countDropped hwatcher | loadError hwatcher | loadOk hwatcher | install hwatcher | fail hwatcher =>
    rw [hwatcher] at h
    exact h

theorem Service.Addressed.step (h : s.Addressed) (hstep : ServiceStep config s a t) : t.Addressed := by
  have hworking {worker : Worker α} (hw : s.worker = worker) :
      ∀ job ∈ worker.unanswered, s.accepted[job.ticket]? = some job.address := hw ▸ h.worker
  have hwatching {watcher : Watcher α} (hw : s.watcher = watcher) :
      ∀ job ∈ watcher.unanswered, s.accepted[job.ticket]? = some job.address := hw ▸ h.watcher
  cases hstep with
  | receive | check | refuse => exact ⟨h.queue, h.worker, h.watcher, h.replying, h.published⟩
  | put =>
    have hkeep {n : Nat} {address : String × String} (hn : s.accepted[n]? = some address)
        (new : String × String) : (s.accepted ++ [new])[n]? = some address := by
      rw [List.getElem?_append_left (List.getElem?_eq_some_iff.1 hn).1]
      exact hn
    refine ⟨?_, fun job hjob => hkeep (h.worker job hjob) _, fun job hjob => hkeep (h.watcher job hjob) _,
      h.replying, fun entry hentry n hn => hkeep (h.published entry hentry n hn) _⟩
    apply forall_mem_append_singleton
    · intro job hjob
      exact hkeep (h.queue job hjob) _
    · exact List.getElem?_concat_length
  | answer =>
    exact ⟨h.queue, h.worker, h.watcher, h.replying, forall_mem_append_singleton h.published nofun⟩
  | take hstarted hworker hqueue =>
    obtain ⟨hjob, hrest⟩ := forall_mem_cons.1 (hqueue ▸ h.queue)
    exact ⟨hrest, forall_mem_singleton.2 hjob, h.watcher, nofun, h.published⟩
  | pick hworker | execute hworker | countFresh hworker | serialize hworker =>
    have hsame := hworking hworker
    exact ⟨h.queue, hsame, h.watcher, nofun, h.published⟩
  | countRaised hworker | countStale hworker | record hworker =>
    have hsame := hworking hworker
    refine ⟨h.queue, hsame, h.watcher, ?_, h.published⟩
    intro job engine reply hreplying
    cases hreplying
    rfl
  | replyUnloaded hworker =>
    have hjob := hworking hworker _ (mem_singleton_self _)
    refine ⟨h.queue, nofun, h.watcher, nofun, forall_mem_append_singleton h.published ?_⟩
    intro n hn
    cases hn
    exact hjob
  | countUnloaded => exact ⟨h.queue, nofun, h.watcher, nofun, h.published⟩
  | workerReply hworker =>
    have hjob := hworking hworker _ (mem_singleton_self _)
    refine ⟨h.queue, nofun, h.watcher, nofun, forall_mem_append_singleton h.published ?_⟩
    intro n hn
    cases hn
    rw [h.replying _ _ _ hworker]
    exact hjob
  | drop hwatcher hqueue =>
    obtain ⟨hjob, hrest⟩ := forall_mem_cons.1 (hqueue ▸ h.queue)
    exact ⟨hrest, h.worker, forall_mem_singleton.2 hjob, h.replying, h.published⟩
  | countDropped hwatcher =>
    have hsame := hwatching hwatcher
    exact ⟨h.queue, h.worker, hsame, h.replying, h.published⟩
  | notify hwatcher =>
    have hjob := hwatching hwatcher _ (mem_singleton_self _)
    refine ⟨h.queue, h.worker, nofun, h.replying, forall_mem_append_singleton h.published ?_⟩
    intro n hn
    cases hn
    exact hjob
  | pollError | pollOk | same | bump | discarded | loadError | loadOk | install | fail =>
    exact ⟨h.queue, h.worker, nofun, h.replying, h.published⟩

theorem started_step (h : s.worker ≠ .idle → s.started = true) (hstep : ServiceStep config s a t) :
    t.worker ≠ .idle → t.started = true := by
  have hbusy {worker : Worker α} (hw : s.worker = worker) (hne : worker ≠ .idle) : s.started = true :=
    h (hw ▸ hne)
  intro hne
  cases hstep with
  | take hstarted => exact hstarted
  | pick hworker | replyUnloaded hworker | execute hworker | countRaised hworker | countStale hworker
  | countFresh hworker | serialize hworker | record hworker => exact hbusy hworker nofun
  | countUnloaded | workerReply => exact absurd rfl hne
  | install | fail => rfl
  | _ => exact h hne

/-- Steps of certain kinds lead to the reply to a request. -/
def Service.Answers (config : ServiceConfig α) (own : Service.Action α → Prop) (s : Service α)
    (n : Nat) : Prop :=
  ∃ tr t, (Service.system config).Run s tr t ∧ (∀ p ∈ tr, own p.2) ∧ n ∈ t.answered

theorem Service.Answers.cons
    (h : t.Answers config own n) (ha : own a) (hmove : s.move config a = some t) :
    s.Answers config own n := by
  obtain ⟨tr, u, hr, hown, hn⟩ := h
  exact ⟨(s, a) :: tr, u, .cons ⟨trivial, hmove⟩ hr, forall_mem_cons.2 ⟨ha, hown⟩, hn⟩

theorem Service.Answers.of_mem (h : n ∈ s.answered) : s.Answers config own n := by
  refine ⟨[], s, .nil s, ?_, h⟩
  intro p hp
  cases hp

omit [PyObject α] in
theorem mem_answered (h : entry ∈ s.published) (hticket : entry.ticket = some n): n ∈ s.answered :=
  mem_filterMap.2 ⟨entry, h, hticket⟩

omit [PyObject α] in
theorem reply_mem (s : Service α) (job : QueuedDetection α) (engine : Option (WorkflowEngine α))
    (reply : Reply α) : ⟨reply, some job.ticket, engine⟩ ∈ (s.reply job engine reply).published :=
  mem_append_right _ (mem_singleton_self _)

def Service.Action.IsWorker (outcome : Executed α) (a : Service.Action α) : Prop :=
  a = .worker ∨ a = .execute outcome

section
variable {outcome : Executed α} {job : QueuedDetection α} (hs : s.started = true)
include hs

theorem worker_move (hstep : s.workerStep config = some t) : s.move config .worker = some t := by
  rw [Service.move, if_pos hs]
  exact hstep

theorem answers_replying (h : s.worker = .replying job engine reply):
    s.Answers config (Service.Action.IsWorker outcome) job.ticket := by
  have hstep : s.workerStep config = some { s.reply job engine reply with worker := .idle } := by
    rw [Service.workerStep, h]
  refine .cons (.of_mem ?_) (.inl rfl) (worker_move hs hstep)
  exact mem_answered (reply_mem s job engine reply) rfl

theorem answers_serialized (h : s.worker = .serialized job engine run):
    s.Answers config (Service.Action.IsWorker outcome) job.ticket := by
  have hstep : s.workerStep config = some { s with
      results := (run :: s.results).take config.resultHistorySize
      worker := .replying job (some engine) (.result job.sourceService job.requestId run) } := by
    rw [Service.workerStep, h]
  refine .cons ?_ (.inl rfl) (worker_move hs hstep)
  exact answers_replying hs rfl

theorem answers_counted (h : s.worker = .counted job engine result):
    s.Answers config (Service.Action.IsWorker outcome) job.ticket := by
  have hstep : s.workerStep config = some { s with
      worker := .serialized job engine
        { result, workflowGeneration := job.generation, workflowHash := s.workflowHash } } := by
    rw [Service.workerStep, h]
  refine .cons ?_ (.inl rfl) (worker_move hs hstep)
  exact answers_serialized hs rfl

theorem answers_executed (h : s.worker = .executed job engine executed):
    s.Answers config (Service.Action.IsWorker outcome) job.ticket := by
  cases executed with
  | raised error =>
    refine .cons ?_ (.inl rfl) (worker_move hs (by rw [Service.workerStep, h]))
    exact answers_replying hs rfl
  | returned result =>
    by_cases hstale : job.generation ≠ s.workflowGeneration
    · refine .cons ?_ (.inl rfl) (worker_move hs (by rw [Service.workerStep, h]; exact if_pos hstale))
      exact answers_replying hs rfl
    · refine .cons ?_ (.inl rfl) (worker_move hs (by rw [Service.workerStep, h]; exact if_neg hstale))
      exact answers_counted hs rfl

theorem answers_picked (h : s.worker = .picked job engine) :
    s.Answers config (Service.Action.IsWorker outcome) job.ticket := by
  cases engine with
  | none =>
    refine .cons (.of_mem ?_) (.inl rfl) (worker_move hs (by rw [Service.workerStep, h]))
    exact mem_answered (reply_mem s job none _) rfl
  | some engine =>
    have hmove : s.move config (.execute outcome) =
        some { s with worker := .executed job engine outcome } := by
      simp only [Service.move, h]
    refine .cons ?_ (.inr rfl) hmove
    exact answers_executed hs rfl

/-- Whatever becomes of `engine.execute`, the worker comes to the reply to its job. -/
theorem worker_answers (h : job ∈ s.worker.unanswered) :
    s.Answers config (Service.Action.IsWorker outcome) job.ticket := by
  cases hworker : s.worker with
  | idle | unloaded =>
    rw [hworker] at h
    cases h
  | taken job' =>
    rw [hworker] at h
    obtain rfl := mem_singleton.1 h
    refine .cons ?_ (.inl rfl) (worker_move hs (by rw [Service.workerStep, hworker]))
    exact answers_picked hs rfl
  | picked job' =>
    rw [hworker] at h
    obtain rfl := mem_singleton.1 h
    exact answers_picked hs hworker
  | executed job' =>
    rw [hworker] at h
    obtain rfl := mem_singleton.1 h
    exact answers_executed hs hworker
  | counted job' =>
    rw [hworker] at h
    obtain rfl := mem_singleton.1 h
    exact answers_counted hs hworker
  | serialized job' =>
    rw [hworker] at h
    obtain rfl := mem_singleton.1 h
    exact answers_serialized hs hworker
  | replying job' =>
    rw [hworker] at h
    obtain rfl := mem_singleton.1 h
    exact answers_replying hs hworker

end

theorem answers_notifying (h : s.watcher = .notifying bytes job): s.Answers config (· = .watcher) job.ticket := by
  have hmove : s.move config .watcher = some
      { s.reply job none (.error job.sourceService job.requestId
          "queued run was discarded because workflow reloaded") with
        watcher := .discarding bytes } := by
    rw [Service.move, Service.watcherStep, h]
  refine .cons (.of_mem ?_) rfl hmove
  exact mem_answered (reply_mem s job none _) rfl

theorem watcher_answers (h : job ∈ s.watcher.unanswered) :
    s.Answers config (· = .watcher) job.ticket := by
  cases hwatcher : s.watcher with
  | dropping bytes job' =>
    rw [hwatcher] at h
    obtain rfl := mem_singleton.1 h
    have hmove : s.move config .watcher = some
        { s with droppedRuns := s.droppedRuns + 1, watcher := .notifying bytes job } := by
      rw [Service.move, Service.watcherStep, hwatcher]
    refine .cons ?_ rfl hmove
    exact answers_notifying rfl
  | notifying bytes job' =>
    rw [hwatcher] at h
    obtain rfl := mem_singleton.1 h
    exact answers_notifying hwatcher
  | idle | digested | discarding | loading | installing | failing =>
    rw [hwatcher] at h
    cases h

structure Service.Accounts (s : Service α) : Prop where
  balanced : s.Balanced
  placed : s.Placed
  addressed : s.Addressed
  started : s.worker ≠ .idle → s.started = true

theorem accounts (h : (Service.system config).Reachable s) : s.Accounts := by
  apply h.invariant
  · intro s hs
    rw [show s = {} from hs]
    exact ⟨rfl, fun n => rfl, ⟨nofun, nofun, nofun, nofun, nofun⟩, fun hne => absurd rfl hne⟩
  · intro s a t h hstep
    replace hstep := Service.stepped hstep
    exact ⟨h.balanced.step hstep, h.placed.step hstep, h.addressed.step hstep, started_step h.started hstep⟩

omit [PyObject α] in
theorem Service.Placed.cases (h : s.Placed) (hn : n < s.accepted.length) :
    n ∈ s.queue.map (·.ticket) ∧ s.answered.count n = 0 ∨
    n ∉ s.queue.map (·.ticket) ∧ n ∈ s.held.map (·.ticket) ∧ s.answered.count n = 0 ∨
    n ∉ s.queue.map (·.ticket) ∧ n ∉ s.held.map (·.ticket) ∧ s.answered.count n = 1 := by
  have hplaces : s.answered.count n + (s.queue.map (·.ticket)).count n +
      (s.held.map (·.ticket)).count n = 1 := by
    rw [Service.held, map_append, count_append]
    exact (h n).trans (if_pos hn)
  rw [← count_pos_iff, ← count_pos_iff]
  omega

/-- In every state of the service each request that was put into the queue is in it, or has left it
and has no reply yet, or has one reply, which went to its sender; the accounts are balanced; and the
thread that has taken a request replies to it by its own steps. -/
theorem one_outcome_per_request (h : (Service.system config).Reachable s) :
    s.accepted.length = s.processedRuns + s.failedRuns + s.droppedRuns + s.queue.length +
      (s.worker.uncounted + s.watcher.uncounted) ∧
    (∀ n < s.accepted.length, n ∈ s.queue.map (·.ticket) ∧ s.answered.count n = 0 ∨
      n ∉ s.queue.map (·.ticket) ∧ n ∈ s.held.map (·.ticket) ∧ s.answered.count n = 0 ∨
      n ∉ s.queue.map (·.ticket) ∧ n ∉ s.held.map (·.ticket) ∧ s.answered.count n = 1) ∧
    (∀ entry ∈ s.published, ∀ n, entry.ticket = some n →
      s.accepted[n]? = some entry.reply.address) ∧
    (∀ job ∈ s.worker.unanswered, ∀ outcome,
      s.Answers config (Service.Action.IsWorker outcome) job.ticket) ∧
    ∀ job ∈ s.watcher.unanswered, s.Answers config (· = .watcher) job.ticket := by
  obtain ⟨hbalanced, hplaced, haddressed, hstarted⟩ := accounts h
  refine ⟨hbalanced, fun n hn => hplaced.cases hn, haddressed.published, ?_,
    fun job hjob => watcher_answers hjob⟩
  intro job hjob outcome
  apply worker_answers (hstarted ?_) hjob
  intro hidle
  rw [hidle] at hjob
  cases hjob

end

theorem one_outcome_per_request_counters : ∃ s,
    (Service.system countersConfig).Reachable s ∧ s.accepted.length = 2 ∧
      s.answered.count 0 = 1 ∧ 1 ∈ s.queue.map (·.ticket) := by
  have hplay : (play (Service.move countersConfig) {} (firstLoad ["n1"] ++
      ([.receive "live-feed" "r1" (.ok .none), .command, .command,
        .receive "live-feed" "r2" (.ok .none), .command, .command] : List (Service.Action PyValue)) ++
        workOne)).any (fun r =>
        r.2.accepted.length == 2 && (r.2.queue.map (·.ticket) == [1] && r.2.held.isEmpty)) = true := by
    decide +kernel
  obtain ⟨⟨tr, s⟩, hs, hcheck⟩ := (Option.any_eq_true _ _).1 hplay
  simp only [Bool.and_eq_true, beq_iff_eq, List.isEmpty_iff] at hcheck
  obtain ⟨haccepted, hqueue, hheld⟩ := hcheck
  have hreach : (Service.system countersConfig).Reachable s :=
    ⟨{}, tr, rfl, System.run_play hs fun _ _ => trivial⟩
  have hcases := (one_outcome_per_request hreach).2.1 0 (by rw [haccepted]; decide)
  rw [hqueue, hheld] at hcases
  refine ⟨s, hreach, haccepted, ?_, by rw [hqueue]; exact mem_singleton_self 1⟩
  simpa using hcases

end Trakrai.Engine
