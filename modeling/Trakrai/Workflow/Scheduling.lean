import Mathlib.Algebra.Order.BigOperators.Group.List
import Mathlib.Algebra.Order.Group.Nat
import Trakrai.Workflow.Results

namespace Trakrai.Workflow
open List Lib

section
variable {s t : State} {id nodeId name : String} {task : Task} {result : ExecutionResult}

def State.callsOf (s : State) (id : String) : List (String × Input) := s.calls.filter (·.1 == id)

@[simp] theorem State.get_setTask : (s.setTask nodeId task).get = s.get := rfl

@[simp] theorem State.sent_setTask : (s.setTask nodeId task).sent = s.sent := rfl

@[simp] theorem State.callsOf_setTask : (s.setTask nodeId task).callsOf = s.callsOf := rfl

@[simp] theorem State.tasks_setTask : (s.setTask nodeId task).tasks nodeId = task := by
  simp [State.setTask]

theorem State.tasks_setTask_of_ne (h : id ≠ nodeId) : (s.setTask nodeId task).tasks id = s.tasks id := by
  simp [State.setTask, h]

@[simp] theorem State.get_setResult : (s.setResult nodeId result).get id =
    if id = nodeId then some result else s.get id := lookup_setKey ..

@[simp] theorem State.sent_setResult : (s.setResult nodeId result).sent = s.sent := rfl

@[simp] theorem State.callsOf_setResult : (s.setResult nodeId result).callsOf = s.callsOf := rfl

@[simp] theorem State.get_send : (s.send name data).get = s.get := rfl

theorem State.sent_send : (s.send name data).sent other = (s.sent other || name == other) := by
  simp [State.sent, State.send]

@[simp] theorem State.get_call : (s.call nodeId input).get = s.get := rfl

theorem State.callsOf_call : (s.call nodeId (some input)).callsOf id =
    s.callsOf id ++ if id = nodeId then [(nodeId, input)] else [] := by
  by_cases h : id = nodeId
  · simp [State.callsOf, State.call, h]
  · simp [State.callsOf, State.call, h, Ne.symm h]

end

namespace Automation
variable {w : Automation} {node other : Node} {s t : State} {m : Move} {task : Task}

inductive TaskStep (w : Automation) (node : Node) (s : State) : State → Prop where
  | begin : s.tasks node.id = .started → TaskStep w node s (s.setTask node.id (w.begin node))
  | completion {pending : List DependencyInfo} {index : Nat} {dep : DependencyInfo} :
      s.tasks node.id = .completions pending → pending[index]? = some dep →
      s.sent (w.completionName dep.sourceNodeId) = true →
      TaskStep w node s (s.setTask node.id (.completions (pending.eraseIdx index)))
  | resume : s.tasks node.id = .completions [] → TaskStep w node s (s.setTask node.id (.events []))
  | skip : s.tasks node.id = .events [] →
      hasDependencyFailure s.get (w.dependencies node) = .ok true → TaskStep w node s (s.skip node.id)
  | pass : s.tasks node.id = .events [] →
      hasDependencyFailure s.get (w.dependencies node) = .ok false →
      TaskStep w node s (s.setTask node.id (.ready (w.dependencies node)))
  | execute {dependencies : List DependencyInfo} : s.tasks node.id = .ready dependencies →
      TaskStep w node s ((s.call node.id (executeNode s.get w.registry node dependencies).1).setTask
        node.id (.ran (executeNode s.get w.registry node dependencies).2))
  | record {outcome : Outcome} : s.tasks node.id = .ran outcome →
      TaskStep w node s ((s.setResult node.id (outcome.result node.id)).setTask node.id
        (.announcing outcome.signalData))
  | announce {data : Json} : s.tasks node.id = .announcing data →
      TaskStep w node s ((s.send (w.completionName node.id) data).setTask node.id .done)

/-- All completion signals that a node waits for have been sent. -/
def SourcesSent (w : Automation) (node : Node) (s : State) : Prop :=
  ∀ dep ∈ w.dependencies node, s.sent (w.completionName dep.sourceNodeId) = true

/-- A task that has neither called its handler nor stored a result. -/
structure Fresh (w : Automation) (node : Node) (s : State) : Prop where
  result : s.get node.id = none
  signal : s.sent (w.completionName node.id) = false
  calls : s.callsOf node.id = []

/-- What holds of a node while its task stands where it stands. -/
def TaskInv (w : Automation) (node : Node) (s : State) : Task → Prop
  | .started => w.Fresh node s
  | .completions pending => w.Fresh node s ∧ pending ⊆ w.dependencies node ∧
      ∀ dep ∈ w.dependencies node, dep ∈ pending ∨ s.sent (w.completionName dep.sourceNodeId) = true
  | .events pending => w.Fresh node s ∧ pending = [] ∧ w.SourcesSent node s
  | .ready dependencies => w.Fresh node s ∧ dependencies = w.dependencies node ∧
      w.SourcesSent node s ∧ hasDependencyFailure s.get (w.dependencies node) = .ok false
  | .ran outcome => s.get node.id = none ∧ s.sent (w.completionName node.id) = false ∧
      w.SourcesSent node s ∧ s.callsOf node.id = w.nodeCalls node s.get ∧
      outcome.result node.id = w.nodeResult node s.get
  | .announcing _ => (s.get node.id).isSome ∧ s.sent (w.completionName node.id) = false ∧
      s.callsOf node.id = w.nodeCalls node s.get
  | .done => (s.get node.id).isSome ∧ s.sent (w.completionName node.id) = true ∧
      s.callsOf node.id = w.nodeCalls node s.get
  | _ => False

/-- The invariant of all runs: the results so far are those of the network. -/
structure Inv (h : w.Joined) (s : State) : Prop where
  consistent : (network h).Consistent s.get
  keys : (s.resultMap.map Prod.fst).Nodup
  owners : ∀ id, (s.get id).isSome → id ∈ w.nodes.map Node.id
  tasks : ∀ node ∈ w.nodes, w.TaskInv node s (s.tasks node.id)

theorem TaskInv.done_of_sent (h : w.TaskInv node s task)
    (hsent : s.sent (w.completionName node.id) = true) : task = .done := by
  cases task with
  | started => simp [h.signal] at hsent
  | completions pending => simp [h.1.signal] at hsent
  | events pending => simp [h.1.signal] at hsent
  | ready dependencies => simp [h.1.signal] at hsent
  | ran outcome => simp [h.2.1] at hsent
  | announcing data => simp [h.2.1] at hsent
  | done => rfl
  | racing | racedEvents | merging | rejected => exact h.elim

theorem Inv.filled {h : w.Joined} (hinv : Inv h s) (hnode : node ∈ w.nodes)
    (hsent : s.sent (w.completionName node.id) = true) : (s.get node.id).isSome := by
  have htask := hinv.tasks node hnode
  rw [htask.done_of_sent hsent] at htask
  exact htask.1

theorem Inv.sources_filled {h : w.Joined} (hinv : Inv h s) (hnode : node ∈ w.nodes)
    (hsent : w.SourcesSent node s) : ∀ id ∈ w.dependencyMap.sources node.id, (s.get id).isSome := by
  intro id hid
  obtain ⟨source, hsource, rfl⟩ := mem_map.1 (h.accepted.sources node hnode id hid)
  obtain ⟨dep, hdep, hdid⟩ := mem_sources.1 hid
  have hdep := hsent dep hdep
  rw [hdid] at hdep
  exact hinv.filled hsource hdep

theorem Inv.hasDependencyFailure_ok (hinv : Inv h s) (dependencies : List DependencyInfo):
    ∃ failed, hasDependencyFailure s.get dependencies = .ok failed := by
  apply Workflow.hasDependencyFailure_ok
  intro id nodeId data hget
  obtain ⟨hvalue, _⟩ := hinv.consistent id _ hget
  exact network_object h hvalue.symm

theorem Inv.taskStep {h : w.Joined} (hinv : Inv h s) (hnode : node ∈ w.nodes)
    (hm : w.move node m s = some t) : TaskStep w node s t := by
  have htask := hinv.tasks node hnode
  cases m with
  | advance =>
    simp only [move, advance] at hm
    split at hm
    case h_1 heq => cases hm; exact .begin heq
    case h_2 heq =>
      cases hm
      rw [(h.plain node hnode).eventDependencies]
      exact .resume heq
    case h_3 heq =>
      obtain ⟨failed, hfailed⟩ := hinv.hasDependencyFailure_ok (w.dependencies node)
      rw [hfailed] at hm
      cases failed with
      | true => cases hm; exact .skip heq hfailed
      | false => cases hm; exact .pass heq hfailed
    case h_8 heq => cases hm; exact .execute heq
    case h_9 heq => cases hm; exact .record heq
    case h_10 heq => cases hm; exact .announce heq
    case h_11 => cases hm
    all_goals
      rename_i heq
      rw [heq] at htask
      exact htask.elim
  | completion index =>
    simp only [move, deliverCompletion] at hm
    split at hm
    · rename_i pending heq
      split at hm
      · rename_i dep hdep
        split at hm
        · rename_i hsent
          cases hm
          exact .completion heq hdep hsent
        · cases hm
      · cases hm
    · cases hm
  | event index signal =>
    -- no task of this kind waits for an event
    simp only [move, deliverEvent] at hm
    cases heq : s.tasks node.id with
    | events pending =>
      rw [heq] at htask
      simp [heq, htask.2.1, Task.eventWaits] at hm
    | racedEvents race source pending =>
      rw [heq] at htask
      exact htask.elim
    | _ => simp [heq, Task.eventWaits] at hm
  | settle source kind =>
    simp only [move, settle] at hm
    split at hm
    · rename_i heq
      rw [heq] at htask
      exact htask.elim
    · rename_i heq
      rw [heq] at htask
      exact htask.elim
    · cases hm

/-- What the steps of the others leave of a node. -/
structure Keeps (w : Automation) (node : Node) (s t : State) : Prop where
  task : t.tasks node.id = s.tasks node.id
  own : t.get node.id = s.get node.id
  entries : ∀ id, (s.get id).isSome → t.get id = s.get id
  signals : ∀ name, s.sent name = true → t.sent name = true
  signal : t.sent (w.completionName node.id) = s.sent (w.completionName node.id)
  calls : t.callsOf node.id = s.callsOf node.id

theorem Fresh.keeps (h : w.Fresh node s) (hk : w.Keeps node s t) : w.Fresh node t :=
  ⟨hk.own.trans h.result, hk.signal.trans h.signal, hk.calls.trans h.calls⟩

theorem Inv.keeps {h : w.Joined} (hinv : Inv h s) (hnode : node ∈ w.nodes)
    (hk : w.Keeps node s t) : w.TaskInv node t (t.tasks node.id) := by
  have htask := hinv.tasks node hnode
  have hsources (hsent : w.SourcesSent node s) (id : String)
      (hid : id ∈ w.dependencyMap.sources node.id) : t.get id = s.get id :=
    hk.entries id (hinv.sources_filled hnode hsent id hid)
  have hreads (hsome : (s.get node.id).isSome) (id : String)
      (hid : id ∈ w.dependencyMap.sources node.id) : t.get id = s.get id := by
    obtain ⟨result, hresult⟩ := Option.isSome_iff_exists.1 hsome
    exact hk.entries id ((hinv.consistent node.id result hresult).2 id hid)
  rw [hk.task]
  cases heq : s.tasks node.id with
  | started =>
    rw [heq] at htask
    exact Fresh.keeps htask hk
  | completions pending =>
    rw [heq] at htask
    obtain ⟨hfresh, hsub, hpending⟩ := htask
    exact ⟨hfresh.keeps hk, hsub, fun dep hdep => (hpending dep hdep).imp_right (hk.signals _)⟩
  | events pending =>
    rw [heq] at htask
    obtain ⟨hfresh, hempty, hsent⟩ := htask
    exact ⟨hfresh.keeps hk, hempty, fun dep hdep => hk.signals _ (hsent dep hdep)⟩
  | ready dependencies =>
    rw [heq] at htask
    obtain ⟨hfresh, hdeps, hsent, hcheck⟩ := htask
    refine ⟨hfresh.keeps hk, hdeps, fun dep hdep => hk.signals _ (hsent dep hdep), ?_⟩
    rw [← hcheck]
    apply hasDependencyFailure_congr (h.plain node hnode)
    intro dep hdep
    exact hsources hsent _ (mem_sources.2 ⟨dep, hdep, rfl⟩)
  | ran outcome =>
    rw [heq] at htask
    obtain ⟨hnone, hsignal, hsent, hcalls, hresult⟩ := htask
    refine ⟨hk.own.trans hnone, hk.signal.trans hsignal,
      fun dep hdep => hk.signals _ (hsent dep hdep), ?_, ?_⟩
    · rw [hk.calls, hcalls, nodeCalls_congr h hnode (hsources hsent)]
    · rw [hresult, nodeResult_congr h hnode (hsources hsent)]
  | announcing data | done =>
    rw [heq] at htask
    obtain ⟨hsome, hsignal, hcalls⟩ := htask
    refine ⟨by rw [hk.own]; exact hsome, hk.signal.trans hsignal, ?_⟩
    rw [hk.calls, hcalls, nodeCalls_congr h hnode (hreads hsome)]
  | racing | racedEvents | merging | rejected =>
    rw [heq] at htask
    exact htask.elim

theorem completionName_ne (h : w.Joined) (hnode : node ∈ w.nodes) (hother : other ∈ w.nodes)
    (hne : other.id ≠ node.id) : w.completionName node.id ≠ w.completionName other.id :=
  h.names.ne hnode hother (Ne.symm hne) completionName_mem completionName_mem

theorem eventName_ne (h : w.Joined) (hnode : node ∈ w.nodes) (hother : other ∈ w.nodes) (hevent : event ∈ w.events node) :
    w.eventName node.id event ≠ w.completionName other.id := by
  by_cases hne : other.id = node.id
  · rw [hne]
    exact eventName_ne_completionName
  · exact h.names.ne hnode hother (Ne.symm hne) (eventName_mem hevent) completionName_mem

theorem keeps_setTask (hne : other.id ≠ node.id) : w.Keeps other s (s.setTask node.id task) :=
  ⟨State.tasks_setTask_of_ne hne, rfl, fun _ _ => rfl, fun _ h => h, rfl, rfl⟩

theorem keeps_setResult (hne : other.id ≠ node.id) (hnone : s.get node.id = none):
    w.Keeps other s ((s.setResult node.id result).setTask node.id task) := by
  refine ⟨State.tasks_setTask_of_ne hne, ?_, ?_, fun _ h => h, rfl, rfl⟩
  · rw [State.get_setTask, State.get_setResult, if_neg hne]
  · intro id hsome
    rw [State.get_setTask, State.get_setResult, if_neg]
    rintro rfl
    simp [hnone] at hsome

theorem keeps_send (hname : name ≠ w.completionName other.id) :
    w.Keeps other s (s.send name data) := by
  refine ⟨rfl, rfl, fun _ _ => rfl, ?_, ?_, rfl⟩
  · intro other hsent
    rw [State.sent_send, hsent, Bool.true_or]
  · rw [State.sent_send, beq_eq_false_iff_ne.2 hname, Bool.or_false]

theorem keeps_call (hne : other.id ≠ node.id) : w.Keeps other s (s.call node.id input) := by
  refine ⟨rfl, rfl, fun _ _ => rfl, fun _ h => h, rfl, ?_⟩
  cases input with
  | none => simp [State.callsOf, State.call]
  | some input => rw [State.callsOf_call, if_neg hne, append_nil]

theorem Keeps.trans (hst : w.Keeps node s t) (htu : w.Keeps node t u) : w.Keeps node s u := by
  refine ⟨htu.task.trans hst.task, htu.own.trans hst.own, ?_, fun name h => htu.signals name
    (hst.signals name h), htu.signal.trans hst.signal, htu.calls.trans hst.calls⟩
  intro id hsome
  have hid := hst.entries id hsome
  rw [htu.entries id (by rw [hid]; exact hsome), hid]

theorem TaskStep.keeps {h : w.Joined} (hinv : Inv h s) (hnode : node ∈ w.nodes)
    (hother : other ∈ w.nodes) (hne : other.id ≠ node.id) (hs : TaskStep w node s t) :
    w.Keeps other s t := by
  have htask := hinv.tasks node hnode
  cases hs with
  | begin _ => exact keeps_setTask hne
  | completion _ _ _ => exact keeps_setTask hne
  | resume _ => exact keeps_setTask hne
  | skip heq _ =>
    rw [heq] at htask
    exact keeps_setResult hne htask.1.result
  | pass _ _ => exact keeps_setTask hne
  | execute _ => exact (keeps_call hne).trans (keeps_setTask hne)
  | record heq =>
    rw [heq] at htask
    exact keeps_setResult hne htask.1
  | announce _ =>
    exact (keeps_send (completionName_ne h hnode hother hne)).trans (keeps_setTask hne)

theorem mem_or_getElem?_of_mem {l : List α} {a : α} (h : a ∈ l) (index : Nat) :
    a ∈ l.eraseIdx index ∨ l[index]? = some a := by
  obtain ⟨i, hi⟩ := List.mem_iff_getElem?.1 h
  by_cases heq : i = index
  · exact .inr (heq ▸ hi)
  · exact .inl (List.mem_eraseIdx_iff_getElem?.2 ⟨i, heq, hi⟩)

theorem Inv.get_setResult_sources {h : w.Joined} (hinv : Inv h s) (hnode : node ∈ w.nodes)
    (hnone : s.get node.id = none) (hsent : w.SourcesSent node s) {result : ExecutionResult} :
    ∀ id ∈ w.dependencyMap.sources node.id, (s.setResult node.id result).get id = s.get id := by
  intro id hid
  rw [State.get_setResult, if_neg]
  rintro rfl
  have hsome := hinv.sources_filled hnode hsent _ hid
  simp [hnone] at hsome

theorem TaskStep.own {h : w.Joined} (hinv : Inv h s) (hnode : node ∈ w.nodes)
    (hs : TaskStep w node s t) : w.TaskInv node t (t.tasks node.id) := by
  have htask := hinv.tasks node hnode
  cases hs with
  | begin heq =>
    rw [heq] at htask
    rw [State.tasks_setTask, Automation.begin]
    split
    · rename_i hdeps
      refine ⟨⟨htask.result, htask.signal, htask.calls⟩, hdeps.symm, ?_, ?_⟩
      · intro dep hdep
        rw [hdeps] at hdep
        cases hdep
      · rw [hdeps]
        rfl
    · rw [h.all node hnode]
      exact ⟨⟨htask.result, htask.signal, htask.calls⟩, List.Subset.refl _, fun dep hdep => .inl hdep⟩
  | @completion pending index dep heq hdep hsent =>
    rw [heq] at htask
    obtain ⟨hfresh, hsub, hpending⟩ := htask
    rw [State.tasks_setTask]
    refine ⟨⟨hfresh.result, hfresh.signal, hfresh.calls⟩, ?_, ?_⟩
    · exact List.Subset.trans (eraseIdx_subset ..) hsub
    · intro d hd
      rcases hpending d hd with hd | hd
      · rcases mem_or_getElem?_of_mem hd index with hd | hd
        · exact .inl hd
        · obtain rfl : dep = d := Option.some.inj (hdep.symm.trans hd)
          exact .inr hsent
      · exact .inr hd
  | resume heq =>
    rw [heq] at htask
    obtain ⟨hfresh, _, hpending⟩ := htask
    rw [State.tasks_setTask]
    refine ⟨⟨hfresh.result, hfresh.signal, hfresh.calls⟩, rfl, ?_⟩
    intro dep hdep
    exact (hpending dep hdep).resolve_left not_mem_nil
  | skip heq hcheck =>
    rw [heq] at htask
    obtain ⟨hfresh, _, hsent⟩ := htask
    rw [State.skip, State.tasks_setTask]
    refine ⟨by simp, hfresh.signal, ?_⟩
    rw [State.callsOf_setTask, State.callsOf_setResult, hfresh.calls, State.get_setTask,
      nodeCalls_congr h hnode (hinv.get_setResult_sources hnode hfresh.result hsent), nodeCalls, hcheck]
  | pass heq hcheck =>
    rw [heq] at htask
    obtain ⟨hfresh, _, hsent⟩ := htask
    rw [State.tasks_setTask]
    exact ⟨⟨hfresh.result, hfresh.signal, hfresh.calls⟩, rfl, hsent, hcheck⟩
  | execute heq =>
    rw [heq] at htask
    obtain ⟨hfresh, rfl, hsent, hcheck⟩ := htask
    rw [State.tasks_setTask]
    refine ⟨hfresh.result, hfresh.signal, hsent, ?_, ?_⟩
    · rw [State.callsOf_setTask, executeNode_input (h.accepted.resolves node hnode), State.callsOf_call, hfresh.calls, if_pos rfl,
        State.get_setTask, State.get_call, nodeCalls, hcheck, nil_append]
    · rw [State.get_setTask, State.get_call, nodeResult, hcheck]
  | record heq =>
    rw [heq] at htask
    obtain ⟨hnone, hsignal, hsent, hcalls, hresult⟩ := htask
    rw [State.tasks_setTask]
    refine ⟨by simp, hsignal, ?_⟩
    rw [State.callsOf_setTask, State.callsOf_setResult, hcalls, State.get_setTask,
      nodeCalls_congr h hnode (hinv.get_setResult_sources hnode hnone hsent)]
  | announce heq =>
    rw [heq] at htask
    obtain ⟨hsome, _, hcalls⟩ := htask
    rw [State.tasks_setTask]
    refine ⟨hsome, ?_, hcalls⟩
    rw [State.sent_setTask, State.sent_send, beq_self_eq_true, Bool.or_true]

theorem TaskStep.results {h : w.Joined} (hinv : Inv h s) (hnode : node ∈ w.nodes)
    (hs : TaskStep w node s t) : t.resultMap = s.resultMap ∨
      s.get node.id = none ∧ w.SourcesSent node s ∧
        t.resultMap = setKey s.resultMap node.id (w.nodeResult node s.get) := by
  have htask := hinv.tasks node hnode
  cases hs with
  | begin _ => exact .inl rfl
  | completion _ _ _ => exact .inl rfl
  | resume _ => exact .inl rfl
  | skip heq hcheck =>
    rw [heq] at htask
    obtain ⟨hfresh, _, hsent⟩ := htask
    refine .inr ⟨hfresh.result, hsent, ?_⟩
    rw [nodeResult, hcheck]
    rfl
  | pass _ _ => exact .inl rfl
  | execute _ => exact .inl rfl
  | record heq =>
    rw [heq] at htask
    obtain ⟨hnone, _, hsent, _, hresult⟩ := htask
    refine .inr ⟨hnone, hsent, ?_⟩
    rw [← hresult]
    rfl
  | announce _ => exact .inl rfl

theorem Inv.after {h : w.Joined} (hinv : Inv h s) (hnode : node ∈ w.nodes)
    (hs : TaskStep w node s t) : Inv h t := by
  have htasks (n : Node) (hn : n ∈ w.nodes) : w.TaskInv n t (t.tasks n.id) := by
    by_cases hid : n.id = node.id
    · obtain rfl : n = node := inj_on_of_nodup_map h.accepted.nodup hn hnode hid
      exact hs.own hinv hnode
    · exact hinv.keeps hn (hs.keeps hinv hnode hn hid)
  rcases hs.results hinv hnode with hsame | ⟨hnone, hsent, hset⟩
  · have hget : t.get = s.get := by funext id; rw [State.get, State.get, hsame]
    refine ⟨?_, ?_, ?_, htasks⟩
    · rw [hget]
      exact hinv.consistent
    · rw [hsame]
      exact hinv.keys
    · rw [hget]
      exact hinv.owners
  · have hget (id : String) : t.get id =
        if id = node.id then some ((network h).value node.id s.get) else s.get id := by
      rw [State.get, hset, lookup_setKey, network_value h hnode]
      rfl
    refine ⟨hinv.consistent.fill hnone (hinv.sources_filled hnode hsent) hget, ?_, ?_, htasks⟩
    · rw [hset]
      exact nodup_setKey hinv.keys ..
    · intro id hsome
      rw [hget] at hsome
      split at hsome
      · rename_i hid
        rw [hid]
        exact mem_map_of_mem hnode
      · exact hinv.owners id hsome

theorem Inv.step {h : w.Joined} {action : Action} (hinv : Inv h s)
    (hs : w.system.step s action t) : Inv h t := by
  cases action with
  | task node m => exact hinv.after hs.1 (hinv.taskStep hs.1 hs.2)
  | emit node event data =>
    obtain ⟨hnode, _, hevent, rfl⟩ := hs
    exact ⟨hinv.consistent, hinv.keys, hinv.owners,
      fun n hn => hinv.keeps hn (keeps_send (eventName_ne h hnode hn hevent))⟩

theorem Inv.start (h : w.Joined) : Inv h initial := by
  refine ⟨?_, nodup_nil, ?_, fun node _ => ⟨rfl, rfl, rfl⟩⟩
  · intro id result hget
    cases hget
  · intro id hsome
    cases hsome

theorem Inv.of_reachable (h : w.Joined) (hs : w.system.Reachable s) : Inv h s :=
  hs.invariant (fun {s} (hinit : s = initial) => hinit ▸ Inv.start h) Inv.step

theorem Inv.get_step {h : w.Joined} {action : Action} (hinv : Inv h s)
    (hs : w.system.step s action t) {id : String} (hsome : (s.get id).isSome) :
    t.get id = s.get id := by
  cases action with
  | task node m =>
    rcases (hinv.taskStep hs.1 hs.2).results hinv hs.1 with hsame | ⟨hnone, _, hset⟩
    · rw [State.get, hsame]
      rfl
    · rw [State.get, hset, lookup_setKey, if_neg]
      · rfl
      · rintro rfl
        simp [hnone] at hsome
  | emit node event data =>
    obtain ⟨_, _, _, rfl⟩ := hs
    rfl

theorem Inv.get_run {h : w.Joined} {tr : List (State × Action)} (hinv : Inv h s)
    (hr : w.system.Run s tr t) {id : String} (hsome : (s.get id).isSome) : t.get id = s.get id := by
  induction hr with
  | nil => rfl
  | cons hs _ ih =>
    have hmid := hinv.get_step hs hsome
    rw [ih (hinv.step hs) (by rw [hmid]; exact hsome), hmid]

/-- An upper bound for the steps that a task still has to take. -/
def rank (w : Automation) (node : Node) : Task → Nat
  | .started => (w.dependencies node).length + 6
  | .completions pending => pending.length + 5
  | .events _ => 4
  | .ready _ => 3
  | .ran _ => 2
  | .announcing _ => 1
  | _ => 0

theorem TaskStep.rank_lt {h : w.Joined} (hnode : node ∈ w.nodes) (hs : TaskStep w node s t) :
    w.rank node (t.tasks node.id) < w.rank node (s.tasks node.id) := by
  cases hs with
  | begin heq =>
    rw [heq, State.tasks_setTask, Automation.begin]
    split
    · simp only [rank]
      omega
    · rw [h.all node hnode]
      simp only [rank]
      omega
  | @completion pending index dep heq hdep _ =>
    have hlt := (List.getElem?_eq_some_iff.1 hdep).1
    rw [heq, State.tasks_setTask]
    simp only [rank, length_eraseIdx_of_lt hlt]
    omega
  | resume heq | skip heq _ | pass heq _ | execute heq | record heq | announce heq =>
    simp [heq, rank, State.skip]

def remaining (w : Automation) (s : State) : Nat :=
  (w.nodes.map fun node => w.rank node (s.tasks node.id)).sum

theorem TaskStep.remaining_lt {h : w.Joined} (hinv : Inv h s) (hnode : node ∈ w.nodes)
    (hs : TaskStep w node s t) : w.remaining t < w.remaining s := by
  apply sum_lt_sum
  · intro n hn
    by_cases hid : n.id = node.id
    · obtain rfl : n = node := inj_on_of_nodup_map h.accepted.nodup hn hnode hid
      exact (hs.rank_lt (h := h) hn).le
    · rw [(hs.keeps hinv hnode hn hid).task]
  · exact ⟨node, hnode, hs.rank_lt (h := h) hnode⟩

def Action.isTask : Action → Bool
  | .task .. => true
  | .emit .. => false

theorem run_bound (h : w.Joined) (hr : w.system.Run initial tr t) :
    tr.countP (·.2.isTask) + w.remaining t ≤ w.remaining initial := by
  let I (tr : List (State × Action)) (s : State) : Prop :=
    Inv h s ∧ tr.countP (·.2.isTask) + w.remaining s ≤ w.remaining initial
  have hstep {tr : List (State × Action)} {s : State} {action : Action} {t : State}
      (hI : I tr s) (hs : w.system.step s action t) : I (tr ++ [(s, action)]) t := by
    obtain ⟨hinv, hle⟩ := hI
    refine ⟨hinv.step hs, ?_⟩
    rw [countP_append]
    cases action with
    | task node m =>
      have hlt := (hinv.taskStep hs.1 hs.2).remaining_lt hinv hs.1
      have hone : [(s, Action.task node m)].countP (·.2.isTask) = 1 := rfl
      omega
    | emit node event data =>
      obtain ⟨_, _, _, rfl⟩ := hs
      exact hle
  have hstart : I [] initial := ⟨Inv.start h, by simp⟩
  exact (hr.trace_invariant hstep hstart).2

theorem Inv.progress {h : w.Joined} (hinv : Inv h s) (hnode : node ∈ w.nodes)
    (hne : s.tasks node.id ≠ .done) : ∃ n ∈ w.nodes, ∃ m, (w.move n m s).isSome := by
  let unfinished : Set String := {id | id ∈ w.nodes.map Node.id ∧ s.tasks id ≠ .done}
  obtain ⟨id, ⟨hid, hunfinished⟩, hmin⟩ := h.accepted.acyclic.has_min unfinished
    ⟨node.id, mem_map_of_mem hnode, hne⟩
  obtain ⟨n, hn, rfl⟩ := mem_map.1 hid
  have hsent : w.SourcesSent n s := by
    intro dep hdep
    have hsource := mem_sources.2 ⟨dep, hdep, rfl⟩
    have hdone : s.tasks dep.sourceNodeId = .done := by
      by_contra hnot
      exact hmin _ ⟨h.accepted.sources n hn _ hsource, hnot⟩ hsource
    obtain ⟨source, hmem, hsid⟩ := mem_map.1 (h.accepted.sources n hn _ hsource)
    have htask := hinv.tasks source hmem
    rw [hsid, hdone] at htask
    rw [← hsid]
    exact htask.2.1
  have htask := hinv.tasks n hn
  refine ⟨n, hn, ?_⟩
  cases heq : s.tasks n.id with
  | started => exact ⟨.advance, by simp [move, advance, heq]⟩
  | completions pending =>
    rw [heq] at htask
    cases pending with
    | nil => exact ⟨.advance, by simp [move, advance, heq]⟩
    | cons dep pending =>
      have hdep := hsent dep (htask.2.1 (mem_cons_self ..))
      exact ⟨.completion 0, by simp [move, deliverCompletion, heq, hdep]⟩
  | events pending =>
    rw [heq] at htask
    obtain ⟨failed, hfailed⟩ := hinv.hasDependencyFailure_ok (w.dependencies n)
    rw [htask.2.1] at heq
    cases failed with
    | true => exact ⟨.advance, by simp [move, advance, heq, hfailed]⟩
    | false => exact ⟨.advance, by simp [move, advance, heq, hfailed]⟩
  | ready dependencies => exact ⟨.advance, by simp [move, advance, heq]⟩
  | ran outcome => exact ⟨.advance, by simp [move, advance, heq]⟩
  | announcing data => exact ⟨.advance, by simp [move, advance, heq]⟩
  | done => exact absurd heq hunfinished
  | racing | racedEvents | merging | rejected =>
    rw [heq] at htask
    exact htask.elim

def Finished (w : Automation) (s : State) : Prop := ∀ node ∈ w.nodes, s.tasks node.id = .done

theorem Inv.finished_calls {h : w.Joined} (hinv : Inv h s) (hdone : w.Finished s)
    (hnode : node ∈ w.nodes) : s.callsOf node.id = w.nodeCalls node s.get := by
  have htask := hinv.tasks node hnode
  rw [hdone node hnode] at htask
  exact htask.2.2

theorem Inv.finished_get {h : w.Joined} (hinv : Inv h s) (hdone : w.Finished s)
    (hnode : node ∈ w.nodes) : (s.get node.id).isSome := by
  have htask := hinv.tasks node hnode
  rw [hdone node hnode] at htask
  exact htask.1

theorem Inv.one_entry {h : w.Joined} (hinv : Inv h s) {id : String} {result : ExecutionResult}
    (hget : s.get id = some result) : s.resultMap.filter (·.1 == id) = [(id, result)] :=
  filter_key_of_mem hinv.keys (mem_of_lookup hget) rfl

theorem Inv.results_perm {h : w.Joined} (hs : Inv h s) (ht : Inv h t) (hdone : w.Finished s)
    (hdone' : w.Finished t) : s.resultMap.Perm t.resultMap := by
  have hget : s.get = t.get := by
    funext id
    by_cases hid : id ∈ w.nodes.map Node.id
    · obtain ⟨node, hnode, rfl⟩ := mem_map.1 hid
      obtain ⟨v, hv⟩ := Option.isSome_iff_exists.1 (hs.finished_get hdone hnode)
      obtain ⟨v', hv'⟩ := Option.isSome_iff_exists.1 (ht.finished_get hdone' hnode)
      rw [hv, hv', hs.consistent.unique (network_acyclic h) ht.consistent _ v v' hv hv']
    · have hnone {u : State} (hu : Inv h u) : u.get id = none := by
        by_contra hsome
        exact hid (hu.owners id (Option.isSome_iff_ne_none.2 hsome))
      rw [hnone hs, hnone ht]
  have hmem {u v : State} (hu : Inv h u) (hv : Inv h v) (huv : u.get = v.get)
      {entry : String × ExecutionResult} (he : entry ∈ u.resultMap) : entry ∈ v.resultMap := by
    have hlookup : u.get entry.1 = some entry.2 := lookup_of_mem hu.keys he
    rw [huv] at hlookup
    exact mem_of_lookup hlookup
  refine (perm_ext_iff_of_nodup hs.keys.of_map ht.keys.of_map).2 ?_
  intro entry
  exact ⟨hmem hs ht hget, hmem ht hs hget.symm⟩

theorem Inv.sources_of_call {h : w.Joined} {action : Action} (hinv : Inv h s)
    (hs : w.system.step s action t) (hnode : node ∈ w.nodes)
    (hcalls : t.callsOf node.id ≠ s.callsOf node.id) : w.SourcesSent node s := by
  cases action with
  | emit n event data =>
    obtain ⟨_, _, _, rfl⟩ := hs
    exact absurd rfl hcalls
  | task n m =>
    obtain ⟨hn, hm⟩ := hs
    have hstep := hinv.taskStep hn hm
    by_cases hid : node.id = n.id
    · obtain rfl : node = n := inj_on_of_nodup_map h.accepted.nodup hnode hn hid
      have htask := hinv.tasks node hnode
      cases hstep with
      | execute heq =>
        rw [heq] at htask
        exact htask.2.2.1
      | _ => exact absurd rfl hcalls
    · exact absurd (hstep.keeps hinv hn hnode hid).calls hcalls

theorem Joined.of_valid (hvalid : validateWorkflow w.nodes w.edges w.registry asyncNodeTypes =
      .ok (.valid w.dependencyMap asyncDependencyMap))
    (hall : ∀ node ∈ w.nodes, w.getDependencyModeForNode node = .all)
    (hhandles : ∀ edge ∈ w.edges, isEventHandle (edge.sourceHandle.getD "") = none)
    (hnames : w.DistinctSignals) : w.Joined := by
  have haccepted := validateWorkflow_accepted hvalid
  refine ⟨haccepted, hall, ?_, hnames⟩
  intro node hnode dep hdep
  rw [dependencies, haccepted.incoming node hnode] at hdep
  obtain ⟨edge, hedge, rfl⟩ := mem_map.1 hdep
  exact hhandles edge (mem_of_mem_filter hedge)

theorem mem_callsOf {id : String} : s.callsOf id ≠ [] ↔ ∃ input, (id, input) ∈ s.calls := by
  rw [Ne, State.callsOf, filter_eq_nil_iff]
  constructor
  · intro hne
    by_contra hnone
    apply hne
    rintro ⟨id', input⟩ hmem hid
    exact hnone ⟨input, beq_iff_eq.1 hid ▸ hmem⟩
  · rintro ⟨input, hmem⟩ hall
    exact hall _ hmem (beq_self_eq_true _)

/-- Runs of a workflow do not depend on the schedule. -/
theorem schedule_independent {asyncNodeTypes : List String}
    {asyncDependencyMap : List (String × List String)}
    (hvalid : validateWorkflow w.nodes w.edges w.registry asyncNodeTypes =
      .ok (.valid w.dependencyMap asyncDependencyMap))
    (hall : ∀ node ∈ w.nodes, w.getDependencyModeForNode node = .all)
    (hhandles : ∀ edge ∈ w.edges, isEventHandle (edge.sourceHandle.getD "") = none)
    (hnames : w.DistinctSignals) :
    -- a run comes to its end: it is never stuck, and its tasks take finitely many steps
    (∀ s, w.system.Reachable s → ¬ w.Finished s → ∃ node m t, w.system.step s (.task node m) t) ∧
    (∃ bound, ∀ tr t, w.system.Run initial tr t → tr.countP (·.2.isTask) ≤ bound) ∧
    -- there, each node has one entry, and its handler ran if no dependency has failed
    (∀ s, w.system.Reachable s → w.Finished s → ∀ node ∈ w.nodes,
      (∃ result, s.resultMap.filter (·.1 == node.id) = [(node.id, result)]) ∧
      ((∃ input, (node.id, input) ∈ s.calls) ↔
        ∀ dep ∈ w.dependencies node, checkDependencyFailure s.get dep = .ok false)) ∧
    -- a handler is called after the sources have got the entries that they keep
    (∀ tr s action t tr' u, w.system.Run initial tr s → w.system.step s action t →
      w.system.Run t tr' u → ∀ node ∈ w.nodes, t.callsOf node.id ≠ s.callsOf node.id →
      ∀ dep ∈ w.dependencies node, ∃ result,
        s.get dep.sourceNodeId = some result ∧ u.get dep.sourceNodeId = some result) ∧
    -- all runs end with the same results
    (∀ s t, w.system.Reachable s → w.system.Reachable t → w.Finished s → w.Finished t →
      s.resultMap.Perm t.resultMap) := by
  have h := Joined.of_valid hvalid hall hhandles hnames
  refine ⟨?_, ⟨w.remaining initial, ?_⟩, ?_, ?_, ?_⟩
  · intro s hs hunfinished
    obtain ⟨node, hnode, hne⟩ : ∃ node ∈ w.nodes, s.tasks node.id ≠ .done := by
      simpa [Finished] using hunfinished
    obtain ⟨n, hn, m, hm⟩ := (Inv.of_reachable h hs).progress hnode hne
    obtain ⟨t, ht⟩ := Option.isSome_iff_exists.1 hm
    exact ⟨n, m, t, hn, ht⟩
  · intro tr t hr
    exact le_trans (Nat.le_add_right ..) (run_bound h hr)
  · intro s hs hdone node hnode
    have hinv := Inv.of_reachable h hs
    obtain ⟨result, hresult⟩ := Option.isSome_iff_exists.1 (hinv.finished_get hdone hnode)
    refine ⟨⟨result, hinv.one_entry hresult⟩, ?_⟩
    rw [← mem_callsOf, hinv.finished_calls hdone hnode, ← hasDependencyFailure_eq_false_iff, nodeCalls]
    split
    · rename_i hcheck
      simp [hcheck]
    · rename_i hcheck
      simpa using hcheck
  · intro tr s action t tr' u hr hs hr' node hnode hcalls dep hdep
    have hinv := Inv.of_reachable h ⟨initial, tr, rfl, hr⟩
    have hsent := hinv.sources_of_call hs hnode hcalls
    have hsome := hinv.sources_filled hnode hsent _ (mem_sources.2 ⟨dep, hdep, rfl⟩)
    obtain ⟨result, hresult⟩ := Option.isSome_iff_exists.1 hsome
    refine ⟨result, hresult, ?_⟩
    rw [hinv.get_run (.cons hs hr') hsome, hresult]
  · intro s t hs ht hdone hdone'
    exact (Inv.of_reachable h hs).results_perm (Inv.of_reachable h ht) hdone hdone'

theorem reachable_moves {moves : List (Node × Move)} (hs : w.system.Reachable s)
    (hnodes : ∀ p ∈ moves, p.1 ∈ w.nodes)
    (hmoves : moves.foldlM (fun s p => w.move p.1 p.2 s) s = some t) : w.system.Reachable t := by
  induction moves generalizing s with
  | nil =>
    cases hmoves
    exact hs
  | cons p moves ih =>
    obtain ⟨middle, hfirst, hrest⟩ := Option.bind_eq_some_iff.1 hmoves
    obtain ⟨hp, hnodes⟩ := forall_mem_cons.1 hnodes
    have hstep : w.system.step s (.task p.1 p.2) middle := ⟨hp, hfirst⟩
    exact ih (hs.run (.cons hstep (.nil middle))) hnodes hrest

def emptyBox : NodeSchema where
  input := {}
  parseInput input := .ok input
  parseOutput output := .ok output

def startNode : Node := { id := "start", type := some "box" }

def endNode : Node := { id := "end", type := some "box" }

def triggerEdge : Edge where
  id := "start-end-true"
  source := "start"
  target := "end"
  sourceHandle := some executionSuccessHandle
  targetHandle := some triggerHandle
  configuration := some (.bool true)

def twoNodes : Automation where
  nodes := [startNode, endNode]
  edges := [triggerEdge]
  registry :=
    { nodeSchemas := [("box", emptyBox)], nodeFunctions := [("box", fun _ _ => .returned [])] }
  dependencyMap := buildDependencyMap [startNode, endNode] [triggerEdge]
  eventId := "event-1"

def twoMoves : List (Node × Move) :=
  [(endNode, .advance), (startNode, .advance), (startNode, .advance), (startNode, .advance),
    (startNode, .advance), (endNode, .completion 0), (endNode, .advance), (endNode, .advance),
    (endNode, .advance), (endNode, .advance), (endNode, .advance)]

theorem schedule_independent_two_nodes : ∃ s, twoNodes.system.Reachable s ∧ twoNodes.Finished s ∧
      (∃ result, s.resultMap.filter (·.1 == "end") = [("end", result)]) ∧
      ∃ input, ("end", input) ∈ s.calls := by
  have hvalid : validateWorkflow twoNodes.nodes twoNodes.edges twoNodes.registry [] =
      .ok (.valid twoNodes.dependencyMap [("start", []), ("end", [])]) := rfl
  have hnames : twoNodes.DistinctSignals := by
    have hdisjoint : ∀ name ∈ twoNodes.signalNames startNode,
        name ∉ twoNodes.signalNames endNode := by decide +kernel
    intro n hn m hm hne
    simp only [twoNodes, mem_cons, not_mem_nil, or_false] at hn hm
    rcases hn with rfl | rfl <;> rcases hm with rfl | rfl
    · exact absurd rfl hne
    · exact hdisjoint
    · exact fun name hend hstart => hdisjoint name hstart hend
    · exact absurd rfl hne
  obtain ⟨s, hs, hdone, hchecks⟩ : ∃ s,
      twoMoves.foldlM (fun s p => twoNodes.move p.1 p.2 s) initial = some s ∧ twoNodes.Finished s ∧
        ∀ dep ∈ twoNodes.dependencies endNode, checkDependencyFailure s.get dep = .ok false := by
    refine ⟨_, rfl, ?_, ?_⟩
    · intro node hnode
      simp only [twoNodes, mem_cons, not_mem_nil, or_false] at hnode
      rcases hnode with rfl | rfl <;> rfl
    · intro dep hdep
      obtain rfl : dep = triggerEdge.dependency := mem_singleton.1 hdep
      rfl
  have hnodes : ∀ p ∈ twoMoves, p.1 ∈ twoNodes.nodes := by
    simp [twoMoves, twoNodes]
  have hreach : twoNodes.system.Reachable s :=
    reachable_moves ⟨initial, [], rfl, .nil _⟩ hnodes hs
  have hend : endNode ∈ twoNodes.nodes := by simp [twoNodes]
  obtain ⟨_, _, hfinal, _⟩ := schedule_independent hvalid
    (by simp [twoNodes, getDependencyModeForNode, Registry.getNodeHandler, startNode, endNode,
      basicInputOutputNodeHandler])
    (by simp [twoNodes, triggerEdge, executionSuccessHandle]; decide) hnames
  obtain ⟨hentry, hcalled⟩ := hfinal s hreach hdone endNode hend
  exact ⟨s, hreach, hdone, hentry, hcalled.2 hchecks⟩

end Automation

end Trakrai.Workflow
