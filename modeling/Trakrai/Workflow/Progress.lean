import Trakrai.Workflow.Views

namespace Trakrai.Workflow
open List Lib

namespace Automation
variable {w : Automation} {node : Node} {s t : State} {m : Move} {action : Action}
  {dep : DependencyInfo}

def unsettled (w : Automation) (node : Node) (race : Race) : Nat :=
  (w.dependencyMap.sources node.id).countP fun source => (race.settled.lookup source).isNone

/-- The steps that the sources of a race may still take. -/
def raceWork (w : Automation) (node : Node) (pending : List String) : Nat :=
  (pending.map fun source => (eventDependencies (w.dependenciesOn node source)).length + 3).sum

/-- An upper bound for the steps that a task still has to take. -/
def work (w : Automation) (node : Node) : Task → Nat
  | .started =>
    (w.dependencies node).length + (eventDependencies (w.dependencies node)).length +
      (w.dependencyMap.sources node.id).length +
      w.raceWork node ((w.dependencies node).map (·.sourceNodeId)).eraseDups + 7
  | .completions pending => pending.length + (eventDependencies (w.dependencies node)).length + 6
  | .events pending => pending.length + 5
  | .racing race next => w.unsettled node race + w.raceWork node race.pending + next.elim 1 (fun _ => 0) + 5
  | .racedEvents race _ pending => w.unsettled node race + w.raceWork node race.pending + pending.length + 7
  | .merging _ => 4
  | .ready _ => 3
  | .ran _ => 2
  | .announcing _ => 1
  | .done | .rejected _ => 0

theorem raceWork_erase (h : source ∈ pending) :
    w.raceWork node pending = w.raceWork node (pending.erase source) +
      ((eventDependencies (w.dependenciesOn node source)).length + 3) := by
  have hsum := ((perm_cons_erase h).map fun source =>
    (eventDependencies (w.dependenciesOn node source)).length + 3).sum_eq
  rw [map_cons, sum_cons] at hsum
  rw [raceWork, raceWork, hsum, Nat.add_comm]

theorem unsettled_settle (hsource : source ∈ w.dependencyMap.sources node.id)
    (hlookup : race.settled.lookup source = none) :
    w.unsettled node { race with settled := race.settled ++ [(source, kind)] } <
      w.unsettled node race := by
  obtain ⟨pre, post, hsplit⟩ := append_of_mem hsource
  have hmono (l : List String) :
      l.countP (fun other => ((race.settled ++ [(source, kind)]).lookup other).isNone) ≤
        l.countP fun other => (race.settled.lookup other).isNone := by
    apply countP_mono_left
    intro other _ hnone
    rw [lookup_append, Option.isNone_iff_eq_none, Option.or_eq_none_iff] at hnone
    exact Option.isNone_iff_eq_none.2 hnone.1
  have hpre := hmono pre
  have hpost := hmono post
  have hnew : ¬ ((race.settled ++ [(source, kind)]).lookup source).isNone = true := by
    rw [lookup_append, hlookup]
    simp
  simp only [unsettled, hsplit, countP_append, countP_cons, if_neg hnew, hlookup,
    Option.isNone_none, if_true]
  omega

theorem TaskView.work_lt (h : w.TaskView node s (s.tasks node.id)) (hm : Moved w node s m t) :
    w.work node (t.tasks node.id) < w.work node (s.tasks node.id) := by
  cases hm with
  | begin heq =>
    rw [heq, State.tasks_setTask, Automation.begin]
    split
    · simp only [work]
      omega
    · split
      · have hle : w.unsettled node ⟨((w.dependencies node).map (·.sourceNodeId)).eraseDups, []⟩ ≤
            (w.dependencyMap.sources node.id).length := countP_le_length
        simp only [work, Option.elim]
        omega
      · simp only [work]
        omega
  | @completion pending index dep heq hdep _ =>
    have hlt := (List.getElem?_eq_some_iff.1 hdep).1
    rw [heq, State.tasks_setTask]
    simp only [work, length_eraseIdx_of_lt hlt]
    omega
  | @event pending task index signal dep event data hwaits hdep _ =>
    have hlt := (List.getElem?_eq_some_iff.1 hdep).1
    rw [State.tasks_setTask]
    cases heq : s.tasks node.id with
    | events | racedEvents =>
      rw [heq] at hwaits
      cases hwaits
      simp only [work, length_eraseIdx_of_lt hlt]
      omega
    | _ => simp [heq, Task.eventWaits] at hwaits
  | @settle race next source kind heq _ hsource hlookup =>
    have hlt : w.unsettled node { race with settled := race.settled ++ [(source, kind)] } <
        w.unsettled node race := unsettled_settle hsource hlookup
    rw [heq, State.tasks_setTask]
    cases next with
    | some winner =>
      simp only [work, Option.some_or, Option.elim]
      omega
    | none =>
      have hle : (if source ∈ race.pending then some (source, kind) else none).elim 1 (fun _ => 0) ≤ 1 := by
        split <;> simp
      simp only [work, Option.none_or, Option.elim_none]
      omega
  | @settleRaced race current source pending kind heq _ hsource hlookup =>
    have hlt : w.unsettled node { race with settled := race.settled ++ [(source, kind)] } <
        w.unsettled node race := unsettled_settle hsource hlookup
    rw [heq, State.tasks_setTask]
    simp only [work]
    omega
  | @take race source heq =>
    rw [heq] at h
    have herase : w.raceWork node race.pending = _ := raceWork_erase (h.2.2.1 _ rfl).2
    rw [heq, State.tasks_setTask]
    simp only [work, unsettled, Option.elim_some] at herase ⊢
    omega
  | @next race source heq _ _ =>
    have hle : (race.pending.findSome? fun source =>
        (race.settled.lookup source).map (source, ·)).elim 1 (fun _ => 0) ≤ 1 := by
      cases race.pending.findSome? fun source => (race.settled.lookup source).map (source, ·) <;> simp
    rw [heq, State.tasks_setTask]
    simp only [work, length_nil]
    omega
  | skip heq _ | lose heq | exhaust heq _ _ =>
    rw [heq, State.tasks_skip]
    simp only [work]
    omega
  | resume heq | reject heq _ | pass heq _ | rejectRaced heq _ | choose heq _ | merge heq
  | execute heq | record heq | announce heq =>
    rw [heq, State.tasks_setTask]
    simp only [work, length_nil]
    omega

def Action.isTaskOf (node : Node) : Action → Bool
  | .task other _ => other.id == node.id
  | .emit .. => false

theorem View.work_le (h : w.View node s) (hw : w.Runnable)
    (hnode : node ∈ w.nodes) (hr : w.system.Run s tr t) (hapart : ∀ p ∈ tr, w.Apart node p.1 p.2) :
    tr.countP (·.2.isTaskOf node) + w.work node (t.tasks node.id) ≤ w.work node (s.tasks node.id) := by
  induction hr with
  | nil => simp
  | @cons s action u tr t hs hr ih =>
    obtain ⟨hfirst, hrest⟩ := forall_mem_cons.1 hapart
    have hle := ih (h.step hw hnode hs hfirst) hrest
    have hstep : [(s, action)].countP (·.2.isTaskOf node) + w.work node (u.tasks node.id) ≤
        w.work node (s.tasks node.id) := by
      cases action with
      | emit other event data =>
        obtain ⟨_, _, _, rfl⟩ := hs
        simp [Action.isTaskOf, State.send]
      | task other m =>
        obtain ⟨hother, hm⟩ := hs
        have hmoved := moved_of_move hm
        by_cases hid : node.id = other.id
        · obtain rfl := hw.eq_of_id hnode hother hid
          have hlt := h.task.work_lt hmoved
          have hone : [(s, Action.task node m)].countP (·.2.isTaskOf node) = 1 := by
            simp [Action.isTaskOf]
          omega
        · have hzero : [(s, Action.task other m)].countP (·.2.isTaskOf node) = 0 := by
            simp [Action.isTaskOf, Ne.symm hid]
          rw [hmoved.tasks_of_ne hid]
          omega
    rw [← singleton_append, countP_append]
    omega

/-- No data that were sent for an event parse to `null` where a condition reads a property. -/
def Readable (w : Automation) (node : Node) (s : State) : Prop :=
  ∀ wait ∈ eventDependencies (w.dependencies node), wait.1.conditional ≠ none →
    ∀ data, (w.eventName wait.1.sourceNodeId wait.2, data) ∈ s.signals →
      ∀ id, w.processEventDependencyData (some data) wait.1 wait.2 ≠ .success id .null

theorem checkDependencyFailure_ok
    (h : ∀ id, f dep.resultKey.1 = some (.success id .null) → dep.conditional = none) :
    ∃ failed, checkDependencyFailure f dep = .ok failed := by
  rw [checkDependencyFailure]
  split
  · split <;> exact ⟨_, rfl⟩
  · split
    · rename_i id data conditional hget hconditional
      cases data with
      | null =>
        rw [h id hget] at hconditional
        cases hconditional
      | bool | num | obj => exact ⟨_, rfl⟩
      | str text | arr items =>
        rw [readProperty]
        split <;> exact ⟨_, rfl⟩
    · exact ⟨_, rfl⟩
    · exact ⟨_, rfl⟩

theorem Lives.not_error (h : w.Lives node s) (hw : w.Runnable)
    (hnode : node ∈ w.nodes) (hreadable : w.Readable node s) (hdep : dep ∈ w.dependencies node) :
    ¬ w.Found dep s (.error message) := by
  intro hfound
  obtain ⟨hsent, hfound⟩ := hfound
  cases hevent : isEventHandle dep.sourceHandle with
  | none =>
    -- the result of a node is an object
    simp only [hevent] at hfound
    have hsource := mem_sources.2 ⟨dep, hdep, rfl⟩
    obtain ⟨source, hmem, hid⟩ := mem_map.1 (hw.accepted.sources node hnode _ hsource)
    have hok : ∃ failed, checkDependencyFailure s.get dep = .ok failed := by
      apply checkDependencyFailure_ok
      intro id hget
      rw [resultKey_of_plain hevent, ← hid] at hget
      rw [← hid] at hsource
      obtain ⟨fields, hfields⟩ := (h source hmem (mem_cons_of_mem _ hsource)).object _ _ hget
      cases hfields
    obtain ⟨failed, hok⟩ := hok
    cases hfound.symm.trans hok
  | some event =>
    obtain ⟨event, handle⟩ := event
    simp only [hevent] at hfound
    obtain ⟨data, hdata, hcheck⟩ := hfound
    have hwait : (dep, event) ∈ eventDependencies (w.dependencies node) :=
      mem_eventDependencies.2 ⟨hdep, handle, hevent⟩
    have hok : ∃ failed, w.payloadCheck dep event data = .ok failed := by
      apply checkDependencyFailure_ok
      intro id hget
      by_contra hconditional
      exact hreadable _ hwait hconditional data hdata id (Option.some.inj hget)
    obtain ⟨failed, hok⟩ := hok
    cases hcheck.symm.trans hok

theorem move_event (hwaits : Task.eventWaits (s.tasks node.id) = some (wait :: pending, task))
    (hsent : s.sent (w.eventName wait.1.sourceNodeId wait.2) = true) :
    ∃ signal data, w.move node (.event 0 signal) s =
      some ((s.setResult (buildNodeEventId wait.1.sourceNodeId wait.2)
        (w.processEventDependencyData (some data) wait.1 wait.2)).setTask node.id (task pending)) := by
  obtain ⟨data, hdata⟩ := State.sent_iff.1 hsent
  obtain ⟨signal, hsignal⟩ := List.mem_iff_getElem?.1 hdata
  refine ⟨signal, data, ?_⟩
  simp only [move, deliverEvent, hwaits, hsignal, Option.bind_eq_bind, Option.bind_some,
    List.getElem?_cons_zero, if_true, eraseIdx_cons_zero]

theorem move_settle (htask : s.tasks node.id = .racing race none)
    (hsource : source ∈ w.dependencyMap.sources node.id) (hpending : source ∈ race.pending)
    (hsent : s.sent (w.completionName source) = true) (hlookup : race.settled.lookup source = none) :
    w.move node (.settle source .source) s = some (s.setTask node.id
      (.racing { race with settled := race.settled ++ [(source, .source)] }
        (some (source, .source)))) := by
  have hany : (w.dependencies node).any (·.sourceNodeId == source) = true := by
    obtain ⟨dep, hdep, hid⟩ := mem_sources.1 hsource
    exact any_eq_true.2 ⟨dep, hdep, beq_iff_eq.2 hid⟩
  simp only [move, settle, htask, hsent, hany, hlookup, Option.isNone_none, Bool.and_self, if_true,
    if_pos hpending, Option.none_or]

end Automation

end Trakrai.Workflow
