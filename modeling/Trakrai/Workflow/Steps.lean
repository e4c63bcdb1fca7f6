import Trakrai.Workflow.Scheduling

namespace Trakrai.Workflow
open List Lib

section
variable {s : State} {id nodeId : String}

@[simp] theorem State.get_skip : (s.skip nodeId).get id =
    if id = nodeId then some (.failure nodeId dependencyFailureReason) else s.get id := by
  rw [State.skip, State.get_setTask, State.get_setResult]

@[simp] theorem State.tasks_skip : (s.skip nodeId).tasks nodeId =
    .announcing (.obj [("reason", .str dependencyFailureReason)]) := State.tasks_setTask

theorem State.sent_iff : s.sent name = true ↔ ∃ data, (name, data) ∈ s.signals := by
  simp [State.sent]

end

def Task.recorded : Task → Bool
  | .announcing _ | .done => true
  | _ => false

/-- The completion signal of the node has been sent. -/
def Task.announced : Task → Bool
  | .done => true
  | _ => false

def Task.ended : Task → Bool
  | .done | .rejected _ => true
  | _ => false

namespace Automation
variable {w : Automation} {node other : Node} {s t : State} {m : Move} {action : Action}

def waitName (w : Automation) (node : Node) (source : String) : WaitKind → String
  | .source => w.completionName source
  | .merge => w.mergeName node.id

inductive Moved (w : Automation) (node : Node) (s : State) : Move → State → Prop where
  | begin : s.tasks node.id = .started → Moved w node s .advance (s.setTask node.id (w.begin node))
  | completion {pending : List DependencyInfo} {index : Nat} {dep : DependencyInfo} :
      s.tasks node.id = .completions pending → pending[index]? = some dep →
      s.sent (w.completionName dep.sourceNodeId) = true →
      Moved w node s (.completion index) (s.setTask node.id (.completions (pending.eraseIdx index)))
  | resume : s.tasks node.id = .completions [] → Moved w node s .advance
        (s.setTask node.id (.events (eventDependencies (w.dependencies node))))
  | reject {message : String} : s.tasks node.id = .events [] →
      hasDependencyFailure s.get (w.dependencies node) = .error message →
      Moved w node s .advance (s.setTask node.id (.rejected message))
  | skip : s.tasks node.id = .events [] →
      hasDependencyFailure s.get (w.dependencies node) = .ok true →
      Moved w node s .advance (s.skip node.id)
  | pass : s.tasks node.id = .events [] →
      hasDependencyFailure s.get (w.dependencies node) = .ok false →
      Moved w node s .advance (s.setTask node.id (.ready (w.dependencies node)))
  | event {pending : List (DependencyInfo × String)} {task : List (DependencyInfo × String) → Task}
      {index signal : Nat} {dep : DependencyInfo} {event : String} {data : Json} :
      Task.eventWaits (s.tasks node.id) = some (pending, task) →
      pending[index]? = some (dep, event) →
      (w.eventName dep.sourceNodeId event, data) ∈ s.signals →
      Moved w node s (.event index signal)
        ((s.setResult (buildNodeEventId dep.sourceNodeId event)
          (w.processEventDependencyData (some data) dep event)).setTask node.id
            (task (pending.eraseIdx index)))
  | settle {race : Race} {next : Option (String × WaitKind)} {source : String} {kind : WaitKind} :
      s.tasks node.id = .racing race next → s.sent (w.waitName node source kind) = true →
      source ∈ w.dependencyMap.sources node.id → race.settled.lookup source = none →
      Moved w node s (.settle source kind) (s.setTask node.id
        (.racing { race with settled := race.settled ++ [(source, kind)] }
          (next.or (if source ∈ race.pending then some (source, kind) else none))))
  | settleRaced {race : Race} {current source : String} {pending : List (DependencyInfo × String)}
      {kind : WaitKind} : s.tasks node.id = .racedEvents race current pending →
      s.sent (w.waitName node source kind) = true →
      source ∈ w.dependencyMap.sources node.id → race.settled.lookup source = none →
      Moved w node s (.settle source kind) (s.setTask node.id
        (.racedEvents { race with settled := race.settled ++ [(source, kind)] } current pending))
  | lose {race : Race} {source : String} : s.tasks node.id = .racing race (some (source, .merge)) →
      Moved w node s .advance (s.skip node.id)
  | take {race : Race} {source : String} : s.tasks node.id = .racing race (some (source, .source)) →
      Moved w node s .advance (s.setTask node.id
        (.racedEvents { race with pending := race.pending.erase source } source
          (eventDependencies (w.dependenciesOn node source))))
  | rejectRaced {race : Race} {source message : String} :
      s.tasks node.id = .racedEvents race source [] →
      hasDependencyFailure s.get (w.dependenciesOn node source) = .error message →
      Moved w node s .advance (s.setTask node.id (.rejected message))
  | exhaust {race : Race} {source : String} : s.tasks node.id = .racedEvents race source [] →
      hasDependencyFailure s.get (w.dependenciesOn node source) = .ok true → race.pending = [] →
      Moved w node s .advance (s.skip node.id)
  | next {race : Race} {source : String} : s.tasks node.id = .racedEvents race source [] →
      hasDependencyFailure s.get (w.dependenciesOn node source) = .ok true → race.pending ≠ [] →
      Moved w node s .advance (s.setTask node.id (.racing race
        (race.pending.findSome? fun source => (race.settled.lookup source).map (source, ·))))
  | choose {race : Race} {source : String} : s.tasks node.id = .racedEvents race source [] →
      hasDependencyFailure s.get (w.dependenciesOn node source) = .ok false →
      Moved w node s .advance (s.setTask node.id (.merging source))
  | merge {source : String} : s.tasks node.id = .merging source → Moved w node s .advance
        ((s.send (w.mergeName node.id) (.obj [("sourceNodeId", .str source)])).setTask node.id
          (.ready (w.dependenciesOn node source)))
  | execute {dependencies : List DependencyInfo} : s.tasks node.id = .ready dependencies →
      Moved w node s .advance
        ((s.call node.id (executeNode s.get w.registry node dependencies).1).setTask
          node.id (.ran (executeNode s.get w.registry node dependencies).2))
  | record {outcome : Outcome} : s.tasks node.id = .ran outcome →
      Moved w node s .advance ((s.setResult node.id (outcome.result node.id)).setTask node.id
        (.announcing outcome.signalData))
  | announce {data : Json} : s.tasks node.id = .announcing data →
      Moved w node s .advance ((s.send (w.completionName node.id) data).setTask node.id .done)

theorem moved_of_advance (h : w.advance node s = some t) : Moved w node s .advance t := by
  rw [advance] at h
  split at h
  case h_1 heq => cases h; exact .begin heq
  case h_2 heq => cases h; exact .resume heq
  case h_3 heq =>
    split at h
    · rename_i hcheck; cases h; exact .reject heq hcheck
    · rename_i hcheck; cases h; exact .skip heq hcheck
    · rename_i hcheck; cases h; exact .pass heq hcheck
  case h_4 heq => cases h; exact .lose heq
  case h_5 heq => cases h; exact .take heq
  case h_6 race source heq =>
    split at h
    · rename_i hcheck; cases h; exact .rejectRaced heq hcheck
    · rename_i hcheck
      cases h
      rw [State.nextRace]
      split
      · rename_i hempty; exact .exhaust heq hcheck hempty
      · rename_i hpending; exact .next heq hcheck hpending
    · rename_i hcheck; cases h; exact .choose heq hcheck
  case h_7 heq => cases h; exact .merge heq
  case h_8 heq => cases h; exact .execute heq
  case h_9 heq => cases h; exact .record heq
  case h_10 heq => cases h; exact .announce heq
  case h_11 => cases h

theorem moved_of_deliverCompletion (h : w.deliverCompletion node index s = some t) :
    Moved w node s (.completion index) t := by
  rw [deliverCompletion] at h
  split at h
  · rename_i heq
    split at h
    · rename_i hdep
      split at h
      · rename_i hsent
        cases h
        exact .completion heq hdep hsent
      · cases h
    · cases h
  · cases h

theorem moved_of_deliverEvent (h : w.deliverEvent node index signal s = some t): Moved w node s (.event index signal) t := by
  rw [deliverEvent] at h
  obtain ⟨⟨pending, task⟩, hwaits, h⟩ := Option.bind_eq_some_iff.1 h
  obtain ⟨⟨dep, event⟩, hdep, h⟩ := Option.bind_eq_some_iff.1 h
  obtain ⟨⟨name, data⟩, hsignal, h⟩ := Option.bind_eq_some_iff.1 h
  simp only at h
  split at h
  · rename_i hname
    subst hname
    cases h
    exact .event hwaits hdep (List.mem_of_getElem? hsignal)
  · cases h

theorem moved_of_settle (h : w.settle node source kind s = some t): Moved w node s (.settle source kind) t := by
  have hunsettled {race : Race} (hb : (s.sent (w.waitName node source kind) &&
      (w.dependencies node).any (·.sourceNodeId == source) &&
        (race.settled.lookup source).isNone) = true) :
      s.sent (w.waitName node source kind) = true ∧ source ∈ w.dependencyMap.sources node.id ∧
        race.settled.lookup source = none := by
    simp only [Bool.and_eq_true, any_eq_true, beq_iff_eq, Option.isNone_iff_eq_none] at hb
    obtain ⟨⟨hsent, dep, hdep, rfl⟩, hlookup⟩ := hb
    exact ⟨hsent, mem_sources.2 ⟨dep, hdep, rfl⟩, hlookup⟩
  cases heq : s.tasks node.id with
  | racing race next =>
    simp only [settle, heq, Option.ite_none_right_eq_some, Option.some.injEq] at h
    obtain ⟨hsettle, rfl⟩ := h
    obtain ⟨hsent, hsource, hlookup⟩ := @hunsettled race (by cases kind <;> exact hsettle)
    exact .settle heq hsent hsource hlookup
  | racedEvents race current pending =>
    simp only [settle, heq, Option.ite_none_right_eq_some, Option.some.injEq] at h
    obtain ⟨hsettle, rfl⟩ := h
    obtain ⟨hsent, hsource, hlookup⟩ := @hunsettled race (by cases kind <;> exact hsettle)
    exact .settleRaced heq hsent hsource hlookup
  | _ => simp [settle, heq] at h

theorem moved_of_move (h : w.move node m s = some t) : Moved w node s m t := by
  cases m with
  | advance => exact moved_of_advance h
  | completion index => exact moved_of_deliverCompletion h
  | event index signal => exact moved_of_deliverEvent h
  | settle source kind => exact moved_of_settle h

def perform (w : Automation) (s : State) : Action → Option State
  | .task node m => w.move node m s
  | .emit node event data => some (s.send (w.eventName node.id event) data)

def Action.owner : Action → Node
  | .task node _ => node
  | .emit node _ _ => node

def mayEmit (w : Automation) (s : State) : Action → Bool
  | .task .. => true
  | .emit node event _ => s.calls.any (·.1 == node.id) && (w.events node).contains event

theorem step_of_perform (hnode : action.owner ∈ w.nodes) (hemit : w.mayEmit s action = true)
    (hperform : w.perform s action = some t) : w.system.step s action t := by
  cases action with
  | task node m => exact ⟨hnode, hperform⟩
  | emit node event data =>
    obtain ⟨hcalled, hevent⟩ := Bool.and_eq_true_iff.1 hemit
    obtain ⟨⟨id, input⟩, hmem, hid⟩ := any_eq_true.1 hcalled
    obtain rfl := beq_iff_eq.1 hid
    exact ⟨hnode, ⟨input, hmem⟩, contains_iff_mem.1 hevent, (Option.some.inj hperform).symm⟩

theorem run_of_play (hplay : play w.perform s actions = some (tr, t))
    (hnodes : ∀ action ∈ actions, action.owner ∈ w.nodes)
    (hemits : (tr.all fun p => w.mayEmit p.1 p.2) = true) : w.system.Run s tr t := by
  induction actions generalizing s tr with
  | nil =>
    cases hplay
    exact .nil _
  | cons action actions ih =>
    rw [play] at hplay
    split at hplay
    · cases hplay
    · rename_i u hperform
      obtain ⟨rest, hrest, heq⟩ := Option.map_eq_some_iff.1 hplay
      cases heq
      obtain ⟨hnode, hnodes⟩ := forall_mem_cons.1 hnodes
      obtain ⟨hemit, hemits⟩ := Bool.and_eq_true_iff.1 hemits
      exact .cons (step_of_perform hnode hemit hperform) (ih hrest hnodes hemits)

theorem not_moved_of_ended (h : (s.tasks node.id).ended = true) : ¬ Moved w node s m t := by
  intro hmoved
  cases hmoved with
  | event hwaits _ _ =>
    cases heq : s.tasks node.id with
    | events | racedEvents => simp [heq, Task.ended] at h
    | _ => simp [heq, Task.eventWaits] at hwaits
  | begin heq | completion heq _ _ | resume heq | reject heq _ | skip heq _ | pass heq _
  | settle heq _ _ _ | settleRaced heq _ _ _ | lose heq | take heq | rejectRaced heq _
  | exhaust heq _ _ | next heq _ _ | choose heq _ | merge heq | execute heq | record heq
  | announce heq => simp [heq, Task.ended] at h

section
variable {id name : String}

def storedEvent (s : State) : Action → Option (String × String)
  | .task node (.event index _) =>
    (Task.eventWaits (s.tasks node.id)).bind fun waits =>
      (waits.1[index]?).map fun wait => (wait.1.sourceNodeId, wait.2)
  | _ => none

/-- The step stores no data of an event under `id`. -/
def Untouched (id : String) (s : State) (action : Action) : Prop :=
  ∀ source event, storedEvent s action = some (source, event) → buildNodeEventId source event ≠ id

def Action.isEvent : Action → Bool
  | .task _ (.event ..) => true
  | _ => false

theorem untouched_of_not_event (h : action.isEvent = false) : Untouched id s action := by
  intro source event hstored
  cases action with
  | emit => cases hstored
  | task node m =>
    cases m with
    | event => cases h
    | advance | completion | settle => cases hstored

theorem storedEvent_eq (hwaits : Task.eventWaits (s.tasks node.id) = some (pending, task))
    (hdep : pending[index]? = some (dep, event)) :
    storedEvent s (.task node (.event index signal)) = some (dep.sourceNodeId, event) := by
  simp only [storedEvent, hwaits, Option.bind_some, hdep, Option.map_some]

theorem Moved.tasks_of_ne (h : Moved w node s m t) (hne : id ≠ node.id) : t.tasks id = s.tasks id := by
  cases h <;> exact State.tasks_setTask_of_ne hne

theorem Moved.get_of_ne (h : Moved w node s m t) (hne : id ≠ node.id)
    (hevent : Untouched id s (.task node m)) : t.get id = s.get id := by
  cases h with
  | skip _ _ | lose _ | exhaust _ _ _ => rw [State.get_skip, if_neg hne]
  | event hwaits hdep _ =>
    rw [State.get_setTask, State.get_setResult, if_neg]
    exact fun heq => hevent _ _ (storedEvent_eq hwaits hdep) heq.symm
  | record _ => rw [State.get_setTask, State.get_setResult, if_neg hne]
  | _ => rfl

theorem Moved.signals_subset (h : Moved w node s m t) : s.signals ⊆ t.signals := by
  cases h with
  | merge _ | announce _ => exact subset_append_left ..
  | _ => exact List.Subset.refl _

theorem Moved.sent_of_ne (h : Moved w node s m t) (hcompletion : w.completionName node.id ≠ name)
    (hmerge : w.mergeName node.id ≠ name) : t.sent name = s.sent name := by
  cases h with
  | merge _ => rw [State.sent_setTask, State.sent_send, beq_eq_false_iff_ne.2 hmerge, Bool.or_false]
  | announce _ =>
    rw [State.sent_setTask, State.sent_send, beq_eq_false_iff_ne.2 hcompletion, Bool.or_false]
  | _ => rfl

theorem Moved.callsOf_of_ne (h : Moved w node s m t) (hne : id ≠ node.id) :
    t.callsOf id = s.callsOf id := by
  cases h with
  | @execute dependencies _ =>
    rw [State.callsOf_setTask]
    cases (executeNode s.get w.registry node dependencies).1 with
    | none => simp [State.callsOf, State.call]
    | some input => rw [State.callsOf_call, if_neg hne, append_nil]
  | _ => rfl

end

structure Life (w : Automation) (node : Node) (s : State) : Prop where
  recorded : (s.get node.id).isSome = (s.tasks node.id).recorded
  announced : s.sent (w.completionName node.id) = (s.tasks node.id).announced
  object : ∀ id data, s.get node.id = some (.success id data) → ∃ fields, data = .obj fields

theorem Life.start : Life w node initial := ⟨rfl, rfl, nofun⟩

theorem Life.filled (h : Life w node s) (hsent : s.sent (w.completionName node.id) = true) :
    (s.get node.id).isSome = true := by
  rw [h.announced] at hsent
  rw [h.recorded]
  cases heq : s.tasks node.id with
  | done => rfl
  | _ => simp [heq, Task.announced] at hsent

theorem Life.frame (h : Life w node s) (htask : t.tasks node.id = s.tasks node.id)
    (hget : t.get node.id = s.get node.id)
    (hsent : t.sent (w.completionName node.id) = s.sent (w.completionName node.id)) :
    Life w node t := by
  refine ⟨?_, ?_, ?_⟩
  · rw [hget, htask, h.recorded]
  · rw [hsent, htask, h.announced]
  · rw [hget]
    exact h.object

theorem Life.setTask (h : Life w node s) (hrecorded : task.recorded = (s.tasks node.id).recorded)
    (hannounced : task.announced = (s.tasks node.id).announced) :
    Life w node (s.setTask node.id task) := by
  refine ⟨?_, ?_, h.object⟩
  · rw [State.get_setTask, State.tasks_setTask, hrecorded, h.recorded]
  · rw [State.sent_setTask, State.tasks_setTask, hannounced, h.announced]

theorem Life.skip (h : Life w node s) (hannounced : (s.tasks node.id).announced = false) :
    Life w node (s.skip node.id) := by
  refine ⟨?_, ?_, ?_⟩
  · simp [Task.recorded]
  · rw [State.tasks_skip]
    exact h.announced.trans hannounced
  · simp

theorem begin_recorded : (w.begin node).recorded = false ∧ (w.begin node).announced = false := by
  rw [Automation.begin]
  split
  · exact ⟨rfl, rfl⟩
  · split <;> exact ⟨rfl, rfl⟩

theorem Life.moved (h : Life w node s) (hm : Moved w node s m t)
    (hevent : Untouched node.id s (.task node m)) : Life w node t := by
  cases hm with
  | begin heq =>
    exact h.setTask (by rw [heq, begin_recorded.1]; rfl) (by rw [heq, begin_recorded.2]; rfl)
  | skip heq _ | lose heq | exhaust heq _ _ => exact h.skip (by rw [heq]; rfl)
  | @event pending task index signal dep event data hwaits hdep _ =>
    -- the waits of a task are those for events or for raced events
    have hkey := hevent _ _ (storedEvent_eq hwaits hdep)
    have htask : (s.tasks node.id).recorded = false ∧ (s.tasks node.id).announced = false ∧
        (task (pending.eraseIdx index)).recorded = false ∧
        (task (pending.eraseIdx index)).announced = false := by
      cases heq : s.tasks node.id with
      | events | racedEvents =>
        rw [heq] at hwaits
        cases hwaits
        exact ⟨rfl, rfl, rfl, rfl⟩
      | _ => simp [heq, Task.eventWaits] at hwaits
    obtain ⟨hrecorded, hannounced, hrecorded', hannounced'⟩ := htask
    refine ⟨?_, ?_, ?_⟩
    · rw [State.get_setTask, State.get_setResult, if_neg (Ne.symm hkey), State.tasks_setTask,
        hrecorded', h.recorded, hrecorded]
    · rw [State.sent_setTask, State.sent_setResult, State.tasks_setTask, hannounced', h.announced,
        hannounced]
    · rw [State.get_setTask, State.get_setResult, if_neg (Ne.symm hkey)]
      exact h.object
  | merge heq =>
    have hsent : s.sent (w.completionName node.id) = false := by
      rw [h.announced, heq]
      rfl
    refine ⟨?_, ?_, h.object⟩
    · have hrecorded := h.recorded
      rw [heq] at hrecorded
      rw [State.get_setTask, State.get_send, State.tasks_setTask, hrecorded]
      rfl
    · rw [State.sent_setTask, State.sent_send, hsent, State.tasks_setTask,
        beq_eq_false_iff_ne.2 mergeName_ne_completionName]
      rfl
  | @execute dependencies heq =>
    have hcalled : Life w node (s.call node.id (executeNode s.get w.registry node dependencies).1) :=
      h.frame rfl rfl rfl
    apply hcalled.setTask
    · rw [State.call, heq]
      rfl
    · rw [State.call, heq]
      rfl
  | @record outcome heq =>
    refine ⟨?_, ?_, ?_⟩
    · simp [Task.recorded]
    · have hannounced := h.announced
      rw [heq] at hannounced
      rw [State.sent_setTask, State.sent_setResult, State.tasks_setTask, hannounced]
      rfl
    · intro id data hget
      rw [State.get_setTask, State.get_setResult, if_pos rfl] at hget
      cases outcome with
      | returned output =>
        cases hget
        exact ⟨output, rfl⟩
      | threw message => cases hget
  | announce heq =>
    refine ⟨?_, ?_, h.object⟩
    · have hrecorded := h.recorded
      rw [heq] at hrecorded
      rw [State.get_setTask, State.get_send, State.tasks_setTask, hrecorded]
      rfl
    · rw [State.sent_setTask, State.sent_send, State.tasks_setTask, beq_self_eq_true, Bool.or_true]
      rfl
  | completion heq _ _ | resume heq | reject heq _ | pass heq _ | settle heq _ _ _
  | settleRaced heq _ _ _ | take heq | rejectRaced heq _ | next heq _ _ | choose heq _ =>
    exact h.setTask (by rw [heq]; rfl) (by rw [heq]; rfl)

end Automation

end Trakrai.Workflow
