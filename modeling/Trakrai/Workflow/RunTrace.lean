import Trakrai.Workflow.Names

namespace Trakrai.Workflow
open List Lib

inductive RunTraceSpanStatus where
  | cancelled
  | completed
  | failed
  | queued
  | running
  | waiting
deriving DecidableEq

inductive TraceSpan where
  | mk (name : String) (status : RunTraceSpanStatus) (childrenSpans : List TraceSpan)

def TraceSpan.name : TraceSpan → String
  | .mk name _ _ => name

def TraceSpan.status : TraceSpan → RunTraceSpanStatus
  | .mk _ status _ => status

def TraceSpan.childrenSpans : TraceSpan → List TraceSpan
  | .mk _ _ childrenSpans => childrenSpans

inductive TraceStep where
  | getWorkflow
  | validateWorkflow
  | wait (sourceNodeId targetNodeId suffix : String)
  | emitMerge (nodeId : String)
  | execute (nodeId : String)
  | emitFailure (nodeId : String)
  | emitCompletion (nodeId : String)
deriving DecidableEq

def TraceStep.nodeId : TraceStep → Option String
  | .getWorkflow | .validateWorkflow => none
  | .wait _ targetNodeId _ => some targetNodeId
  | .emitMerge nodeId | .execute nodeId | .emitFailure nodeId | .emitCompletion nodeId => some nodeId

namespace Automation
variable (w : Automation)

def traceStepName : TraceStep → String
  | .getWorkflow => "get-workflow"
  | .validateWorkflow => "validate-workflow"
  | .wait sourceNodeId targetNodeId suffix => buildWaitStepId w.eventId sourceNodeId targetNodeId (some suffix)
  | .emitMerge nodeId => "emit-merge-" ++ w.eventId ++ "-" ++ nodeId
  | .execute nodeId => "execute-" ++ nodeId
  | .emitFailure nodeId => "emit-failure-" ++ w.eventId ++ "-" ++ nodeId
  | .emitCompletion nodeId => "emit-completion-" ++ w.eventId ++ "-" ++ nodeId

@[simp] theorem traceStepName_wait (source target suffix : String) :
    w.traceStepName (.wait source target suffix) = buildWaitStepId w.eventId source target (some suffix) := rfl

@[simp] theorem traceStepName_emitMerge (nodeId : String) :
    w.traceStepName (.emitMerge nodeId) = "emit-merge-" ++ w.eventId ++ "-" ++ nodeId := rfl

@[simp] theorem traceStepName_execute (nodeId : String) :
    w.traceStepName (.execute nodeId) = "execute-" ++ nodeId := rfl

@[simp] theorem traceStepName_emitFailure (nodeId : String) :
    w.traceStepName (.emitFailure nodeId) = "emit-failure-" ++ w.eventId ++ "-" ++ nodeId := rfl

@[simp] theorem traceStepName_emitCompletion (nodeId : String) :
    w.traceStepName (.emitCompletion nodeId) = "emit-completion-" ++ w.eventId ++ "-" ++ nodeId := rfl

structure StepSpan where
  step : TraceStep
  status : RunTraceSpanStatus
  childrenSpans : List TraceSpan

def span (s : StepSpan) : TraceSpan := .mk (w.traceStepName s.step) s.status s.childrenSpans

/-- Spans of a run, in any order and at any time of it: a node is executed at most once. -/
structure Trace where
  spans : List StepSpan
  nodes : ∀ s ∈ spans, ∀ nodeId ∈ s.step.nodeId, ∃ node ∈ w.nodes, node.id = nodeId
  executed : spans.Pairwise fun s s' => ∀ nodeId, s.step = .execute nodeId → s'.step ≠ .execute nodeId

variable {w}

def stepTaken (s : State) : Action → Option TraceStep
  | .task node .advance =>
    match s.tasks node.id with
    | .merging _ => some (.emitMerge node.id)
    | .ready _ => some (.execute node.id)
    | .announcing data =>
      some (if (data.field "reason").isSome then .emitFailure node.id else .emitCompletion node.id)
    | _ => none
  | .task node (.completion index) =>
    match s.tasks node.id with
    | .completions pending => pending[index]?.map fun dep => .wait dep.sourceNodeId node.id "completion"
    | _ => none
  | .task node (.event index _) =>
    (Task.eventWaits (s.tasks node.id)).bind fun waits =>
      (waits.1[index]?).map fun wait => .wait wait.1.sourceNodeId node.id ("event-" ++ wait.2)
  | .task node (.settle source .source) => some (.wait source node.id "completion")
  | .task node (.settle source .merge) => some (.wait source node.id "merge")
  | .emit .. => none

def stepsTaken (tr : List (State × Action)) : List TraceStep := tr.filterMap fun p => stepTaken p.1 p.2

def stage : Task → Nat
  | .ran _ => 1
  | .announcing _ => 2
  | .done => 3
  | _ => 0

structure Behind (steps : List TraceStep) (s : State) : Prop where
  execute : ∀ nodeId, .execute nodeId ∈ steps → 1 ≤ stage (s.tasks nodeId)
  told : ∀ nodeId, .emitFailure nodeId ∈ steps ∨ .emitCompletion nodeId ∈ steps → stage (s.tasks nodeId) = 3
  executed : steps.Pairwise fun step step' => ∀ nodeId, step = .execute nodeId → step' ≠ .execute nodeId
  once : ∀ nodeId, ¬ (.emitFailure nodeId ∈ steps ∧ .emitCompletion nodeId ∈ steps)

section
variable {node : Node} {s t : State} {m : Move} {action : Action} {nodeId : String} {tr : List (State × Action)}
  {step : TraceStep} {steps : List TraceStep}

theorem Moved.stage_le (h : Moved w node s m t) : stage (s.tasks node.id) ≤ stage (t.tasks node.id) := by
  cases h with
  | event hwaits _ _ =>
    rw [State.tasks_setTask]
    cases htask : s.tasks node.id with
    | ran | announcing | done => simp [htask, Task.eventWaits] at hwaits
    | _ => exact Nat.zero_le _
  | record heq | announce heq =>
    rw [heq, State.tasks_setTask]
    exact Nat.le_succ _
  | begin heq | completion heq _ _ | resume heq | reject heq _ | skip heq _ | pass heq _
  | settle heq _ _ _ | settleRaced heq _ _ _ | lose heq | take heq | rejectRaced heq _
  | exhaust heq _ _ | next heq _ _ | choose heq _ | merge heq | execute heq =>
    rw [heq]
    exact Nat.zero_le _

theorem stage_execute (h : Moved w node s m t) (hstep : stepTaken s (.task node m) = some (.execute nodeId)) :
    nodeId = node.id ∧ stage (s.tasks node.id) = 0 ∧ stage (t.tasks node.id) = 1 := by
  cases h with
  | execute heq =>
    rw [State.tasks_setTask, heq]
    simp only [stepTaken, heq, Option.some.injEq, TraceStep.execute.injEq] at hstep
    exact ⟨hstep.symm, rfl, rfl⟩
  | announce heq =>
    simp only [stepTaken, heq, Option.some.injEq] at hstep
    split at hstep
    · cases hstep
    · cases hstep
  | completion heq hdep _ => simp [stepTaken, heq, hdep] at hstep
  | event hwaits hdep _ => simp [stepTaken, hwaits, hdep] at hstep
  | @settle _ _ _ kind _ _ _ _ | @settleRaced _ _ _ _ kind _ _ _ _ =>
    cases kind with
    | source => cases hstep
    | merge => cases hstep
  | begin heq | resume heq | reject heq _ | skip heq _ | pass heq _ | lose heq | take heq | rejectRaced heq _
  | exhaust heq _ _ | next heq _ _ | choose heq _ | merge heq | record heq => simp [stepTaken, heq] at hstep

theorem stage_told (h : Moved w node s m t) (hstep : stepTaken s (.task node m) = some (.emitFailure nodeId) ∨
    stepTaken s (.task node m) = some (.emitCompletion nodeId)) :
    nodeId = node.id ∧ stage (s.tasks node.id) = 2 ∧ stage (t.tasks node.id) = 3 := by
  cases h with
  | announce heq =>
    rw [State.tasks_setTask, heq]
    simp only [stepTaken, heq, Option.some.injEq] at hstep
    refine ⟨?_, rfl, rfl⟩
    split at hstep
    · rcases hstep with hstep | hstep
      · cases hstep
        rfl
      · cases hstep
    · rcases hstep with hstep | hstep
      · cases hstep
      · cases hstep
        rfl
  | completion heq hdep _ => simp [stepTaken, heq, hdep] at hstep
  | event hwaits hdep _ => simp [stepTaken, hwaits, hdep] at hstep
  | @settle _ _ _ kind _ _ _ _ | @settleRaced _ _ _ _ kind _ _ _ _ =>
    cases kind with
    | source => rcases hstep with hstep | hstep <;> cases hstep
    | merge => rcases hstep with hstep | hstep <;> cases hstep
  | begin heq | resume heq | reject heq _ | skip heq _ | pass heq _ | lose heq | take heq | rejectRaced heq _
  | exhaust heq _ _ | next heq _ _ | choose heq _ | merge heq | execute heq | record heq =>
    simp [stepTaken, heq] at hstep

theorem stage_le_of_step (h : w.step s action t) (nodeId : String) :
    stage (s.tasks nodeId) ≤ stage (t.tasks nodeId) := by
  cases action with
  | task node m =>
    have hmoved := moved_of_move h.2
    by_cases hown : nodeId = node.id
    · rw [hown]
      exact hmoved.stage_le
    · rw [hmoved.tasks_of_ne hown]
  | emit node event data =>
    rw [h.2.2.2]
    exact le_refl _

theorem Behind.next (h : Behind (stepsTaken tr) s) (hstep : w.step s action t) :
    Behind (stepsTaken (tr ++ [(s, action)])) t := by
  have hsteps : stepsTaken (tr ++ [(s, action)]) = stepsTaken tr ++ (stepTaken s action).toList := by
    rw [stepsTaken, filterMap_append, stepsTaken]
    cases hnew : stepTaken s action with
    | none => simp [hnew]
    | some step => simp [hnew]
  have hexecute : ∀ nodeId, stepTaken s action = some (.execute nodeId) →
      stage (s.tasks nodeId) = 0 ∧ stage (t.tasks nodeId) = 1 := by
    intro nodeId hnew
    cases action with
    | emit => cases hnew
    | task node m =>
      obtain ⟨rfl, hs, ht⟩ := stage_execute (moved_of_move hstep.2) hnew
      exact ⟨hs, ht⟩
  have htold : ∀ nodeId, stepTaken s action = some (.emitFailure nodeId) ∨
      stepTaken s action = some (.emitCompletion nodeId) →
      stage (s.tasks nodeId) = 2 ∧ stage (t.tasks nodeId) = 3 := by
    intro nodeId hnew
    cases action with
    | emit => rcases hnew with hnew | hnew <;> cases hnew
    | task node m =>
      obtain ⟨rfl, hs, ht⟩ := stage_told (moved_of_move hstep.2) hnew
      exact ⟨hs, ht⟩
  have hbound : ∀ task : Task, stage task ≤ 3 := by
    intro task
    cases task <;> simp [stage]
  rw [hsteps]
  constructor
  · intro nodeId hmem
    rcases mem_append.1 hmem with hmem | hmem
    · exact (h.execute nodeId hmem).trans (stage_le_of_step hstep nodeId)
    · rw [(hexecute nodeId (Option.mem_toList.1 hmem)).2]
  · intro nodeId hmem
    simp only [mem_append, Option.mem_toList] at hmem
    rcases hmem with (hmem | hmem) | (hmem | hmem)
    · exact le_antisymm (hbound _) (h.told nodeId (.inl hmem) ▸ stage_le_of_step hstep nodeId)
    · exact (htold nodeId (.inl hmem)).2
    · exact le_antisymm (hbound _) (h.told nodeId (.inr hmem) ▸ stage_le_of_step hstep nodeId)
    · exact (htold nodeId (.inr hmem)).2
  · apply pairwise_append.2
    refine ⟨h.executed, by cases stepTaken s action <;> simp, ?_⟩
    intro step hold step' hnew nodeId heq heq'
    have hbefore := h.execute nodeId (heq ▸ hold)
    rw [(hexecute nodeId (heq' ▸ Option.mem_toList.1 hnew)).1] at hbefore
    cases hbefore
  · intro nodeId hboth
    simp only [mem_append, Option.mem_toList] at hboth
    rcases hboth with ⟨hfailed | hfailed, hcompleted | hcompleted⟩
    · exact h.once nodeId ⟨hfailed, hcompleted⟩
    · have hdone := h.told nodeId (.inl hfailed)
      rw [(htold nodeId (.inr hcompleted)).1] at hdone
      cases hdone
    · have hdone := h.told nodeId (.inr hcompleted)
      rw [(htold nodeId (.inl hfailed)).1] at hdone
      cases hdone
    · rw [hfailed] at hcompleted
      cases hcompleted

theorem behind_of_run (h : w.system.Run initial tr t) : Behind (stepsTaken tr) t := by
  have hstart : Behind (stepsTaken []) initial := by
    constructor
    · exact fun _ hmem => nomatch hmem
    · rintro _ (hmem | hmem) <;> cases hmem
    · exact .nil
    · exact fun _ hmem => nomatch hmem.1
  exact h.trace_invariant (I := fun tr s => Behind (stepsTaken tr) s) (fun hI hs => hI.next hs) hstart

end

section
variable {t : State} {tr : List (State × Action)} {action : Action} {s : State} {step : TraceStep}

theorem nodeId_of_stepTaken (h : stepTaken s action = some step) : step.nodeId = some action.owner.id := by
  cases action with
  | emit => cases h
  | task node m =>
    cases m with
    | advance =>
      simp only [stepTaken] at h
      split at h
      · cases h
        rfl
      · cases h
        rfl
      · split at h
        · cases h
          rfl
        · cases h
          rfl
      · cases h
    | completion index =>
      simp only [stepTaken] at h
      split at h
      · obtain ⟨dep, _, rfl⟩ := Option.map_eq_some_iff.1 h
        rfl
      · cases h
    | event index signal =>
      obtain ⟨waits, _, h⟩ := Option.bind_eq_some_iff.1 h
      obtain ⟨wait, _, rfl⟩ := Option.map_eq_some_iff.1 h
      rfl
    | settle source kind =>
      cases kind with
      | source =>
        cases h
        rfl
      | merge =>
        cases h
        rfl

theorem owner_mem_of_run (h : w.system.Run initial tr t) (hp : p ∈ tr) : p.2.owner ∈ w.nodes := by
  obtain ⟨u, hstep, -⟩ := h.exists_mem_states hp
  obtain ⟨s, action⟩ := p
  cases action with
  | task node m => exact hstep.1
  | emit node event data => exact hstep.1

def Trace.ofRun (h : w.system.Run initial tr t) (look : TraceStep → RunTraceSpanStatus × List TraceSpan) :
    w.Trace where
  spans := (stepsTaken tr).map fun step => ⟨step, (look step).1, (look step).2⟩
  nodes := by
    intro span hspan nodeId hnodeId
    obtain ⟨step, hstep, rfl⟩ := mem_map.1 hspan
    obtain ⟨p, hp, htaken⟩ := mem_filterMap.1 hstep
    rw [nodeId_of_stepTaken htaken, Option.mem_some_iff] at hnodeId
    exact ⟨p.2.owner, owner_mem_of_run h hp, hnodeId⟩
  executed := by
    rw [pairwise_map]
    exact (behind_of_run h).executed

end

end Automation

end Trakrai.Workflow
