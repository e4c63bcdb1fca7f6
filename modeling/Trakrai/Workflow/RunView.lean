import Mathlib.Data.List.Infix
import Trakrai.Workflow.Routing
import Trakrai.Workflow.RunTrace

namespace Trakrai.Workflow
open List Lib

inductive NodeRunStatus where
  | waiting
  | running
  | retrying
  | failing
  | failed
  | completed
deriving DecidableEq

structure NodeRun where
  nodeStatus : NodeRunStatus
  nodeExecutionSpan : Option TraceSpan
  nodeCompletionEvent : Option TraceSpan

/-- `text.includes(part)`. -/
def textIncludes (text part : String) : Bool := part.toList <:+: text.toList

/-- Whether a span is taken for the one in which the node tells how it ended. -/
def isCompletionEvent (nodeId : String) (span : TraceSpan) : Bool :=
  (startsWith span.name "emit-completion-" || startsWith span.name "emit-failure-") &&
    textIncludes span.name nodeId

def executionStatus : Option TraceSpan → NodeRunStatus
  | none => .waiting
  | some span =>
    match span.status with
    | .failed => .failing
    | .running => if span.childrenSpans.length ≤ 1 then .running else .retrying
    | .completed => .completed
    | _ => .waiting

def getNodeRunStatus (spans : List TraceSpan) (nodeId : String) : NodeRun :=
  let nodeExecutionSpan := spans.find? fun span => span.name = "execute-" ++ nodeId
  let executed : NodeRun :=
    let nodeStatus := executionStatus nodeExecutionSpan
    ⟨nodeStatus, if nodeStatus = .waiting then none else nodeExecutionSpan, none⟩
  match spans.find? (isCompletionEvent nodeId) with
  | some nodeCompletionEvent =>
    if startsWith nodeCompletionEvent.name "emit-failure-" then
      ⟨.failed, nodeExecutionSpan, some nodeCompletionEvent⟩
    else if startsWith nodeCompletionEvent.name "emit-completion-" then
      ⟨.completed, nodeExecutionSpan, some nodeCompletionEvent⟩
    else executed
  | none => executed

def TraceStep.outcome : TraceStep → Option NodeRunStatus
  | .emitFailure _ => some .failed
  | .emitCompletion _ => some .completed
  | _ => none

namespace Automation
variable {w : Automation}

def Trace.ofNode (trace : w.Trace) (nodeId : String) : List StepSpan :=
  trace.spans.filter fun s => s.step.nodeId = some nodeId

def Trace.status (trace : w.Trace) (nodeId : String) : NodeRunStatus :=
  (getNodeRunStatus (trace.spans.map w.span) nodeId).nodeStatus

def Trace.Took (trace : w.Trace) (step : TraceStep) : Prop := ∃ s ∈ trace.spans, s.step = step

/-- The node has told that it is completed, or has told nothing after it was executed. -/
def Trace.Completed (trace : w.Trace) (nodeId : String) : Prop :=
  trace.Took (.emitCompletion nodeId) ∨
    (¬ trace.Took (.emitCompletion nodeId) ∧ ¬ trace.Took (.emitFailure nodeId) ∧
      ∃ s ∈ trace.spans, s.step = .execute nodeId ∧ s.status = .completed)

/-- The view of a node shows how the node itself ended, whatever the spans of other nodes. -/
structure Trace.ShowsOwn (trace : w.Trace) (nodeId : String) : Prop where
  failed : trace.status nodeId = .failed ↔ trace.Took (.emitFailure nodeId)
  completed : trace.status nodeId = .completed ↔ trace.Completed nodeId
  own : ∀ trace' : w.Trace, trace'.ofNode nodeId = trace.ofNode nodeId → trace'.status nodeId = trace.status nodeId

/-- The node has told one end only, and no other node's name for an end has its id in it, unless it is the end that
the node has itself. -/
structure Trace.NamesOwn (trace : w.Trace) (nodeId : String) : Prop where
  once : ¬ (trace.Took (.emitFailure nodeId) ∧ trace.Took (.emitCompletion nodeId))
  failure : ∀ node ∈ w.nodes, node.id ≠ nodeId →
    textIncludes (w.traceStepName (.emitFailure node.id)) nodeId → trace.Took (.emitFailure nodeId)
  completion : ∀ node ∈ w.nodes, node.id ≠ nodeId →
    textIncludes (w.traceStepName (.emitCompletion node.id)) nodeId → trace.Completed nodeId

section
variable {trace trace' : w.Trace} {nodeId : String} {step : TraceStep} {s : StepSpan}

theorem startsWith_append {start : String} (text : String) : startsWith (start ++ text) start = true := by
  rw [startsWith, isPrefixOf_iff_prefix, String.toList_append]
  exact prefix_append _ _

theorem not_startsWith_append {start start' : String} (text : String)
    (hfirst : ∃ i < start.length, i < start'.length ∧ start.toList[i]? ≠ start'.toList[i]?) :
    startsWith (start' ++ text) start = false := by
  rw [startsWith, Bool.eq_false_iff, ne_eq, isPrefixOf_iff_prefix, String.toList_append]
  intro ⟨rest, hrest⟩
  obtain ⟨i, hi, hi', hne⟩ := hfirst
  have hget := congrArg (·[i]?) hrest
  simp only [List.getElem?_append_left (show i < start.toList.length from hi),
    List.getElem?_append_left (show i < start'.toList.length from hi')] at hget
  exact hne hget

def head : TraceStep → String
  | .getWorkflow => "get-workflow"
  | .validateWorkflow => "validate-workflow"
  | .wait .. => "wait-for-"
  | .emitMerge _ => "emit-merge-"
  | .execute _ => "execute-"
  | .emitFailure _ => "emit-failure-"
  | .emitCompletion _ => "emit-completion-"

def heads : List String :=
  ["get-workflow", "validate-workflow", "wait-for-", "emit-merge-", "execute-", "emit-failure-", "emit-completion-"]

theorem head_mem (step : TraceStep) : head step ∈ heads := by
  cases step <;> simp [head, heads]

theorem traceStepName_head (w : Automation) (step : TraceStep) : ∃ text, w.traceStepName step = head step ++ text := by
  cases step with
  | getWorkflow => exact ⟨"", String.append_empty.symm⟩
  | validateWorkflow => exact ⟨"", String.append_empty.symm⟩
  | wait source target suffix =>
    simp only [traceStepName_wait, buildWaitStepId, head]
    split
    · simp only [String.append_assoc]
      exact ⟨_, rfl⟩
    · simp only [String.append_assoc]
      exact ⟨_, rfl⟩
  | emitMerge nodeId =>
    simp only [traceStepName_emitMerge, head, String.append_assoc]
    exact ⟨_, rfl⟩
  | execute nodeId =>
    simp only [traceStepName_execute, head]
    exact ⟨_, rfl⟩
  | emitFailure nodeId =>
    simp only [traceStepName_emitFailure, head, String.append_assoc]
    exact ⟨_, rfl⟩
  | emitCompletion nodeId =>
    simp only [traceStepName_emitCompletion, head, String.append_assoc]
    exact ⟨_, rfl⟩

theorem startsWith_head_iff {start : String} (hstart : start ∈ heads) :
    startsWith (w.traceStepName step) start = true ↔ head step = start := by
  obtain ⟨text, htext⟩ := traceStepName_head w step
  rw [htext]
  constructor
  · intro h
    by_contra hne
    have hapart : ∀ start ∈ heads, ∀ start' ∈ heads, start' ≠ start →
        ∃ i < start.length, i < start'.length ∧ start.toList[i]? ≠ start'.toList[i]? := by
      decide +kernel
    rw [not_startsWith_append _ (hapart start hstart (head step) (head_mem step) hne)] at h
    cases h
  · rintro rfl
    exact startsWith_append _

theorem head_eq_completion_iff : head step = "emit-completion-" ↔ step.outcome = some .completed := by
  cases step <;> simp [head, TraceStep.outcome]

theorem head_eq_failure_iff : head step = "emit-failure-" ↔ step.outcome = some .failed := by
  cases step <;> simp [head, TraceStep.outcome]

theorem startsWith_completion_iff :
    startsWith (w.traceStepName step) "emit-completion-" = true ↔ step.outcome = some .completed := by
  rw [startsWith_head_iff (by decide), head_eq_completion_iff]

theorem startsWith_failure_iff :
    startsWith (w.traceStepName step) "emit-failure-" = true ↔ step.outcome = some .failed := by
  rw [startsWith_head_iff (by decide), head_eq_failure_iff]

theorem traceStepName_eq_execute_iff : w.traceStepName step = "execute-" ++ nodeId ↔ step = .execute nodeId := by
  constructor
  · intro h
    have hstart : startsWith (w.traceStepName step) "execute-" = true := by
      rw [h]
      exact startsWith_append _
    rw [startsWith_head_iff (by decide)] at hstart
    cases step with
    | execute other =>
      rw [traceStepName_execute, String.append_right_inj] at h
      rw [h]
    | _ => simp [head] at hstart
  · intro h
    rw [h, traceStepName_execute]

theorem isCompletionEvent_span_iff : isCompletionEvent nodeId (w.span s) = true ↔
    (s.step.outcome = some .completed ∨ s.step.outcome = some .failed) ∧
      textIncludes (w.traceStepName s.step) nodeId := by
  rw [isCompletionEvent, Bool.and_eq_true, Bool.or_eq_true]
  exact and_congr (or_congr startsWith_completion_iff startsWith_failure_iff) Iff.rfl

theorem textIncludes_append (text nodeId : String) : textIncludes (text ++ nodeId) nodeId = true := by
  rw [textIncludes, decide_eq_true_eq, String.toList_append]
  exact (suffix_append _ _).isInfix

theorem outcome_eq_failed_iff : step.outcome = some .failed ↔ ∃ nodeId, step = .emitFailure nodeId := by
  cases step <;> simp [TraceStep.outcome]

theorem outcome_eq_completed_iff : step.outcome = some .completed ↔ ∃ nodeId, step = .emitCompletion nodeId := by
  cases step <;> simp [TraceStep.outcome]

theorem isCompletionEvent_own (hown : s.step = .emitFailure nodeId ∨ s.step = .emitCompletion nodeId) :
    isCompletionEvent nodeId (w.span s) = true := by
  rw [isCompletionEvent_span_iff]
  rcases hown with hown | hown
  · rw [hown, traceStepName_emitFailure]
    exact ⟨.inr rfl, textIncludes_append _ _⟩
  · rw [hown, traceStepName_emitCompletion]
    exact ⟨.inl rfl, textIncludes_append _ _⟩

/-- The span in which the view sees an end. -/
def Trace.event (trace : w.Trace) (nodeId : String) : Option StepSpan :=
  trace.spans.find? fun s => isCompletionEvent nodeId (w.span s)

def Trace.execution (trace : w.Trace) (nodeId : String) : Option StepSpan :=
  trace.spans.find? fun s => s.step = .execute nodeId

theorem Trace.status_eq (trace : w.Trace) (nodeId : String) :
    trace.status nodeId = ((trace.event nodeId).bind (·.step.outcome)).getD
      (executionStatus ((trace.execution nodeId).map w.span)) := by
  have hevent : (trace.spans.map w.span).find? (isCompletionEvent nodeId) = (trace.event nodeId).map w.span :=
    List.find?_map
  have hexecution : (trace.spans.map w.span).find? (fun span => span.name = "execute-" ++ nodeId) =
      (trace.execution nodeId).map w.span := by
    rw [List.find?_map, Trace.execution]
    congr 2
    funext s
    exact decide_eq_decide.2 traceStepName_eq_execute_iff
  rw [Trace.status, getNodeRunStatus, hevent, hexecution]
  cases hfind : trace.event nodeId with
  | none => rfl
  | some s =>
    have hname : (w.span s).name = w.traceStepName s.step := rfl
    simp only [Option.map_some, hname, Option.bind_some]
    have hfound := List.find?_some hfind
    rcases (isCompletionEvent_span_iff.1 hfound).1 with hend | hend
    · have hno : startsWith (w.traceStepName s.step) "emit-failure-" = false := by
        rw [Bool.eq_false_iff, ne_eq, startsWith_failure_iff, hend]
        decide
      rw [hno, startsWith_completion_iff.2 hend, hend]
      rfl
    · rw [startsWith_failure_iff.2 hend, hend]
      rfl

theorem Trace.took_iff (hnode : step.nodeId = some nodeId) :
    trace.Took step ↔ ∃ s ∈ trace.ofNode nodeId, s.step = step := by
  constructor
  · intro ⟨s, hs, hstep⟩
    exact ⟨s, mem_filter.2 ⟨hs, by rw [hstep, hnode]; exact decide_eq_true rfl⟩, hstep⟩
  · intro ⟨s, hs, hstep⟩
    exact ⟨s, (mem_filter.1 hs).1, hstep⟩

theorem Trace.execution_eq (trace : w.Trace) (nodeId : String) :
    trace.execution nodeId = (trace.ofNode nodeId).find? fun s => s.step = .execute nodeId := by
  rw [Trace.execution, Trace.ofNode, List.find?_filter]
  congr 1
  funext s
  by_cases hstep : s.step = .execute nodeId
  · simp [hstep, TraceStep.nodeId]
  · simp [hstep]

theorem Trace.execution_of_mem (hs : s ∈ trace.spans) (hstep : s.step = .execute nodeId) :
    trace.execution nodeId = some s := by
  obtain ⟨before, after, hsplit⟩ := append_of_mem hs
  have hfirst : ∀ s' ∈ before, s'.step ≠ .execute nodeId := by
    intro s' hs' heq
    have hpair := trace.executed
    rw [hsplit, pairwise_append] at hpair
    exact hpair.2.2 s' hs' s (mem_cons_self ..) nodeId heq hstep
  rw [Trace.execution, hsplit, List.find?_append, List.find?_eq_none.2 (by simpa using hfirst), Option.none_or,
    List.find?_cons_of_pos (by simpa using hstep)]

theorem executionStatus_ne_failed (span : Option TraceSpan) : executionStatus span ≠ .failed := by
  cases span with
  | none => exact nofun
  | some span =>
    rw [executionStatus]
    split
    · exact nofun
    · split
      · exact nofun
      · exact nofun
    · exact nofun
    · exact nofun

theorem executionStatus_eq_completed_iff {span : Option TraceSpan} :
    executionStatus span = .completed ↔ ∃ s, span = some s ∧ s.status = .completed := by
  cases span with
  | none => exact iff_of_false nofun nofun
  | some span =>
    simp only [Option.some.injEq, exists_eq_left']
    constructor
    · intro h
      rw [executionStatus] at h
      split at h
      · cases h
      · split at h
        · cases h
        · cases h
      · rename_i hstatus
        exact hstatus
      · cases h
    · intro h
      rw [executionStatus, h]

theorem Trace.executed_iff : executionStatus ((trace.execution nodeId).map w.span) = .completed ↔
    ∃ s ∈ trace.spans, s.step = .execute nodeId ∧ s.status = .completed := by
  rw [executionStatus_eq_completed_iff]
  constructor
  · rintro ⟨_, hspan, hstatus⟩
    obtain ⟨s, hs, rfl⟩ := Option.map_eq_some_iff.1 hspan
    have hstep := List.find?_some hs
    exact ⟨s, List.mem_of_find?_eq_some hs, of_decide_eq_true hstep, hstatus⟩
  · intro ⟨s, hs, hstep, hstatus⟩
    exact ⟨w.span s, by rw [Trace.execution_of_mem hs hstep]; rfl, hstatus⟩

theorem Trace.NamesOwn.status_cases (h : trace.NamesOwn nodeId) :
    (trace.Took (.emitFailure nodeId) ∧ trace.status nodeId = .failed) ∨
    (¬ trace.Took (.emitFailure nodeId) ∧ trace.Took (.emitCompletion nodeId) ∧ trace.status nodeId = .completed) ∨
    (¬ trace.Took (.emitFailure nodeId) ∧ ¬ trace.Took (.emitCompletion nodeId) ∧
      trace.status nodeId = executionStatus ((trace.execution nodeId).map w.span)) := by
  rw [Trace.status_eq]
  cases hevent : trace.event nodeId with
  | none =>
    have hnone := List.find?_eq_none.1 hevent
    apply Or.inr
    apply Or.inr
    refine ⟨?_, ?_, rfl⟩
    · intro ⟨s, hs, hstep⟩
      exact hnone s hs (isCompletionEvent_own (.inl hstep))
    · intro ⟨s, hs, hstep⟩
      exact hnone s hs (isCompletionEvent_own (.inr hstep))
  | some s =>
    have hs := List.mem_of_find?_eq_some hevent
    have hfound := List.find?_some hevent
    obtain ⟨hend, hincludes⟩ := isCompletionEvent_span_iff.1 hfound
    rcases hend with hend | hend
    · obtain ⟨other, hstep⟩ := outcome_eq_completed_iff.1 hend
      obtain ⟨node, hnode, rfl⟩ := trace.nodes s hs other (by rw [hstep]; rfl)
      have hcompleted : trace.Completed nodeId := by
        by_cases hown : node.id = nodeId
        · exact .inl ⟨s, hs, by rw [hstep, hown]⟩
        · exact h.completion node hnode hown (hstep ▸ hincludes)
      rw [Option.bind_some, hend, Option.getD_some]
      apply Or.inr
      rcases hcompleted with htook | ⟨hno, hno', hexecuted⟩
      · exact .inl ⟨fun hfailed => h.once ⟨hfailed, htook⟩, htook, rfl⟩
      · exact .inr ⟨hno', hno, (Trace.executed_iff.2 hexecuted).symm⟩
    · obtain ⟨other, hstep⟩ := outcome_eq_failed_iff.1 hend
      obtain ⟨node, hnode, rfl⟩ := trace.nodes s hs other (by rw [hstep]; rfl)
      have hfailed : trace.Took (.emitFailure nodeId) := by
        by_cases hown : node.id = nodeId
        · exact ⟨s, hs, by rw [hstep, hown]⟩
        · exact h.failure node hnode hown (hstep ▸ hincludes)
      rw [Option.bind_some, hend]
      exact .inl ⟨hfailed, rfl⟩

theorem Trace.NamesOwn.failed_iff (h : trace.NamesOwn nodeId) :
    trace.status nodeId = .failed ↔ trace.Took (.emitFailure nodeId) := by
  rcases h.status_cases with ⟨htook, hstatus⟩ | ⟨hno, -, hstatus⟩ | ⟨hno, -, hstatus⟩
  · exact iff_of_true hstatus htook
  · rw [hstatus]
    exact iff_of_false nofun hno
  · rw [hstatus]
    exact iff_of_false (executionStatus_ne_failed _) hno

theorem Trace.NamesOwn.completed_iff (h : trace.NamesOwn nodeId) :
    trace.status nodeId = .completed ↔ trace.Completed nodeId := by
  rcases h.status_cases with ⟨htook, hstatus⟩ | ⟨-, htook, hstatus⟩ | ⟨hno, hno', hstatus⟩
  · rw [hstatus]
    apply iff_of_false nofun
    rintro (hcompleted | ⟨-, hno, -⟩)
    · exact h.once ⟨htook, hcompleted⟩
    · exact hno htook
  · exact iff_of_true hstatus (.inl htook)
  · rw [hstatus, Trace.executed_iff, Trace.Completed, or_iff_right hno', and_iff_right hno', and_iff_right hno]

theorem Trace.NamesOwn.own (h : trace.NamesOwn nodeId) (heq : trace'.ofNode nodeId = trace.ofNode nodeId) :
    trace'.NamesOwn nodeId ∧ trace'.status nodeId = trace.status nodeId := by
  have htook : ∀ {step : TraceStep}, step.nodeId = some nodeId → (trace'.Took step ↔ trace.Took step) := by
    intro step hnode
    rw [Trace.took_iff hnode, Trace.took_iff hnode, heq]
  have hexecution : trace'.execution nodeId = trace.execution nodeId := by
    rw [Trace.execution_eq, Trace.execution_eq, heq]
  have hcompleted : trace'.Completed nodeId ↔ trace.Completed nodeId := by
    rw [Trace.Completed, Trace.Completed, htook rfl, htook rfl, ← Trace.executed_iff, ← Trace.executed_iff, hexecution]
  have hnames : trace'.NamesOwn nodeId := by
    constructor
    · rw [htook rfl, htook rfl]
      exact h.once
    · intro node hnode hne hincludes
      exact (htook rfl).2 (h.failure node hnode hne hincludes)
    · intro node hnode hne hincludes
      exact hcompleted.2 (h.completion node hnode hne hincludes)
  refine ⟨hnames, ?_⟩
  rcases h.status_cases with ⟨htook', hstatus⟩ | ⟨-, htook', hstatus⟩ | ⟨hno, hno', hstatus⟩
  · rw [hstatus, hnames.failed_iff, htook rfl]
    exact htook'
  · rw [hstatus, hnames.completed_iff, hcompleted]
    exact .inl htook'
  · rcases hnames.status_cases with ⟨htook', -⟩ | ⟨-, htook', -⟩ | ⟨-, -, hstatus'⟩
    · exact absurd ((htook rfl).1 htook') hno
    · exact absurd ((htook rfl).1 htook') hno'
    · rw [hstatus, hstatus', hexecution]

def Trace.behind (trace : w.Trace) (nodeId : String) (step : TraceStep) (hnode : ∃ node ∈ w.nodes, step.nodeId = some node.id)
    (hstep : step.outcome.isSome) : w.Trace where
  spans := ⟨step, .completed, []⟩ :: trace.ofNode nodeId
  nodes := by
    intro s hs other hother
    rcases mem_cons.1 hs with rfl | hs
    · obtain ⟨node, hnode, heq⟩ := hnode
      rw [heq, Option.mem_some_iff] at hother
      exact ⟨node, hnode, hother⟩
    · exact trace.nodes s (mem_filter.1 hs).1 other hother
  executed := by
    apply pairwise_cons.2
    refine ⟨?_, trace.executed.filter _⟩
    intro s _ other (heq : step = .execute other)
    rw [heq] at hstep
    cases hstep

theorem Trace.status_behind (hincludes : textIncludes (w.traceStepName step) nodeId):
    some ((trace.behind nodeId step hnode hstep).status nodeId) = step.outcome := by
  have hend : step.outcome = some .completed ∨ step.outcome = some .failed := by
    cases step with
    | emitFailure => exact .inr rfl
    | emitCompletion => exact .inl rfl
    | _ => cases hstep
  have hevent : (trace.behind nodeId step hnode hstep).event nodeId = some ⟨step, .completed, []⟩ :=
    List.find?_cons_of_pos (isCompletionEvent_span_iff.2 ⟨hend, hincludes⟩)
  rw [Trace.status_eq, hevent, Option.bind_some]
  obtain ⟨status, hstatus⟩ := Option.isSome_iff_exists.1 hstep
  rw [hstatus, Option.getD_some]

theorem Trace.ofNode_behind (hne : step.nodeId ≠ some nodeId): (trace.behind nodeId step hnode hstep).ofNode nodeId = trace.ofNode nodeId := by
  rw [Trace.ofNode, Trace.behind, filter_cons_of_neg (by simpa using hne), Trace.ofNode, filter_filter]
  simp only [Bool.and_self]

theorem Trace.ShowsOwn.status_eq_outcome (h : trace.ShowsOwn nodeId) (hnode : ∃ node ∈ w.nodes, step.nodeId = some node.id)
    (hstep : step.outcome.isSome) (hne : step.nodeId ≠ some nodeId)
    (hincludes : textIncludes (w.traceStepName step) nodeId) : some (trace.status nodeId) = step.outcome := by
  rw [← h.own (trace.behind nodeId step hnode hstep) (Trace.ofNode_behind hne)]
  exact Trace.status_behind hincludes

/-- The view of a node is its own exactly when the names of the ends are its own. -/
theorem showsOwn_iff : trace.ShowsOwn nodeId ↔ trace.NamesOwn nodeId := by
  constructor
  · intro h
    constructor
    · intro ⟨hfailed, hcompleted⟩
      have hstatus := h.failed.2 hfailed
      rw [h.completed.2 (.inl hcompleted)] at hstatus
      cases hstatus
    · intro node hnode hne hincludes
      have hne' : TraceStep.nodeId (.emitFailure node.id) ≠ some nodeId := fun heq => hne (Option.some.inj heq)
      have hstatus := h.status_eq_outcome ⟨node, hnode, rfl⟩ rfl hne' hincludes
      exact h.failed.1 (Option.some.inj hstatus)
    · intro node hnode hne hincludes
      have hne' : TraceStep.nodeId (.emitCompletion node.id) ≠ some nodeId := fun heq => hne (Option.some.inj heq)
      have hstatus := h.status_eq_outcome ⟨node, hnode, rfl⟩ rfl hne' hincludes
      exact h.completed.1 (Option.some.inj hstatus)
  · intro h
    exact ⟨h.failed_iff, h.completed_iff, fun _ heq => (h.own heq).2⟩

end

def cameraNode : Node := { id := "camera", type := some "box" }

def camNode : Node := { id := "cam", type := some "box" }

def cameraChart : Automation where
  nodes := [cameraNode, camNode]
  edges := []
  registry := boomChart.registry
  dependencyMap := buildDependencyMap [cameraNode, camNode] []
  eventId := "event-1"

def cameraActions : List Action :=
  [.task cameraNode .advance, .task cameraNode .advance, .task cameraNode .advance, .task cameraNode .advance]

/-- The node that has not been started is shown as completed. -/
theorem waiting_node_shown_completed : ∃ tr s, ∃ h : cameraChart.system.Run initial tr s,
    s.tasks "cam" = .started ∧
    (Trace.ofRun h fun _ => (.completed, [])).ofNode "cam" = [] ∧
    (Trace.ofRun h fun _ => (.completed, [])).status "cam" = .completed ∧
    ¬ (Trace.ofRun h fun _ => (.completed, [])).ShowsOwn "cam" := by
  obtain ⟨tr, s, hplay, hemits, htask, hsteps⟩ : ∃ tr s,
      play cameraChart.perform initial cameraActions = some (tr, s) ∧
        (tr.all fun p => cameraChart.mayEmit p.1 p.2) = true ∧ s.tasks "cam" = .started ∧
        stepsTaken tr = [.execute "camera", .emitCompletion "camera"] :=
    ⟨_, _, rfl, rfl, rfl, rfl⟩
  have hrun : cameraChart.system.Run initial tr s :=
    run_of_play hplay (by simp [cameraActions, cameraChart, Action.owner]) hemits
  have hspans : (Trace.ofRun hrun fun _ => (.completed, [])).spans =
      [⟨.execute "camera", .completed, []⟩, ⟨.emitCompletion "camera", .completed, []⟩] := by
    simp only [Trace.ofRun, hsteps, map_cons, map_nil]
  have hown : (Trace.ofRun hrun fun _ => (.completed, [])).ofNode "cam" = [] := by
    rw [Trace.ofNode, hspans]
    rfl
  have hstatus : (Trace.ofRun hrun fun _ => (.completed, [])).status "cam" = .completed := by
    rw [Trace.status, hspans]
    decide +kernel
  refine ⟨tr, s, hrun, htask, hown, hstatus, fun h => ?_⟩
  rcases h.completed.1 hstatus with ⟨span, hspan, hstep⟩ | ⟨-, -, span, hspan, hstep, -⟩
  · rw [hspans] at hspan
    simp only [mem_cons, not_mem_nil, or_false] at hspan
    rcases hspan with rfl | rfl
    · cases hstep
    · exact absurd hstep (by decide)
  · rw [hspans] at hspan
    simp only [mem_cons, not_mem_nil, or_false] at hspan
    rcases hspan with rfl | rfl
    · exact absurd hstep (by decide)
    · cases hstep

end Automation

end Trakrai.Workflow
