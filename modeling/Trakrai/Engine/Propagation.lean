import Trakrai.Engine.Coverage

namespace Trakrai.Engine
open List Lib

def Action.isCall : Action α → Bool
  | .call _ _ => true
  | _ => false

section
variable [PyObject α]

/-- What a node may have come to: with its slot, and the values that its own conditions saw. -/
inductive Settled (engine : WorkflowEngine α) (memory : Memory α) (id : String) (slot : Slot α) :
    Prop where
  | completed (outputs : Dict α) (result : slot.result = some { status := .completed, outputs })
    (failed : ¬ slot.failed)
  | failed (error : String)
    (result : slot.result = some { status := .failed, error := some error }) (failed : slot.failed)
  | upstream (result : slot.result =
      some { status := .skipped, error := some "Skipped: upstream dependency failed." })
    (failed : slot.failed)
  | condition (edge : EdgeMapping α) (error : String) (mem : edge ∈ engine.dag.incomingEdges id)
    (unmet : edge.unmet (memory.sourceOutput edge) = some error)
    (result : slot.result = some { status := .skipped, error := some error })
    (failed : ¬ slot.failed) (outputs : slot.outputs = fun _ => none)

structure Passed (engine : WorkflowEngine α) (memory : Memory α) (id : String) : Prop where
  blank : memory.slot id = {}
  upstream : ∀ u ∈ engine.dag.reverseAdjacency id, u ∉ memory.failedNodes
  conditions : ∀ edge ∈ engine.dag.incomingEdges id, edge.unmet (memory.sourceOutput edge) = none

def Task.Checked (engine : WorkflowEngine α) (context : α) (memory : Memory α) (id : String) :
    Task α → Prop
  | .waiting => memory.slot id = {}
  | .upstream _ rest => memory.slot id = {} ∧
    ∀ u ∈ engine.dag.reverseAdjacency id, u ∈ rest ∨ u ∉ memory.failedNodes
  | .conditions _ rest => memory.slot id = {} ∧ rest ⊆ engine.dag.incomingEdges id ∧
    (∀ u ∈ engine.dag.reverseAdjacency id, u ∉ memory.failedNodes) ∧
    ∀ edge ∈ engine.dag.incomingEdges id, edge ∈ rest ∨ edge.unmet (memory.sourceOutput edge) = none
  | .collecting node rest inputs => Passed engine memory id ∧
    memory.collectInputs rest inputs = memory.collectInputs (engine.dag.incomingEdges id)
      (node.configuration.set "__context__" context)
  | .calling node inputs => Passed engine memory id ∧
    inputs = memory.collectInputs (engine.dag.incomingEdges id)
      (node.configuration.set "__context__" context)
  | .locking writes => Settled engine memory id (writes.foldl Write.applySlot (memory.slot id))
  | .writing writes => Settled engine memory id (writes.foldl Write.applySlot (memory.slot id))
  | .done => Settled engine memory id (memory.slot id)

variable {engine : WorkflowEngine α} {context : α} {functions : NodeFunctions α}
  {memory memory' : Memory α} {id : String} {slot : Slot α} {s t : Execution α}

theorem Settled.congr (hb : Built engine.workflow engine.dag) (h : Settled engine memory id slot)
    (hslot : ∀ u ∈ engine.dag.reverseAdjacency id, memory'.slot u = memory.slot u) :
    Settled engine memory' id slot := by
  cases h with
  | completed outputs result failed => exact .completed outputs result failed
  | failed error result failed => exact .failed error result failed
  | upstream result failed => exact .upstream result failed
  | condition edge error mem unmet result failed outputs =>
    rw [← sourceOutput_congr (hslot _ (incomingEdges_sources hb id edge mem))] at unmet
    exact .condition edge error mem unmet result failed outputs

theorem Passed.congr (hb : Built engine.workflow engine.dag) (h : Passed engine memory id)
    (hslot : ∀ u ∈ id :: engine.dag.reverseAdjacency id, memory'.slot u = memory.slot u) :
    Passed engine memory' id := by
  obtain ⟨hself, hreads⟩ := forall_mem_cons.1 hslot
  refine ⟨hself.trans h.blank, ?_, ?_⟩
  · intro u hu
    rw [failed_congr (hreads u hu)]
    exact h.upstream u hu
  · intro edge hedge
    rw [sourceOutput_congr (hreads _ (incomingEdges_sources hb id edge hedge))]
    exact h.conditions edge hedge

omit [PyObject α] in
theorem foldl_outputs (entries : List (String × α)) (slot : Slot α) :
    ((entries.map fun entry => Write.output entry.1 entry.2).foldl Write.applySlot slot).failed =
      slot.failed := by
  induction entries generalizing slot with
  | nil => rfl
  | cons entry entries ih => exact ih _

theorem settled_outcome (memory : Memory α) (id : String) (outcome : Outcome α) :
    Settled engine memory id (outcome.writes.foldl Write.applySlot {}) := by
  have hcompleted (outputs : Dict α) :
      Settled engine memory id ((completed outputs).foldl Write.applySlot {}) := by
    rw [Trakrai.Engine.completed, foldl_append]
    refine .completed outputs rfl ?_
    rw [foldl_cons, foldl_nil]
    intro hfailed
    exact (foldl_outputs outputs.entries {}).mp hfailed
  cases outcome with
  | returned outputs => exact hcompleted outputs
  | returnedOther value => exact hcompleted (.singleton "result" value)
  | raised error => exact .failed error rfl trivial

theorem Task.Checked.congr {task : Task α} (hb : Built engine.workflow engine.dag)
    (hr : task.Reads (engine.dag.reverseAdjacency id)) (h : task.Checked engine context memory id)
    (hslot : ∀ u ∈ id :: engine.dag.reverseAdjacency id, memory'.slot u = memory.slot u) :
    task.Checked engine context memory' id := by
  obtain ⟨hself, hreads⟩ := forall_mem_cons.1 hslot
  have hcollect (inputs : Dict α) :=
    collectInputs_congr inputs fun edge hedge => hreads _ (incomingEdges_sources hb id edge hedge)
  cases task with
  | waiting => exact hself.trans h
  | upstream node rest =>
    refine ⟨hself.trans h.1, ?_⟩
    intro u hu
    rw [failed_congr (hreads u hu)]
    exact h.2 u hu
  | conditions node rest =>
    obtain ⟨hblank, hrest, hupstream, hconditions⟩ := h
    refine ⟨hself.trans hblank, hrest, ?_, ?_⟩
    · intro u hu
      rw [failed_congr (hreads u hu)]
      exact hupstream u hu
    · intro edge hedge
      rw [sourceOutput_congr (hreads _ (incomingEdges_sources hb id edge hedge))]
      exact hconditions edge hedge
  | collecting node rest inputs =>
    refine ⟨h.1.congr hb hslot, ?_⟩
    rw [collectInputs_congr inputs fun edge hedge => hreads _ (hr edge hedge), hcollect]
    exact h.2
  | calling node inputs =>
    refine ⟨h.1.congr hb hslot, ?_⟩
    rw [hcollect]
    exact h.2
  | locking writes | writing writes | done =>
    rw [Task.Checked, hself]
    exact Settled.congr hb h hreads

theorem TaskStep.checked {task task' : Task α} (hb : Built engine.workflow engine.dag)
    (hself : id ∉ engine.dag.reverseAdjacency id)
    (hstep : TaskStep engine context functions id memory task task' memory')
    (h : task.Checked engine context memory id) : task'.Checked engine context memory' id := by
  cases hstep with
  | start => exact ⟨h, fun u hu => .inl hu⟩
  | upstreamFailed =>
    rw [Task.Checked, h.1]
    exact .upstream rfl trivial
  | upstreamOk hfailed =>
    refine ⟨h.1, ?_⟩
    intro u hu
    rcases h.2 u hu with hmem | hnot
    · rcases mem_cons.1 hmem with rfl | hmem
      · exact .inr hfailed
      · exact .inl hmem
    · exact .inr hnot
  | upstreamDone =>
    refine ⟨h.1, List.Subset.refl _, ?_, fun edge hedge => .inl hedge⟩
    intro u hu
    exact (h.2 u hu).resolve_left (not_mem_nil)
  | unmet hunmet =>
    rw [Task.Checked, h.1]
    exact .condition _ _ (cons_subset.1 h.2.1).1 hunmet rfl not_false rfl
  | met hmet =>
    obtain ⟨hblank, hrest, hupstream, hconditions⟩ := h
    refine ⟨hblank, (cons_subset.1 hrest).2, hupstream, ?_⟩
    intro e he
    rcases hconditions e he with hmem | hnone
    · rcases mem_cons.1 hmem with rfl | hmem
      · exact .inr hmet
      · exact .inl hmem
    · exact .inr hnone
  | conditionsDone =>
    obtain ⟨hblank, -, hupstream, hconditions⟩ := h
    refine ⟨⟨hblank, hupstream, ?_⟩, rfl⟩
    intro edge hedge
    exact (hconditions edge hedge).resolve_left (not_mem_nil)
  | collect => exact h
  | collected => exact h
  | call =>
    rw [Task.Checked, h.1.blank]
    exact settled_outcome memory id _
  | acquire => exact h
  | write =>
    rw [Task.Checked, slot_apply_self]
    apply Settled.congr hb h
    intro u hu
    apply slot_apply_of_ne
    rintro rfl
    exact hself hu
  | release => exact h

/-- Each task knows what its checks have shown, and each node comes to one of four ends. -/
def checks (hb : Built engine.workflow engine.dag) (context : α) (functions : NodeFunctions α) :
    LocalInvariant engine context functions where
  Holds id task memory := task.Reads (engine.dag.reverseAdjacency id) ∧
    task.Checked engine context memory id
  congr h hslot := ⟨h.1, h.2.congr hb h.1 hslot⟩
  start hblank := ⟨trivial, hblank⟩
  step h hself _ hstep := ⟨hstep.reads hb h.1, hstep.checked hb hself h.2⟩

theorem past_step (hd : engine.Distinct) (hp : Placed engine s)
    (hstep : Stepped engine context functions s t) (hu : u ∈ s.past) :
    u ∈ t.past ∧ t.memory.slot u = s.memory.slot u := by
  have hnodup := hd.levels.2.nodup_iff.2 hd.nodup
  rw [← hp.order] at hnodup
  obtain ⟨-, -, hapart⟩ := nodup_append.1 (nodup_append.1 hnodup).1
  cases hstep with
  | nextLevel ids hremaining done level past memory ran lock =>
    rw [past, memory]
    exact ⟨mem_append_left _ hu, rfl⟩
  | task pre post nodeId task task' before after step remaining past ran lock =>
    rw [past]
    refine ⟨hu, step.slot_of_ne (hapart u hu nodeId ?_)⟩
    rw [before, map_append]
    exact mem_append_right _ (mem_cons_self ..)

theorem past_run (hd : engine.Distinct)
    (hr : (engine.execute context functions).Run s tr t) (hp : Placed engine s) (hu : u ∈ s.past): t.memory.slot u = s.memory.slot u := by
  induction hr with
  | nil => rfl
  | cons hstep _ ih =>
    obtain ⟨hmem, hslot⟩ := past_step hd hp (stepped hstep) hu
    rw [ih (hp.step (stepped hstep)) hmem, hslot]

theorem unmet_none_of_conditional {edge : EdgeMapping α} (h : edge.isConditional = true) :
    ∃ error, edge.unmet PyObject.none = some error := by
  rw [EdgeMapping.unmet, h]
  cases hvalue : PyObject.isNone edge.conditionalValue with
  | true => exact ⟨_, by simp [PyObject.truthy_none (α := α)]; rfl⟩
  | false => exact ⟨_, by simp [PyObject.ne_none _ hvalue]; rfl⟩

def Memory.isCompleted (memory : Memory α) (id : String) : Bool :=
  (memory.resultMap.lookup id).any (·.status = .completed)

/-- The node was skipped because a condition of its own is not met. -/
def SkippedForCondition (engine : WorkflowEngine α) (memory : Memory α) (id : String) : Prop :=
  ∃ edge ∈ engine.dag.incomingEdges id, ∃ error,
    edge.unmet (memory.sourceOutput edge) = some error ∧
      memory.resultMap.lookup id = some { status := .skipped, error := some error }

theorem Settled.cases_of_not_failed (h : Settled engine memory id (memory.slot id))
    (hf : id ∉ memory.failedNodes) : memory.isCompleted id = true ∨
      memory.isCompleted id = false ∧ SkippedForCondition engine memory id ∧
        ∀ port, memory.outputMap id port = none := by
  cases h with
  | completed outputs result =>
    left
    have hlookup : memory.resultMap.lookup id = some { status := .completed, outputs } := result
    rw [Memory.isCompleted, hlookup]
    rfl
  | failed error result failed => exact absurd failed hf
  | upstream result failed => exact absurd failed hf
  | condition edge error mem unmet result failed outputs =>
    right
    have hlookup : memory.resultMap.lookup id = some { status := .skipped, error := some error } :=
      result
    refine ⟨?_, ⟨edge, mem, error, unmet, hlookup⟩, fun port => congrFun outputs port⟩
    rw [Memory.isCompleted, hlookup]
    rfl

theorem collectInputs_filter (inputs : Dict α)
    (h : ∀ edge ∈ edges, p edge = false → memory.sourceOutput edge = PyObject.none) :
    memory.collectInputs (edges.filter p) inputs = memory.collectInputs edges inputs := by
  induction edges generalizing inputs with
  | nil => rfl
  | cons edge edges ih =>
    obtain ⟨hedge, hrest⟩ := forall_mem_cons.1 h
    cases hp : p edge with
    | true =>
      rw [filter_cons_of_pos hp]
      exact ih _ hrest
    | false =>
      rw [filter_cons_of_neg (by simp [hp]), ih inputs hrest]
      have hsame : edge.addInput inputs (memory.sourceOutput edge) = inputs := by
        rw [hedge hp, EdgeMapping.addInput, PyObject.isNone_none]
        split <;> rfl
      conv_rhs => rw [Memory.collectInputs, foldl_cons, hsame]
      rfl

theorem Passed.source (h : Passed engine memory id) {edge : EdgeMapping α}
    (hedge : edge ∈ engine.dag.incomingEdges id)
    (hreads : edge.sourceNodeId ∈ engine.dag.reverseAdjacency id)
    (hs : Settled engine memory edge.sourceNodeId (memory.slot edge.sourceNodeId)) :
    memory.isCompleted edge.sourceNodeId = true ∨
      memory.isCompleted edge.sourceNodeId = false ∧ memory.sourceOutput edge = PyObject.none ∧
      SkippedForCondition engine memory edge.sourceNodeId ∧ edge.isConditional = false := by
  rcases hs.cases_of_not_failed (h.upstream _ hreads) with hcompleted | ⟨hnot, hskipped, houtputs⟩
  · exact .inl hcompleted
  · have hnone : memory.sourceOutput edge = PyObject.none := by
      rw [Memory.sourceOutput, houtputs, Option.getD_none]
    refine .inr ⟨hnot, hnone, hskipped, ?_⟩
    by_contra hconditional
    obtain ⟨error, hunmet⟩ := unmet_none_of_conditional (Bool.eq_true_of_not_eq_false hconditional)
    have hmet := h.conditions edge hedge
    rw [hnone, hunmet] at hmet
    cases hmet

/-- When the function of a node is called, each node it has an edge from has completed, or was
skipped because a condition of its own is not met and the edge is no condition. The inputs are those
of the completed nodes, and the results of all of them stay as they are. -/
theorem call_after_completed {registry : NodeRegistry α} {maxWorkers : Int}
    {workflow : WorkflowDefinition α} (h : loadWorkflow registry maxWorkers workflow = .ok engine)
    (hnodup : (workflow.nodes.map (·.id)).Nodup)
    (hs : (engine.execute context functions).Reachable s) {index : Nat} {nodeId : String}
    {node : WorkflowNode α} {inputs : Dict α}
    (hcall : s.level[index]? = some (nodeId, .calling node inputs)) :
    (∀ edge ∈ workflow.edges, edge.target = nodeId → s.memory.isCompleted edge.source = true ∨
      SkippedForCondition engine s.memory edge.source ∧ edge.mapping.isConditional = false) ∧
    inputs = s.memory.collectInputs ((engine.dag.incomingEdges nodeId).filter fun edge =>
      s.memory.isCompleted edge.sourceNodeId) (node.configuration.set "__context__" context) ∧
    ∀ tr t, (engine.execute context functions).Run s tr t →
      ∀ edge ∈ workflow.edges, edge.target = nodeId →
        t.memory.resultMap.lookup edge.source = s.memory.resultMap.lookup edge.source := by
  obtain ⟨rfl, hloaded⟩ := loadWorkflow_ok h
  have hd : engine.Distinct := ⟨hloaded, hnodup⟩
  have heverywhere : (checks hd.built context functions).Everywhere s :=
    LocalInvariant.everywhere hd hs
  have hmem := List.mem_of_getElem? hcall
  have hreads := (heverywhere.placed.layered hd.levels.1).1 nodeId (mem_map_of_mem hmem)
  obtain ⟨-, hpassed, hinputs⟩ := heverywhere.level _ hmem
  have hsource {edge : EdgeMapping α} (hedge : edge ∈ engine.dag.incomingEdges nodeId) :=
    have hin := incomingEdges_sources hd.built nodeId edge hedge
    hpassed.source hedge hin (heverywhere.past _ (hreads hin)).2
  refine ⟨?_, ?_, ?_⟩
  · intro edge hedge htarget
    have hin : edge.mapping ∈ engine.dag.incomingEdges nodeId := by
      rw [hd.built.incoming]
      exact mem_map_of_mem (mem_filter.2 ⟨hedge, beq_iff_eq.2 htarget⟩)
    rcases hsource hin with hcompleted | ⟨-, -, hskipped, hplain⟩
    · exact .inl hcompleted
    · exact .inr ⟨hskipped, hplain⟩
  · rw [hinputs]
    symm
    apply collectInputs_filter
    intro edge hedge hnot
    rcases hsource hedge with hcompleted | ⟨-, hnone, -⟩
    · exact absurd hcompleted (by simp [hnot])
    · exact hnone
  · intro tr t hr edge hedge htarget
    have hin := (hd.built.dependencies edge.source nodeId).2 ⟨edge, hedge, rfl, htarget⟩
    exact congrArg Slot.result (past_run hd hr heverywhere.placed (hreads hin))

def WorkflowEngine.playCall (engine : WorkflowEngine α) (context : α)
    (function : String → Dict α → Outcome α) (before : List (Action α)) (index : Nat)
    (after : List (Action α)) : Option (Execution α) :=
  match play (Execution.move engine context) engine.start before with
  | none => none
  | some (_, s) =>
    match s.level[index]? with
    | some (_, .calling node inputs) =>
      (play (Execution.move engine context) s
        (.call index (function node.type inputs) :: after)).map Prod.snd
    | _ => none

theorem allowed_of_play (h : play (Execution.move engine context) s moves = some (tr, t))
    (hcalls : moves.all fun a => !a.isCall) : ∀ p ∈ tr, p.1.Allowed functions p.2 := by
  intro p hp
  have hmem : p.2 ∈ moves := play_labels h ▸ mem_map_of_mem hp
  have hnot := all_eq_true.1 hcalls _ hmem
  cases haction : p.2 with
  | call => rw [haction] at hnot; cases hnot
  | _ => trivial

theorem reachable_of_playCall {function : String → Dict α → Outcome α} {index : Nat}
    {before after : List (Action α)}
    (h : engine.playCall context function before index after = some t)
    (hbefore : before.all fun a => !a.isCall) (hafter : after.all fun a => !a.isCall) :
    (engine.execute context (.pure function)).Reachable t := by
  rw [WorkflowEngine.playCall] at h
  split at h
  · cases h
  · rename_i tr s hplay
    split at h
    · rename_i nodeId node inputs hcall
      obtain ⟨⟨tr', t'⟩, hplay', rfl⟩ := Option.map_eq_some_iff.1 h
      rw [play] at hplay'
      split at hplay'
      · cases hplay'
      · rename_i m hmove
        obtain ⟨⟨tr'', u⟩, hrest, heq⟩ := Option.map_eq_some_iff.1 hplay'
        cases heq
        have hstep : (engine.execute context (.pure function)).step s _ m := ⟨?_, hmove⟩
        · refine ⟨engine.start, _, rfl, .append (System.run_play hplay (allowed_of_play hplay hbefore))
            (.cons hstep (System.run_play hrest (allowed_of_play hrest hafter)))⟩
        · intro id n ins hget
          rw [hcall] at hget
          cases hget
          rfl
    · cases h

end

def sendAlarm : NodeDefinition PyValue where
  nodeTypeId := "send-alarm"
  inputs := [{ name := "flag", dataType := "boolean", default := .none }]

def alarmWorkflow (expected : Int) : WorkflowDefinition PyValue where
  nodes := [ { id := "a", type := "count-persons" },
    { id := "b", type := "above-limit", configuration := .singleton "count" (.int 3) },
    { id := "c", type := "send-alarm" }]
  edges := [
    { id := "e1", source := "a", sourceHandle := "count", target := "b", targetHandle := "trigger",
      data := some (.singleton "configuration" (.int expected)) },
    { id := "e2", source := "b", sourceHandle := "flag", target := "c", targetHandle := "flag" }]

def Execution.isCalling (s : Execution α) (nodeId : String) : Bool :=
  match s.level with
  | (id, Task.calling _ _) :: _ => id == nodeId
  | _ => false

theorem Execution.exists_calling {s : Execution α} {nodeId : String} (h : s.isCalling nodeId) :
    ∃ node inputs, s.level[0]? = some (nodeId, .calling node inputs) := by
  rw [Execution.isCalling] at h
  split at h
  · rename_i id node inputs rest hlevel
    rw [beq_iff_eq] at h
    rw [hlevel, h]
    exact ⟨node, inputs, rfl⟩
  · cases h

theorem call_after_completed_counting : ∃ engine s node inputs,
    loadWorkflow countingRegistry 4 (countingWorkflow "n2" "n1" [countEdge]) = .ok engine ∧
      (engine.execute (.dict []) countingFunctions).Reachable s ∧
      s.level[0]? = some ("n2", .calling node inputs) ∧
      (s.memory.isCompleted "n1" = true ∨
        SkippedForCondition engine s.memory "n1" ∧ countEdge.mapping.isConditional = false) := by
  obtain ⟨engine, hload⟩ : ∃ engine,
      loadWorkflow countingRegistry 4 (countingWorkflow "n2" "n1" [countEdge]) = .ok engine := ⟨_, rfl⟩
  have hplay : (engine.playCall (.dict []) countingFunction (.nextLevel :: .replicate 4 (.run 0)) 0
      (.acquire 0 :: .write 0 :: .write 0 :: .release 0 :: .nextLevel :: .replicate 7 (.run 0))).any
        (·.isCalling "n2") = true := by
    cases hload
    decide +kernel
  obtain ⟨s, hs, hcalling⟩ := (Option.any_eq_true _ _).1 hplay
  obtain ⟨node, inputs, hcall⟩ := Execution.exists_calling hcalling
  have hreach := reachable_of_playCall hs rfl rfl
  exact ⟨engine, s, node, inputs, hload, hreach, hcall,
    (call_after_completed hload (by decide) hreach hcall).1 countEdge (mem_singleton_self _) rfl⟩

/-- There are three persons where five are expected: the limit is skipped, and the alarm is called
without its flag. -/
theorem called_without_flag : ∃ engine s node inputs,
    loadWorkflow (("send-alarm", sendAlarm) :: countingRegistry) 4 (alarmWorkflow 5) = .ok engine ∧
      ((alarmWorkflow 5).nodes.map (·.id)).Nodup ∧
      (engine.execute (.dict []) countingFunctions).Reachable s ∧
      s.level[0]? = some ("c", .calling node inputs) ∧
      (∃ edge ∈ (alarmWorkflow 5).edges, edge.target = "c" ∧
        (s.memory.resultMap.lookup edge.source).map (·.status) = some .skipped) := by
  obtain ⟨engine, hload⟩ : ∃ engine,
      loadWorkflow (("send-alarm", sendAlarm) :: countingRegistry) 4 (alarmWorkflow 5) =
        .ok engine := ⟨_, rfl⟩
  have hplay : (engine.playCall (.dict []) countingFunction (.nextLevel :: .replicate 4 (.run 0)) 0
      (.acquire 0 :: .write 0 :: .write 0 :: .release 0 :: .nextLevel ::
        .run 0 :: .run 0 :: .run 0 :: .run 0 :: .acquire 0 :: .write 0 :: .release 0 :: .nextLevel ::
        .replicate 7 (.run 0))).any
        (fun s => s.isCalling "c" &&
          (s.memory.resultMap.lookup "b").any (·.status = .skipped)) = true := by
    cases hload
    decide +kernel
  obtain ⟨s, hs, hcheck⟩ := (Option.any_eq_true _ _).1 hplay
  obtain ⟨hcalling, hskipped⟩ := Bool.and_eq_true_iff.1 hcheck
  obtain ⟨node, inputs, hcall⟩ := Execution.exists_calling hcalling
  have hnodup : ((alarmWorkflow 5).nodes.map (·.id)).Nodup := by decide
  have hedge : ∃ edge ∈ (alarmWorkflow 5).edges, edge.target = "c" ∧ edge.source = "b" :=
    ⟨_, mem_cons_of_mem _ (mem_singleton_self _), rfl, rfl⟩
  obtain ⟨edge, hmem, htarget, hsource⟩ := hedge
  refine ⟨engine, s, node, inputs, hload, hnodup, reachable_of_playCall hs rfl rfl, hcall, edge, hmem,
    htarget, ?_⟩
  obtain ⟨result, hresult, hstatus⟩ := (Option.any_eq_true _ _).1 hskipped
  rw [hsource, hresult, Option.map_some, of_decide_eq_true hstatus]

end Trakrai.Engine
