import Trakrai.Engine.Coverage

namespace Trakrai.Engine
open List Lib

section
variable [PyObject α] (engine : WorkflowEngine α) (context : α)
  (function : String → Dict α → Outcome α) (memory : Memory α)

def collectedWrites (node : WorkflowNode α) (edges : List (EdgeMapping α)) (inputs : Dict α) :
    List (Write α) :=
  (function node.type (memory.collectInputs edges inputs)).writes

section
variable (nodeId : String)

def checkedWrites (node : WorkflowNode α) (edges : List (EdgeMapping α)) :
    List (Write α) :=
  match edges.findSome? fun edge => edge.unmet (memory.sourceOutput edge) with
  | some error => unmetCondition error
  | none => collectedWrites function memory node (engine.dag.incomingEdges nodeId)
      (node.configuration.set "__context__" context)

def dependentWrites (node : WorkflowNode α) (dependencies : List String) :
    List (Write α) :=
  if dependencies.any (· ∈ memory.failedNodes) then upstreamFailure
  else checkedWrites engine context function memory nodeId node (engine.dag.incomingEdges nodeId)

/-- What `_execute_single_node` writes if nothing else happens meanwhile. -/
def nodeWrites : List (Write α) :=
  match engine.nodeMap nodeId with
  | none => []
  | some node =>
    dependentWrites engine context function memory nodeId node (engine.dag.reverseAdjacency nodeId)

def executeSingleNode : Memory α :=
  (nodeWrites engine context function memory nodeId).foldl (Write.apply nodeId) memory

/-- The nodes one by one, in `execution_order`. -/
def executeInOrder : Memory α :=
  engine.dag.executionOrder.foldl (executeSingleNode engine context function) {}

def Task.finish : Task α → List (Write α)
  | .waiting => nodeWrites engine context function memory nodeId
  | .upstream node rest => dependentWrites engine context function memory nodeId node rest
  | .conditions node rest => checkedWrites engine context function memory nodeId node rest
  | .collecting node rest inputs => collectedWrites function memory node rest inputs
  | .calling node inputs => (function node.type inputs).writes
  | .locking writes => writes
  | .writing writes => writes
  | .done => []

end

end

section
variable [PyObject α] {engine : WorkflowEngine α} {context : α}
  {function : String → Dict α → Outcome α} {memory memory' : Memory α} {nodeId : String}
  {task task' : Task α}

theorem checkedWrites_congr (hin : ∀ edge ∈ engine.dag.incomingEdges nodeId,
      memory.slot edge.sourceNodeId = memory'.slot edge.sourceNodeId)
    (h : ∀ edge ∈ edges, memory.slot edge.sourceNodeId = memory'.slot edge.sourceNodeId) :
    checkedWrites engine context function memory nodeId node edges =
      checkedWrites engine context function memory' nodeId node edges := by
  have hfind : edges.findSome? (fun edge => edge.unmet (memory.sourceOutput edge)) =
      edges.findSome? fun edge => edge.unmet (memory'.sourceOutput edge) := by
    induction edges with
    | nil => rfl
    | cons edge edges ih =>
      obtain ⟨hedge, hrest⟩ := forall_mem_cons.1 h
      rw [List.findSome?_cons, List.findSome?_cons, ih hrest, sourceOutput_congr hedge]
  rw [checkedWrites, checkedWrites, hfind, collectedWrites, collectedWrites,
    collectInputs_congr _ hin]

theorem nodeWrites_congr (hb : Built engine.workflow engine.dag)
    (h : ∀ u ∈ engine.dag.reverseAdjacency nodeId, memory.slot u = memory'.slot u) :
    nodeWrites engine context function memory nodeId =
      nodeWrites engine context function memory' nodeId := by
  have hin : ∀ edge ∈ engine.dag.incomingEdges nodeId,
      memory.slot edge.sourceNodeId = memory'.slot edge.sourceNodeId :=
    fun edge hedge => h _ (incomingEdges_sources hb nodeId edge hedge)
  have hany : (engine.dag.reverseAdjacency nodeId).any (· ∈ memory.failedNodes) =
      (engine.dag.reverseAdjacency nodeId).any (· ∈ memory'.failedNodes) := by
    rw [Bool.eq_iff_iff, any_eq_true, any_eq_true]
    refine exists_congr fun u => and_congr_right fun hu => ?_
    rw [decide_eq_true_iff, decide_eq_true_iff]
    exact failed_congr (h u hu)
  rw [nodeWrites, nodeWrites]
  cases engine.nodeMap nodeId with
  | none => rfl
  | some node =>
    simp only [dependentWrites, hany]
    rw [checkedWrites_congr hin hin]

theorem foldr_executeSingleNode (hb : Built engine.workflow engine.dag) (context : α)
    (function : String → Dict α → Outcome α)
    (hordered : Ordered engine.dag.reverseAdjacency order) (hnodup : order.Nodup) :
    (∀ id ∈ order, (order.foldr (fun id memory => executeSingleNode engine context function memory id)
        {}).slot id =
      (nodeWrites engine context function (order.foldr
        (fun id memory => executeSingleNode engine context function memory id) {}) id).foldl
          Write.applySlot {}) ∧
    ∀ id ∉ order, (order.foldr (fun id memory => executeSingleNode engine context function memory id)
      {}).slot id = {} := by
  induction order with
  | nil => exact ⟨nofun, fun id _ => slot_empty id⟩
  | cons n order ih =>
    obtain ⟨hn, hnodup⟩ := nodup_cons.1 hnodup
    obtain ⟨hin, hout⟩ := ih hordered.2 hnodup
    rw [foldr_cons]
    generalize order.foldr (fun id memory => executeSingleNode engine context function memory id) {} =
      memory at hin hout ⊢
    have hkeep {u : String} (hu : u ≠ n) :
        (executeSingleNode engine context function memory n).slot u = memory.slot u :=
      slot_foldl_of_ne hu _ _
    have hsame {id : String} (hreads : engine.dag.reverseAdjacency id ⊆ order) :
        nodeWrites engine context function (executeSingleNode engine context function memory n) id =
          nodeWrites engine context function memory id := by
      apply nodeWrites_congr hb
      intro u hu
      apply hkeep
      rintro rfl
      exact hn (hreads hu)
    constructor
    · intro id hid
      by_cases hidn : id = n
      · subst hidn
        rw [hsame hordered.1, executeSingleNode, slot_foldl_self, hout id hn]
      · have hmem := (mem_cons.1 hid).resolve_left hidn
        obtain ⟨pre, post, rfl⟩ := append_of_mem hmem
        have hreads : engine.dag.reverseAdjacency id ⊆ pre ++ id :: post :=
          List.Subset.trans hordered.2.subset
            (List.Subset.trans (subset_cons_self ..) (subset_append_right ..))
        rw [hsame hreads, hkeep hidn, hin id hmem]
    · intro id hid
      obtain ⟨hidn, hid⟩ := not_or.1 (fun h => hid (mem_cons.2 h))
      rw [hkeep hidn, hout id hid]

theorem executeInOrder_slot (hd : engine.Distinct) (context : α)
    (function : String → Dict α → Outcome α) (id : String) :
    (executeInOrder engine context function).slot id =
      (nodeWrites engine context function (executeInOrder engine context function) id).foldl
        Write.applySlot {} := by
  obtain ⟨hlayered, hperm⟩ := hd.levels
  have hordered := hlayered.ordered trivial
  rw [nil_append] at hordered
  have hnodup := List.nodup_reverse.2 (hperm.nodup_iff.2 hd.nodup)
  obtain ⟨hin, hout⟩ := foldr_executeSingleNode hd.built context function hordered hnodup
  rw [foldr_reverse] at hin hout
  rw [executeInOrder, hd.built.order]
  by_cases hid : id ∈ engine.dag.executionLevels.flatten
  · exact hin id (List.mem_reverse.2 hid)
  · rw [hout id (fun h => hid (List.mem_reverse.1 h)), nodeWrites, nodeMap_eq_none hd hid]
    rfl

theorem TaskStep.finish (h : TaskStep engine context (.pure function) nodeId memory task task' memory') (hr : task.Reads (engine.dag.reverseAdjacency nodeId))
    (hf : ∀ u ∈ engine.dag.reverseAdjacency nodeId, memory.slot u = final.slot u) :
    (task'.finish engine context function final nodeId).foldl Write.applySlot (memory'.slot nodeId) =
      (task.finish engine context function final nodeId).foldl Write.applySlot (memory.slot nodeId) := by
  cases h with
  | start hnode => rw [Task.finish, Task.finish, nodeWrites, hnode]
  | upstreamFailed hfailed =>
    have hfinal := (failed_congr (hf _ (cons_subset.1 hr).1)).1 hfailed
    simp only [Task.finish, dependentWrites, any_cons, decide_eq_true hfinal, Bool.true_or, if_true]
  | upstreamOk hfailed =>
    have hfinal := mt (failed_congr (hf _ (cons_subset.1 hr).1)).2 hfailed
    simp only [Task.finish, dependentWrites, any_cons, decide_eq_false hfinal, Bool.false_or]
  | upstreamDone => rfl
  | unmet hunmet =>
    rw [sourceOutput_congr (hf _ (forall_mem_cons.1 hr).1)] at hunmet
    simp only [Task.finish, checkedWrites, List.findSome?_cons, hunmet]
  | met hmet =>
    rw [sourceOutput_congr (hf _ (forall_mem_cons.1 hr).1)] at hmet
    simp only [Task.finish, checkedWrites, List.findSome?_cons, hmet]
  | conditionsDone => rfl
  | collect =>
    rw [sourceOutput_congr (hf _ (forall_mem_cons.1 hr).1)]
    rfl
  | collected => rfl
  | call hmay =>
    rw [hmay]
    rfl
  | acquire => rfl
  | write => rw [Task.finish, Task.finish, foldl_cons, slot_apply_self]
  | release => rfl

def inOrder (hd : engine.Distinct) (context : α) (function : String → Dict α → Outcome α) :
    LocalInvariant engine context (.pure function) where
  Holds id task memory := task.Reads (engine.dag.reverseAdjacency id) ∧
    (task.finish engine context function (executeInOrder engine context function) id).foldl
      Write.applySlot (memory.slot id) = (executeInOrder engine context function).slot id
  congr := by
    intro id task memory memory' h hslot
    rw [hslot id (mem_cons_self ..)]
    exact h
  start := by
    intro id memory hblank
    rw [hblank]
    exact ⟨trivial, (executeInOrder_slot hd context function id).symm⟩
  step := by
    intro id task task' memory memory' h _ hf hstep
    have hfinal := hstep.finish h.1 fun u hu => (hf u hu).2
    exact ⟨hstep.reads hd.built h.1, hfinal.trans h.2⟩

omit [PyObject α] in
theorem outputs_congr (hlookup : ∀ id, memory.resultMap.lookup id = memory'.resultMap.lookup id)
    (leafNodes : List String) : (memory.result leafNodes).outputs = (memory'.result leafNodes).outputs := by
  simp only [Memory.result, hlookup]

omit [PyObject α] in
theorem success_congr (hfailed : ∀ id, id ∈ memory.failedNodes ↔ id ∈ memory'.failedNodes)
    (leafNodes : List String) : (memory.result leafNodes).success = (memory'.result leafNodes).success := by
  have hempty : memory.failedNodes = [] ↔ memory'.failedNodes = [] := by
    rw [eq_nil_iff_forall_not_mem, eq_nil_iff_forall_not_mem]
    simp only [hfailed]
  simp only [Memory.result, length_eq_zero_iff, hempty]

/-- With functions of their inputs, every run of a workflow comes to its end, and ends as the nodes
one by one in `execution_order` do. -/
theorem execute_eq_inOrder {registry : NodeRegistry α} {maxWorkers : Int}
    {workflow : WorkflowDefinition α} (h : loadWorkflow registry maxWorkers workflow = .ok engine)
    (hnodup : (workflow.nodes.map (·.id)).Nodup) (context : α)
    (function : String → Dict α → Outcome α) :
    ComesToEnd engine context (.pure function) ∧
    ∀ s, (engine.execute context (.pure function)).Reachable s → s.Finished →
      (∀ id, s.memory.resultMap.lookup id =
        (executeInOrder engine context function).resultMap.lookup id) ∧
      (∀ id, id ∈ s.memory.failedNodes ↔ id ∈ (executeInOrder engine context function).failedNodes) ∧
      (s.memory.result engine.dag.leafNodes).success =
        ((executeInOrder engine context function).result engine.dag.leafNodes).success ∧
      (s.memory.result engine.dag.leafNodes).outputs =
        ((executeInOrder engine context function).result engine.dag.leafNodes).outputs := by
  obtain ⟨rfl, hloaded⟩ := loadWorkflow_ok h
  have hd : engine.Distinct := ⟨hloaded, hnodup⟩
  refine ⟨comesToEnd hloaded context (.pure function), ?_⟩
  intro s hs hf
  have heverywhere : (inOrder hd context function).Everywhere s := LocalInvariant.everywhere hd hs
  have hslot (id : String) : s.memory.slot id = (executeInOrder engine context function).slot id := by
    by_cases hid : id ∈ engine.dag.executionLevels.flatten
    · exact (heverywhere.finished hf id hid).2
    · rw [executeInOrder_slot hd, nodeWrites, nodeMap_eq_none hd hid,
        heverywhere.finished_blank hf hid]
      rfl
  have hlookup (id : String) := congrArg Slot.result (hslot id)
  have hfailed (id : String) := failed_congr (hslot id)
  exact ⟨hlookup, hfailed, success_congr hfailed _, outputs_congr hlookup _⟩

end

theorem execute_eq_inOrder_counting : ∃ engine,
    loadWorkflow countingRegistry 4 (countingWorkflow "n2" "n1" [countEdge]) = .ok engine ∧
      ∃ s, (engine.execute (.dict []) countingFunctions).Reachable s ∧ s.Finished ∧
        s.memory.resultMap.lookup "n2" = some
          { status := .completed, outputs := .singleton "flag" (.bool true) } := by
  obtain ⟨engine, h⟩ : ∃ engine,
      loadWorkflow countingRegistry 4 (countingWorkflow "n2" "n1" [countEdge]) = .ok engine := ⟨_, rfl⟩
  obtain ⟨hend, hsame⟩ := execute_eq_inOrder h (by decide) (.dict []) countingFunction
  obtain ⟨s, hs, hf⟩ := hend.exists_finished
  refine ⟨engine, h, s, hs, hf, ?_⟩
  rw [(hsame s hs hf).1]
  cases h
  rfl

end Trakrai.Engine
