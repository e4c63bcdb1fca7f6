import Mathlib.Algebra.GroupWithZero.Nat
import Mathlib.Data.Prod.Lex
import Trakrai.Engine.Runs

namespace Trakrai.Engine
open List Lib

/-- How many steps a task is away from its end, without its writes. -/
def Task.cost (engine : WorkflowEngine α) (nodeId : String) : Task α → Nat
  | .waiting => (engine.dag.reverseAdjacency nodeId).length +
      2 * (engine.dag.incomingEdges nodeId).length + 7
  | .upstream _ rest => rest.length + 2 * (engine.dag.incomingEdges nodeId).length + 6
  | .conditions _ rest => rest.length + (engine.dag.incomingEdges nodeId).length + 5
  | .collecting _ rest _ => rest.length + 4
  | .calling _ _ => 3
  | .locking _ => 2
  | .writing _ => 1
  | .done => 0

def Task.writesLeft : Task α → Nat
  | .writing writes => writes.length
  | _ => 0

def Task.begun : Task α → Bool
  | .waiting => false
  | _ => true

section
variable [PyObject α] {engine : WorkflowEngine α} {context : α} {functions : NodeFunctions α}
  {s t : Execution α}

theorem TaskStep.decreases (h : TaskStep engine context functions nodeId memory task task' memory'):
    task'.cost engine nodeId < task.cost engine nodeId ∨
      task'.cost engine nodeId = task.cost engine nodeId ∧ task'.writesLeft < task.writesLeft := by
  cases h with
  | write => exact .inr ⟨rfl, Nat.lt_succ_self _⟩
  | _ =>
    left
    simp only [Task.cost, length_cons, length_nil]
    omega

def Execution.weight (engine : WorkflowEngine α) (s : Execution α) : ℕ ×ₗ ℕ ×ₗ ℕ :=
  toLex (s.remaining.length, toLex ((s.level.map fun entry => entry.2.cost engine entry.1).sum,
      (s.level.map fun entry => entry.2.writesLeft).sum))

theorem Stepped.decreases (h : Stepped engine context functions s t) :
    t.weight engine < s.weight engine := by
  cases h with
  | nextLevel ids hremaining =>
    apply Prod.Lex.toLex_lt_toLex.2
    left
    rw [hremaining]
    exact Nat.lt_succ_self _
  | task pre post nodeId task task' before after step remaining =>
    apply Prod.Lex.toLex_lt_toLex.2
    right
    refine ⟨congrArg List.length remaining, Prod.Lex.toLex_lt_toLex.2 ?_⟩
    rw [before, after]
    simp only [map_append, map_cons, sum_append, sum_cons]
    rcases step.decreases with hlt | ⟨heq, hlt⟩
    · left
      omega
    · right
      omega

theorem execute_wellFounded (engine : WorkflowEngine α) (context : α)
    (functions : NodeFunctions α) :
    WellFounded fun t s => ∃ a, (engine.execute context functions).step s a t := by
  have hwf : WellFounded fun t s : Execution α => t.weight engine < s.weight engine :=
    InvImage.wf (Execution.weight engine) wellFounded_lt
  refine Subrelation.wf ?_ hwf
  rintro t s ⟨a, h⟩
  exact (stepped h).decreases

def Execution.Locked (s : Execution α) : Prop :=
  s.lock.isSome → ∃ entry ∈ s.level, ∃ writes, entry.2 = .writing writes

theorem Execution.Locked.step (h : s.Locked) (hstep : Stepped engine context functions s t) :
    t.Locked := by
  intro hlocked
  cases hstep with
  | nextLevel ids hremaining done level past memory ran lock =>
    rw [lock] at hlocked
    obtain ⟨entry, hentry, writes, hwriting⟩ := h hlocked
    rw [done entry hentry] at hwriting
    cases hwriting
  | task pre post nodeId task task' before after step remaining past ran lock =>
    rw [after]
    rcases lock with lock | ⟨writes, hwriting⟩ | ⟨lock, hnot⟩
    · rw [lock] at hlocked
      cases hlocked
    · exact ⟨_, mem_append_right _ (mem_cons_self ..), writes, hwriting⟩
    · rw [lock] at hlocked
      obtain ⟨entry, hentry, writes, hwriting⟩ := h hlocked
      rw [before, mem_append, mem_cons, or_left_comm, ← mem_append] at hentry
      rcases hentry with rfl | hentry
      · exact absurd hwriting (hnot writes)
      · refine ⟨entry, ?_, writes, hwriting⟩
        rw [mem_append, mem_cons, or_left_comm, ← mem_append]
        exact .inr hentry

omit [PyObject α] in
theorem nodeMap_eq_some {id : String} {node : WorkflowNode α} (h : engine.nodeMap id = some node) :
    node ∈ engine.workflow.nodes ∧ node.id = id := by
  rw [WorkflowEngine.nodeMap, byId, Option.map_id_fun, id_eq] at h
  obtain ⟨hmem, hid⟩ := mem_of_find?_key h
  exact ⟨List.mem_reverse.1 hmem, hid⟩

theorem nodeMap_eq_none (hd : engine.Distinct) {id : String}
    (hid : id ∉ engine.dag.executionLevels.flatten) : engine.nodeMap id = none := by
  rw [Option.eq_none_iff_forall_ne_some]
  intro node hnode
  obtain ⟨hmem, rfl⟩ := nodeMap_eq_some hnode
  exact hid (hd.levels.2.mem_iff.2 (mem_map_of_mem hmem))

theorem nodeMap_isSome (hb : Built engine.workflow engine.dag) (hp : Placed engine s) {id : String}
    (h : id ∈ s.level.map Prod.fst) : ∃ node, engine.nodeMap id = some node := by
  have hid : id ∈ engine.dag.nodeIds := by
    apply hb.ids
    rw [← hp.order]
    exact mem_append_left _ (mem_append_right _ h)
  rw [hb.nodeIds] at hid
  obtain ⟨node, hnode, rfl⟩ := mem_map.1 hid
  apply Option.isSome_iff_exists.1
  rw [WorkflowEngine.nodeMap, byId, Option.isSome_map, List.find?_isSome]
  exact ⟨node, List.mem_reverse.2 hnode, beq_self_eq_true _⟩

theorem step_of_move (a : Action α) (hallowed : s.Allowed functions a)
    (h : (s.move engine context a).isSome) :
    ∃ a t, (engine.execute context functions).step s a t := by
  obtain ⟨t, ht⟩ := Option.isSome_iff_exists.1 h
  exact ⟨a, t, hallowed, ht⟩

theorem active_steps {index : Nat} {nodeId : String} {task : Task α}
    (hget : s.level[index]? = some (nodeId, task)) (hactive : task.isActive)
    (hlock : ∀ writes, task = .locking writes → s.lock = none) :
    ∃ a t, (engine.execute context functions).step s a t := by
  have hrun : (task.next engine context s.memory nodeId).isSome →
      ∃ a t, (engine.execute context functions).step s a t := by
    intro hnext
    refine step_of_move (.run index) trivial ?_
    simp [Execution.move, hget, Execution.hasWorker, hactive, hnext]
  cases task with
  | waiting | done => cases hactive
  | upstream node rest => cases rest <;> exact hrun rfl
  | conditions node rest => cases rest <;> exact hrun rfl
  | collecting node rest inputs => cases rest <;> exact hrun rfl
  | calling node inputs =>
    obtain ⟨outcome, hmay⟩ := functions.returns node.type inputs
    refine step_of_move (.call index outcome) ?_ (by simp [Execution.move, hget])
    intro id n ins h
    rw [hget] at h
    cases h
    exact hmay
  | locking writes =>
    exact step_of_move (.acquire index) trivial (by simp [Execution.move, hget, hlock writes rfl])
  | writing writes =>
    cases writes with
    | nil => exact step_of_move (.release index) trivial (by simp [Execution.move, hget])
    | cons write writes => exact step_of_move (.write index) trivial (by simp [Execution.move, hget])

theorem execute_progress (hl : engine.Loaded) (hp : Placed engine s) (hlocked : s.Locked) :
    s.Finished ∨ ∃ a t, (engine.execute context functions).step s a t := by
  by_cases hdone : ∀ entry ∈ s.level, entry.2 = .done
  · cases hremaining : s.remaining with
    | nil => exact .inl ⟨hremaining, hdone⟩
    | cons ids remaining =>
      right
      refine step_of_move .nextLevel trivial ?_
      have hall : s.level.all fun entry => entry.2.isDone := by
        rw [all_eq_true]
        intro entry hentry
        exact Task.isDone_iff.2 (hdone entry hentry)
      simp only [Execution.move, hremaining, if_pos hall, Option.isSome_some]
  · right
    by_cases hactive : ∃ entry ∈ s.level, entry.2.isActive
    · by_cases hlock : s.lock.isSome
      · obtain ⟨entry, hentry, writes, hwriting⟩ := hlocked hlock
        obtain ⟨index, hget⟩ := List.mem_iff_getElem?.1 hentry
        refine active_steps hget (by rw [hwriting]; rfl) ?_
        intro ws hlocking
        rw [hwriting] at hlocking
        cases hlocking
      · obtain ⟨entry, hentry, hactive⟩ := hactive
        obtain ⟨index, hget⟩ := List.mem_iff_getElem?.1 hentry
        exact active_steps hget hactive fun _ _ => by simpa using hlock
    · -- no worker is busy, so that the next task of the level gets one
      push Not at hdone hactive
      obtain ⟨entry, hentry, hne⟩ := hdone
      have hwaiting : entry.2 = .waiting := by
        have hnot := hactive entry hentry
        cases htask : entry.2 <;> simp_all [Task.isActive]
      obtain ⟨index, hget⟩ := List.mem_iff_getElem?.1 hentry
      obtain ⟨node, hnode⟩ := nodeMap_isSome hl.built hp (mem_map_of_mem hentry)
      have hfree : s.level.countP (fun entry => entry.2.isActive) = 0 := by
        rw [countP_eq_zero]
        exact hactive
      refine step_of_move (.run index) trivial ?_
      simp only [Execution.move, hget, Execution.hasWorker, hfree, decide_eq_true hl.workers,
        Bool.or_true, if_true, Option.isSome_map]
      rw [hwaiting, Task.next, hnode]
      rfl

omit [PyObject α] in
theorem begins_cases (engine : WorkflowEngine α) (nodeId : String) (task : Task α) :
    task.begun = false ∧ Execution.begins engine nodeId task = (engine.nodeMap nodeId).toList ∨
      task.begun = true ∧ Execution.begins engine nodeId task = [] := by
  cases task with
  | waiting => exact .inl ⟨rfl, rfl⟩
  | _ => exact .inr ⟨rfl, rfl⟩

theorem TaskStep.begun (h : TaskStep engine context functions nodeId memory task task' memory'):
    task'.begun = true ∧ (task.begun = false → ∃ node, engine.nodeMap nodeId = some node) := by
  cases h with
  | start hnode => exact ⟨rfl, fun _ => ⟨_, hnode⟩⟩
  | _ => exact ⟨rfl, nofun⟩

structure Began (engine : WorkflowEngine α) (s : Execution α) : Prop where
  placed : Placed engine s
  nodes : ∀ node ∈ s.ran, node ∈ engine.workflow.nodes
  ids : (s.ran.map (·.id)).Perm
    (s.past ++ (s.level.filter fun entry => entry.2.begun).map Prod.fst)
  ordered : Layered engine.dag.reverseAdjacency [] engine.dag.executionLevels →
    Ordered engine.dag.reverseAdjacency (s.ran.map (·.id)).reverse

omit [PyObject α] in
theorem Began.start (engine : WorkflowEngine α) : Began engine engine.start :=
  ⟨.start engine, nofun, .nil, fun _ => trivial⟩

theorem Began.step (h : Began engine s) (hstep : Stepped engine context functions s t) :
    Began engine t := by
  have hplaced := h.placed.step hstep
  cases hstep with
  | nextLevel ids hremaining done level past memory ran lock =>
    have hall : s.level.filter (fun entry => entry.2.begun) = s.level := by
      rw [filter_eq_self]
      intro entry hentry
      rw [done entry hentry]
      rfl
    have hnone : t.level.filter (fun entry => entry.2.begun) = [] := by
      rw [level, filter_eq_nil_iff]
      intro entry hentry
      obtain ⟨id, -, rfl⟩ := mem_map.1 hentry
      exact Bool.false_ne_true
    have hids := h.ids
    rw [hall] at hids
    refine ⟨hplaced, ran ▸ h.nodes, ?_, ran ▸ h.ordered⟩
    rw [ran, past, hnone, map_nil, append_nil]
    exact hids
  | task pre post nodeId task task' before after step remaining past ran lock =>
    obtain ⟨hbegun', hnode⟩ := step.begun
    have hids := h.ids
    rw [before] at hids
    rcases begins_cases engine nodeId task with ⟨hbegun, hbegins⟩ | ⟨hbegun, hbegins⟩
    · obtain ⟨node, hnode⟩ := hnode hbegun
      obtain ⟨hmem, rfl⟩ := nodeMap_eq_some hnode
      rw [hbegins, hnode, Option.toList_some] at ran
      simp only [filter_append, filter_cons, hbegun, Bool.false_eq_true, if_false] at hids
      refine ⟨hplaced, ?_, ?_, ?_⟩
      · intro n hn
        rw [ran, mem_append, mem_singleton] at hn
        rcases hn with hn | rfl
        · exact h.nodes n hn
        · exact hmem
      · rw [ran, past, after]
        simp only [filter_append, filter_cons, hbegun', if_true, map_append,
          map_cons, map_nil] at hids ⊢
        rw [← append_assoc] at hids ⊢
        exact ((hids.append_right [node.id]).trans (perm_append_singleton ..)).trans
          perm_middle.symm
      · intro hlayered
        rw [ran, map_append, map_singleton, reverse_append, reverse_singleton, singleton_append]
        refine ⟨?_, h.ordered hlayered⟩
        intro u hu
        have hin : node.id ∈ s.level.map Prod.fst := by
          rw [before, map_append, map_cons]
          exact mem_append_right _ (mem_cons_self ..)
        rw [List.mem_reverse, hids.mem_iff]
        exact mem_append_left _ ((h.placed.layered hlayered).1 node.id hin hu)
    · rw [hbegins, append_nil] at ran
      refine ⟨hplaced, ran ▸ h.nodes, ?_, ran ▸ h.ordered⟩
      rw [ran, past, after]
      simpa only [filter_append, filter_cons, hbegun, hbegun', if_true, map_append,
        map_cons] using hids

omit [PyObject α] in
theorem exists_result_writes (outcome : Outcome α) : ∃ result, .result result ∈ outcome.writes := by
  cases outcome with
  | returned outputs => exact ⟨_, mem_append_right _ (mem_singleton_self _)⟩
  | returnedOther value => exact ⟨_, mem_append_right _ (mem_singleton_self _)⟩
  | raised error => exact ⟨_, mem_cons_self ..⟩

/-- The writes of a task have the result of its node among them, until it is written. -/
def Task.reports (slot : Slot α) : Task α → Prop
  | .locking writes => ∃ result, .result result ∈ writes
  | .writing writes => (∃ result, .result result ∈ writes) ∨ slot.result.isSome
  | .done => slot.result.isSome
  | _ => True

def reported (engine : WorkflowEngine α) (context : α) (functions : NodeFunctions α) :
    LocalInvariant engine context functions where
  Holds id task memory := task.reports (memory.slot id)
  congr := by
    intro id task memory memory' h hslot
    rw [hslot id (mem_cons_self ..)]
    exact h
  start _ := trivial
  step := by
    intro id task task' memory memory' h _ _ hstep
    cases hstep with
    | upstreamFailed => exact ⟨_, mem_cons_self ..⟩
    | unmet => exact ⟨_, mem_cons_self ..⟩
    | call => exact exists_result_writes _
    | acquire => exact .inl h
    | @write write writes =>
      rw [Task.reports, slot_apply_self]
      rcases h with ⟨result, hmem⟩ | hsome
      · rcases mem_cons.1 hmem with rfl | hmem
        · exact .inr rfl
        · exact .inl ⟨result, hmem⟩
      · right
        cases write with
        | result => rfl
        | output | failed => exact hsome
    | release =>
      rcases h with ⟨result, hmem⟩ | hsome
      · cases hmem
      · exact hsome
    | _ => trivial

theorem nodup_resultMap (h : (engine.execute context functions).Reachable s) :
    (s.memory.resultMap.map Prod.fst).Nodup := by
  apply h.invariant (I := fun s => (s.memory.resultMap.map Prod.fst).Nodup)
  · intro s hs
    rw [show s = engine.start from hs]
    exact nodup_nil
  · intro s a t hs hstep
    cases stepped hstep with
    | nextLevel ids hremaining done level past memory ran lock =>
      rw [memory]
      exact hs
    | task pre post nodeId task task' before after step =>
      generalize t.memory = memory' at step
      cases step with
      | @write write writes =>
        cases write with
        | result nodeResult => exact nodup_setKey hs nodeId nodeResult
        | output | failed => exact hs
      | _ => exact hs

structure ComesToEnd (engine : WorkflowEngine α) (context : α) (functions : NodeFunctions α) :
    Prop where
  goesOn : ∀ s, (engine.execute context functions).Reachable s →
    s.Finished ∨ ∃ a t, (engine.execute context functions).step s a t
  ends : WellFounded fun t s => ∃ a, (engine.execute context functions).step s a t

/-- The run of a workflow comes to its end; each node has run once then, after the nodes it has an
edge from have come to a result, and has one result. -/
structure ExecutesProperly (engine : WorkflowEngine α) (context : α)
    (functions : NodeFunctions α) : Prop extends ComesToEnd engine context functions where
  order : ∀ s, (engine.execute context functions).Reachable s → ∀ earlier node later,
    s.ran = earlier ++ node :: later → ∀ edge ∈ engine.workflow.edges, edge.target = node.id →
      edge.source ∈ earlier.map (·.id) ∧ (s.memory.resultMap.lookup edge.source).isSome
  once : ∀ s, (engine.execute context functions).Reachable s → s.Finished →
    s.ran.Perm engine.workflow.nodes
  results : ∀ s, (engine.execute context functions).Reachable s → s.Finished →
    ((s.memory.result engine.dag.leafNodes).nodeResults.map Prod.fst).Perm
      (engine.workflow.nodes.map (·.id))

theorem ComesToEnd.exists_finished (h : ComesToEnd engine context functions) :
    ∃ s, (engine.execute context functions).Reachable s ∧ s.Finished := by
  have hfrom : ∀ s, (engine.execute context functions).Reachable s →
      ∃ t, (engine.execute context functions).Reachable t ∧ t.Finished := by
    intro s
    induction s using h.ends.induction with
    | _ s ih =>
      intro hs
      rcases h.goesOn s hs with hf | ⟨a, t, hstep⟩
      · exact ⟨s, hs, hf⟩
      · exact ih t ⟨a, hstep⟩ (hs.run (.cons hstep (.nil t)))
  exact hfrom engine.start ⟨engine.start, [], rfl, .nil _⟩

theorem ExecutesProperly.nodup (h : ExecutesProperly engine context functions) :
    (engine.workflow.nodes.map (·.id)).Nodup := by
  obtain ⟨s, hs, hf⟩ := h.exists_finished
  exact (h.results s hs hf).nodup_iff.1 (nodup_resultMap hs)

theorem began (h : (engine.execute context functions).Reachable s) : Began engine s := by
  apply h.invariant
  · intro s hs
    rw [show s = engine.start from hs]
    exact .start engine
  · intro s a t hs hstep
    exact hs.step (stepped hstep)

theorem locked (h : (engine.execute context functions).Reachable s) : s.Locked := by
  apply h.invariant
  · intro s hs
    rw [show s = engine.start from hs]
    exact nofun
  · intro s a t hs hstep
    exact hs.step (stepped hstep)

theorem Began.after_sources (hd : engine.Distinct) (h : (reported engine context functions).Everywhere s)
    (hb : Began engine s) (hran : s.ran = earlier ++ node :: later)
    (hu : u ∈ engine.dag.reverseAdjacency node.id) :
    u ∈ earlier.map (·.id) ∧ (s.memory.resultMap.lookup u).isSome := by
  obtain ⟨hlayered, -⟩ := hd.levels
  constructor
  · have hordered := hb.ordered hlayered
    rw [hran, map_append, map_cons, reverse_append, reverse_cons,
      append_assoc, singleton_append] at hordered
    exact List.mem_reverse.1 (hordered.subset hu)
  · have hnode : node.id ∈ s.past ++ (s.level.filter fun entry => entry.2.begun).map Prod.fst := by
      rw [← hb.ids.mem_iff, hran]
      exact mem_map_of_mem (mem_append_right _ (mem_cons_self ..))
    have hpast : u ∈ s.past := by
      rcases mem_append.1 hnode with hnode | hnode
      · exact h.placed.closed hlayered node.id hnode hu
      · exact (h.placed.layered hlayered).1 node.id
          ((filter_sublist.map Prod.fst).subset hnode) hu
    exact h.past u hpast

theorem Began.finished (hd : engine.Distinct) (hb : Began engine s) (hf : s.Finished) :
    s.ran.Perm engine.workflow.nodes := by
  obtain ⟨-, hperm⟩ := hd.levels
  have hids : (s.ran.map (·.id)).Perm (engine.workflow.nodes.map (·.id)) := by
    refine hb.ids.trans (.trans ?_ hperm)
    rw [← hb.placed.order, hf.1, flatten_nil, append_nil, filter_eq_self.2]
    intro entry hentry
    rw [hf.2 entry hentry]
    rfl
  have hran := (hids.nodup_iff.2 hd.nodup).of_map
  refine (subperm_of_subset hran hb.nodes).perm_of_length_le (le_of_eq ?_)
  simpa using hids.length_eq.symm

theorem LocalInvariant.Everywhere.results_perm (hd : engine.Distinct)
    (h : (reported engine context functions).Everywhere s)
    (hn : (s.memory.resultMap.map Prod.fst).Nodup) (hf : s.Finished) :
    (s.memory.resultMap.map Prod.fst).Perm (engine.workflow.nodes.map (·.id)) := by
  obtain ⟨-, hperm⟩ := hd.levels
  rw [perm_ext_iff_of_nodup hn hd.nodup]
  intro id
  rw [← hperm.mem_iff]
  constructor
  · intro hid
    by_contra hnot
    obtain ⟨⟨key, result⟩, hmem, rfl⟩ := mem_map.1 hid
    have hlookup : (s.memory.slot key).result = some result := lookup_of_mem hn hmem
    rw [h.finished_blank hf hnot] at hlookup
    cases hlookup
  · intro hid
    obtain ⟨result, hresult⟩ := Option.isSome_iff_exists.1 (h.finished hf id hid)
    exact mem_map_of_mem (mem_of_lookup hresult)

theorem comesToEnd (hl : engine.Loaded) (context : α) (functions : NodeFunctions α) :
    ComesToEnd engine context functions where
  goesOn _ hs := execute_progress hl (began hs).placed (locked hs)
  ends := execute_wellFounded engine context functions

theorem executesProperly (hd : engine.Distinct) (context : α) (functions : NodeFunctions α) :
    ExecutesProperly engine context functions where
  toComesToEnd := comesToEnd hd.toLoaded context functions
  order := by
    intro s hs earlier node later hran edge hedge htarget
    refine Began.after_sources hd (LocalInvariant.everywhere hd hs) (began hs) hran ?_
    exact (hd.built.dependencies edge.source node.id).2 ⟨edge, hedge, rfl, htarget⟩
  once _ hs hf := (began hs).finished hd hf
  results _ hs hf := (LocalInvariant.everywhere hd hs).results_perm hd (nodup_resultMap hs) hf

/-- A workflow that loads is executed properly exactly if the ids of its nodes are different. -/
theorem executesProperly_iff {registry : NodeRegistry α} {maxWorkers : Int}
    {workflow : WorkflowDefinition α} (h : loadWorkflow registry maxWorkers workflow = .ok engine)
    (context : α) (functions : NodeFunctions α) :
    ExecutesProperly engine context functions ↔ (workflow.nodes.map (·.id)).Nodup := by
  obtain ⟨rfl, hloaded⟩ := loadWorkflow_ok h
  constructor
  · intro hproper
    exact hproper.nodup
  · intro hnodup
    exact executesProperly ⟨hloaded, hnodup⟩ context functions

end

def countPersons : NodeDefinition PyValue where
  nodeTypeId := "count-persons"
  outputs := [{ name := "count", dataType := "number", default := .none }]

def aboveLimit : NodeDefinition PyValue where
  nodeTypeId := "above-limit"
  inputs := [{ name := "count", dataType := "number", default := .none }]
  outputs := [{ name := "flag", dataType := "boolean", default := .none }]

def countingRegistry : NodeRegistry PyValue :=
  [("count-persons", countPersons), ("above-limit", aboveLimit)]

def countingFunction (type : String) (inputs : Dict PyValue) : Outcome PyValue :=
  if type = "count-persons" then .returned (.singleton "count" (.int 3))
  else match inputs.get "count" with
    | some (.int count) => .returned (.singleton "flag" (.bool (count > 2)))
    | _ => .raised "KeyError: 'count'"

def countingFunctions : NodeFunctions PyValue := .pure countingFunction

def countingWorkflow (limit counter : String) (edges : List (WorkflowEdge PyValue)) :
    WorkflowDefinition PyValue where
  nodes := [ { id := limit, type := "above-limit", configuration := .singleton "count" (.int 0) },
    { id := counter, type := "count-persons" }]
  edges

def countEdge : WorkflowEdge PyValue where
  id := "e1"
  source := "n1"
  sourceHandle := "count"
  target := "n2"
  targetHandle := "count"

theorem executesProperly_iff_counting : ∃ engine,
    loadWorkflow countingRegistry 4 (countingWorkflow "n2" "n1" [countEdge]) = .ok engine ∧
      (ExecutesProperly engine (.dict []) countingFunctions ↔ ["n2", "n1"].Nodup) := by
  obtain ⟨engine, h⟩ : ∃ engine,
      loadWorkflow countingRegistry 4 (countingWorkflow "n2" "n1" [countEdge]) = .ok engine := ⟨_, rfl⟩
  exact ⟨engine, h, executesProperly_iff h (.dict []) countingFunctions⟩

/-- Two nodes with one id load, and only one of them gets a result. -/
theorem duplicate_id_not_proper : ∃ engine,
    loadWorkflow countingRegistry 4 (countingWorkflow "n1" "n1" []) = .ok engine ∧
      ¬ ExecutesProperly engine (.dict []) countingFunctions := by
  refine ⟨_, rfl, ?_⟩
  intro hproper
  have hnodup : ["n1", "n1"].Nodup := hproper.nodup
  exact absurd hnodup (by decide)

end Trakrai.Engine
