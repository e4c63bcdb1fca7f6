import Trakrai.Engine.Execution

namespace Trakrai.Engine
open List Lib

@[ext] structure Slot (α : Type) where
  outputs : String → Option α := fun _ => none
  result : Option (NodeResult α) := none
  failed : Prop := False

def Memory.slot (memory : Memory α) (nodeId : String) : Slot α where
  outputs := memory.outputMap nodeId
  result := memory.resultMap.lookup nodeId
  failed := nodeId ∈ memory.failedNodes

def Write.applySlot (slot : Slot α) : Write α → Slot α
  | .output port value => { slot with outputs := Function.update slot.outputs port (some value) }
  | .result nodeResult => { slot with result := some nodeResult }
  | .failed => { slot with failed := True }

theorem slot_empty (id : String) : ({} : Memory α).slot id = {} := by
  simp [Memory.slot]

theorem slot_apply (memory : Memory α) (nodeId id : String) (write : Write α) :
    (write.apply nodeId memory).slot id =
      if id = nodeId then write.applySlot (memory.slot nodeId) else memory.slot id := by
  by_cases hid : id = nodeId
  · subst hid
    cases write with
    | output port value => simp [Write.apply, Write.applySlot, Memory.slot]
    | result nodeResult => simp [Write.apply, Write.applySlot, Memory.slot, lookup_setKey]
    | failed => simp [Write.apply, Write.applySlot, Memory.slot]
  · cases write with
    | output port value => simp [Write.apply, Memory.slot, hid]
    | result nodeResult => simp [Write.apply, Memory.slot, lookup_setKey, hid]
    | failed => simp [Write.apply, Memory.slot, hid]

theorem slot_apply_self (memory : Memory α) (nodeId : String) (write : Write α) :
    (write.apply nodeId memory).slot nodeId = write.applySlot (memory.slot nodeId) := by
  rw [slot_apply, if_pos rfl]

theorem slot_apply_of_ne {memory : Memory α} {nodeId id : String} (h : id ≠ nodeId)
    (write : Write α) : (write.apply nodeId memory).slot id = memory.slot id := by
  rw [slot_apply, if_neg h]

theorem slot_foldl_of_ne {nodeId id : String} (h : id ≠ nodeId) (writes : List (Write α))
    (memory : Memory α) : (writes.foldl (Write.apply nodeId) memory).slot id = memory.slot id := by
  induction writes generalizing memory with
  | nil => rfl
  | cons write writes ih => rw [foldl_cons, ih, slot_apply_of_ne h]

theorem slot_foldl_self (nodeId : String) (writes : List (Write α)) (memory : Memory α) :
    (writes.foldl (Write.apply nodeId) memory).slot nodeId =
      writes.foldl Write.applySlot (memory.slot nodeId) := by
  induction writes generalizing memory with
  | nil => rfl
  | cons write writes ih => rw [foldl_cons, foldl_cons, ih, slot_apply_self]

theorem Task.isDone_iff {task : Task α} : task.isDone ↔ task = .done := by
  cases task <;> simp [Task.isDone]

def Task.Reads (nodes : List String) : Task α → Prop
  | .upstream _ rest => rest ⊆ nodes
  | .conditions _ rest => ∀ edge ∈ rest, edge.sourceNodeId ∈ nodes
  | .collecting _ rest _ => ∀ edge ∈ rest, edge.sourceNodeId ∈ nodes
  | _ => True

section
variable [PyObject α]

theorem sourceOutput_eq (memory : Memory α) (edge : EdgeMapping α) : memory.sourceOutput edge =
      ((memory.slot edge.sourceNodeId).outputs edge.sourceHandle).getD PyObject.none := rfl

/-- The inputs of a node, from the values at the sources of its edges. -/
def Memory.collectInputs (memory : Memory α) (edges : List (EdgeMapping α)) (inputs : Dict α) : Dict α :=
  edges.foldl (fun inputs edge => edge.addInput inputs (memory.sourceOutput edge)) inputs

inductive TaskStep (engine : WorkflowEngine α) (context : α) (functions : NodeFunctions α)
    (nodeId : String) (memory : Memory α) : Task α → Task α → Memory α → Prop where
  | start : engine.nodeMap nodeId = some node →
    TaskStep engine context functions nodeId memory .waiting
      (.upstream node (engine.dag.reverseAdjacency nodeId)) memory
  | upstreamFailed : dependency ∈ memory.failedNodes →
    TaskStep engine context functions nodeId memory (.upstream node (dependency :: rest))
      (.locking upstreamFailure) memory
  | upstreamOk : dependency ∉ memory.failedNodes →
    TaskStep engine context functions nodeId memory (.upstream node (dependency :: rest))
      (.upstream node rest) memory
  | upstreamDone : TaskStep engine context functions nodeId memory (.upstream node [])
    (.conditions node (engine.dag.incomingEdges nodeId)) memory
  | unmet : edge.unmet (memory.sourceOutput edge) = some error →
    TaskStep engine context functions nodeId memory (.conditions node (edge :: rest))
      (.locking (unmetCondition error)) memory
  | met : edge.unmet (memory.sourceOutput edge) = none →
    TaskStep engine context functions nodeId memory (.conditions node (edge :: rest))
      (.conditions node rest) memory
  | conditionsDone : TaskStep engine context functions nodeId memory (.conditions node [])
    (.collecting node (engine.dag.incomingEdges nodeId)
      (node.configuration.set "__context__" context)) memory
  | collect : TaskStep engine context functions nodeId memory (.collecting node (edge :: rest) inputs)
    (.collecting node rest (edge.addInput inputs (memory.sourceOutput edge))) memory
  | collected : TaskStep engine context functions nodeId memory (.collecting node [] inputs)
    (.calling node inputs) memory
  | call : functions.may node.type inputs outcome →
    TaskStep engine context functions nodeId memory (.calling node inputs)
      (.locking outcome.writes) memory
  | acquire : TaskStep engine context functions nodeId memory (.locking writes) (.writing writes) memory
  | write : TaskStep engine context functions nodeId memory (.writing (write :: writes))
    (.writing writes) (write.apply nodeId memory)
  | release : TaskStep engine context functions nodeId memory (.writing []) .done memory

variable {engine : WorkflowEngine α} {context : α} {functions : NodeFunctions α}
  {s t : Execution α} {a : Action α} {memory memory' : Memory α} {nodeId : String}
  {task task' : Task α}

theorem TaskStep.of_next (h : task.next engine context memory nodeId = some task') :
    TaskStep engine context functions nodeId memory task task' memory := by
  cases task with
  | waiting =>
    obtain ⟨node, hnode, rfl⟩ := Option.map_eq_some_iff.1 h
    exact .start hnode
  | upstream node rest =>
    cases rest with
    | nil =>
      cases h
      exact .upstreamDone
    | cons dependency rest =>
      rw [Task.next] at h
      split at h
      · cases h
        exact .upstreamFailed ‹_›
      · cases h
        exact .upstreamOk ‹_›
  | conditions node rest =>
    cases rest with
    | nil =>
      cases h
      exact .conditionsDone
    | cons edge rest =>
      rw [Task.next] at h
      split at h
      · cases h
        exact .unmet ‹_›
      · cases h
        exact .met ‹_›
  | collecting node rest inputs =>
    cases rest with
    | nil =>
      cases h
      exact .collected
    | cons edge rest =>
      cases h
      exact .collect
  | calling | locking | writing | done => cases h

inductive Stepped (engine : WorkflowEngine α) (context : α) (functions : NodeFunctions α)
    (s t : Execution α) : Prop where
  | nextLevel (ids : List String) (h : s.remaining = ids :: t.remaining)
    (done : ∀ entry ∈ s.level, entry.2 = .done)
    (level : t.level = ids.map fun id => (id, .waiting)) (past : t.past = s.past ++ s.level.map Prod.fst)
    (memory : t.memory = s.memory) (ran : t.ran = s.ran) (lock : t.lock = s.lock)
  | task (pre post : List (String × Task α)) (nodeId : String) (task task' : Task α)
    (before : s.level = pre ++ (nodeId, task) :: post)
    (after : t.level = pre ++ (nodeId, task') :: post)
    (step : TaskStep engine context functions nodeId s.memory task task' t.memory)
    (remaining : t.remaining = s.remaining) (past : t.past = s.past)
    (ran : t.ran = s.ran ++ Execution.begins engine nodeId task)
    (lock : t.lock = none ∨ (∃ writes, task' = .writing writes) ∨
      t.lock = s.lock ∧ ∀ writes, task ≠ .writing writes)

omit [PyObject α] in
theorem exists_split (h : level[index]? = some (nodeId, task)): ∃ pre post,
      level = pre ++ (nodeId, task) :: post ∧
      ∀ entry, level.set index entry = pre ++ entry :: post := by
  obtain ⟨hlt, hget⟩ := List.getElem?_eq_some_iff.1 h
  refine ⟨level.take index, level.drop (index + 1), ?_, ?_⟩
  · rw [← hget, getElem_cons_drop, take_append_drop]
  · intro entry
    rw [set_eq_take_append_cons_drop, if_pos hlt]

theorem Stepped.of_get
    (hget : s.level[index]? = some (nodeId, task)) (hset : t.level = s.level.set index (nodeId, task'))
    (step : TaskStep engine context functions nodeId s.memory task task' t.memory)
    (remaining : t.remaining = s.remaining) (past : t.past = s.past)
    (ran : t.ran = s.ran ++ Execution.begins engine nodeId task)
    (lock : t.lock = none ∨ (∃ writes, task' = .writing writes) ∨
      t.lock = s.lock ∧ ∀ writes, task ≠ .writing writes) :
    Stepped engine context functions s t := by
  obtain ⟨pre, post, hlevel, hsplit⟩ := exists_split hget
  exact .task pre post nodeId task task' hlevel (hset.trans (hsplit _)) step remaining past ran lock

theorem stepped (h : (engine.execute context functions).step s a t) :
    Stepped engine context functions s t := by
  obtain ⟨hallowed, h⟩ := h
  cases a with
  | nextLevel =>
    rw [Execution.move] at h
    split at h
    · cases h
    · rename_i ids remaining hremaining
      split at h
      · rename_i hdone
        cases h
        refine .nextLevel ids hremaining ?_ rfl rfl rfl rfl rfl
        intro entry hentry
        exact Task.isDone_iff.1 (all_eq_true.1 hdone entry hentry)
      · cases h
  | run index =>
    rw [Execution.move] at h
    split at h
    · cases h
    · rename_i nodeId task hget
      split at h
      · obtain ⟨task', hnext, rfl⟩ := Option.map_eq_some_iff.1 h
        refine .of_get hget rfl (.of_next hnext) rfl rfl rfl (.inr (.inr ⟨rfl, ?_⟩))
        rintro writes rfl
        cases hnext
      · cases h
  | call index outcome =>
    rw [Execution.move] at h
    split at h
    · rename_i nodeId node inputs hget
      cases h
      exact .of_get hget rfl (.call (hallowed nodeId node inputs hget)) rfl rfl
        (append_nil _).symm (.inr (.inr ⟨rfl, nofun⟩))
    · cases h
  | acquire index =>
    rw [Execution.move] at h
    split at h
    · rename_i nodeId writes hget hlock
      cases h
      exact .of_get hget rfl .acquire rfl rfl (append_nil _).symm (.inr (.inl ⟨_, rfl⟩))
    · cases h
  | write index =>
    rw [Execution.move] at h
    split at h
    · rename_i nodeId write writes hget
      cases h
      exact .of_get hget rfl .write rfl rfl (append_nil _).symm (.inr (.inl ⟨_, rfl⟩))
    · cases h
  | release index =>
    rw [Execution.move] at h
    split at h
    · rename_i nodeId hget
      cases h
      exact .of_get hget rfl .release rfl rfl (append_nil _).symm (.inl rfl)
    · cases h

theorem TaskStep.slot_of_ne {id : String}
    (h : TaskStep engine context functions nodeId memory task task' memory') (hid : id ≠ nodeId) :
    memory'.slot id = memory.slot id := by
  cases h with
  | write => exact slot_apply_of_ne hid _
  | _ => rfl

theorem incomingEdges_sources (hb : Built engine.workflow engine.dag) (nodeId : String) :
    ∀ edge ∈ engine.dag.incomingEdges nodeId,
      edge.sourceNodeId ∈ engine.dag.reverseAdjacency nodeId := by
  intro edge hedge
  rw [hb.incoming] at hedge
  obtain ⟨edge, hmem, rfl⟩ := mem_map.1 hedge
  obtain ⟨hmem, htarget⟩ := mem_filter.1 hmem
  exact (hb.dependencies _ _).2 ⟨edge, hmem, rfl, beq_iff_eq.1 htarget⟩

theorem TaskStep.reads (hb : Built engine.workflow engine.dag)
    (h : TaskStep engine context functions nodeId memory task task' memory')
    (hr : task.Reads (engine.dag.reverseAdjacency nodeId)) :
    task'.Reads (engine.dag.reverseAdjacency nodeId) := by
  cases h with
  | start => exact List.Subset.refl _
  | upstreamOk => exact (cons_subset.1 hr).2
  | upstreamDone => exact incomingEdges_sources hb nodeId
  | met => exact (forall_mem_cons.1 hr).2
  | conditionsDone => exact incomingEdges_sources hb nodeId
  | collect => exact (forall_mem_cons.1 hr).2
  | _ => trivial

omit [PyObject α] in
theorem failed_congr (h : memory.slot u = memory'.slot u) :
    u ∈ memory.failedNodes ↔ u ∈ memory'.failedNodes :=
  iff_of_eq (congrArg Slot.failed h)

theorem sourceOutput_congr (h : memory.slot edge.sourceNodeId = memory'.slot edge.sourceNodeId):
    memory.sourceOutput edge = memory'.sourceOutput edge := by
  rw [sourceOutput_eq, sourceOutput_eq, h]

theorem collectInputs_congr (inputs : Dict α)
    (h : ∀ edge ∈ edges, memory.slot edge.sourceNodeId = memory'.slot edge.sourceNodeId) :
    memory.collectInputs edges inputs = memory'.collectInputs edges inputs := by
  induction edges generalizing inputs with
  | nil => rfl
  | cons edge edges ih =>
    obtain ⟨hedge, hrest⟩ := forall_mem_cons.1 h
    rw [Memory.collectInputs, foldl_cons, ← Memory.collectInputs, ih _ hrest,
      sourceOutput_congr hedge]
    rfl

structure WorkflowEngine.Loaded (engine : WorkflowEngine α) : Prop where
  built : Built engine.workflow engine.dag
  workers : 0 < engine.maxWorkers

theorem loadWorkflow_ok (h : loadWorkflow registry maxWorkers workflow = .ok engine) :
    engine.workflow = workflow ∧ engine.Loaded := by
  obtain ⟨valid, hvalid, h⟩ := bind_ok h
  obtain ⟨dag, hdag, h⟩ := bind_ok h
  cases h
  have heq : valid = workflow := by
    rw [validateStrict] at hvalid
    split at hvalid
    · cases hvalid
      rfl
    · cases hvalid
  refine ⟨heq, build_built hdag, ?_⟩
  simp

structure WorkflowEngine.Distinct (engine : WorkflowEngine α) : Prop extends engine.Loaded where
  nodup : (engine.workflow.nodes.map (·.id)).Nodup

theorem WorkflowEngine.Distinct.levels (h : engine.Distinct) :
    Layered engine.dag.reverseAdjacency [] engine.dag.executionLevels ∧
      engine.dag.executionLevels.flatten.Perm (engine.workflow.nodes.map (·.id)) := by
  have hids := h.built.nodeIds
  rw [← hids]
  exact h.built.layered (hids ▸ h.nodup)

/-- Where a run stands among the levels. -/
structure Placed (engine : WorkflowEngine α) (s : Execution α) : Prop where
  order : s.past ++ s.level.map Prod.fst ++ s.remaining.flatten = engine.dag.executionLevels.flatten
  layered : Layered engine.dag.reverseAdjacency [] engine.dag.executionLevels →
    Layered engine.dag.reverseAdjacency s.past (s.level.map Prod.fst :: s.remaining)
  closed : Layered engine.dag.reverseAdjacency [] engine.dag.executionLevels →
    ∀ id ∈ s.past, engine.dag.reverseAdjacency id ⊆ s.past

omit [PyObject α] in
theorem Placed.start (engine : WorkflowEngine α) : Placed engine engine.start :=
  ⟨rfl, fun h => ⟨nofun, h⟩, fun _ => nofun⟩

theorem Placed.step (h : Placed engine s) (hstep : Stepped engine context functions s t) :
    Placed engine t := by
  cases hstep with
  | nextLevel ids hremaining done level past memory ran lock =>
    have hlevel : t.level.map Prod.fst = ids := by
      rw [level, map_map]
      exact map_id ids
    refine ⟨?_, ?_, ?_⟩
    · rw [← h.order, past, hlevel, hremaining, flatten_cons]
      simp only [append_assoc]
    · intro hl
      have hrest := (h.layered hl).2
      rw [hremaining] at hrest
      rw [past, hlevel]
      exact hrest
    · intro hl id hid
      rw [past] at hid ⊢
      apply subset_append_of_subset_left
      rcases mem_append.1 hid with hid | hid
      · exact h.closed hl id hid
      · exact (h.layered hl).1 id hid
  | task pre post nodeId task task' before after step remaining past ran lock =>
    have hlevel : t.level.map Prod.fst = s.level.map Prod.fst := by
      rw [before, after, map_append, map_append, map_cons, map_cons]
    refine ⟨?_, ?_, ?_⟩
    · rw [hlevel, remaining, past]
      exact h.order
    · rw [hlevel, remaining, past]
      exact h.layered
    · rw [past]
      exact h.closed

/-- A property of the single tasks. A task may rely on the nodes it depends on, since these are done
and no node of its own level or of a later one is among them. -/
structure LocalInvariant (engine : WorkflowEngine α) (context : α) (functions : NodeFunctions α) where
  Holds : String → Task α → Memory α → Prop
  congr : ∀ {id task memory memory'}, Holds id task memory →
    (∀ u ∈ id :: engine.dag.reverseAdjacency id, memory'.slot u = memory.slot u) →
    Holds id task memory'
  start : ∀ {id memory}, memory.slot id = {} → Holds id .waiting memory
  step : ∀ {id task task' memory memory'}, Holds id task memory →
    id ∉ engine.dag.reverseAdjacency id →
    (∀ u ∈ engine.dag.reverseAdjacency id, Holds u .done memory) →
    TaskStep engine context functions id memory task task' memory' → Holds id task' memory'

namespace LocalInvariant
variable (I : LocalInvariant engine context functions)

/-- The property of all tasks, and what it says about the nodes that are done and to come. -/
structure Everywhere (s : Execution α) : Prop where
  placed : Placed engine s
  past : ∀ id ∈ s.past, I.Holds id .done s.memory
  level : ∀ entry ∈ s.level, I.Holds entry.1 entry.2 s.memory
  blank : ∀ id, id ∉ s.past → id ∉ s.level.map Prod.fst → s.memory.slot id = {}

variable {I}

theorem Everywhere.start : I.Everywhere engine.start :=
  ⟨.start engine, nofun, nofun, fun id _ _ => slot_empty id⟩

theorem Everywhere.step (hd : engine.Distinct) (h : I.Everywhere s)
    (hstep : Stepped engine context functions s t) : I.Everywhere t := by
  obtain ⟨hlayered, hperm⟩ := hd.levels
  have hnodup := hperm.nodup_iff.2 hd.nodup
  rw [← h.placed.order] at hnodup
  obtain ⟨hnodup, -, hrest⟩ := nodup_append.1 hnodup
  have hreads := (h.placed.layered hlayered).1
  have hplaced := h.placed.step hstep
  cases hstep with
  | nextLevel ids hremaining done level past memory ran lock =>
    have hlevel : t.level.map Prod.fst = ids := by
      rw [level, map_map]
      exact map_id ids
    refine ⟨hplaced, ?_, ?_, ?_⟩
    · intro id hid
      rw [past, mem_append] at hid
      rw [memory]
      rcases hid with hid | hid
      · exact h.past id hid
      · obtain ⟨entry, hentry, rfl⟩ := mem_map.1 hid
        have hholds := h.level entry hentry
        rw [done entry hentry] at hholds
        exact hholds
    · intro entry hentry
      rw [level] at hentry
      obtain ⟨id, hid, rfl⟩ := mem_map.1 hentry
      rw [memory]
      have hnew : id ∉ s.past ++ s.level.map Prod.fst := by
        intro hmem
        refine hrest id hmem id ?_ rfl
        rw [hremaining]
        exact mem_append_left _ hid
      rw [mem_append, not_or] at hnew
      exact I.start (h.blank id hnew.1 hnew.2)
    · intro id hpast hid
      rw [past, mem_append, not_or] at hpast
      rw [memory]
      exact h.blank id hpast.1 hpast.2
  | task pre post nodeId task task' before after step remaining past ran lock =>
    have hids : s.level.map Prod.fst = pre.map Prod.fst ++ nodeId :: post.map Prod.fst := by
      rw [before, map_append, map_cons]
    have hids' : t.level.map Prod.fst = s.level.map Prod.fst := by
      rw [after, hids, map_append, map_cons]
    have hmem : nodeId ∈ s.level.map Prod.fst := by
      rw [hids]
      exact mem_append_right _ (mem_cons_self ..)
    have hpast : ∀ id ∈ s.past, id ≠ nodeId := fun id hid =>
      (nodup_append.1 hnodup).2.2 id hid nodeId hmem
    have hother : ∀ entry ∈ pre ++ post, entry.1 ≠ nodeId := by
      have hlevel := (nodup_append.1 hnodup).2.1
      rw [hids, nodup_middle, nodup_cons, ← map_append] at hlevel
      intro entry hentry he
      exact hlevel.1 (he ▸ mem_map_of_mem hentry)
    refine ⟨hplaced, ?_, ?_, ?_⟩
    · intro id hid
      rw [past] at hid
      refine I.congr (h.past id hid) fun u hu => step.slot_of_ne (hpast u ?_)
      rcases mem_cons.1 hu with rfl | hu
      · exact hid
      · exact h.placed.closed hlayered id hid hu
    · intro entry hentry
      rw [after, mem_append, mem_cons, or_left_comm, ← mem_append] at hentry
      rcases hentry with rfl | hentry
      · have hholds : I.Holds nodeId task s.memory := by
          apply h.level (nodeId, task)
          rw [before]
          exact mem_append_right _ (mem_cons_self ..)
        have hself : nodeId ∉ engine.dag.reverseAdjacency nodeId := fun hin =>
          hpast nodeId (hreads nodeId hmem hin) rfl
        exact I.step hholds hself (fun u hu => h.past u (hreads nodeId hmem hu)) step
      · have hin : entry ∈ s.level := by
          rw [before, mem_append, mem_cons, or_left_comm, ← mem_append]
          exact .inr hentry
        refine I.congr (h.level entry hin) fun u hu => step.slot_of_ne ?_
        rcases mem_cons.1 hu with rfl | hu
        · exact hother entry hentry
        · exact hpast u (hreads entry.1 (mem_map_of_mem hin) hu)
    · intro id hnot hnotin
      rw [past] at hnot
      rw [hids'] at hnotin
      have hne : id ≠ nodeId := fun he => hnotin (he ▸ hmem)
      rw [step.slot_of_ne hne]
      exact h.blank id hnot hnotin

theorem everywhere (hd : engine.Distinct) (h : (engine.execute context functions).Reachable s) :
    I.Everywhere s := by
  refine h.invariant ?_ ?_
  · intro s hs
    rw [show s = engine.start from hs]
    exact .start
  · intro s a t hs hstep
    exact hs.step hd (stepped hstep)

theorem Everywhere.finished (h : I.Everywhere s) (hf : s.Finished) :
    ∀ id ∈ engine.dag.executionLevels.flatten, I.Holds id .done s.memory := by
  intro id hid
  rw [← h.placed.order, hf.1, flatten_nil, append_nil, mem_append] at hid
  rcases hid with hid | hid
  · exact h.past id hid
  · obtain ⟨entry, hentry, rfl⟩ := mem_map.1 hid
    have hholds := h.level entry hentry
    rw [hf.2 entry hentry] at hholds
    exact hholds

theorem Everywhere.finished_blank (h : I.Everywhere s) (hf : s.Finished) {id : String}
    (hid : id ∉ engine.dag.executionLevels.flatten) : s.memory.slot id = {} := by
  rw [← h.placed.order, hf.1, flatten_nil, append_nil, mem_append, not_or] at hid
  exact h.blank id hid.1 hid.2

end LocalInvariant

end

end Trakrai.Engine
