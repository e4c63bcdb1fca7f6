import Mathlib.Data.List.Perm.Subperm
import Trakrai.Engine.Definition
import Trakrai.Lib.Dataflow
import Trakrai.Lib.Except

namespace Trakrai.Engine
open List hiding after
open Function Lib

/-- An edge as the engine reads it; `conditionalValue` is `None` where there is none. -/
structure EdgeMapping (α : Type) where
  sourceNodeId : String
  sourceHandle : String
  targetNodeId : String
  targetHandle : String
  isConditional : Bool
  conditionalValue : α

/-- A built workflow. The dictionaries have an empty list for every other key. -/
structure DAG (α : Type) where
  nodeIds : List String
  adjacency : String → List String
  reverseAdjacency : String → List String
  incomingEdges : String → List (EdgeMapping α)
  executionOrder : List String
  leafNodes : List String
  executionLevels : List (List String)

/-- The dictionaries of a graph while its edges are added. -/
structure Adjacency (α : Type) where
  adjacency : String → List String := fun _ => []
  reverseAdjacency : String → List String := fun _ => []
  incomingEdges : String → List (EdgeMapping α) := fun _ => []

section
variable [PyObject α]

def WorkflowEdge.isTrigger (edge : WorkflowEdge α) : Bool := edge.targetHandle = "trigger"

def WorkflowEdge.mapping (edge : WorkflowEdge α) : EdgeMapping α where
  sourceNodeId := edge.source
  sourceHandle := edge.sourceHandle
  targetNodeId := edge.target
  targetHandle := edge.targetHandle
  isConditional := edge.isTrigger || edge.type = some "conditionalEdge"
  conditionalValue :=
    if edge.isTrigger then (edge.data.bind (·.get "configuration")).getD PyObject.none
    else PyObject.none

/-- `if value not in lists[key]: lists[key].append(value)`. -/
def addNew (lists : String → List String) (key value : String) : String → List String :=
  if value ∈ lists key then lists else update lists key (lists key ++ [value])

def Adjacency.addEdge (graph : Adjacency α) (edge : WorkflowEdge α) : Adjacency α where
  incomingEdges := update graph.incomingEdges edge.target
    (graph.incomingEdges edge.target ++ [edge.mapping])
  adjacency := addNew graph.adjacency edge.source edge.target
  reverseAdjacency := addNew graph.reverseAdjacency edge.target edge.source

end

/-- `in_degree` and the queue. -/
structure Sorting where
  inDegree : String → Option Int
  queue : List String := []

/-- One more of the nodes that `downstream` waits for is in order. -/
def release (sorting : Sorting) (downstream : String) : Except String Sorting :=
  match sorting.inDegree downstream with
  | none => .error ("KeyError: " ++ reprStr downstream)
  | some degree =>
    .ok {
      inDegree := update sorting.inDegree downstream (some (degree - 1))
      queue := if degree - 1 = 0 then sorting.queue ++ [downstream] else sorting.queue }

/-- The levels from the current queue on. There are at most `fuel` of them. -/
def sortLevels (adjacency : String → List String) :
    Nat → (String → Option Int) → List String → Except String (List (List String))
  | 0, _, _ => .error "the queue is not empty"
  | fuel + 1, inDegree, queue =>
    if queue = [] then .ok []
    else do
      let sorting ← (queue.flatMap adjacency).foldlM release { inDegree }
      let levels ← sortLevels adjacency fuel sorting.inDegree sorting.queue
      .ok (queue :: levels)

def initialDegree (nodeIds : List String) (reverseAdjacency : String → List String)
    (nodeId : String) : Option Int :=
  if nodeId ∈ nodeIds then some (reverseAdjacency nodeId).length else none

def cyclicDependencyError (involvedNodes : List String) : String :=
  "Workflow graph contains a cyclic dependency" ++
    if involvedNodes.isEmpty then "" else " involving nodes: " ++ ", ".intercalate involvedNodes

def topologicalSort (nodeIds : List String) (adjacency reverseAdjacency : String → List String) :
    Except String (List (List String)) := do
  let inDegree := initialDegree nodeIds reverseAdjacency
  let levels ← sortLevels adjacency (nodeIds.length + 2) inDegree
    (nodeIds.filter fun nodeId => inDegree nodeId = some 0)
  if levels.flatten.length ≠ nodeIds.length then
    .error (cyclicDependencyError (nodeIds.filter fun nodeId => !levels.flatten.contains nodeId))
  else .ok levels

/-- `DAGBuilder.build`. -/
def build [PyObject α] (workflow : WorkflowDefinition α) : Except String (DAG α) := do
  let nodeIds := workflow.nodes.map (·.id)
  let graph : Adjacency α := workflow.edges.foldl .addEdge {}
  let levels ← topologicalSort nodeIds graph.adjacency graph.reverseAdjacency
  .ok {
    nodeIds
    adjacency := graph.adjacency
    reverseAdjacency := graph.reverseAdjacency
    incomingEdges := graph.incomingEdges
    executionOrder := levels.flatten
    leafNodes := nodeIds.filter fun nodeId => !(workflow.edges.map (·.source)).contains nodeId
    executionLevels := levels }

theorem mem_addNew : v ∈ addNew lists key value k ↔ v ∈ lists k ∨ k = key ∧ v = value := by
  rw [addNew]
  by_cases hk : k = key
  · subst hk
    split
    · rename_i hmem
      refine ⟨.inl, ?_⟩
      rintro (h | ⟨-, rfl⟩)
      · exact h
      · exact hmem
    · simp
  · split
    · simp [hk]
    · simp [hk]

theorem nodup_addNew (h : ∀ k, (lists k).Nodup) (key value k : String) :
    (addNew lists key value k).Nodup := by
  rw [addNew]
  split
  · exact h k
  · rename_i hmem
    by_cases hk : k = key
    · subst hk
      rw [update_self, nodup_append_comm]
      exact nodup_cons.2 ⟨hmem, h k⟩
    · rw [update_of_ne hk]
      exact h k

/-- The two adjacency dictionaries say which edges there are, and list no node twice. -/
structure Adjacency.Holds (graph : Adjacency α) (edges : List (WorkflowEdge α)) : Prop where
  mem : ∀ u v, v ∈ graph.adjacency u ↔ ∃ edge ∈ edges, edge.source = u ∧ edge.target = v
  mem_reverse : ∀ u v, u ∈ graph.reverseAdjacency v ↔
    ∃ edge ∈ edges, edge.source = u ∧ edge.target = v
  nodup : ∀ u, (graph.adjacency u).Nodup
  nodup_reverse : ∀ v, (graph.reverseAdjacency v).Nodup

theorem Adjacency.Holds.addEdge [PyObject α] {graph : Adjacency α} {edges : List (WorkflowEdge α)}
    (h : graph.Holds edges) (edge : WorkflowEdge α) : (graph.addEdge edge).Holds (edges ++ [edge]) := by
  refine ⟨?_, ?_, ?_, ?_⟩
  · intro u v
    rw [Adjacency.addEdge, mem_addNew, h.mem]
    simp only [mem_append, mem_singleton, or_and_right, exists_or, exists_eq_left]
    grind
  · intro u v
    rw [Adjacency.addEdge, mem_addNew, h.mem_reverse]
    simp only [mem_append, mem_singleton, or_and_right, exists_or, exists_eq_left]
    grind
  · exact nodup_addNew h.nodup _ _
  · exact nodup_addNew h.nodup_reverse _ _

theorem Adjacency.Holds.foldl [PyObject α] {graph : Adjacency α} {edges more : List (WorkflowEdge α)}
    (h : graph.Holds edges) : (more.foldl .addEdge graph).Holds (edges ++ more) := by
  induction more generalizing graph edges with
  | nil => simpa using h
  | cons edge more ih => simpa using ih (h.addEdge edge)

theorem holds_addEdge [PyObject α] (edges : List (WorkflowEdge α)) :
    (edges.foldl .addEdge {} : Adjacency α).Holds edges := by
  have hempty : ({} : Adjacency α).Holds [] := ⟨by simp, by simp, by simp, by simp⟩
  simpa using hempty.foldl

theorem incomingEdges_foldl [PyObject α] (edges : List (WorkflowEdge α)) (graph : Adjacency α)
    (nodeId : String) : (edges.foldl .addEdge graph).incomingEdges nodeId =
      graph.incomingEdges nodeId ++ (edges.filter (·.target == nodeId)).map WorkflowEdge.mapping := by
  induction edges generalizing graph with
  | nil => simp
  | cons edge edges ih =>
    rw [foldl_cons, ih, Adjacency.addEdge]
    by_cases h : edge.target = nodeId
    · subst h
      simp
    · simp [h, Ne.symm h]

theorem release_ok (h : release sorting downstream = .ok after): ∃ degree,
      sorting.inDegree downstream = some degree ∧
      (∀ id, after.inDegree id = (sorting.inDegree id).map (· - if id = downstream then 1 else 0)) ∧
      after.queue = sorting.queue ++ if degree = 1 then [downstream] else [] := by
  rw [release] at h
  split at h
  · cases h
  · rename_i degree hdegree
    cases h
    refine ⟨degree, hdegree, ?_, ?_⟩
    · intro id
      by_cases hid : id = downstream
      · subst hid
        simp [hdegree]
      · cases hval : sorting.inDegree id <;> simp [hid, hval]
    · by_cases hone : degree = 1
      · simp [hone]
      · have hzero : degree - 1 ≠ 0 := by omega
        simp [hone, hzero]

/-- What a row of releases does: the degrees go down by the number of releases, and a node is
queued when its degree comes to zero. -/
theorem foldlM_release {downstreams : List String} {sorting after : Sorting}
    (h : downstreams.foldlM release sorting = .ok after) :
    (∀ id, after.inDegree id = (sorting.inDegree id).map (· - (downstreams.count id : Int))) ∧
    ∃ next, after.queue = sorting.queue ++ next ∧ next.Nodup ∧
      ∀ id, id ∈ next ↔ ∃ degree, sorting.inDegree id = some degree ∧ 0 < degree ∧
        degree ≤ downstreams.count id := by
  induction downstreams generalizing sorting with
  | nil =>
    cases h
    refine ⟨?_, [], by simp, nodup_nil, ?_⟩
    · intro id
      cases after.inDegree id <;> simp
    · intro id
      simp only [not_mem_nil, count_nil, false_iff]
      rintro ⟨degree, -, hpos, hle⟩
      exact absurd hpos (Int.not_lt.2 hle)
  | cons first downstreams ih =>
    obtain ⟨middle, hfirst, hrest⟩ := bind_ok h
    obtain ⟨hdegree, next, hqueue, hnodup, hnext⟩ := ih hrest
    obtain ⟨degree, hfirst, hmiddle, hqueued⟩ := release_ok hfirst
    refine ⟨?_, (if degree = 1 then [first] else []) ++ next, ?_, ?_, ?_⟩
    · intro id
      rw [hdegree id, hmiddle, Option.map_map]
      congr 1
      funext d
      by_cases hid : id = first
      · subst hid
        simp only [comp_apply, if_true, count_cons_self]
        omega
      · simp [hid, Ne.symm hid]
    · rw [hqueue, hqueued, append_assoc]
    · split
      · rename_i hone
        refine nodup_cons.2 ⟨?_, hnodup⟩
        intro hmem
        obtain ⟨d, hd, hpos, -⟩ := (hnext first).1 hmem
        rw [hmiddle, hfirst, hone] at hd
        cases hd
        simp at hpos
      · exact hnodup
    · intro id
      rw [mem_append, hnext]
      by_cases hid : id = first
      · subst hid
        simp only [hmiddle, hfirst, Option.map_some, if_true, Option.some.injEq, exists_eq_left',
          count_cons_self]
        split
        · simp only [mem_singleton, true_or, true_iff]
          omega
        · simp only [not_mem_nil, false_or]
          omega
      · have hnot : id ∉ (if degree = 1 then [first] else []) := by
          split <;> simp [hid]
        simp [hmiddle, hnot, hid, Ne.symm hid]

theorem foldlM_release_error {downstreams : List String} {sorting : Sorting} {message : String}
    (h : downstreams.foldlM release sorting = .error message) :
    ∃ id ∈ downstreams, sorting.inDegree id = none ∧ message = "KeyError: " ++ reprStr id := by
  induction downstreams generalizing sorting with
  | nil => cases h
  | cons first downstreams ih =>
    rcases bind_error h with h | ⟨middle, hmiddle, h⟩
    · rw [release] at h
      split at h
      · rename_i hnone
        cases h
        exact ⟨first, mem_cons_self .., hnone, rfl⟩
      · cases h
    · obtain ⟨id, hid, hnone, hmessage⟩ := ih h
      obtain ⟨_, _, hdegree, _⟩ := release_ok hmiddle
      rw [hdegree, Option.map_eq_none_iff] at hnone
      exact ⟨id, mem_cons_of_mem _ hid, hnone, hmessage⟩

def waitingNodes (nodeIds : List String) (inDegree : String → Option Int) : List String :=
  nodeIds.filter fun id => (inDegree id).any (0 < ·)

theorem waitingNodes_lt {nodeIds downstreams : List String} {sorting after : Sorting}
    (hids : ∀ id, (sorting.inDegree id).isSome → id ∈ nodeIds)
    (h : downstreams.foldlM release sorting = .ok after) (hne : after.queue ≠ sorting.queue) :
    (waitingNodes nodeIds after.inDegree).length <
      (waitingNodes nodeIds sorting.inDegree).length := by
  obtain ⟨hdegree, next, hqueue, -, hnext⟩ := foldlM_release h
  have hsub : waitingNodes nodeIds after.inDegree =
      (waitingNodes nodeIds sorting.inDegree).filter fun id => (after.inDegree id).any (0 < ·) := by
    rw [waitingNodes, waitingNodes, filter_filter]
    apply filter_congr
    intro id _
    rw [hdegree id]
    cases sorting.inDegree id with
    | none => rfl
    | some degree =>
      have hpos : (downstreams.count id : Int) < degree → 0 < degree := by omega
      simpa using hpos
  obtain ⟨id, hid⟩ : ∃ id, id ∈ next := by
    apply exists_mem_of_ne_nil
    rintro rfl
    exact hne (by rw [hqueue, append_nil])
  obtain ⟨degree, hdeg, hpos, hle⟩ := (hnext id).1 hid
  rw [hsub, length_filter_lt_length_iff_exists]
  refine ⟨id, mem_filter.2 ⟨hids id (by rw [hdeg]; rfl), ?_⟩, ?_⟩
  · rw [hdeg]
    simpa using hpos
  · rw [hdegree id, hdeg]
    simpa using hle

/-- There is always enough fuel: each level that is not the last one makes a node ready. So the sort fails only
at an edge to a node that is not there. -/
theorem sortLevels_error {adjacency : String → List String} (nodeIds : List String) :
    ∀ {fuel inDegree queue message}, (∀ id, (inDegree id).isSome ↔ id ∈ nodeIds) →
      (queue ≠ [] → (waitingNodes nodeIds inDegree).length + 2 ≤ fuel) → 1 ≤ fuel →
      sortLevels adjacency fuel inDegree queue = .error message →
      ∃ u id, id ∈ adjacency u ∧ id ∉ nodeIds ∧ message = "KeyError: " ++ reprStr id := by
  intro fuel
  induction fuel with
  | zero => intro inDegree queue message _ _ hpos; cases hpos
  | succ fuel ih =>
    intro inDegree queue message hids hfuel _ h
    rw [sortLevels] at h
    split at h
    · cases h
    · rename_i hne
      have hlength := hfuel hne
      rcases bind_error h with h | ⟨sorting, hsorting, h⟩
      · obtain ⟨id, hid, hnone, hmessage⟩ := foldlM_release_error h
        obtain ⟨u, -, hadj⟩ := mem_flatMap.1 hid
        refine ⟨u, id, hadj, fun hmem => ?_, hmessage⟩
        have hsome := (hids id).2 hmem
        rw [show inDegree id = none from hnone] at hsome
        cases hsome
      · rcases bind_error h with h | ⟨_, _, h⟩
        · refine ih ?_ ?_ ?_ h
          · intro id
            rw [(foldlM_release hsorting).1 id, Option.isSome_map]
            exact hids id
          · intro hqueued
            have hlt := waitingNodes_lt (fun id => (hids id).1) hsorting hqueued
            simp only at hlt
            omega
          · omega
        · cases h

theorem initialDegree_isSome {nodeIds : List String} {reverseAdjacency : String → List String} {id : String} :
    (initialDegree nodeIds reverseAdjacency id).isSome ↔ id ∈ nodeIds := by
  rw [initialDegree]
  split
  · rename_i hid
    exact ⟨fun _ => hid, fun _ => rfl⟩
  · rename_i hid
    exact ⟨nofun, fun hmem => absurd hmem hid⟩

theorem topologicalSort_error_cases (h : topologicalSort nodeIds adjacency reverseAdjacency = .error message) :
    (∃ u id, id ∈ adjacency u ∧ id ∉ nodeIds ∧ message = "KeyError: " ++ reprStr id) ∨
    ∃ levels, sortLevels adjacency (nodeIds.length + 2) (initialDegree nodeIds reverseAdjacency)
        (nodeIds.filter fun nodeId => initialDegree nodeIds reverseAdjacency nodeId = some 0) = .ok levels ∧
      levels.flatten.length ≠ nodeIds.length ∧
      message = cyclicDependencyError (nodeIds.filter fun nodeId => !levels.flatten.contains nodeId) := by
  rcases bind_error h with h | ⟨levels, hlevels, h⟩
  · have hids : ∀ id, (initialDegree nodeIds reverseAdjacency id).isSome ↔ id ∈ nodeIds :=
      fun _ => initialDegree_isSome
    refine .inl (sortLevels_error nodeIds hids ?_ ?_ h)
    · intro _
      have hle : (waitingNodes nodeIds (initialDegree nodeIds reverseAdjacency)).length ≤
          nodeIds.length := length_filter_le ..
      omega
    · omega
  · split at h
    · rename_i hlength
      cases h
      exact .inr ⟨levels, hlevels, hlength, rfl⟩
    · cases h

section
variable {nodeIds : List String} {adjacency reverseAdjacency : String → List String}

theorem count_flatMap_adjacency {level : List String} {id : String}
    (hadj : ∀ u v, v ∈ adjacency u ↔ u ∈ reverseAdjacency v) (hnodup : ∀ u, (adjacency u).Nodup) :
    (level.flatMap adjacency).count id = level.countP (· ∈ reverseAdjacency id) := by
  induction level with
  | nil => rfl
  | cons first level ih =>
    rw [flatMap_cons, count_append, ih, countP_cons, Nat.add_comm]
    congr 1
    by_cases h : id ∈ adjacency first
    · rw [count_eq_one_of_mem (hnodup first) h, if_pos (by simpa using (hadj first id).1 h)]
    · have hrev : first ∉ reverseAdjacency id := fun hmem => h ((hadj first id).2 hmem)
      rw [count_eq_zero_of_not_mem h, if_neg (by simpa using hrev)]

/-- Where the sort stands between two levels, with the nodes that are in order. -/
structure Sorted (nodeIds : List String) (reverseAdjacency : String → List String)
    (done queue : List String) (inDegree : String → Option Int) : Prop where
  nodup : (done ++ queue).Nodup
  ids : ∀ id ∈ queue, id ∈ nodeIds
  degree : ∀ id, inDegree id = if id ∈ nodeIds then
    some ((reverseAdjacency id).countP (· ∉ done) : Int) else none
  ready : ∀ id ∈ nodeIds, id ∈ done ++ queue ↔ reverseAdjacency id ⊆ done

theorem countP_eq_zero_iff_subset {l done : List String} : l.countP (· ∉ done) = 0 ↔ l ⊆ done := by
  rw [countP_eq_zero]
  simp [subset_def]

/-- Of the nodes that a node waits for, those of the level are in order after it. -/
theorem countP_not_mem_append {l done queue : List String} (hnodup : (done ++ queue).Nodup)
    (hl : l.Nodup) : l.countP (· ∉ done) = l.countP (· ∉ done ++ queue) + queue.countP (· ∈ l) := by
  obtain ⟨-, hqueue, hapart⟩ := nodup_append.1 hnodup
  have hperm : (l.filter (· ∈ queue)).Perm (queue.filter (· ∈ l)) := by
    rw [perm_ext_iff_of_nodup (hl.filter _) (hqueue.filter _)]
    intro id
    simp [and_comm]
  have hin : l.countP (fun id => decide (id ∉ done) && decide (id ∈ queue)) =
      queue.countP (· ∈ l) := by
    rw [countP_eq_length_filter (p := (· ∈ l)), ← hperm.length_eq, countP_eq_length_filter]
    congr 1
    apply filter_congr
    intro id _
    by_cases hid : id ∈ queue
    · have hnot : id ∉ done := fun hmem => hapart id hmem id hid rfl
      simp [hid, hnot]
    · simp [hid]
  have hsplit := countP_eq_countP_filter_add l (· ∉ done) (· ∉ queue)
  simp only [countP_filter] at hsplit
  rw [hsplit, ← hin]
  congr 1
  · apply countP_congr
    simp
  · apply countP_congr
    simp

theorem Sorted.step {done queue : List String} {inDegree : String → Option Int} {after : Sorting}
    (hadj : ∀ u v, v ∈ adjacency u ↔ u ∈ reverseAdjacency v) (hnodup : ∀ u, (adjacency u).Nodup)
    (hrev : ∀ v, (reverseAdjacency v).Nodup)
    (h : Sorted nodeIds reverseAdjacency done queue inDegree)
    (hafter : (queue.flatMap adjacency).foldlM release { inDegree } = .ok after) :
    Sorted nodeIds reverseAdjacency (done ++ queue) after.queue after.inDegree := by
  obtain ⟨hdegree, next, hqueue, hnext, hmem⟩ := foldlM_release hafter
  rw [nil_append] at hqueue
  have hcount (id : String) : ((queue.flatMap adjacency).count id : Int) =
      (reverseAdjacency id).countP (· ∉ done) - (reverseAdjacency id).countP (· ∉ done ++ queue) := by
    rw [count_flatMap_adjacency hadj hnodup, countP_not_mem_append h.nodup (hrev id)]
    push_cast
    omega
  have hready (id : String) : id ∈ after.queue ↔ id ∈ nodeIds ∧ id ∉ done ++ queue ∧
      reverseAdjacency id ⊆ done ++ queue := by
    rw [hqueue, hmem, hcount]
    simp only [h.degree id]
    by_cases hid : id ∈ nodeIds
    · rw [h.ready id hid, ← countP_eq_zero_iff_subset, ← countP_eq_zero_iff_subset]
      simp only [hid, if_true, Option.some.injEq, exists_eq_left', true_and]
      omega
    · simp [hid]
  refine ⟨?_, ?_, ?_, ?_⟩
  · rw [nodup_append]
    refine ⟨h.nodup, hqueue ▸ hnext, ?_⟩
    rintro a ha b hb rfl
    exact ((hready a).1 hb).2.1 ha
  · intro id hid
    exact ((hready id).1 hid).1
  · intro id
    rw [hdegree id]
    simp only [h.degree id]
    split
    · rw [Option.map_some, hcount]
      congr 1
      omega
    · rfl
  · intro id hid
    rw [mem_append, hready]
    constructor
    · rintro (hin | ⟨-, -, hsub⟩)
      · exact List.Subset.trans ((h.ready id hid).1 hin) (subset_append_left ..)
      · exact hsub
    · intro hsub
      by_cases hin : id ∈ done ++ queue
      · exact .inl hin
      · exact .inr ⟨hid, hin, hsub⟩

theorem sortLevels_sorted (hadj : ∀ u v, v ∈ adjacency u ↔ u ∈ reverseAdjacency v)
    (hnodup : ∀ u, (adjacency u).Nodup) (hrev : ∀ v, (reverseAdjacency v).Nodup) :
    ∀ {fuel done queue inDegree levels}, Sorted nodeIds reverseAdjacency done queue inDegree →
      sortLevels adjacency fuel inDegree queue = .ok levels →
      Layered reverseAdjacency done levels ∧ (done ++ levels.flatten).Nodup := by
  intro fuel
  induction fuel with
  | zero => intro done queue inDegree levels _ h; cases h
  | succ fuel ih =>
    intro done queue inDegree levels hs h
    rw [sortLevels] at h
    split at h
    · cases h
      exact ⟨trivial, by simpa using (nodup_append.1 hs.nodup).1⟩
    · obtain ⟨after, hafter, h⟩ := bind_ok h
      obtain ⟨rest, hrest, h⟩ := bind_ok h
      cases h
      obtain ⟨hlayered, hflat⟩ := ih (hs.step hadj hnodup hrev hafter) hrest
      refine ⟨⟨?_, hlayered⟩, by simpa using hflat⟩
      intro id hid
      exact (hs.ready id (hs.ids id hid)).1 (mem_append_right _ hid)

theorem sortLevels_ids : ∀ {fuel inDegree queue levels},
    (∀ id, (inDegree id).isSome → id ∈ nodeIds) → (∀ id ∈ queue, id ∈ nodeIds) →
    sortLevels adjacency fuel inDegree queue = .ok levels → ∀ id ∈ levels.flatten, id ∈ nodeIds := by
  intro fuel
  induction fuel with
  | zero => intro inDegree queue levels _ _ h; cases h
  | succ fuel ih =>
    intro inDegree queue levels hids hqueue h
    rw [sortLevels] at h
    split at h
    · cases h
      exact nofun
    · obtain ⟨after, hafter, h⟩ := bind_ok h
      obtain ⟨rest, hrest, h⟩ := bind_ok h
      cases h
      obtain ⟨hdegree, next, hnext, -, hmem⟩ := foldlM_release hafter
      intro id hid
      rw [flatten_cons, mem_append] at hid
      rcases hid with hid | hid
      · exact hqueue id hid
      · refine ih ?_ ?_ hrest id hid
        · intro n hsome
          rw [hdegree n, Option.isSome_map] at hsome
          exact hids n hsome
        · intro n hn
          rw [hnext, nil_append] at hn
          obtain ⟨degree, hdeg, -⟩ := (hmem n).1 hn
          exact hids n (Option.isSome_of_eq_some hdeg)

theorem topologicalSort_ids (h : topologicalSort nodeIds adjacency reverseAdjacency = .ok levels):
    (∀ id ∈ levels.flatten, id ∈ nodeIds) ∧ levels.flatten.length = nodeIds.length := by
  obtain ⟨sorted, hsorted, h⟩ := bind_ok h
  split at h
  · cases h
  · rename_i hlength
    cases h
    refine ⟨?_, not_not.1 hlength⟩
    exact sortLevels_ids (fun _ => initialDegree_isSome.1) (fun id hid => mem_of_mem_filter hid)
      hsorted

theorem sorted_start (hids : nodeIds.Nodup) : Sorted nodeIds reverseAdjacency []
    (nodeIds.filter fun id => initialDegree nodeIds reverseAdjacency id = some 0)
    (initialDegree nodeIds reverseAdjacency) := by
  refine ⟨by simpa using hids.filter _, fun id hid => mem_of_mem_filter hid, ?_, ?_⟩
  · intro id
    simp [initialDegree]
  · intro id hid
    simp [initialDegree, hid, subset_nil]

theorem topologicalSort_layered (hadj : ∀ u v, v ∈ adjacency u ↔ u ∈ reverseAdjacency v)
    (hnodup : ∀ u, (adjacency u).Nodup) (hrev : ∀ v, (reverseAdjacency v).Nodup)
    (hids : nodeIds.Nodup) (h : topologicalSort nodeIds adjacency reverseAdjacency = .ok levels) :
    Layered reverseAdjacency [] levels ∧ levels.flatten.Perm nodeIds := by
  obtain ⟨hmem, hlength⟩ := topologicalSort_ids h
  obtain ⟨sorted, hsorted, h⟩ := bind_ok h
  split at h
  · cases h
  · cases h
    obtain ⟨hlayered, hflat⟩ := sortLevels_sorted hadj hnodup hrev (sorted_start hids) hsorted
    refine ⟨hlayered, ?_⟩
    have hsub := subperm_of_subset (by simpa using hflat) hmem
    exact hsub.perm_of_length_le (by omega)

end

structure Built [PyObject α] (workflow : WorkflowDefinition α) (dag : DAG α) : Prop where
  nodeIds : dag.nodeIds = workflow.nodes.map (·.id)
  dependencies : ∀ u v, u ∈ dag.reverseAdjacency v ↔
    ∃ edge ∈ workflow.edges, edge.source = u ∧ edge.target = v
  incoming : ∀ v, dag.incomingEdges v =
    (workflow.edges.filter (·.target == v)).map WorkflowEdge.mapping
  order : dag.executionOrder = dag.executionLevels.flatten
  ids : ∀ id ∈ dag.executionLevels.flatten, id ∈ dag.nodeIds
  length : dag.executionLevels.flatten.length = dag.nodeIds.length
  layered : dag.nodeIds.Nodup → Layered dag.reverseAdjacency [] dag.executionLevels ∧
    dag.executionLevels.flatten.Perm dag.nodeIds

theorem build_built [PyObject α] {workflow : WorkflowDefinition α} {dag : DAG α}
    (h : build workflow = .ok dag) : Built workflow dag := by
  obtain ⟨levels, hlevels, h⟩ := bind_ok h
  cases h
  have hgraph := holds_addEdge workflow.edges
  obtain ⟨hids, hlength⟩ := topologicalSort_ids hlevels
  refine ⟨rfl, hgraph.mem_reverse, ?_, rfl, hids, hlength, fun hnodup => ?_⟩
  · intro v
    simp [incomingEdges_foldl]
  · refine topologicalSort_layered ?_ hgraph.nodup hgraph.nodup_reverse hnodup hlevels
    intro u v
    rw [hgraph.mem, hgraph.mem_reverse]

end Trakrai.Engine
