import Trakrai.Engine.Dag
import Trakrai.Lib.Stages

namespace Trakrai.Engine
open List Lib

def WorkflowDefinition.Leads (workflow : WorkflowDefinition α) (u v : String) : Prop :=
  ∃ edge ∈ workflow.edges, edge.source = u ∧ edge.target = v

/-- `root_nodes`. -/
def WorkflowDefinition.rootNodes (workflow : WorkflowDefinition α) : List String :=
  (workflow.nodes.map (·.id)).filter fun nodeId => !(workflow.edges.map (·.target)).contains nodeId

section
variable {nodeIds : List String} {adjacency reverseAdjacency : String → List String}

/-- The levels of the sort, from some level on. What comes before them stands in the stages already; nothing that
could be in order is left at the end. -/
theorem sortLevels_staged (hadj : ∀ u v, v ∈ adjacency u ↔ u ∈ reverseAdjacency v)
    (hnodup : ∀ u, (adjacency u).Nodup) (hrev : ∀ v, (reverseAdjacency v).Nodup) :
    ∀ {fuel past queue inDegree levels}, Sorted nodeIds reverseAdjacency past.flatten queue inDegree →
      Staged (fun m n => m ∈ reverseAdjacency n) past →
      (∀ n ∈ queue, ∀ last, past.getLast? = some last → ∃ m ∈ last, m ∈ reverseAdjacency n) →
      sortLevels adjacency fuel inDegree queue = .ok levels →
      Staged (fun m n => m ∈ reverseAdjacency n) (past ++ levels) ∧ (∀ level ∈ levels, level ≠ []) ∧
        ∀ id ∈ nodeIds, reverseAdjacency id ⊆ (past ++ levels).flatten → id ∈ (past ++ levels).flatten := by
  intro fuel
  induction fuel with
  | zero => intro past queue inDegree levels _ _ _ h; cases h
  | succ fuel ih =>
    intro past queue inDegree levels hs hstaged hclose h
    rw [sortLevels] at h
    split at h
    · rename_i hempty
      cases h
      subst hempty
      refine ⟨by rwa [append_nil], by rintro _ ⟨⟩, fun id hid hsub => ?_⟩
      rw [append_nil] at hsub ⊢
      simpa using (hs.ready id hid).2 hsub
    · rename_i hne
      obtain ⟨after, hafter, h⟩ := bind_ok h
      obtain ⟨rest, hrest, h⟩ := bind_ok h
      cases h
      have hstep := hs.step hadj hnodup hrev hafter
      have hflat : (past ++ [queue]).flatten = past.flatten ++ queue := by simp
      have hqueue : ∀ n ∈ queue, ∀ m ∈ reverseAdjacency n, m ∈ past.flatten := fun n hn m hm =>
        (hs.ready n (hs.ids n hn)).1 (mem_append_right _ hn) hm
      have hnext : ∀ n ∈ after.queue, ∀ last, (past ++ [queue]).getLast? = some last →
          ∃ m ∈ last, m ∈ reverseAdjacency n := by
        -- a node that is ready now was not ready before, and what it waited for is in the level between
        intro n hn last hlast
        rw [List.getLast?_concat] at hlast
        cases hlast
        have hready := (hstep.ready n (hstep.ids n hn)).1 (mem_append_right _ hn)
        have hnew : n ∉ past.flatten ++ queue := fun hmem =>
          (nodup_append.1 hstep.nodup).2.2 n hmem n hn rfl
        rw [hs.ready n (hstep.ids n hn)] at hnew
        obtain ⟨m, hm, hnot⟩ := Set.not_subset.1 hnew
        rcases mem_append.1 (hready hm) with hin | hin
        · exact absurd hin hnot
        · exact ⟨m, hin, hm⟩
      rw [← hflat] at hstep
      obtain ⟨hstaged', hlevels, hall⟩ := ih hstep (hstaged.append hqueue hclose) hnext hrest
      rw [append_assoc, singleton_append] at hstaged' hall
      exact ⟨hstaged', forall_mem_cons.2 ⟨hne, hlevels⟩, hall⟩

theorem sortLevels_staged_start (hadj : ∀ u v, v ∈ adjacency u ↔ u ∈ reverseAdjacency v)
    (hnodup : ∀ u, (adjacency u).Nodup) (hrev : ∀ v, (reverseAdjacency v).Nodup)
    (hs : Sorted nodeIds reverseAdjacency [] queue inDegree) (h : sortLevels adjacency fuel inDegree queue = .ok levels) :
    Staged (fun m n => m ∈ reverseAdjacency n) levels ∧ (∀ level ∈ levels, level ≠ []) ∧
      ∀ id ∈ nodeIds, reverseAdjacency id ⊆ levels.flatten → id ∈ levels.flatten := by
  have hs : Sorted nodeIds reverseAdjacency ([] : List (List String)).flatten queue inDegree := hs
  exact sortLevels_staged hadj hnodup hrev hs staged_nil (fun _ _ _ hlast => by cases hlast) h

theorem topologicalSort_staged (hadj : ∀ u v, v ∈ adjacency u ↔ u ∈ reverseAdjacency v)
    (hnodup : ∀ u, (adjacency u).Nodup) (hrev : ∀ v, (reverseAdjacency v).Nodup) (hids : nodeIds.Nodup)
    (h : topologicalSort nodeIds adjacency reverseAdjacency = .ok levels) :
    Staged (fun m n => m ∈ reverseAdjacency n) levels ∧ ∀ level ∈ levels, level ≠ [] := by
  obtain ⟨sorted, hsorted, h⟩ := bind_ok h
  split at h
  · cases h
  · cases h
    obtain ⟨hstaged, hlevels, -⟩ := sortLevels_staged_start hadj hnodup hrev (sorted_start hids) hsorted
    exact ⟨hstaged, hlevels⟩

theorem topologicalSort_cycle (hadj : ∀ u v, v ∈ adjacency u ↔ u ∈ reverseAdjacency v)
    (hnodup : ∀ u, (adjacency u).Nodup) (hrev : ∀ v, (reverseAdjacency v).Nodup) (hids : nodeIds.Nodup)
    (hedges : ∀ u v, v ∈ adjacency u → u ∈ nodeIds ∧ v ∈ nodeIds)
    (h : topologicalSort nodeIds adjacency reverseAdjacency = .error message) :
    (∃ involved, message = cyclicDependencyError involved) ∧
      ∃ id, Relation.TransGen (fun m n => m ∈ reverseAdjacency n) id id := by
  rcases topologicalSort_error_cases h with ⟨u, v, huv, hv, -⟩ | ⟨levels, hsorted, hlength, hmessage⟩
  · exact absurd (hedges u v huv).2 hv
  · refine ⟨⟨_, hmessage⟩, ?_⟩
    obtain ⟨-, -, hall⟩ := sortLevels_staged_start hadj hnodup hrev (sorted_start hids) hsorted
    obtain ⟨-, hflat⟩ := sortLevels_sorted hadj hnodup hrev (sorted_start hids) hsorted
    have hmem := sortLevels_ids (fun _ => initialDegree_isSome.1) (fun id hid => mem_of_mem_filter hid) hsorted
    rw [nil_append] at hflat
    -- every node that is left out waits for another one that is
    refine exists_cycle {id | id ∈ nodeIds ∧ id ∉ levels.flatten} ?_ ?_ ?_
    · exact (finite_toSet nodeIds).subset fun id hid => hid.1
    · rw [Set.nonempty_iff_ne_empty]
      intro hempty
      have hsub : nodeIds ⊆ levels.flatten := by
        intro id hid
        by_contra hnot
        have hin : id ∈ {id | id ∈ nodeIds ∧ id ∉ levels.flatten} := ⟨hid, hnot⟩
        rw [hempty] at hin
        exact hin
      have hle := (subperm_of_subset hflat hmem).length_le
      have hge := (subperm_of_subset hids hsub).length_le
      omega
    · rintro id ⟨hid, hnot⟩
      obtain ⟨m, hm, hleft⟩ := Set.not_subset.1 fun hsub => hnot (hall id hid hsub)
      exact ⟨m, ⟨(hedges m id ((hadj m id).2 hm)).1, hleft⟩, hm⟩

end

section
variable {workflow : WorkflowDefinition α}

theorem mem_rootNodes {id : String} :
    id ∈ workflow.rootNodes ↔ id ∈ workflow.nodes.map (·.id) ∧ ∀ m, ¬ workflow.Leads m id := by
  rw [WorkflowDefinition.rootNodes, mem_filter]
  refine and_congr_right fun _ => ?_
  simp only [Bool.not_eq_true', contains_eq_mem, decide_eq_false_iff_not, mem_map]
  constructor
  · rintro hnot m ⟨edge, hedge, -, htarget⟩
    exact hnot ⟨edge, hedge, htarget⟩
  · rintro hnot ⟨edge, hedge, htarget⟩
    exact hnot edge.source ⟨edge, hedge, rfl, htarget⟩

theorem walks_from_rootNodes {id : String} (hid : id ∈ workflow.nodes.map (·.id))
    (hedges : ∀ edge ∈ workflow.edges,
      edge.source ∈ workflow.nodes.map (·.id) ∧ edge.target ∈ workflow.nodes.map (·.id)) :
    {k | ∃ root, (∀ m, ¬ workflow.Leads m root) ∧ Walk workflow.Leads k root id} =
      {k | ∃ root ∈ workflow.rootNodes, Walk workflow.Leads k root id} := by
  ext k
  constructor
  · rintro ⟨root, hroot, hwalk⟩
    refine ⟨root, mem_rootNodes.2 ⟨?_, hroot⟩, hwalk⟩
    rcases hwalk.eq_or_next with rfl | ⟨m, edge, hedge, rfl, -⟩
    · exact hid
    · exact (hedges edge hedge).1
  · rintro ⟨root, hroot, hwalk⟩
    exact ⟨root, (mem_rootNodes.1 hroot).2, hwalk⟩

variable [PyObject α]

theorem build_eq (workflow : WorkflowDefinition α) :
    ∃ graph : Adjacency α, graph.Holds workflow.edges ∧ build workflow =
      (topologicalSort (workflow.nodes.map (·.id)) graph.adjacency graph.reverseAdjacency).map fun levels =>
        { nodeIds := workflow.nodes.map (·.id)
          adjacency := graph.adjacency
          reverseAdjacency := graph.reverseAdjacency
          incomingEdges := graph.incomingEdges
          executionOrder := levels.flatten
          leafNodes := (workflow.nodes.map (·.id)).filter fun nodeId =>
            !(workflow.edges.map (·.source)).contains nodeId
          executionLevels := levels } := by
  refine ⟨_, holds_addEdge workflow.edges, ?_⟩
  rw [build]
  cases topologicalSort (workflow.nodes.map (·.id)) (workflow.edges.foldl Adjacency.addEdge {} : Adjacency α).adjacency
    (workflow.edges.foldl Adjacency.addEdge {} : Adjacency α).reverseAdjacency <;> rfl

/-- With different ids and edges that join nodes, the builder raises its error exactly at a cycle. Otherwise the order
holds each node once, its levels lie one after the other in it, and the level of a node is the length of the longest
path to it from a root, so that each edge goes to a later level. -/
theorem build_levels (workflow : WorkflowDefinition α) (hids : (workflow.nodes.map (·.id)).Nodup)
    (hedges : ∀ edge ∈ workflow.edges,
      edge.source ∈ workflow.nodes.map (·.id) ∧ edge.target ∈ workflow.nodes.map (·.id)) :
    ((∃ involved, build workflow = .error (cyclicDependencyError involved)) ↔
      ∃ id, Relation.TransGen workflow.Leads id id) ∧
    ((¬ ∃ id, Relation.TransGen workflow.Leads id id) → ∃ dag, build workflow = .ok dag ∧
      dag.executionOrder.Perm (workflow.nodes.map (·.id)) ∧
      dag.executionLevels.flatten = dag.executionOrder ∧ (∀ level ∈ dag.executionLevels, level ≠ []) ∧
      (∀ i id, At dag.executionLevels i id ↔ id ∈ workflow.nodes.map (·.id) ∧
        IsGreatest {k | ∃ root ∈ workflow.rootNodes, Walk workflow.Leads k root id} i) ∧
      ∀ edge ∈ workflow.edges, ∃ i j, At dag.executionLevels i edge.source ∧
        At dag.executionLevels j edge.target ∧ i < j) := by
  obtain ⟨graph, hgraph, hbuild⟩ := build_eq workflow
  have hadj (u v : String) : v ∈ graph.adjacency u ↔ u ∈ graph.reverseAdjacency v := by
    rw [hgraph.mem, hgraph.mem_reverse]
  have hleads : (fun u v => u ∈ graph.reverseAdjacency v) = workflow.Leads :=
    funext₂ fun u v => propext (hgraph.mem_reverse u v)
  have hnodes (u v : String) (huv : v ∈ graph.adjacency u) :
      u ∈ workflow.nodes.map (·.id) ∧ v ∈ workflow.nodes.map (·.id) := by
    obtain ⟨edge, hedge, rfl, rfl⟩ := (hgraph.mem u v).1 huv
    exact hedges edge hedge
  cases hsort : topologicalSort (workflow.nodes.map (·.id)) graph.adjacency graph.reverseAdjacency with
  | error message =>
    obtain ⟨⟨involved, rfl⟩, hcycle⟩ := topologicalSort_cycle hadj hgraph.nodup hgraph.nodup_reverse hids hnodes hsort
    rw [hleads] at hcycle
    rw [hsort] at hbuild
    exact ⟨⟨fun _ => hcycle, fun _ => ⟨involved, hbuild⟩⟩, fun hacyclic => absurd hcycle hacyclic⟩
  | ok levels =>
    obtain ⟨hstaged, hlevels⟩ := topologicalSort_staged hadj hgraph.nodup hgraph.nodup_reverse hids hsort
    obtain ⟨-, hperm⟩ := topologicalSort_layered hadj hgraph.nodup hgraph.nodup_reverse hids hsort
    rw [hleads] at hstaged
    rw [hsort] at hbuild
    have hat {id : String} (hid : id ∈ workflow.nodes.map (·.id)) : ∃ i, At levels i id :=
      mem_flatten_iff_at.1 (hperm.mem_iff.2 hid)
    have hacyclic : ¬ ∃ id, Relation.TransGen workflow.Leads id id := by
      rintro ⟨id, hpath⟩
      obtain ⟨m, -, edge, hedge, -, rfl⟩ := Relation.TransGen.tail'_iff.1 hpath
      obtain ⟨i, hi⟩ := hat (hedges edge hedge).2
      exact hstaged.acyclic hi hpath
    refine ⟨⟨fun ⟨involved, herror⟩ => ?_, fun hcycle => absurd hcycle hacyclic⟩, fun _ => ?_⟩
    · rw [hbuild] at herror
      cases herror
    · refine ⟨_, hbuild, hperm, rfl, hlevels, fun i id => ?_, fun edge hedge => ?_⟩
      · have hgreatest {j : Nat} (hj : At levels j id) (hid : id ∈ workflow.nodes.map (·.id)) :
            IsGreatest {k | ∃ root ∈ workflow.rootNodes, Walk workflow.Leads k root id} j := by
          rw [← walks_from_rootNodes hid hedges]
          exact hstaged.isGreatest hj
        constructor
        · intro hi
          have hid := hperm.mem_iff.1 (mem_flatten_iff_at.2 ⟨i, hi⟩)
          exact ⟨hid, hgreatest hi hid⟩
        · rintro ⟨hid, hi⟩
          obtain ⟨j, hj⟩ := hat hid
          rwa [hi.unique (hgreatest hj hid)]
      · obtain ⟨i, hi⟩ := hat (hedges edge hedge).1
        obtain ⟨j, hj⟩ := hat (hedges edge hedge).2
        exact ⟨i, j, hi, hj, hstaged.lt ⟨edge, hedge, rfl, rfl⟩ hi hj⟩

end

def countedAlarm : WorkflowDefinition PyValue where
  nodes := [⟨"alarm", "alarm", .empty⟩, ⟨"camera", "camera", .empty⟩, ⟨"counter", "counter", .empty⟩]
  edges := [
    { id := "e1", source := "camera", sourceHandle := "frame", target := "counter", targetHandle := "frame" },
    { id := "e2", source := "counter", sourceHandle := "count", target := "alarm", targetHandle := "value" },
    { id := "e3", source := "counter", sourceHandle := "count", target := "alarm", targetHandle := "trigger" },
    { id := "e4", source := "camera", sourceHandle := "frame", target := "alarm", targetHandle := "frame" }]

/-- No cycle; the alarm comes after the counter, although the camera leads to it too. -/
theorem build_levels_countedAlarm : (¬ ∃ id, Relation.TransGen countedAlarm.Leads id id) ∧
    ∃ dag, build countedAlarm = .ok dag ∧
      dag.executionLevels = [["camera"], ["counter"], ["alarm"]] ∧
      dag.executionOrder.Perm (countedAlarm.nodes.map (·.id)) ∧
      IsGreatest {k | ∃ root ∈ countedAlarm.rootNodes, Walk countedAlarm.Leads k root "alarm"} 2 ∧
      ∀ edge ∈ countedAlarm.edges, ∃ i j, At dag.executionLevels i edge.source ∧
        At dag.executionLevels j edge.target ∧ i < j := by
  obtain ⟨hcycle, hlevels⟩ := build_levels countedAlarm (by decide) (by decide)
  obtain ⟨built, hbuilt, hcomputed⟩ : ∃ dag, build countedAlarm = .ok dag ∧
      dag.executionLevels = [["camera"], ["counter"], ["alarm"]] := ⟨_, rfl, rfl⟩
  have hacyclic : ¬ ∃ id, Relation.TransGen countedAlarm.Leads id id := by
    rw [← hcycle, hbuilt]
    rintro ⟨involved, ⟨⟩⟩
  obtain ⟨dag, hdag, hperm, -, -, hgreatest, hlater⟩ := hlevels hacyclic
  rw [hbuilt, Except.ok.injEq] at hdag
  subst hdag
  have halarm : At built.executionLevels 2 "alarm" := by
    rw [hcomputed]
    exact ⟨["alarm"], rfl, mem_singleton_self _⟩
  exact ⟨hacyclic, built, hbuilt, hcomputed, hperm, ((hgreatest 2 "alarm").1 halarm).2, hlater⟩

end Trakrai.Engine
