import Trakrai.Lib.PrunedSearch
import Trakrai.Workflow.Validation

namespace Trakrai.Workflow
open List hiding after
open Lib

def AsyncTyped (nodes : List Node) (asyncNodeTypes : List String) (nodeId : String) : Prop :=
  ∃ nodeType ∈ asyncNodeTypes,
    nodes.reverse.findSome? (fun node => if node.id = nodeId then node.type else none) = some nodeType

def SyncPath (nodes : List Node) (edges : List Edge) (asyncNodeTypes : List String)
    (source target : String) : Prop :=
  ∃ between : List String, (source :: (between ++ [target])).IsChain (Leads edges) ∧
    ∀ nodeId ∈ between, ¬ AsyncTyped nodes asyncNodeTypes nodeId

section
variable {nodes : List Node} {edges : List Edge} {asyncNodeTypes : List String} {m n nodeId : String}
  {dependencyMap : DependencyMap}

theorem lookup_nodeTypeMap (nodes : List Node) (nodeId : String) : (nodeTypeMap nodes).lookup nodeId =
    nodes.reverse.findSome? (fun node => if node.id = nodeId then node.type else none) := by
  have hfold (types : List (String × String)) :
      (nodes.foldl (fun types node => node.type.elim types (setKey types node.id)) types).lookup nodeId =
      (nodes.reverse.findSome? (fun node => if node.id = nodeId then node.type else none)).or
        (types.lookup nodeId) := by
    induction nodes generalizing types with
    | nil => rfl
    | cons node nodes ih =>
      rw [foldl_cons, ih, reverse_cons, List.findSome?_append, Option.or_assoc, List.findSome?_singleton]
      cases node.type with
      | none => simp
      | some nodeType =>
        rw [Option.elim_some, lookup_setKey]
        by_cases h : node.id = nodeId
        · simp [h]
        · simp [h, Ne.symm h]
  have hstep : nodeTypeMap nodes =
      nodes.foldl (fun types node => node.type.elim types (setKey types node.id)) [] := by
    rw [nodeTypeMap]
    congr
    funext types node
    cases node.type <;> rfl
  rw [hstep, hfold, lookup_nil, Option.or_none]

theorem isAsyncNode_iff :
    isAsyncNode nodes asyncNodeTypes nodeId = true ↔ AsyncTyped nodes asyncNodeTypes nodeId := by
  rw [isAsyncNode, lookup_nodeTypeMap, Option.any_eq_true, AsyncTyped]
  simp only [contains_eq_mem, decide_eq_true_eq]
  exact exists_congr fun nodeType => and_comm

section
variable (dependencyMap : DependencyMap)

theorem walk_eq_prunedSearch (isAsync : String → Bool) (fuel : Nat)
    (state : List String × List String) (nodeId : String) :
    walk dependencyMap isAsync fuel state nodeId =
      prunedSearch dependencyMap.sources isAsync fuel state nodeId := by
  induction fuel generalizing state nodeId with
  | zero => rfl
  | succ fuel ih =>
    obtain ⟨visited, barriers⟩ := state
    rw [walk, prunedSearch, DependencyMap.sources, foldlM_map]
    simp only [ih]

theorem sources_subset (nodeId : String) :
    dependencyMap.sources nodeId ⊆ (dependencyMap.flatMap Prod.snd).map (·.sourceNodeId) := by
  apply map_subset
  rw [DependencyMap.get]
  cases hlookup : dependencyMap.lookup nodeId with
  | none => exact nil_subset _
  | some dependencies =>
    intro dep hdep
    exact mem_flatMap.2 ⟨_, mem_of_lookup hlookup, hdep⟩

theorem passes_iff_syncPath :
    Passes (buildDependencyMap nodes edges).sources (isAsyncNode nodes asyncNodeTypes) m n ↔
      SyncPath nodes edges asyncNodeTypes m n := by
  rw [passes_iff, SyncPath]
  apply exists_congr
  intro between
  have hleads : (fun a b => a ∈ (buildDependencyMap nodes edges).sources b) = Leads edges :=
    funext₂ fun a b => propext mem_sources_buildDependencyMap
  simp only [hleads, ← isAsyncNode_iff, Bool.not_eq_true]

theorem walk_exact (isAsync : String → Bool) (hnode : node ∈ nodes)
    (hdepth : nodes.length + (dependencyMap.map (·.2.length)).sum < depth) :
    ∃ after, walk dependencyMap isAsync depth ([], []) node.id = some after ∧ after.2.Nodup ∧
      ∀ nodeId, nodeId ∈ after.2 ↔ isAsync nodeId = true ∧ Passes dependencyMap.sources isAsync nodeId node.id := by
  have hids : ∀ n ∈ nodes.map Node.id ++ (dependencyMap.flatMap Prod.snd).map (·.sourceNodeId),
      dependencyMap.sources n ⊆ nodes.map Node.id ++ (dependencyMap.flatMap Prod.snd).map (·.sourceNodeId) :=
    fun n _ => subset_append_of_subset_right _ (sources_subset dependencyMap n)
  have hlength : (nodes.map Node.id ++ (dependencyMap.flatMap Prod.snd).map (·.sourceNodeId)).length =
      nodes.length + (dependencyMap.map (·.2.length)).sum := by
    simp
  have hmem := mem_append_left ((dependencyMap.flatMap Prod.snd).map (·.sourceNodeId))
    (mem_map_of_mem (f := Node.id) hnode)
  rw [walk_eq_prunedSearch]
  exact prunedSearch_exact isAsync hids (hlength.trans_lt hdepth) hmem

end

theorem walk_deeper (h : walk dependencyMap isAsync depth state nodeId = some after) (hdepth : depth ≤ deeper) :
    walk dependencyMap isAsync deeper state nodeId = some after := by
  rw [walk_eq_prunedSearch] at h ⊢
  rw [← Nat.add_sub_cancel' hdepth]
  exact prunedSearch_deeper h _

theorem foldlM_setKey {f : String → Option β} {nodes : List Node} (h : ∀ node ∈ nodes, (f node.id).isSome)
    (map : List (String × β)) : ∃ result,
      nodes.foldlM (fun map node => (f node.id).map (setKey map node.id)) map = some result ∧
      ∀ nodeId, result.lookup nodeId = if nodeId ∈ nodes.map Node.id then f nodeId else map.lookup nodeId := by
  induction nodes generalizing map with
  | nil => exact ⟨map, rfl, fun nodeId => by simp⟩
  | cons node nodes ih =>
    obtain ⟨hnode, hrest⟩ := forall_mem_cons.1 h
    obtain ⟨value, hvalue⟩ := Option.isSome_iff_exists.1 hnode
    obtain ⟨result, hresult, hlookup⟩ := ih hrest (setKey map node.id value)
    refine ⟨result, ?_, fun nodeId => ?_⟩
    · rw [foldlM_cons, hvalue]
      exact hresult
    · rw [hlookup, lookup_setKey]
      by_cases hid : nodeId = node.id
      · subst hid
        simp [hvalue]
      · simp [hid]

theorem buildAsyncDependencyMap_total (nodes : List Node) (dependencyMap : DependencyMap)
    (asyncNodeTypes : List String) :
    ∃ asyncDependencyMap, buildAsyncDependencyMap nodes dependencyMap asyncNodeTypes = some asyncDependencyMap ∧
      ∀ node ∈ nodes, asyncDependencyMap.lookup node.id =
        (walk dependencyMap (isAsyncNode nodes asyncNodeTypes) (walkDepth nodes dependencyMap) ([], [])
          node.id).map (·.2.reverse) := by
  let barriers (nodeId : String) : Option (List String) :=
    (walk dependencyMap (isAsyncNode nodes asyncNodeTypes) (walkDepth nodes dependencyMap) ([], [])
      nodeId).map (·.2.reverse)
  have hsome : ∀ node ∈ nodes, (barriers node.id).isSome := by
    intro node hnode
    obtain ⟨after, hafter, -⟩ := walk_exact dependencyMap (isAsyncNode nodes asyncNodeTypes) hnode
      (Nat.lt_succ_self _)
    simp [barriers, walkDepth, hafter]
  obtain ⟨result, hresult, hlookup⟩ := foldlM_setKey hsome []
  refine ⟨result, ?_, fun node hnode => by rw [hlookup, if_pos (mem_map_of_mem hnode)]⟩
  rw [← hresult, buildAsyncDependencyMap]
  simp only [barriers, Option.map_map]
  rfl

/-- Every walk comes to an end, with the barriers of its node. -/
theorem buildAsyncDependencyMap_exact (nodes : List Node) (edges : List Edge) (asyncNodeTypes : List String) :
    ∃ asyncDependencyMap,
      buildAsyncDependencyMap nodes (buildDependencyMap nodes edges) asyncNodeTypes = some asyncDependencyMap ∧
      ∀ node ∈ nodes, ∃ barriers, asyncDependencyMap.lookup node.id = some barriers ∧
        (∀ depth, nodes.length + ((buildDependencyMap nodes edges).map (·.2.length)).sum < depth →
          (walk (buildDependencyMap nodes edges) (isAsyncNode nodes asyncNodeTypes) depth ([], []) node.id).map
            (·.2.reverse) = some barriers) ∧
        barriers.Nodup ∧
        ∀ nodeId, nodeId ∈ barriers ↔
          AsyncTyped nodes asyncNodeTypes nodeId ∧ SyncPath nodes edges asyncNodeTypes nodeId node.id := by
  obtain ⟨asyncDependencyMap, htotal, hlookup⟩ :=
    buildAsyncDependencyMap_total nodes (buildDependencyMap nodes edges) asyncNodeTypes
  refine ⟨asyncDependencyMap, htotal, fun node hnode => ?_⟩
  obtain ⟨after, hafter, hnodup, hmem⟩ := walk_exact (buildDependencyMap nodes edges)
    (isAsyncNode nodes asyncNodeTypes) hnode (Nat.lt_succ_self _)
  refine ⟨after.2.reverse, ?_, ?_, List.nodup_reverse.2 hnodup, fun nodeId => ?_⟩
  · rw [hlookup node hnode, walkDepth, hafter, Option.map_some]
  · intro depth hdepth
    rw [walk_deeper hafter hdepth, Option.map_some]
  · rw [List.mem_reverse, hmem, isAsyncNode_iff, ← passes_iff_syncPath]

end

def repeatedSteps : List Node × List Edge :=
  ([⟨"ask", some "approval", none⟩, ⟨"write", some "step", none⟩, ⟨"send", some "step", none⟩],
    [{ id := "e1", source := "ask", target := "write" }, { id := "e2", source := "write", target := "send" },
      { id := "e3", source := "send", target := "write" }, { id := "e4", source := "gone", target := "send" }])

theorem repeatedSteps_exact : ∃ asyncDependencyMap,
      buildAsyncDependencyMap repeatedSteps.1 (buildDependencyMap repeatedSteps.1 repeatedSteps.2) ["approval"] =
        some asyncDependencyMap ∧ asyncDependencyMap.lookup "send" = some ["ask"] ∧
      ∀ nodeId, nodeId ∈ ["ask"] ↔ AsyncTyped repeatedSteps.1 ["approval"] nodeId ∧
        SyncPath repeatedSteps.1 repeatedSteps.2 ["approval"] nodeId "send" := by
  have hnode : (⟨"send", some "step", none⟩ : Node) ∈ repeatedSteps.1 := by simp [repeatedSteps]
  obtain ⟨asyncDependencyMap, hmap, hexact⟩ :=
    buildAsyncDependencyMap_exact repeatedSteps.1 repeatedSteps.2 ["approval"]
  obtain ⟨barriers, hlookup, -, -, hmem⟩ := hexact _ hnode
  have hrun : (buildAsyncDependencyMap repeatedSteps.1 (buildDependencyMap repeatedSteps.1 repeatedSteps.2)
      ["approval"]).bind (·.lookup "send") = some ["ask"] := by decide +kernel
  rw [hmap, Option.bind_some] at hrun
  obtain rfl : ["ask"] = barriers := Option.some.inj (hrun.symm.trans hlookup)
  exact ⟨asyncDependencyMap, hmap, hrun, hmem⟩

end Trakrai.Workflow
