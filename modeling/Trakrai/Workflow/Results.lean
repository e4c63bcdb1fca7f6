import Mathlib.Data.List.Pairwise
import Trakrai.Workflow.Automation

namespace Trakrai.Workflow
open List Lib

def Plain (dependencies : List DependencyInfo) : Prop :=
  ∀ dep ∈ dependencies, isEventHandle dep.sourceHandle = none

theorem resultKey_of_plain {dep : DependencyInfo} (h : isEventHandle dep.sourceHandle = none) :
    dep.resultKey = (dep.sourceNodeId, dep.sourceHandle) := by
  rw [DependencyInfo.resultKey, h]

theorem Plain.eventDependencies (h : Plain dependencies) : eventDependencies dependencies = [] := by
  rw [Workflow.eventDependencies, filterMap_eq_nil_iff]
  intro dep hdep
  rw [h dep hdep]
  rfl

section
variable {f g : String → Option ExecutionResult} {dependencies : List DependencyInfo}

theorem checkDependencyFailure_congr {dep : DependencyInfo}
    (h : isEventHandle dep.sourceHandle = none) (hfg : f dep.sourceNodeId = g dep.sourceNodeId) :
    checkDependencyFailure f dep = checkDependencyFailure g dep := by
  simp only [checkDependencyFailure, resultKey_of_plain h, hfg]

theorem hasDependencyFailure_congr (h : Plain dependencies)
    (hfg : ∀ dep ∈ dependencies, f dep.sourceNodeId = g dep.sourceNodeId) :
    hasDependencyFailure f dependencies = hasDependencyFailure g dependencies := by
  induction dependencies with
  | nil => rfl
  | cons dep dependencies ih =>
    obtain ⟨hdep, h⟩ := forall_mem_cons.1 h
    obtain ⟨hfirst, hfg⟩ := forall_mem_cons.1 hfg
    have hrest : dependencies.anyM (checkDependencyFailure f) =
        dependencies.anyM (checkDependencyFailure g) := ih h hfg
    rw [hasDependencyFailure, hasDependencyFailure, List.anyM, List.anyM,
      checkDependencyFailure_congr hdep hfirst, hrest]

theorem buildNodeInput_congr (node : Node) (h : Plain dependencies)
    (hfg : ∀ dep ∈ dependencies, f dep.sourceNodeId = g dep.sourceNodeId) :
    buildNodeInput f node dependencies = buildNodeInput g node dependencies := by
  apply foldl_ext
  intro input dep hdep
  simp only [addInput, resultKey_of_plain (h dep hdep), hfg dep hdep]

theorem executeNode_congr (registry : Registry) (node : Node) (h : Plain dependencies)
    (hfg : ∀ dep ∈ dependencies, f dep.sourceNodeId = g dep.sourceNodeId) :
    executeNode f registry node dependencies = executeNode g registry node dependencies := by
  simp only [executeNode, buildNodeInput_congr node h hfg]

theorem hasDependencyFailure_ok
    (hdata : ∀ id nodeId data, f id = some (.success nodeId data) → ∃ fields, data = .obj fields)
    (dependencies : List DependencyInfo) : ∃ failed, hasDependencyFailure f dependencies = .ok failed := by
  have hcheck (dep : DependencyInfo) : ∃ failed, checkDependencyFailure f dep = .ok failed := by
    rw [checkDependencyFailure]
    split
    · split <;> exact ⟨_, rfl⟩
    · split
      · rename_i hresult _
        obtain ⟨fields, rfl⟩ := hdata _ _ _ hresult
        exact ⟨_, rfl⟩
      · exact ⟨_, rfl⟩
      · exact ⟨_, rfl⟩
  induction dependencies with
  | nil => exact ⟨false, rfl⟩
  | cons dep dependencies ih =>
    obtain ⟨failed, hfailed⟩ := hcheck dep
    rw [hasDependencyFailure, List.anyM, hfailed]
    cases failed with
    | false => exact ih
    | true => exact ⟨true, rfl⟩

theorem hasDependencyFailure_eq_false_iff : hasDependencyFailure f dependencies = .ok false ↔
      ∀ dep ∈ dependencies, checkDependencyFailure f dep = .ok false := by
  induction dependencies with
  | nil => simp [hasDependencyFailure, List.anyM, pure, Except.pure]
  | cons dep dependencies ih =>
    rw [forall_mem_cons, ← ih, hasDependencyFailure, List.anyM]
    cases checkDependencyFailure f dep with
    | error message => simp [bind, Except.bind]
    | ok failed =>
      cases failed with
      | false => simp [bind, Except.bind, hasDependencyFailure]
      | true => simp [bind, Except.bind, pure, Except.pure]

end

namespace Automation
variable {w : Automation} {node : Node} {f g : String → Option ExecutionResult}

/-- The entry that a node gets, given the entries of its sources. -/
def nodeResult (w : Automation) (node : Node) (f : String → Option ExecutionResult) :
    ExecutionResult :=
  match hasDependencyFailure f (w.dependencies node) with
  | .ok false => (executeNode f w.registry node (w.dependencies node)).2.result node.id
  | _ => .failure node.id dependencyFailureReason

def nodeCalls (w : Automation) (node : Node) (f : String → Option ExecutionResult) :
    List (String × Input) :=
  match hasDependencyFailure f (w.dependencies node) with
  | .ok false => [(node.id, buildNodeInput f node (w.dependencies node))]
  | _ => []

def signalNames (w : Automation) (node : Node) : List String :=
  w.completionName node.id :: w.mergeName node.id :: (w.events node).map (w.eventName node.id)

/-- No two nodes have a signal name in common. -/
def DistinctSignals (w : Automation) : Prop :=
  ∀ n ∈ w.nodes, ∀ m ∈ w.nodes, n.id ≠ m.id → (w.signalNames n).Disjoint (w.signalNames m)

theorem DistinctSignals.ne (h : w.DistinctSignals) (hn : n ∈ w.nodes)
    (hm : m ∈ w.nodes) (hne : n.id ≠ m.id) (ha : a ∈ w.signalNames n) (hb : b ∈ w.signalNames m) :
    a ≠ b := by
  intro heq
  exact h n hn m hm hne ha (heq ▸ hb)

theorem DistinctSignals.of_nodup (h : (w.nodes.flatMap w.signalNames).Nodup) : w.DistinctSignals := by
  intro n hn m hm hne
  obtain ⟨_, hpairwise⟩ := nodup_flatMap.1 h
  have hsymm : Std.Symm (Function.onFun List.Disjoint w.signalNames) := ⟨fun _ _ hd _ ha hb => hd hb ha⟩
  exact hpairwise.forall hn hm (fun heq => hne (congrArg Node.id heq))

theorem completionName_mem : w.completionName node.id ∈ w.signalNames node := mem_cons_self ..

theorem mergeName_mem : w.mergeName node.id ∈ w.signalNames node :=
  mem_cons_of_mem _ (mem_cons_self ..)

theorem eventName_mem (h : event ∈ w.events node) :
    w.eventName node.id event ∈ w.signalNames node :=
  mem_cons_of_mem _ (mem_cons_of_mem _ (mem_map_of_mem h))

theorem eventName_ne_completionName {id event : String} : w.eventName id event ≠ w.completionName id := by
  intro heq
  have htext : w.eventId ++ "-" ++ (id ++ "-" ++ event) = w.eventId ++ "-" ++ id := base64Text_inj heq
  have hlength := congrArg String.length htext
  simp only [String.length_append] at hlength
  have hdash : "-".length = 1 := rfl
  omega

theorem mergeName_ne_completionName {id : String} : w.mergeName id ≠ w.completionName id :=
  eventName_ne_completionName

/-- Every node of a valid chart waits for all its sources, and for no event. -/
structure Joined (w : Automation) : Prop where
  accepted : Accepted w.nodes w.edges w.registry w.dependencyMap
  all : ∀ node ∈ w.nodes, w.getDependencyModeForNode node = .all
  plain : ∀ node ∈ w.nodes, Plain (w.dependencies node)
  names : w.DistinctSignals

theorem mem_sources {id : String} : id ∈ w.dependencyMap.sources node.id ↔
    ∃ dep ∈ w.dependencies node, dep.sourceNodeId = id := mem_map

theorem nodeResult_congr (h : w.Joined) (hnode : node ∈ w.nodes)
    (hfg : ∀ id ∈ w.dependencyMap.sources node.id, f id = g id) :
    w.nodeResult node f = w.nodeResult node g := by
  have hdeps (dep : DependencyInfo) (hdep : dep ∈ w.dependencies node) :
      f dep.sourceNodeId = g dep.sourceNodeId := hfg _ (mem_sources.2 ⟨dep, hdep, rfl⟩)
  simp only [nodeResult, hasDependencyFailure_congr (h.plain node hnode) hdeps,
    executeNode_congr w.registry node (h.plain node hnode) hdeps]

theorem nodeCalls_congr (h : w.Joined) (hnode : node ∈ w.nodes)
    (hfg : ∀ id ∈ w.dependencyMap.sources node.id, f id = g id) :
    w.nodeCalls node f = w.nodeCalls node g := by
  have hdeps (dep : DependencyInfo) (hdep : dep ∈ w.dependencies node) :
      f dep.sourceNodeId = g dep.sourceNodeId := hfg _ (mem_sources.2 ⟨dep, hdep, rfl⟩)
  simp only [nodeCalls, hasDependencyFailure_congr (h.plain node hnode) hdeps,
    buildNodeInput_congr node (h.plain node hnode) hdeps]

theorem executeNode_input (h : (w.registry.resolveNodeSchema node).isSome)
    (f : String → Option ExecutionResult) (dependencies : List DependencyInfo) :
    (executeNode f w.registry node dependencies).1 = some (buildNodeInput f node dependencies) := by
  obtain ⟨schema, hschema⟩ := Option.isSome_iff_exists.1 h
  obtain ⟨nodeType, handler, htype, hhandler⟩ := Registry.handler_of_resolve hschema
  simp only [Workflow.executeNode, htype, hhandler, hschema]

theorem nodeResult_object (h : w.nodeResult node f = .success nodeId data): ∃ fields, data = .obj fields := by
  rw [nodeResult] at h
  split at h
  · cases houtcome : (Workflow.executeNode f w.registry node (w.dependencies node)).2 with
    | returned output =>
      rw [houtcome] at h
      cases h
      exact ⟨output, rfl⟩
    | threw message =>
      rw [houtcome] at h
      cases h
  · cases h

def network (h : w.Joined) : Network String ExecutionResult where
  reads := w.dependencyMap.sources
  value id f :=
    match w.nodes.find? (·.id == id) with
    | some node => w.nodeResult node f
    | none => .failure id dependencyFailureReason
  value_congr := by
    intro id f g hfg
    cases hfind : w.nodes.find? (·.id == id) with
    | none => rfl
    | some node =>
      obtain rfl : node.id = id := by simpa using List.find?_some hfind
      exact nodeResult_congr h (List.mem_of_find?_eq_some hfind) hfg

theorem network_acyclic (h : w.Joined) : (network h).Acyclic := h.accepted.acyclic

theorem network_value (h : w.Joined) (hnode : node ∈ w.nodes) :
    (network h).value node.id f = w.nodeResult node f := by
  simp only [network, find?_key_of_mem h.accepted.nodup hnode rfl]

theorem network_object (h : w.Joined) {id nodeId : String} {data : Json}
    (hvalue : (network h).value id f = .success nodeId data) : ∃ fields, data = .obj fields := by
  simp only [network] at hvalue
  split at hvalue
  · exact nodeResult_object hvalue
  · cases hvalue

end Automation

end Trakrai.Workflow
