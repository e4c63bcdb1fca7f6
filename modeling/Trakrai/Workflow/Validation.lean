import Mathlib.Algebra.GroupWithZero.Nat
import Mathlib.Data.List.Perm.Subperm
import Mathlib.Logic.Relation
import Trakrai.Lib.Dataflow
import Trakrai.Lib.Except
import Trakrai.Workflow.Chart

namespace Trakrai.Workflow
open List Lib

abbrev DependencyMap := List (String × List DependencyInfo)

/-- `dependencyMap[nodeId] ?? []`. -/
def DependencyMap.get (dependencyMap : DependencyMap) (nodeId : String) : List DependencyInfo :=
  (dependencyMap.lookup nodeId).getD []

def Edge.dependency (edge : Edge) : DependencyInfo where
  sourceNodeId := edge.source
  sourceHandle := edge.sourceHandle.getD ""
  targetHandle := edge.targetHandle.getD ""
  conditional := if edge.targetHandle = some triggerHandle then edge.configuration else none

section
variable (nodes : List Node)

def buildDependencyMap (edges : List Edge) : DependencyMap :=
  edges.foldl
    (fun dependencyMap edge =>
      setKey dependencyMap edge.target (DependencyMap.get dependencyMap edge.target ++ [edge.dependency]))
    (nodes.foldl (fun dependencyMap node => setKey dependencyMap node.id []) [])

/-- The two sets of the depth-first search. -/
structure Marks where
  visited : List String := []
  visiting : List String := []

/-- The search from one node. The depth of the calls is bounded by `fuel`. -/
def visit (dependencyMap : DependencyMap) : Nat → Marks → String → Except String Marks
  | 0, _, _ => .error "Maximum call stack size exceeded"
  | fuel + 1, marks, nodeId =>
    if nodeId ∈ marks.visited then .ok marks
    else if nodeId ∈ marks.visiting then
      .error ("Circular dependency detected at node: " ++ nodeId)
    else do
      let after ← (dependencyMap.get nodeId).foldlM
        (fun marks dep => visit dependencyMap fuel marks dep.sourceNodeId)
        { marks with visiting := nodeId :: marks.visiting }
      .ok ⟨nodeId :: after.visited, after.visiting.erase nodeId⟩

/-- Deep enough for every chain of different nodes. -/
def searchDepth (edges : List Edge) : Nat := nodes.length + edges.length + 1

def topologicalSort (edges : List Edge) : Except String DependencyMap := do
  let dependencyMap := buildDependencyMap nodes edges
  let _ ← nodes.foldlM
    (fun marks node => visit dependencyMap (searchDepth nodes edges) marks node.id) {}
  .ok dependencyMap

/-- `walk` of `buildAsyncDependencyMap`; the state is the visited set and the barriers. `none` where the calls
get deeper than `fuel`. -/
def walk (dependencyMap : DependencyMap) (isAsync : String → Bool) :
    Nat → List String × List String → String → Option (List String × List String)
  | 0, _, _ => none
  | fuel + 1, (visited, barriers), nodeId =>
    if nodeId ∈ visited then some (visited, barriers)
    else
      (dependencyMap.get nodeId).foldlM
        (fun state dep =>
          if isAsync dep.sourceNodeId then some (state.1, state.2.insert dep.sourceNodeId)
          else walk dependencyMap isAsync fuel state dep.sourceNodeId)
        (visited.insert nodeId, barriers)

def nodeTypeMap : List (String × String) :=
  nodes.foldl
    (fun types node =>
      match node.type with
      | some nodeType => setKey types node.id nodeType
      | none => types) []

/-- `isAsync` of `buildAsyncDependencyMap`. -/
def isAsyncNode (asyncNodeTypes : List String) (nodeId : String) : Bool :=
  ((nodeTypeMap nodes).lookup nodeId).any (asyncNodeTypes.contains ·)

/-- Deep enough for every walk through different nodes. -/
def walkDepth (dependencyMap : DependencyMap) : Nat :=
  nodes.length + (dependencyMap.map (·.2.length)).sum + 1

def buildAsyncDependencyMap (dependencyMap : DependencyMap)
    (asyncNodeTypes : List String) : Option (List (String × List String)) :=
  nodes.foldlM
    (fun asyncDeps node =>
      (walk dependencyMap (isAsyncNode nodes asyncNodeTypes) (walkDepth nodes dependencyMap) ([], [])
        node.id).map fun state => setKey asyncDeps node.id state.2.reverse) []

/-- A schema that is no object stops the check: `in` is no operator on it. -/
def isRequiredInput (schema : ObjectSchema) (field : String) : Except String Bool :=
  match schema.properties.lookup field with
  | none => .ok true
  | some (.object default) => .ok default.isNone
  | some (.primitive text) =>
    .error ("Cannot use 'in' operator to search for 'default' in " ++ text)

def getRequiredInputFields (schema : ObjectSchema) : Except String (List String) :=
  (schema.required.getD (schema.properties.map Prod.fst)).filterM (isRequiredInput schema)

/-- What is no string is not among the configured inputs or the target handles. -/
def validateNodeInputs (node : Node) (edges : List Edge) (schema : ObjectSchema) :
    Except String (List String) := do
  let requiredFields ← getRequiredInputFields schema
  let unnamed ← schema.unnamed.filterM (isRequiredInput schema)
  let configuredInputs := (node.configuration.getD []).map Prod.fst
  let edgeInputs :=
    ((edges.filter (·.target == node.id)).map (·.targetHandle.getD "")).filter (· != "")
  .ok (requiredFields.filter (fun field =>
    !configuredInputs.contains field && !edgeInputs.contains field) ++ unnamed)

def duplicates (ids : List String) : List String :=
  (ids.zipIdx.filter fun entry => ids.idxOf entry.1 != entry.2).map Prod.fst

def duplicateErrors : List String :=
  let duplicates := duplicates (nodes.map Node.id)
  if duplicates.length > 0 then ["Duplicate node IDs found: " ++ ", ".intercalate duplicates]
  else []

end

def edgeErrors (nodeIds : List String) (edge : Edge) : List String :=
  (if nodeIds.contains edge.source then []
    else ["Edge '" ++ edge.id ++ "' references missing source node '" ++ edge.source ++ "'"]) ++
  (if nodeIds.contains edge.target then []
    else ["Edge '" ++ edge.id ++ "' references missing target node '" ++ edge.target ++ "'"])

/-- What the validation takes from a node runtime: the types that are registered, and the input schema of a node.
A call may throw, and it changes the runtime. -/
structure SchemaResolver (σ : Type) where
  knownNodeTypes : List String
  resolveInput : Node → σ → Except String (Option ObjectSchema) × σ

section
variable {σ : Type} (resolver : SchemaResolver σ)

def definitionErrors (edges : List Edge) (node : Node) (nodeType : String) :
    Option ObjectSchema → Except String (List String)
  | none => .ok ["Node '" ++ node.id ++ "' has undefined type: " ++ nodeType]
  | some input => do
    let missingInputs ← validateNodeInputs node edges input
    .ok (if missingInputs.length = 0 then []
      else ["Node '" ++ node.id ++ "' is missing required inputs: " ++
        ", ".intercalate missingInputs])

/-- The errors of one node after another. -/
def nodeErrors (edges : List Edge) : List Node → σ → Except String (List String)
  | [], _ => .ok []
  | node :: nodes, s =>
    match node.type with
    | none => do
      let errors ← nodeErrors edges nodes s
      .ok (("Node '" ++ node.id ++ "' is missing type") :: errors)
    | some nodeType =>
      if !resolver.knownNodeTypes.contains nodeType then do
        let errors ← nodeErrors edges nodes s
        .ok (("Node '" ++ node.id ++ "' has invalid type: " ++ nodeType) :: errors)
      else do
        let resolved := resolver.resolveInput node s
        let nodeDefinition ← resolved.1
        let errorsOfNode ← definitionErrors edges node nodeType nodeDefinition
        let errors ← nodeErrors edges nodes resolved.2
        .ok (errorsOfNode ++ errors)

inductive Validation where
  | invalid (errors : List String)
  | valid (dependencyMap : DependencyMap) (asyncDependencyMap : List (String × List String))

/-- `validateWorkflow` with a runtime. -/
def SchemaResolver.validate (s : σ) (nodes : List Node) (edges : List Edge)
    (asyncNodeTypes : List String) : Except String Validation :=
  if nodes.length = 0 then .ok (.valid [] [])
  else do
    let (dependencyMap, cycleErrors) :=
      match topologicalSort nodes edges with
      | .ok dependencyMap => (dependencyMap, [])
      | .error message => ([], [message])
    let errorsOfNodes ← nodeErrors resolver edges nodes s
    let errors := cycleErrors ++ duplicateErrors nodes ++
      edges.flatMap (edgeErrors (nodes.map Node.id)) ++ errorsOfNodes
    match buildAsyncDependencyMap nodes dependencyMap asyncNodeTypes with
    | none => .error "Maximum call stack size exceeded"
    | some asyncDependencyMap =>
      .ok (if errors.length > 0 then .invalid errors else .valid dependencyMap asyncDependencyMap)

end

def Registry.knownNodeTypes (registry : Registry) : List String :=
  registry.nodeSchemas.map Prod.fst ++ registry.nodeHandlers.map Prod.fst

/-- The runtime keeps the schema of each node by its id. -/
def Registry.resolver (registry : Registry) :
    SchemaResolver (List (String × Option ResolvedNodeSchema)) where
  knownNodeTypes := registry.knownNodeTypes
  resolveInput node schemaCache :=
    match schemaCache.lookup node.id with
    | some schema => (.ok (schema.map (·.input)), schemaCache)
    | none =>
      let schema := registry.resolveNodeSchema node
      (.ok (schema.map (·.input)), (node.id, schema) :: schemaCache)

def validateWorkflow (nodes : List Node) (edges : List Edge) (registry : Registry)
    (asyncNodeTypes : List String) : Except String Validation :=
  registry.resolver.validate [] nodes edges asyncNodeTypes

def Leads (edges : List Edge) (source target : String) : Prop :=
  ∃ edge ∈ edges, edge.source = source ∧ edge.target = target

def DependencyMap.sources (dependencyMap : DependencyMap) (nodeId : String) : List String :=
  (dependencyMap.get nodeId).map (·.sourceNodeId)

theorem get_foldl_edges (edges : List Edge) (dependencyMap : DependencyMap) (nodeId : String) :
    DependencyMap.get (edges.foldl (fun dependencyMap edge =>
        setKey dependencyMap edge.target
          (DependencyMap.get dependencyMap edge.target ++ [edge.dependency]))
      dependencyMap) nodeId =
    dependencyMap.get nodeId ++ (edges.filter (·.target == nodeId)).map Edge.dependency := by
  induction edges generalizing dependencyMap with
  | nil => simp
  | cons edge edges ih =>
    rw [foldl_cons, ih, DependencyMap.get, lookup_setKey]
    by_cases h : edge.target = nodeId
    · simp [h]
    · simp [h, Ne.symm h, DependencyMap.get]

theorem get_buildDependencyMap (nodes : List Node) (edges : List Edge) (nodeId : String) :
    (buildDependencyMap nodes edges).get nodeId =
      (edges.filter (·.target == nodeId)).map Edge.dependency := by
  rw [buildDependencyMap, get_foldl_edges, DependencyMap.get,
    lookup_foldl_setKey Node.id (fun _ => [])]
  cases nodes.reverse.find? (·.id == nodeId) <;> simp

theorem lookup_buildDependencyMap (edges : List Edge) (hnode : node ∈ nodes) :
    (buildDependencyMap nodes edges).lookup node.id =
      some ((edges.filter (·.target == node.id)).map Edge.dependency) := by
  have hkept (dependencyMap : DependencyMap) (h : (dependencyMap.lookup node.id).isSome) :
      ((edges.foldl (fun dependencyMap edge =>
        setKey dependencyMap edge.target
          (DependencyMap.get dependencyMap edge.target ++ [edge.dependency]))
        dependencyMap).lookup node.id).isSome := by
    induction edges generalizing dependencyMap with
    | nil => exact h
    | cons edge edges ih =>
      apply ih
      rw [lookup_setKey]
      split
      · rfl
      · exact h
  have hentry : ((buildDependencyMap nodes edges).lookup node.id).isSome := by
    apply hkept
    rw [lookup_foldl_setKey Node.id (fun _ => []), Option.isSome_or, Option.isSome_map, Bool.or_eq_true]
    left
    rw [List.find?_isSome]
    exact ⟨node, List.mem_reverse.2 hnode, by simp⟩
  obtain ⟨dependencies, hdependencies⟩ := Option.isSome_iff_exists.1 hentry
  have hget := get_buildDependencyMap nodes edges node.id
  rw [DependencyMap.get, hdependencies, Option.getD_some] at hget
  rw [hdependencies, hget]

theorem mem_sources_buildDependencyMap :
    m ∈ (buildDependencyMap nodes edges).sources n ↔ Leads edges m n := by
  rw [DependencyMap.sources, get_buildDependencyMap, map_map, mem_map]
  simp only [mem_filter, beq_iff_eq]
  exact exists_congr fun edge => and_assoc.trans (and_congr_right fun _ => and_comm)

section
variable {dependencyMap : DependencyMap} {marks after : Marks} {nodeId : String} {fuel : Nat}

/-- What a step of the search owes to the marks it starts from. -/
structure Explores (dependencyMap : DependencyMap) (marks after : Marks) (ids : List String) :
    Prop where
  ordered : Ordered dependencyMap.sources marks.visited → Ordered dependencyMap.sources after.visited
  keeps : marks.visited ⊆ after.visited
  reaches : ∀ nodeId ∈ ids, nodeId ∈ after.visited
  visiting : after.visiting = marks.visiting

theorem Explores.foldlM {f : α → String} {search : Marks → String → Except String Marks}
    (hsearch : ∀ {marks nodeId after}, search marks nodeId = .ok after →
      Explores dependencyMap marks after [nodeId])
    {items : List α} (h : items.foldlM (fun marks item => search marks (f item)) marks = .ok after) :
    Explores dependencyMap marks after (items.map f) := by
  induction items generalizing marks with
  | nil =>
    cases h
    exact ⟨id, List.Subset.refl _, by simp, rfl⟩
  | cons item items ih =>
    obtain ⟨middle, hitem, hrest⟩ := bind_ok h
    have hhead := hsearch hitem
    have htail := ih hrest
    refine ⟨htail.ordered ∘ hhead.ordered, List.Subset.trans hhead.keeps htail.keeps, ?_,
      htail.visiting.trans hhead.visiting⟩
    intro nodeId hid
    rcases mem_cons.1 hid with rfl | hid
    · exact htail.keeps (hhead.reaches _ (mem_singleton_self _))
    · exact htail.reaches nodeId hid

theorem visit_explores : ∀ {fuel marks nodeId after},
    visit dependencyMap fuel marks nodeId = .ok after → Explores dependencyMap marks after [nodeId] := by
  intro fuel
  induction fuel with
  | zero => intro marks nodeId after h; cases h
  | succ fuel ih =>
    intro marks nodeId after h
    rw [visit] at h
    split at h
    · rename_i hvisited
      cases h
      exact ⟨id, List.Subset.refl _, by simpa using hvisited, rfl⟩
    · split at h
      · cases h
      · obtain ⟨inner, hinner, h⟩ := bind_ok h
        cases h
        have hdeps := Explores.foldlM ih hinner
        refine ⟨fun ho => ⟨hdeps.reaches, hdeps.ordered ho⟩, ?_, by simp, ?_⟩
        · exact List.Subset.trans hdeps.keeps (subset_cons_self ..)
        · simp [hdeps.visiting]

theorem Explores.foldlM_error {f : α → String} {search : Marks → String → Except String Marks}
    (hsearch : ∀ {marks nodeId after}, search marks nodeId = .ok after →
      Explores dependencyMap marks after [nodeId])
    {items : List α} {message : String}
    (h : items.foldlM (fun marks item => search marks (f item)) marks = .error message) :
    ∃ item ∈ items, ∃ middle : Marks, middle.visiting = marks.visiting ∧
      search middle (f item) = .error message := by
  induction items generalizing marks with
  | nil => cases h
  | cons item items ih =>
    rcases bind_error h with hitem | ⟨middle, hitem, hrest⟩
    · exact ⟨item, mem_cons_self .., marks, rfl, hitem⟩
    · obtain ⟨i, hi, m, hm, herror⟩ := ih hrest
      exact ⟨i, mem_cons_of_mem _ hi, m, hm.trans (hsearch hitem).visiting, herror⟩

def DependencyMap.Cyclic (dependencyMap : DependencyMap) (nodeId : String) : Prop :=
  Relation.TransGen (fun m n => m ∈ dependencyMap.sources n) nodeId nodeId

/-- The search is never too deep: the nodes on the way are different members of `ids`. They wait for
the node that is searched, so it is on a cycle if it is one of them. -/
theorem visit_error {ids : List String} (hids : ∀ n ∈ ids, dependencyMap.sources n ⊆ ids)
    {message : String} : ∀ {fuel marks nodeId}, marks.visiting.Nodup → marks.visiting ⊆ ids →
      nodeId ∈ ids → ids.length < fuel + marks.visiting.length →
      (∀ v ∈ marks.visiting, Relation.TransGen (fun m n => m ∈ dependencyMap.sources n) nodeId v) →
      visit dependencyMap fuel marks nodeId = .error message →
      ∃ n, message = "Circular dependency detected at node: " ++ n ∧ dependencyMap.Cyclic n := by
  intro fuel
  induction fuel with
  | zero =>
    intro marks nodeId hnodup hsub _ hlt _ _
    have hle := (subperm_of_subset hnodup hsub).length_le
    omega
  | succ fuel ih =>
    intro marks nodeId hnodup hsub hid hlt hway h
    rw [visit] at h
    split at h
    · cases h
    · split at h
      · rename_i hvisiting
        cases h
        exact ⟨nodeId, rfl, hway nodeId hvisiting⟩
      · rename_i hvisiting
        rcases bind_error h with h | ⟨_, _, h⟩
        · obtain ⟨dep, hdep, middle, hmiddle, h⟩ := Explores.foldlM_error visit_explores h
          have hstep : dep.sourceNodeId ∈ dependencyMap.sources nodeId := mem_map_of_mem hdep
          refine ih ?_ ?_ (hids nodeId hid hstep) ?_ ?_ h
          · rw [hmiddle]
            exact nodup_cons.2 ⟨hvisiting, hnodup⟩
          · rw [hmiddle]
            exact cons_subset.2 ⟨hid, hsub⟩
          · rw [hmiddle, length_cons]
            omega
          · rw [hmiddle]
            intro v hv
            rcases mem_cons.1 hv with rfl | hv
            · exact .single hstep
            · exact (hway v hv).head hstep
        · cases h

end

theorem topologicalSort_error {nodes : List Node} {edges : List Edge} {message : String}
    (h : topologicalSort nodes edges = .error message) :
    ∃ n, message = "Circular dependency detected at node: " ++ n ∧
      (buildDependencyMap nodes edges).Cyclic n := by
  rcases bind_error h with h | ⟨_, _, h⟩
  · obtain ⟨node, hnode, middle, hmiddle, h⟩ := Explores.foldlM_error visit_explores h
    have hids (n : String) : (buildDependencyMap nodes edges).sources n ⊆
        nodes.map Node.id ++ edges.map Edge.source := by
      intro m hm
      obtain ⟨edge, hedge, rfl, -⟩ := mem_sources_buildDependencyMap.1 hm
      exact mem_append_right _ (mem_map_of_mem hedge)
    refine visit_error (fun n _ => hids n) ?_ ?_ ?_ ?_ ?_ h
    · simp [hmiddle]
    · simp [hmiddle]
    · exact mem_append_left _ (mem_map_of_mem hnode)
    · simp [hmiddle, searchDepth]
    · simp [hmiddle]
  · cases h

theorem topologicalSort_ordered {nodes : List Node} {edges : List Edge}
    {dependencyMap : DependencyMap} (h : topologicalSort nodes edges = .ok dependencyMap) :
    dependencyMap = buildDependencyMap nodes edges ∧
      ∃ order, Ordered dependencyMap.sources order ∧ ∀ node ∈ nodes, node.id ∈ order := by
  obtain ⟨marks, hmarks, h⟩ := bind_ok h
  cases h
  have hexplores := Explores.foldlM (f := Node.id) visit_explores hmarks
  exact ⟨rfl, marks.visited, hexplores.ordered trivial,
    fun node hnode => hexplores.reaches _ (mem_map_of_mem hnode)⟩

theorem acyclic_of_ordered
    (hends : ∀ edge ∈ edges, edge.source ∈ nodes.map Node.id ∧ edge.target ∈ nodes.map Node.id)
    (hordered : Ordered (buildDependencyMap nodes edges).sources order)
    (horder : ∀ node ∈ nodes, node.id ∈ order) :
    WellFounded fun m n => m ∈ (buildDependencyMap nodes edges).sources n := by
  constructor
  intro n
  by_cases hn : n ∈ nodes.map Node.id
  · obtain ⟨node, hnode, rfl⟩ := mem_map.1 hn
    exact hordered.acc _ (horder node hnode)
  · -- an id that is not in the chart is the target of no edge
    refine ⟨n, fun m hm => ?_⟩
    obtain ⟨edge, hedge, -, rfl⟩ := mem_sources_buildDependencyMap.1 hm
    exact absurd (hends edge hedge).2 hn

theorem nodup_of_duplicates (h : duplicates ids = []) : ids.Nodup := by
  have hidx (i : Nat) (hi : i < ids.length) : ids.idxOf ids[i] = i := by
    by_contra hne
    have hmem : (ids[i], i) ∈ ids.zipIdx.filter fun entry => ids.idxOf entry.1 != entry.2 := by
      refine mem_filter.2 ⟨List.mk_mem_zipIdx_iff_getElem?.2 ?_, by simpa using hne⟩
      exact List.getElem?_eq_getElem hi
    rw [map_eq_nil_iff.1 h] at hmem
    cases hmem
  apply nodup_iff_injective_get.2
  intro i j hij
  have hi := hidx i i.2
  have hj := hidx j j.2
  simp only [get_eq_getElem] at hij
  exact Fin.ext (by rw [← hi, ← hj, hij])

structure Accepted (nodes : List Node) (edges : List Edge) (registry : Registry)
    (dependencyMap : DependencyMap) : Prop where
  nodup : (nodes.map Node.id).Nodup
  incoming : ∀ node ∈ nodes, dependencyMap.get node.id =
    (edges.filter (·.target == node.id)).map Edge.dependency
  sources : ∀ node ∈ nodes, ∀ m ∈ dependencyMap.sources node.id, m ∈ nodes.map Node.id
  acyclic : WellFounded fun m n => m ∈ dependencyMap.sources n
  resolves : ∀ node ∈ nodes, (registry.resolveNodeSchema node).isSome

theorem definitionErrors_eq_nil (h : definitionErrors edges node nodeType schema = .ok []) : schema.isSome := by
  cases schema with
  | none => cases h
  | some input => rfl

/-- The errors of a list of nodes with none come from calls of the runtime that find a schema. -/
theorem nodeErrors_cons {resolver : SchemaResolver σ} {s : σ}
    (h : nodeErrors resolver edges (node :: nodes) s = .ok []) :
    (∃ input, (resolver.resolveInput node s).1 = .ok (some input)) ∧
      nodeErrors resolver edges nodes (resolver.resolveInput node s).2 = .ok [] := by
  rw [nodeErrors] at h
  split at h
  · obtain ⟨errors, -, h⟩ := bind_ok h
    cases h
  · split at h
    · obtain ⟨errors, -, h⟩ := bind_ok h
      cases h
    · obtain ⟨schema, hschema, h⟩ := bind_ok h
      obtain ⟨errorsOfNode, hnode, h⟩ := bind_ok h
      obtain ⟨errors, hrest, h⟩ := bind_ok h
      obtain ⟨rfl, rfl⟩ := append_eq_nil_iff.1 (Except.ok.inj h)
      obtain ⟨input, rfl⟩ := Option.isSome_iff_exists.1 (definitionErrors_eq_nil hnode)
      exact ⟨⟨input, hschema⟩, hrest⟩

theorem resolves_of_nodeErrors {registry : Registry} {schemaCache : List (String × Option ResolvedNodeSchema)}
    (h : nodeErrors registry.resolver edges nodes schemaCache = .ok [])
    (hnodup : (nodes.map Node.id).Nodup) (hnew : ∀ node ∈ nodes, schemaCache.lookup node.id = none) :
    ∀ node ∈ nodes, (registry.resolveNodeSchema node).isSome := by
  induction nodes generalizing schemaCache with
  | nil => exact forall_mem_nil _
  | cons node nodes ih =>
    obtain ⟨⟨input, hinput⟩, hrest⟩ := nodeErrors_cons h
    obtain ⟨hid, hnodup⟩ := nodup_cons.1 hnodup
    have hfirst := hnew node (mem_cons_self ..)
    simp only [Registry.resolver, hfirst] at hinput hrest
    refine forall_mem_cons.2 ⟨?_, ih hrest hnodup fun other hother => ?_⟩
    · have hsome := congrArg Option.isSome (Except.ok.inj hinput)
      rwa [Option.isSome_map] at hsome
    · have hne : other.id ≠ node.id := fun he => hid (he ▸ mem_map_of_mem hother)
      rw [lookup_cons, beq_eq_false_iff_ne.2 hne]
      exact hnew other (mem_cons_of_mem _ hother)

theorem ends_of_edgeErrors (h : edgeErrors nodeIds edge = []): edge.source ∈ nodeIds ∧ edge.target ∈ nodeIds := by
  obtain ⟨hsource, htarget⟩ := append_eq_nil_iff.1 h
  simpa using And.intro hsource htarget

/-- A workflow without errors is sorted, and each of its parts is without errors. -/
theorem SchemaResolver.validate_valid {resolver : SchemaResolver σ} {s : σ} (hne : nodes ≠ [])
    (h : resolver.validate s nodes edges asyncNodeTypes = .ok (.valid dependencyMap asyncDependencyMap)) :
    topologicalSort nodes edges = .ok dependencyMap ∧ duplicateErrors nodes = [] ∧
      (∀ edge ∈ edges, edgeErrors (nodes.map Node.id) edge = []) ∧
      nodeErrors resolver edges nodes s = .ok [] := by
  rw [SchemaResolver.validate, if_neg fun h => hne (length_eq_zero_iff.1 h)] at h
  cases hsort : topologicalSort nodes edges with
  | error message =>
    rw [hsort] at h
    obtain ⟨errorsOfNodes, hnodes, h⟩ := bind_ok h
    split at h
    · cases h
    · simp at h
  | ok sorted =>
    rw [hsort] at h
    obtain ⟨errorsOfNodes, hnodes, h⟩ := bind_ok h
    split at h
    · cases h
    · dsimp only at h
      split at h
      · cases h
      · rename_i herrors
        cases h
        simp only [gt_iff_lt, Nat.not_lt, Nat.le_zero, length_eq_zero_iff,
          append_eq_nil_iff, flatMap_eq_nil_iff] at herrors
        obtain ⟨⟨⟨-, hduplicates⟩, hedges⟩, rfl⟩ := herrors
        exact ⟨rfl, hduplicates, hedges, hnodes⟩

theorem nodup_of_duplicateErrors (h : duplicateErrors nodes = []) : (nodes.map Node.id).Nodup := by
  apply nodup_of_duplicates
  by_contra hne
  rw [duplicateErrors, if_pos (length_pos_iff.2 hne)] at h
  cases h

theorem validateWorkflow_accepted (h : validateWorkflow nodes edges registry asyncNodeTypes =
      .ok (.valid dependencyMap asyncDependencyMap)) :
    Accepted nodes edges registry dependencyMap := by
  by_cases hne : nodes = []
  · subst hne
    cases h
    exact ⟨nodup_nil, by simp, by simp, ⟨fun n => ⟨n, fun m hm => by cases hm⟩⟩, by simp⟩
  · obtain ⟨hsort, hduplicates, hedges, hnodes⟩ := SchemaResolver.validate_valid hne h
    obtain ⟨rfl, order, hordered, horder⟩ := topologicalSort_ordered hsort
    have hends : ∀ edge ∈ edges, edge.source ∈ nodes.map Node.id ∧ edge.target ∈ nodes.map Node.id :=
      fun edge hedge => ends_of_edgeErrors (hedges edge hedge)
    have hnodup := nodup_of_duplicateErrors hduplicates
    refine ⟨hnodup, fun node _ => get_buildDependencyMap nodes edges node.id, ?_,
      acyclic_of_ordered hends hordered horder, resolves_of_nodeErrors hnodes hnodup fun _ _ => rfl⟩
    intro node _ m hm
    obtain ⟨edge, hedge, rfl, -⟩ := mem_sources_buildDependencyMap.1 hm
    exact (hends edge hedge).1

end Trakrai.Workflow
