import Trakrai.Blocks.Relayout
import Trakrai.Lib.Except
import Trakrai.Lib.Json

namespace Trakrai.Blocks
open Bool Function List Lib

/-- What an edge has besides its ends; `block` is the `blockIds` of its data. Edges without data and with empty
data are not told apart, and neither does the code. -/
structure Marked (Other : Type) where
  selected : Bool
  block : Option (List String)
  other : Other
deriving DecidableEq

structure FluxeryBlockTemplate (K Other Data : Type) where
  id : Option String
  name : String
  nodes : List (Node (Placed K Other))
  edges : List (Edge (Marked Data))
  inputs : List FluxeryBlockPort
  outputs : List FluxeryBlockPort
  configFields : List FluxeryBlockConfigField

section
variable {Rest Data K Other : Type}

def attachBlockMetadataToNode (node : Node Rest) (block : Option FluxeryBlockNodeMetadata) : Node Rest :=
  { node with block := block }

def setEdgeBlockIds (edge : Edge (Marked Data)) (blockIds : List String) : Edge (Marked Data) :=
  let uniqueBlockIds := blockIds.eraseDups
  { edge with rest := { edge.rest with block := if uniqueBlockIds = [] then none else some uniqueBlockIds } }

/-- The least coordinate. None stands for the infinite one that the code starts from. -/
def least [LinearOrder K] (coordinates : List K) : Option K :=
  coordinates.foldl (fun acc coordinate => some (acc.elim coordinate (min · coordinate))) none

section
variable (display : Display Rest)

def getDefaultPortLabel (node : Node Rest) (handle : String) : String :=
  getDefaultNodeLabel display node ++ " · " ++ display.createDisplayName handle

def getDefaultConfigLabel (node : Node Rest) (key : String) : String :=
  getDefaultNodeLabel display node ++ " · " ++ display.createDisplayName key

def boundaryPort (direction : Direction) (selectedNodes : List (Node Rest)) (nodeId : String) (handle : Handle) :
    Option FluxeryBlockPort :=
  match selectedNodes.find? (·.id == nodeId), handle with
  | some node, .text handle =>
    if handle = "" then none
    else some {
      direction := direction
      handle := handle
      label := getDefaultPortLabel display node handle
      nodeId := node.id
      nodeLabel := getDefaultNodeLabel display node
      nodeType := node.type
      portId := buildPortId node.id handle }
  | _, _ => none

def templateConfigFields (selectedNodes : List (Node Rest)) : List FluxeryBlockConfigField :=
  valuesByKey (·.portId) <| selectedNodes.flatMap fun node =>
    (node.configuration.getD []).map fun key => {
      key := key
      label := getDefaultConfigLabel display node key
      nodeId := node.id
      nodeLabel := getDefaultNodeLabel display node
      nodeType := node.type
      portId := buildPortId node.id key }

end

section
variable [AddCommGroup K] [LinearOrder K] (display : Display (Placed K Other))

/-- A selected node as the template keeps it. A coordinate is least among those of the nodes, of which there is
one here. -/
def cloneNode (minX minY : Option K) (node : Node (Placed K Other)) : Node (Placed K Other) :=
  { node with
    selected := false
    block := none
    rest := { node.rest with
      position := ⟨node.rest.position.x - minX.getD 0, node.rest.position.y - minY.getD 0⟩ } }

def cloneEdge (edge : Edge (Marked Data)) : Edge (Marked Data) :=
  setEdgeBlockIds { edge with rest := { edge.rest with selected := false } } []

def buildBlockTemplateFromSelection (nodes : List (Node (Placed K Other))) (edges : List (Edge (Marked Data)))
    (selectedNodeIds : List String) (name : String) : Option (FluxeryBlockTemplate K Other Data) :=
  if selectedNodeIds.eraseDups.length < 2 then none
  else
    let selectedNodes := nodes.filter fun node => selectedNodeIds.contains node.id
    if selectedNodes.any fun node => (getBlockMetadata node).isSome then none
    else
      let minX := least (selectedNodes.map (·.rest.position.x))
      let minY := least (selectedNodes.map (·.rest.position.y))
      let boundaryInputs := edges.filter fun edge =>
        !selectedNodeIds.contains edge.source && selectedNodeIds.contains edge.target
      let boundaryOutputs := edges.filter fun edge =>
        selectedNodeIds.contains edge.source && !selectedNodeIds.contains edge.target
      some {
        id := none
        name := name
        nodes := selectedNodes.map (cloneNode minX minY)
        edges := (edges.filter fun edge =>
          selectedNodeIds.contains edge.source && selectedNodeIds.contains edge.target).map cloneEdge
        inputs := valuesByKey (·.portId) <| boundaryInputs.filterMap fun edge =>
          boundaryPort display .input selectedNodes edge.target edge.targetHandle
        outputs := valuesByKey (·.portId) <| boundaryOutputs.filterMap fun edge =>
          boundaryPort display .output selectedNodes edge.source edge.sourceHandle
        configFields := templateConfigFields display selectedNodes }

/-- `Object.fromEntries`, its properties in their order. -/
def fromEntries (entries : List (String × String)) : List (String × String) :=
  objectEntries (entries.foldl (fun fields entry => setKey fields entry.1 entry.2) [])

def portLabels (ports : List FluxeryBlockPort) (templateNodeId : String) : List (String × String) :=
  fromEntries ((ports.filter (·.nodeId == templateNodeId)).map fun port => (port.handle, port.label))

def getTemplateNodeMetadata (template : FluxeryBlockTemplate K Other Data) (templateNodeId blockId : String) :
    FluxeryBlockNodeMetadata where
  blockId := blockId
  configLabels := some (fromEntries ((template.configFields.filter (·.nodeId == templateNodeId)).map fun field =>
    (field.key, field.label)))
  inputLabels := some (portLabels template.inputs templateNodeId)
  nodeLabel := (template.nodes.find? (·.id == templateNodeId)).map (getDefaultNodeLabel display)
  outputLabels := some (portLabels template.outputs templateNodeId)
  templateId := template.id
  templateName := some template.name

section
variable (randomUUID : Nat → String)

/-- The nodes get the first ids that are drawn. -/
def nodeIdMap (nodes : List (Node (Placed K Other))) : List (String × String) :=
  (nodes.zipIdx.map fun entry => (entry.1.id, randomUUID entry.2)).foldl
    (fun map entry => setKey map entry.1 entry.2) []

section
variable (template : FluxeryBlockTemplate K Other Data)

def instantiateNode (blockId : String) (position : Position K)
    (node : Node (Placed K Other)) : Except String (Node (Placed K Other)) :=
  match (nodeIdMap randomUUID template.nodes).lookup node.id with
  | none => .error ("Missing mapped node id for template node " ++ node.id)
  | some nextId => .ok (attachBlockMetadataToNode { node with
        id := nextId
        selected := true
        rest := { node.rest with
          position := ⟨position.x + node.rest.position.x, position.y + node.rest.position.y⟩ } }
      (some (getTemplateNodeMetadata display template node.id blockId)))

def instantiateEdge (blockId : String)
    (entry : Edge (Marked Data) × Nat) : Except String (Edge (Marked Data)) :=
  match (nodeIdMap randomUUID template.nodes).lookup entry.1.source,
      (nodeIdMap randomUUID template.nodes).lookup entry.1.target with
  | some source, some target => .ok (setEdgeBlockIds { entry.1 with
        id := randomUUID (template.nodes.length + entry.2)
        source := source
        target := target
        rest := { entry.1.rest with selected := false } } [blockId])
  | _, _ => .error ("Missing mapped edge node for template edge " ++ entry.1.id)

/-- The edges and the nodes of a new instance. -/
def instantiateBlockTemplate (blockId : String)
    (position : Position K) : Except String (List (Edge (Marked Data)) × List (Node (Placed K Other))) := do
  let nodes ← template.nodes.mapM (instantiateNode display randomUUID template blockId position)
  let edges ← template.edges.zipIdx.mapM (instantiateEdge randomUUID template blockId)
  .ok (edges, nodes)

end

end

end

end

def subgraphNodes (nodes : List (Node Rest)) (selectedNodeIds : List String) : List (Node Rest) :=
  nodes.filter fun node => selectedNodeIds.contains node.id

def subgraphEdges (edges : List (Edge Data)) (selectedNodeIds : List String) : List (Edge Data) :=
  edges.filter fun edge => selectedNodeIds.contains edge.source && selectedNodeIds.contains edge.target

/-- A handle of a selected node to which an edge comes from outside the selection, or from which one leaves it. -/
def BoundaryEnd (edges : List (Edge Data)) (selectedNodeIds : List String) :
    Direction → String × String → Prop
  | .input, (nodeId, handle) => handle ≠ "" ∧ nodeId ∈ selectedNodeIds ∧ ∃ edge ∈ edges,
      edge.source ∉ selectedNodeIds ∧ edge.target = nodeId ∧ edge.targetHandle = .text handle
  | .output, (nodeId, handle) => handle ≠ "" ∧ nodeId ∈ selectedNodeIds ∧ ∃ edge ∈ edges,
      edge.target ∉ selectedNodeIds ∧ edge.source = nodeId ∧ edge.sourceHandle = .text handle

/-- Ports that are the boundary ends of one direction, each once. -/
structure ExactPorts (edges : List (Edge Data)) (selectedNodeIds : List String) (direction : Direction)
    (ports : List FluxeryBlockPort) : Prop where
  directed : ∀ port ∈ ports, port.direction = direction
  nodup : (ports.map fun port => (port.nodeId, port.handle)).Nodup
  mem_iff : ∀ boundary, boundary ∈ ports.map (fun port => (port.nodeId, port.handle)) ↔
    BoundaryEnd edges selectedNodeIds direction boundary

/-- A node of a block that is a copy of another node, moved and under its new id. -/
structure NodeCopy [Add K] (rename : String → String) (delta : Position K) (blockId : String)
    (node node' : Node (Placed K Other)) : Prop where
  id : node'.id = rename node.id
  type : node'.type = node.type
  title : node'.title = node.title
  configuration : node'.configuration = node.configuration
  position : node'.rest.position = node.rest.position.add delta
  rest : { node'.rest with position := node.rest.position } = node.rest
  block : node'.block.map (·.blockId) = some blockId

structure EdgeCopy (rename : String → String) (blockId : String) (edge edge' : Edge (Marked Data)) : Prop where
  source : edge'.source = rename edge.source
  sourceHandle : edge'.sourceHandle = edge.sourceHandle
  target : edge'.target = rename edge.target
  targetHandle : edge'.targetHandle = edge.targetHandle
  rawEdgeId : edge'.rawEdgeId = edge.rawEdgeId
  other : edge'.rest.other = edge.rest.other
  block : edge'.rest.block = some [blockId]

/-- A block that is a graph isomorphic to another one. -/
structure IsoBlock [Add K] (blockId : String) (nodes : List (Node (Placed K Other))) (edges : List (Edge (Marked Data)))
    (nodes' : List (Node (Placed K Other))) (edges' : List (Edge (Marked Data))) (rename : String → String)
    (delta : Position K) : Prop where
  injOn : Set.InjOn rename { nodeId | nodeId ∈ nodes.map (·.id) }
  nodes : List.Forall₂ (NodeCopy rename delta blockId) nodes nodes'
  edges : List.Forall₂ (EdgeCopy rename blockId) edges edges'
  edgeIds : (edges'.map (·.id)).Nodup

section
variable {K Other Data : Type} {nodes : List (Node (Placed K Other))} {randomUUID : Nat → String}

def renameBy (randomUUID : Nat → String) (nodes : List (Node (Placed K Other))) (nodeId : String) : String :=
  ((nodeIdMap randomUUID nodes).lookup nodeId).getD nodeId

theorem nodeIdMap_eq (h : (nodes.map (·.id)).Nodup) :
    nodeIdMap randomUUID nodes = nodes.zipIdx.map fun entry => (entry.1.id, randomUUID entry.2) := by
  have hkeys : (nodes.zipIdx.map fun entry => (entry.1.id, randomUUID entry.2)).map Prod.fst =
      nodes.map (·.id) := by
    rw [map_map, ← congrArg (List.map (·.id)) (zipIdx_map_fst 0 nodes), map_map]
    rfl
  rw [nodeIdMap, foldl_setKey_of_nodup, nil_append]
  rw [nil_append, hkeys]
  exact h

theorem lookup_nodeIdMap (randomUUID : Nat → String) (h : (nodes.map (·.id)).Nodup) (hnode : nodes[i]? = some node) :
    (nodeIdMap randomUUID nodes).lookup node.id = some (randomUUID i) := by
  have hkeys : ((nodeIdMap randomUUID nodes).map Prod.fst).Nodup := by
    rw [nodeIdMap, foldl_map]
    exact nodup_foldl_setKey _ _ _ nodup_nil
  apply lookup_of_mem hkeys
  rw [nodeIdMap_eq h]
  exact mem_map.2 ⟨(node, i), List.mk_mem_zipIdx_iff_getElem?.2 hnode, rfl⟩

theorem exists_nextId (randomUUID : Nat → String) (h : (nodes.map (·.id)).Nodup) (hid : nodeId ∈ nodes.map (·.id)) :
    ∃ i, (nodes[i]?).map (·.id) = some nodeId ∧ renameBy randomUUID nodes nodeId = randomUUID i ∧
      (nodeIdMap randomUUID nodes).lookup nodeId = some (renameBy randomUUID nodes nodeId) := by
  obtain ⟨node, hnode, rfl⟩ := mem_map.1 hid
  obtain ⟨i, hi⟩ := List.mem_iff_getElem?.1 hnode
  have hlookup := lookup_nodeIdMap randomUUID h hi
  have hrename : renameBy randomUUID nodes node.id = randomUUID i := by
    rw [renameBy, hlookup]
    rfl
  exact ⟨i, by rw [hi]; rfl, hrename, by rw [hlookup, hrename]⟩

theorem renameBy_injOn (h : (nodes.map (·.id)).Nodup) (hfresh : Injective randomUUID) :
    Set.InjOn (renameBy randomUUID nodes) { nodeId | nodeId ∈ nodes.map (·.id) } := by
  intro nodeId hid nodeId' hid' he
  obtain ⟨i, hi, hrename, -⟩ := exists_nextId randomUUID h hid
  obtain ⟨j, hj, hrename', -⟩ := exists_nextId randomUUID h hid'
  rw [hrename, hrename'] at he
  obtain rfl := hfresh he
  exact Option.some.inj (hi.symm.trans hj)

section
variable {display : Display (Placed K Other)}
  {template : FluxeryBlockTemplate K Other Data} {blockId : String} {position : Position K}

variable (display blockId position) in
theorem instantiateNode_ok [AddCommGroup K] (randomUUID : Nat → String) (h : (template.nodes.map (·.id)).Nodup)
    (hnode : node ∈ template.nodes) :
    ∃ node', instantiateNode display randomUUID template blockId position node = .ok node' ∧
      NodeCopy (renameBy randomUUID template.nodes) position blockId node node' := by
  obtain ⟨-, -, -, hlookup⟩ :=
    exists_nextId randomUUID h (mem_map_of_mem hnode)
  rw [instantiateNode, hlookup]
  refine ⟨_, rfl, rfl, rfl, rfl, rfl, ?_, rfl, rfl⟩
  simp only [attachBlockMetadataToNode, Position.add, add_comm]

def Closed (template : FluxeryBlockTemplate K Other Data) : Prop :=
  ∀ edge ∈ template.edges, edge.source ∈ template.nodes.map (·.id) ∧ edge.target ∈ template.nodes.map (·.id)

variable (blockId) in
theorem instantiateEdge_ok (randomUUID : Nat → String) (h : (template.nodes.map (·.id)).Nodup) (hclosed : Closed template)
    (hedge : entry.1 ∈ template.edges) :
    ∃ edge', instantiateEdge randomUUID template blockId entry = .ok edge' ∧
      edge'.id = randomUUID (template.nodes.length + entry.2) ∧
      EdgeCopy (renameBy randomUUID template.nodes) blockId entry.1 edge' := by
  obtain ⟨hsource, htarget⟩ := hclosed _ hedge
  obtain ⟨-, -, -, hsource⟩ := exists_nextId randomUUID h hsource
  obtain ⟨-, -, -, htarget⟩ := exists_nextId randomUUID h htarget
  rw [instantiateEdge, hsource, htarget]
  exact ⟨_, rfl, rfl, rfl, rfl, rfl, rfl, rfl, rfl, rfl⟩

variable (display blockId position) in
theorem instantiateBlockTemplate_ok [AddCommGroup K] (h : (template.nodes.map (·.id)).Nodup) (hclosed : Closed template)
    (hfresh : Injective randomUUID) :
    ∃ edges' nodes', instantiateBlockTemplate display randomUUID template blockId position = .ok (edges', nodes') ∧
      IsoBlock blockId template.nodes template.edges nodes' edges' (renameBy randomUUID template.nodes) position := by
  obtain ⟨nodes', hnodes, hcopies⟩ := mapM_ok_of_forall fun node hnode =>
    instantiateNode_ok display blockId position randomUUID h hnode
  obtain ⟨edges', hedges, hcopied⟩ := mapM_ok_of_forall fun entry (hentry : entry ∈ template.edges.zipIdx) =>
    instantiateEdge_ok blockId randomUUID h hclosed (fst_mem_of_mem_zipIdx hentry)
  refine ⟨edges', nodes', ?_, renameBy_injOn h hfresh, hcopies, ?_, ?_⟩
  · rw [instantiateBlockTemplate, hnodes, hedges]
    rfl
  · have hall := hcopied.imp fun _ _ hcopy => hcopy.2
    rwa [← List.forall₂_map_left_iff (f := Prod.fst), zipIdx_map_fst] at hall
  · have hids : List.Forall₂ (· = ·) (template.edges.zipIdx.map fun entry =>
        randomUUID (template.nodes.length + entry.2)) (edges'.map (·.id)) := by
      rw [List.forall₂_map_left_iff, List.forall₂_map_right_iff]
      exact hcopied.imp fun _ _ hcopy => hcopy.1.symm
    rw [List.forall₂_eq_eq_eq] at hids
    have hnumbers : (template.edges.zipIdx.map Prod.snd).Nodup := by
      rw [zipIdx_map_snd]
      exact nodup_range'
    rw [← hids]
    have hcomp := hnumbers.map (f := fun i => randomUUID (template.nodes.length + i)) fun i j he =>
      Nat.add_left_cancel (hfresh he)
    rwa [map_map] at hcomp

end

end

section
variable {Rest Data : Type} {display : Display Rest} {direction : Direction} {selectedNodes : List (Node Rest)}
  {edges : List (Edge Data)} {selectedNodeIds : List String}

theorem boundaryPort_eq_some
    (h : boundaryPort display direction selectedNodes nodeId handle = some port) :
    port.nodeId = nodeId ∧ handle = .text port.handle ∧ port.handle ≠ "" ∧ port.direction = direction ∧
      port.portId = buildPortId port.nodeId port.handle := by
  unfold boundaryPort at h
  split at h
  · rename_i node handle hfind
    split at h
    · cases h
    · rename_i hne
      cases h
      exact ⟨(mem_of_find?_key hfind).2, rfl, hne, rfl, rfl⟩
  · cases h

variable (display direction) in
theorem exists_boundaryPort (h : nodeId ∈ selectedNodes.map (·.id)) (hne : handle ≠ "") :
    ∃ port, boundaryPort display direction selectedNodes nodeId (.text handle) = some port := by
  cases hfind : selectedNodes.find? (·.id == nodeId) with
  | none =>
    obtain ⟨node, hnode, rfl⟩ := mem_map.1 h
    exact absurd (any_key_iff.2 ⟨node, hnode, rfl⟩) (find?_key_eq_none_iff.1 hfind)
  | some node =>
    unfold boundaryPort
    rw [hfind]
    dsimp only
    rw [if_neg hne]
    exact ⟨_, rfl⟩

/-- Different ends of one direction have different port ids. -/
def Unambiguous (edges : List (Edge Data)) (selectedNodeIds : List String) (direction : Direction) : Prop :=
  ∀ boundary boundary', BoundaryEnd edges selectedNodeIds direction boundary →
    BoundaryEnd edges selectedNodeIds direction boundary' →
    buildPortId boundary.1 boundary.2 = buildPortId boundary'.1 boundary'.2 → boundary = boundary'

variable (display direction selectedNodes edges selectedNodeIds) in
theorem exactPorts_iff (ends : List (String × Handle)) (hends : ∀ nodeId handle,
      BoundaryEnd edges selectedNodeIds direction (nodeId, handle) ↔ handle ≠ "" ∧ (nodeId, .text handle) ∈ ends)
    (hselected : ∀ nodeId handle, (nodeId, handle) ∈ ends → nodeId ∈ selectedNodes.map (·.id)) :
    ExactPorts edges selectedNodeIds direction (valuesByKey (·.portId) <|
      ends.filterMap fun boundary => boundaryPort display direction selectedNodes boundary.1 boundary.2) ↔
    Unambiguous edges selectedNodeIds direction := by
  generalize hrows : (ends.filterMap fun boundary =>
    boundaryPort display direction selectedNodes boundary.1 boundary.2) = rows
  have hboundary : ∀ port ∈ rows, BoundaryEnd edges selectedNodeIds direction (port.nodeId, port.handle) ∧
      boundaryPort display direction selectedNodes port.nodeId (.text port.handle) = some port := by
    intro port hport
    rw [← hrows] at hport
    obtain ⟨⟨nodeId, handle⟩, hmem, hport⟩ := mem_filterMap.1 hport
    obtain ⟨hid, rfl, hne, -⟩ := boundaryPort_eq_some hport
    dsimp only at hid
    subst hid
    exact ⟨(hends _ _).2 ⟨hne, hmem⟩, hport⟩
  have hexists : ∀ boundary, BoundaryEnd edges selectedNodeIds direction boundary →
      ∃ port ∈ rows, (port.nodeId, port.handle) = boundary := by
    rintro ⟨nodeId, handle⟩ h
    obtain ⟨hne, hmem⟩ := (hends _ _).1 h
    obtain ⟨port, hport⟩ := exists_boundaryPort display direction (hselected _ _ hmem) hne
    obtain ⟨hid, hhandle, -⟩ := boundaryPort_eq_some hport
    refine ⟨port, hrows ▸ mem_filterMap.2 ⟨_, hmem, hport⟩, Prod.ext hid ?_⟩
    exact (Handle.text.inj hhandle).symm
  have hportId : ∀ port ∈ rows, port.portId = buildPortId port.nodeId port.handle := fun port hport =>
    (boundaryPort_eq_some (hboundary port hport).2).2.2.2.2
  have hnodup := nodup_valuesByKey (·.portId) rows
  constructor
  · intro hexact boundary boundary' h h' he
    obtain ⟨port, hport, rfl⟩ := mem_map.1 ((hexact.mem_iff _).2 h)
    obtain ⟨port', hport', rfl⟩ := mem_map.1 ((hexact.mem_iff _).2 h')
    rw [← hportId port (mem_of_mem_valuesByKey hport), ← hportId port' (mem_of_mem_valuesByKey hport')] at he
    rw [inj_on_of_nodup_map hnodup hport hport' he]
  · intro hunique
    refine ⟨fun port hport => ?_, ?_, fun boundary => ⟨fun hmem => ?_, fun h => ?_⟩⟩
    · exact (boundaryPort_eq_some (hboundary port (mem_of_mem_valuesByKey hport)).2).2.2.2.1
    · have hids : (valuesByKey (·.portId) rows).map (·.portId) =
          ((valuesByKey (·.portId) rows).map fun port => (port.nodeId, port.handle)).map
            fun boundary => buildPortId boundary.1 boundary.2 := by
        rw [map_map]
        exact map_congr_left fun port hport => hportId port (mem_of_mem_valuesByKey hport)
      rw [hids] at hnodup
      exact hnodup.of_map _
    · obtain ⟨port, hport, rfl⟩ := mem_map.1 hmem
      exact (hboundary port (mem_of_mem_valuesByKey hport)).1
    · obtain ⟨port, hport, rfl⟩ := hexists boundary h
      apply mem_map_of_mem (f := fun port : FluxeryBlockPort => (port.nodeId, port.handle))
      apply mem_valuesByKey_of_unique hport
      intro port' hport' he
      rw [hportId port' hport', hportId port hport] at he
      have hsame := hunique _ _ (hboundary port' hport').1 h he
      have hport := (hboundary port hport).2
      rw [← (Prod.mk.inj hsame).1, ← (Prod.mk.inj hsame).2, (hboundary port' hport').2] at hport
      exact Option.some.inj hport

end

section
variable {K Other Data : Type} {rename : String → String} {blockId : String}

theorem EdgeCopy.of_clone (h : EdgeCopy rename blockId (cloneEdge edge) edge') :
    EdgeCopy rename blockId edge edge' :=
  ⟨h.source, h.sourceHandle, h.target, h.targetHandle, h.rawEdgeId, h.other, h.block⟩

variable [AddCommGroup K]

theorem NodeCopy.of_clone [LinearOrder K] {minX minY : Option K} {position : Position K}
    {node node' : Node (Placed K Other)} (h : NodeCopy rename position blockId (cloneNode minX minY node) node') :
    NodeCopy rename (position.sub ⟨minX.getD 0, minY.getD 0⟩) blockId node node' where
  id := h.id
  type := h.type
  title := h.title
  configuration := h.configuration
  position := by
    rw [h.position]
    simp only [cloneNode, Position.add, Position.sub, sub_add_eq_add_sub, add_sub_assoc]
  rest := congrArg (fun rest : Placed K Other => { rest with position := node.rest.position }) h.rest
  block := h.block

section
variable [LinearOrder K] {display : Display (Placed K Other)} {nodes : List (Node (Placed K Other))}
  {edges : List (Edge (Marked Data))} {selectedNodeIds : List String} {name : String}
  {template : FluxeryBlockTemplate K Other Data}

theorem template_eq (h : buildBlockTemplateFromSelection display nodes edges selectedNodeIds name = some template) :
    (∃ minX minY, template.nodes = (subgraphNodes nodes selectedNodeIds).map (cloneNode minX minY)) ∧
    template.edges = (subgraphEdges edges selectedNodeIds).map cloneEdge ∧
    template.inputs = (valuesByKey (·.portId) <| (edges.filter fun edge =>
      !selectedNodeIds.contains edge.source && selectedNodeIds.contains edge.target).filterMap fun edge =>
        boundaryPort display .input (subgraphNodes nodes selectedNodeIds) edge.target edge.targetHandle) ∧
    template.outputs = (valuesByKey (·.portId) <| (edges.filter fun edge =>
      selectedNodeIds.contains edge.source && !selectedNodeIds.contains edge.target).filterMap fun edge =>
        boundaryPort display .output (subgraphNodes nodes selectedNodeIds) edge.source edge.sourceHandle) := by
  unfold buildBlockTemplateFromSelection at h
  split at h
  · cases h
  · dsimp only at h
    split at h
    · cases h
    · cases h
      exact ⟨⟨_, _, rfl⟩, rfl, rfl, rfl⟩

omit [AddCommGroup K] [LinearOrder K] in
theorem mem_subgraphNodes {nodeId : String} (h : nodeId ∈ nodes.map (·.id)) (hselected : nodeId ∈ selectedNodeIds) :
    nodeId ∈ (subgraphNodes nodes selectedNodeIds).map (·.id) := by
  obtain ⟨node, hnode, rfl⟩ := mem_map.1 h
  exact mem_map_of_mem (mem_filter.2 ⟨hnode, contains_iff_mem.2 hselected⟩)

def NoDangling (nodes : List (Node (Placed K Other))) (edges : List (Edge (Marked Data))) : Prop :=
  ∀ edge ∈ edges, edge.source ∈ nodes.map (·.id) ∧ edge.target ∈ nodes.map (·.id)

theorem inputs_exact_iff (hedges : NoDangling nodes edges)
    (h : buildBlockTemplateFromSelection display nodes edges selectedNodeIds name = some template) :
    ExactPorts edges selectedNodeIds .input template.inputs ↔ Unambiguous edges selectedNodeIds .input := by
  have hports := exactPorts_iff display .input (subgraphNodes nodes selectedNodeIds) edges selectedNodeIds
    ((edges.filter fun edge => !selectedNodeIds.contains edge.source && selectedNodeIds.contains edge.target).map fun edge =>
      (edge.target, edge.targetHandle))
  rw [filterMap_map] at hports
  rw [(template_eq h).2.2.1]
  apply hports
  · intro nodeId handle
    simp only [BoundaryEnd, mem_map, mem_filter, and_eq_true, not_eq_true',
      contains_eq_mem, decide_eq_true_eq, decide_eq_false_iff_not, Prod.mk.injEq]
    refine and_congr_right fun _ => ?_
    constructor
    · rintro ⟨hselected, edge, hedge, hsource, rfl, hhandle⟩
      exact ⟨edge, ⟨hedge, hsource, hselected⟩, rfl, hhandle⟩
    · rintro ⟨edge, ⟨hedge, hsource, hselected⟩, rfl, hhandle⟩
      exact ⟨hselected, edge, hedge, hsource, rfl, hhandle⟩
  · intro nodeId handle hmem
    obtain ⟨edge, hedge, he⟩ := mem_map.1 hmem
    obtain ⟨rfl, rfl⟩ := Prod.mk.inj he
    simp only [mem_filter, and_eq_true, contains_iff_mem] at hedge
    exact mem_subgraphNodes (hedges edge hedge.1).2 hedge.2.2

theorem outputs_exact_iff (hedges : NoDangling nodes edges)
    (h : buildBlockTemplateFromSelection display nodes edges selectedNodeIds name = some template) :
    ExactPorts edges selectedNodeIds .output template.outputs ↔ Unambiguous edges selectedNodeIds .output := by
  have hports := exactPorts_iff display .output (subgraphNodes nodes selectedNodeIds) edges selectedNodeIds
    ((edges.filter fun edge => selectedNodeIds.contains edge.source && !selectedNodeIds.contains edge.target).map fun edge =>
      (edge.source, edge.sourceHandle))
  rw [filterMap_map] at hports
  rw [(template_eq h).2.2.2]
  apply hports
  · intro nodeId handle
    simp only [BoundaryEnd, mem_map, mem_filter, and_eq_true, not_eq_true',
      contains_eq_mem, decide_eq_true_eq, decide_eq_false_iff_not, Prod.mk.injEq]
    refine and_congr_right fun _ => ?_
    constructor
    · rintro ⟨hselected, edge, hedge, htarget, rfl, hhandle⟩
      exact ⟨edge, ⟨hedge, hselected, htarget⟩, rfl, hhandle⟩
    · rintro ⟨edge, ⟨hedge, hselected, htarget⟩, rfl, hhandle⟩
      exact ⟨hselected, edge, hedge, htarget, rfl, hhandle⟩
  · intro nodeId handle hmem
    obtain ⟨edge, hedge, he⟩ := mem_map.1 hmem
    obtain ⟨rfl, rfl⟩ := Prod.mk.inj he
    simp only [mem_filter, and_eq_true, contains_iff_mem] at hedge
    exact mem_subgraphNodes (hedges edge hedge.1).1 hedge.2.1

theorem instance_isoBlock (hids : (nodes.map (·.id)).Nodup) (hedges : NoDangling nodes edges)
    (h : buildBlockTemplateFromSelection display nodes edges selectedNodeIds name = some template)
    {randomUUID : Nat → String} (hfresh : Injective randomUUID) (blockId : String)
    (position : Position K) :
    ∃ edges' nodes', instantiateBlockTemplate display randomUUID template blockId position = .ok (edges', nodes') ∧
      ∃ rename delta, IsoBlock blockId (subgraphNodes nodes selectedNodeIds) (subgraphEdges edges selectedNodeIds)
        nodes' edges' rename delta := by
  obtain ⟨⟨minX, minY, hnodes⟩, htemplateEdges, -⟩ := template_eq h
  have htemplateIds : template.nodes.map (·.id) = (subgraphNodes nodes selectedNodeIds).map (·.id) := by
    rw [hnodes, map_map]
    rfl
  have hnodup : (template.nodes.map (·.id)).Nodup := by
    rw [htemplateIds]
    exact hids.sublist (filter_sublist.map _)
  have hclosed : Closed template := by
    intro edge hedge
    rw [htemplateEdges] at hedge
    obtain ⟨edge, hmem, rfl⟩ := mem_map.1 hedge
    obtain ⟨hedge, hselected⟩ := mem_filter.1 hmem
    rw [and_eq_true, contains_iff_mem, contains_iff_mem] at hselected
    rw [htemplateIds]
    exact ⟨mem_subgraphNodes (hedges edge hedge).1 hselected.1,
      mem_subgraphNodes (hedges edge hedge).2 hselected.2⟩
  obtain ⟨edges', nodes', hinstance, hinj, hcopies, hedgeCopies, hedgeIds⟩ :=
    instantiateBlockTemplate_ok display blockId position hnodup hclosed hfresh
  refine ⟨edges', nodes', hinstance, renameBy randomUUID template.nodes,
    position.sub ⟨minX.getD 0, minY.getD 0⟩, ?_, ?_, ?_, hedgeIds⟩
  · rwa [htemplateIds] at hinj
  · rw [hnodes, List.forall₂_map_left_iff] at hcopies
    rw [hnodes]
    exact hcopies.imp fun _ _ => NodeCopy.of_clone
  · rw [htemplateEdges, List.forall₂_map_left_iff] at hedgeCopies
    exact hedgeCopies.imp fun _ _ => EdgeCopy.of_clone

/-- Templates are faithful just when no two boundary ends of one direction have the same port id. -/
theorem blockTemplate_faithful_iff (hids : (nodes.map (·.id)).Nodup) (hedges : NoDangling nodes edges)
    (h : buildBlockTemplateFromSelection display nodes edges selectedNodeIds name = some template) :
    ((∀ randomUUID : Nat → String, Injective randomUUID → ∀ blockId position,
        ∃ edges' nodes', instantiateBlockTemplate display randomUUID template blockId position =
          .ok (edges', nodes') ∧
          ∃ rename delta, IsoBlock blockId (subgraphNodes nodes selectedNodeIds)
            (subgraphEdges edges selectedNodeIds) nodes' edges' rename delta) ∧
      ExactPorts edges selectedNodeIds .input template.inputs ∧
      ExactPorts edges selectedNodeIds .output template.outputs) ↔
    ∀ direction, Unambiguous edges selectedNodeIds direction := by
  rw [inputs_exact_iff hedges h, outputs_exact_iff hedges h]
  constructor
  · rintro ⟨-, hinputs, houtputs⟩ direction
    cases direction with
    | input => exact hinputs
    | output => exact houtputs
  · intro hunique
    refine ⟨fun randomUUID hfresh blockId position => ?_, hunique .input, hunique .output⟩
    exact instance_isoBlock hids hedges h hfresh blockId position

end

end

def wire (id source target handle : String) : Edge (Marked Unit) :=
  ⟨id, source, .text "out", target, .text handle, none, ⟨false, none, ()⟩⟩

def wiredNodes (first second : String) : List (Node (Placed Int Unit)) :=
  [rawNode first none 40 10, rawNode second none 20 60, rawNode "mail" none 200 0]

theorem blockTemplate_faithful_iff_desk :
    ∃ template, buildBlockTemplateFromSelection (canvas plainLook) (wiredNodes "detect" "count")
        [wire "e1" "detect" "count" "in", wire "e2" "mail" "detect" "go"] ["detect", "count"] "Desk" = some template ∧
      (∃ edges' nodes', instantiateBlockTemplate (canvas plainLook) (fun i => String.ofList (List.replicate i 'a'))
        template "b1" ⟨0, 0⟩ = .ok (edges', nodes')) ∧
      ExactPorts [wire "e1" "detect" "count" "in", wire "e2" "mail" "detect" "go"] ["detect", "count"] .input
        template.inputs := by
  obtain ⟨template, h⟩ := Option.isSome_iff_exists.1 (show (buildBlockTemplateFromSelection (canvas plainLook)
    (wiredNodes "detect" "count") [wire "e1" "detect" "count" "in", wire "e2" "mail" "detect" "go"]
    ["detect", "count"] "Desk").isSome = true by decide +kernel)
  have hunique : ∀ direction, Unambiguous [wire "e1" "detect" "count" "in", wire "e2" "mail" "detect" "go"]
      ["detect", "count"] direction := by
    rintro direction ⟨nodeId, handle⟩ ⟨nodeId', handle'⟩ h h' -
    cases direction with
    | input =>
      simp [BoundaryEnd, wire] at h h'
      simp [← h.2.2.1, ← h'.2.2.1, ← h.2.2.2, ← h'.2.2.2]
    | output => simp [BoundaryEnd, wire] at h
  have hids : ((wiredNodes "detect" "count").map (·.id)).Nodup := by decide
  have hedges : NoDangling (wiredNodes "detect" "count")
      [wire "e1" "detect" "count" "in", wire "e2" "mail" "detect" "go"] := by
    unfold NoDangling
    decide
  have hfresh : Injective fun i => String.ofList (List.replicate i 'a') := by
    intro i j he
    simpa using congrArg List.length (String.ofList_injective he)
  obtain ⟨hinstance, hinputs, -⟩ := (blockTemplate_faithful_iff hids hedges h).2 hunique
  obtain ⟨edges', nodes', hok, -⟩ := hinstance _ hfresh "b1" ⟨0, 0⟩
  exact ⟨template, h, ⟨edges', nodes', hok⟩, hinputs⟩

/-- Two handles of which the template keeps one. -/
theorem ports_merged : ((wiredNodes "a" "a:").map (·.id)).Nodup ∧
    NoDangling (wiredNodes "a" "a:") [wire "e1" "mail" "a" ":h", wire "e2" "mail" "a:" "h"] ∧
    ∃ template, buildBlockTemplateFromSelection (canvas plainLook) (wiredNodes "a" "a:")
        [wire "e1" "mail" "a" ":h", wire "e2" "mail" "a:" "h"] ["a", "a:"] "Desk" = some template ∧
      ¬ ExactPorts [wire "e1" "mail" "a" ":h", wire "e2" "mail" "a:" "h"] ["a", "a:"] .input template.inputs := by
  have hedges : NoDangling (wiredNodes "a" "a:") [wire "e1" "mail" "a" ":h", wire "e2" "mail" "a:" "h"] := by
    unfold NoDangling
    decide
  obtain ⟨template, h⟩ := Option.isSome_iff_exists.1 (show (buildBlockTemplateFromSelection (canvas plainLook)
    (wiredNodes "a" "a:") [wire "e1" "mail" "a" ":h", wire "e2" "mail" "a:" "h"] ["a", "a:"] "Desk").isSome = true
    by decide +kernel)
  refine ⟨by decide, hedges, template, h, fun hexact => ?_⟩
  have hsame := (inputs_exact_iff hedges h).1 hexact ("a", ":h") ("a:", "h")
    ⟨by decide, by decide, wire "e1" "mail" "a" ":h", mem_cons_self .., by decide, rfl, rfl⟩
    ⟨by decide, by decide, wire "e2" "mail" "a:" "h", mem_cons_of_mem _ (mem_cons_self ..), by decide,
      rfl, rfl⟩ (by decide)
  revert hsame
  decide

end Trakrai.Blocks
