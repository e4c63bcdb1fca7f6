import Trakrai.Lib.Split
import Trakrai.Lib.Table
import Mathlib.Data.List.Nodup
import Mathlib.Data.List.Sort

namespace Trakrai.Blocks
open Lib

def FLUXERY_BLOCK_NODE_TYPE : String := "__fluxery_block__"
def BLOCK_HANDLE_SEPARATOR : String := "::"
def BLOCK_INPUT_HANDLE_PREFIX : String := "block-input"
def BLOCK_OUTPUT_HANDLE_PREFIX : String := "block-output"
def BLOCK_ID_LABEL_LENGTH : Nat := 8

inductive Direction where
  | input
  | output
deriving DecidableEq, Repr

/-- A handle of an edge: `string | null | undefined`. -/
inductive Handle where
  | undefined
  | null
  | text (value : String)
deriving DecidableEq, Repr

/-- `handle ?? ''` -/
def Handle.orEmpty : Handle → String
  | .text value => value
  | _ => ""

structure FluxeryBlockPort where
  direction : Direction
  handle : String
  label : String
  nodeId : String
  nodeLabel : String
  nodeType : Option String
  portId : String
deriving DecidableEq, Repr

structure FluxeryBlockConfigField where
  key : String
  label : String
  nodeId : String
  nodeLabel : String
  nodeType : Option String
  portId : String
deriving DecidableEq, Repr

structure FluxeryBlockNodeMetadata where
  blockId : String
  configLabels : Option (List (String × String)) := none
  inputLabels : Option (List (String × String)) := none
  nodeLabel : Option String := none
  outputLabels : Option (List (String × String)) := none
  templateId : Option String := none
  templateName : Option String := none
deriving DecidableEq, Repr

/-- A raw node. What is no object or not a text is absent; of a configuration the keys count. -/
structure Node (Rest : Type) where
  id : String
  type : Option String
  selected : Bool
  block : Option FluxeryBlockNodeMetadata
  title : Option String
  configuration : Option (List String)
  rest : Rest
deriving DecidableEq

/-- A raw edge, with the `rawEdgeId` of its data. -/
structure Edge (Rest : Type) where
  id : String
  source : String
  sourceHandle : Handle
  target : String
  targetHandle : Handle
  rawEdgeId : Option String
  rest : Rest
deriving DecidableEq

structure Connection where
  source : String
  sourceHandle : Handle
  target : String
  targetHandle : Handle
deriving DecidableEq, Repr

structure FluxeryBlockInstance (Rest : Type) where
  blockId : String
  configFields : List FluxeryBlockConfigField
  inputs : List FluxeryBlockPort
  name : String
  nodeIds : List String
  nodes : List (Node Rest)
  outputs : List FluxeryBlockPort
  templateId : Option String

structure BlockNode (Rest : Type) where
  id : String
  type : String
  selected : Bool
  blockId : String
  configFields : List FluxeryBlockConfigField
  configuredTargetPortIds : List String
  inputs : List FluxeryBlockPort
  nodeCount : Nat
  outputs : List FluxeryBlockPort
  title : String
  rest : Rest

inductive DisplayedNode (Rest : Type) where
  | raw (node : Node Rest)
  | block (node : BlockNode Rest)

structure FluxeryBlockProjection (Rest Data : Type) where
  blockInstances : List (FluxeryBlockInstance Rest)
  displayedEdges : List (Edge Data)
  displayedNodes : List (DisplayedNode Rest)

/-- What the projection uses of its surroundings: the order and the names of texts, and the place of
a block on the canvas. -/
structure Display (Rest : Type) where
  localeCompare : String → String → Int
  createDisplayName : String → String
  blockRest : FluxeryBlockInstance Rest → Rest

section
variable {Rest Data : Type} (display : Display Rest)

/-- `Array.prototype.sort` by `localeCompare` of a text. -/
def Display.sortBy (key : α → String) (xs : List α) : List α :=
  xs.insertionSort fun a b => display.localeCompare (key a) (key b) ≤ 0

def getBlockMetadata (node : Node Rest) : Option FluxeryBlockNodeMetadata :=
  node.block.filter (·.blockId != "")

def getDefaultNodeLabel (node : Node Rest) : String :=
  match node.title.filter (· != "") with
  | some title => title
  | none =>
    match ((getBlockMetadata node).bind (·.nodeLabel)).filter (· != "") with
    | some label => label
    | none => display.createDisplayName (node.type.getD node.id)

def buildPortId (nodeId handle : String) : String := nodeId ++ BLOCK_HANDLE_SEPARATOR ++ handle

def handlePrefix : Direction → String
  | .input => BLOCK_INPUT_HANDLE_PREFIX
  | .output => BLOCK_OUTPUT_HANDLE_PREFIX

def buildBlockHandleId (direction : Direction) (nodeId handle : String) : String :=
  handlePrefix direction ++ BLOCK_HANDLE_SEPARATOR ++ (nodeId ++ BLOCK_HANDLE_SEPARATOR ++ handle)

structure BlockHandle where
  direction : Direction
  nodeId : String
  handle : String
deriving DecidableEq, Repr

def parseBlockHandleId : Handle → Option BlockHandle
  | .text handleId =>
    match jsSplitText BLOCK_HANDLE_SEPARATOR handleId with
    | word :: nodeId :: handleParts =>
      if (word ≠ BLOCK_INPUT_HANDLE_PREFIX ∧ word ≠ BLOCK_OUTPUT_HANDLE_PREFIX) ∨ nodeId = "" then
        none
      else
        let handle := jsJoinText BLOCK_HANDLE_SEPARATOR handleParts
        if handle = "" then none
        else some ⟨if word = BLOCK_INPUT_HANDLE_PREFIX then .input else .output, nodeId, handle⟩
    | _ => none
  | _ => none

def getSyntheticBlockNodeId (blockId : String) : String :=
  FLUXERY_BLOCK_NODE_TYPE ++ BLOCK_HANDLE_SEPARATOR ++ blockId

def parseSyntheticBlockNodeId (nodeId : String) : Option String :=
  let mark := (FLUXERY_BLOCK_NODE_TYPE ++ BLOCK_HANDLE_SEPARATOR).toList
  if mark <+: nodeId.toList then some (String.ofList (nodeId.toList.drop mark.length)) else none

def getSelectedNodeIds (nodes : List (Node Rest)) : List String :=
  (nodes.filter (·.selected)).map (·.id)

def toBlockPortList (nodes : List (Node Rest))
    (mapper : FluxeryBlockNodeMetadata → Option (List (String × String))) (direction : Direction) :
    List FluxeryBlockPort :=
  display.sortBy (·.label) <| nodes.flatMap fun node =>
    match (getBlockMetadata node).bind mapper with
    | some portLabels => portLabels.map fun (handle, label) =>
      ⟨direction, handle, label, node.id, getDefaultNodeLabel display node, node.type,
        buildPortId node.id handle⟩
    | none => []

def toBlockConfigFieldList (nodes : List (Node Rest)) : List FluxeryBlockConfigField :=
  display.sortBy (·.label) <| nodes.flatMap fun node =>
    match (getBlockMetadata node).bind (·.configLabels) with
    | some configLabels => configLabels.map fun (key, label) =>
      ⟨key, label, node.id, getDefaultNodeLabel display node, node.type, buildPortId node.id key⟩
    | none => []

def openInstance (metadata : FluxeryBlockNodeMetadata) (node : Node Rest) : FluxeryBlockInstance Rest where
  blockId := metadata.blockId
  configFields := []
  inputs := []
  name := metadata.templateName.getD
    ("Block " ++ String.ofList (metadata.blockId.toList.take BLOCK_ID_LABEL_LENGTH))
  nodeIds := [node.id]
  nodes := [node]
  outputs := []
  templateId := metadata.templateId

def pushNode (node : Node Rest) (current : FluxeryBlockInstance Rest) : FluxeryBlockInstance Rest :=
  { current with nodeIds := current.nodeIds ++ [node.id], nodes := current.nodes ++ [node] }

def collectNode (instances : List (FluxeryBlockInstance Rest)) (node : Node Rest) :
    List (FluxeryBlockInstance Rest) :=
  match getBlockMetadata node with
  | none => instances
  | some metadata =>
    if instances.any (·.blockId == metadata.blockId) then
      instances.map (setWhere (·.blockId) metadata.blockId (pushNode node))
    else instances ++ [openInstance metadata node]

section
variable (current : FluxeryBlockInstance Rest)

def listPorts : FluxeryBlockInstance Rest :=
  { current with
    inputs := toBlockPortList display current.nodes (·.inputLabels) .input
    outputs := toBlockPortList display current.nodes (·.outputLabels) .output
    configFields := toBlockConfigFieldList display current.nodes
    nodes := display.sortBy (·.id) current.nodes
    nodeIds := display.sortBy id current.nodeIds }

def collectBlockInstances (nodes : List (Node Rest)) : List (FluxeryBlockInstance Rest) :=
  (nodes.foldl collectNode []).map (listPorts display)

def getVisibleBlockSelection (selectedNodeIds : List String) :
    Bool :=
  !selectedNodeIds.isEmpty && current.nodeIds.all (selectedNodeIds.contains ·)

/-- The properties that every object of ECMAScript has, which the `in` operator finds. -/
def objectPrototype : List String :=
  ["constructor", "__defineGetter__", "__defineSetter__", "hasOwnProperty", "__lookupGetter__",
    "__lookupSetter__", "isPrototypeOf", "propertyIsEnumerable", "toString", "valueOf", "__proto__",
    "toLocaleString"]

def getConfiguredBlockTargetPortIds : List String :=
  let configuredPortIds := current.nodes.flatMap fun node =>
    match getBlockMetadata node, node.configuration with
    | some metadata, some configuration =>
      (((metadata.inputLabels.getD []).map Prod.fst ++ (metadata.configLabels.getD []).map Prod.fst).filter
        fun key => (configuration ++ objectPrototype).contains key).map (buildPortId node.id)
    | _, _ => []
  display.sortBy id configuredPortIds.eraseDups

def toDisplayedBlockNode (selectedNodeIds : List String) : BlockNode Rest where
  id := getSyntheticBlockNodeId current.blockId
  type := FLUXERY_BLOCK_NODE_TYPE
  selected := getVisibleBlockSelection current selectedNodeIds
  blockId := current.blockId
  configFields := current.configFields
  configuredTargetPortIds := getConfiguredBlockTargetPortIds display current
  inputs := current.inputs
  nodeCount := current.nodes.length
  outputs := current.outputs
  title := current.name
  rest := display.blockRest current

end

def toDisplayedBoundaryEdge (edge : Edge Data) (sourceBlockId targetBlockId : Option String) :
    Option (Edge Data) :=
  if sourceBlockId.isSome ∧ targetBlockId.isSome ∧ sourceBlockId = targetBlockId then none
  else
    let sourceHandle := match sourceBlockId with
      | none => edge.sourceHandle
      | some _ => .text (buildBlockHandleId .output edge.source edge.sourceHandle.orEmpty)
    let targetHandle := match targetBlockId with
      | none => edge.targetHandle
      | some _ => .text (buildBlockHandleId .input edge.target edge.targetHandle.orEmpty)
    if (sourceBlockId.isSome ∧ (edge.sourceHandle = .undefined ∨ edge.sourceHandle = .text "")) ∨
        (targetBlockId.isSome ∧ (edge.targetHandle = .undefined ∨ edge.targetHandle = .text "")) then
      none
    else
      some { edge with
        source := sourceBlockId.elim edge.source getSyntheticBlockNodeId
        sourceHandle := sourceHandle
        target := targetBlockId.elim edge.target getSyntheticBlockNodeId
        targetHandle := targetHandle
        rawEdgeId := some edge.id }

/-- The entries that are set in `nodeBlockIdMap`, in order. -/
def nodeBlockIds (instances : List (FluxeryBlockInstance Rest)) : List (String × String) :=
  instances.flatMap fun current => current.nodeIds.map fun nodeId => (nodeId, current.blockId)

/-- `nodeBlockIdMap.get`: the entry that was set last. -/
def getNodeBlockId (instances : List (FluxeryBlockInstance Rest)) (nodeId : String) : Option String :=
  ((nodeBlockIds instances).reverse.find? (·.1 == nodeId)).map Prod.snd

def projectWorkflowWithBlocks (nodes : List (Node Rest)) (edges : List (Edge Data))
    (scopedBlockId : Option String) : FluxeryBlockProjection Rest Data :=
  let instances := collectBlockInstances display nodes
  match scopedBlockId with
  | some scopedBlockId =>
    let scopedNodeIds := (nodes.filter fun node =>
      (getBlockMetadata node).map (·.blockId) == some scopedBlockId).map (·.id)
    { blockInstances := instances
      displayedEdges := edges.filter fun edge =>
        scopedNodeIds.contains edge.source && scopedNodeIds.contains edge.target
      displayedNodes := (nodes.filter fun node => scopedNodeIds.contains node.id).map .raw }
  | none =>
    { blockInstances := instances
      displayedEdges := edges.filterMap fun edge =>
        toDisplayedBoundaryEdge edge (getNodeBlockId instances edge.source)
          (getNodeBlockId instances edge.target)
      displayedNodes :=
        (nodes.filter fun node => (getNodeBlockId instances node.id).isNone).map .raw ++
          instances.map fun current =>
            .block (toDisplayedBlockNode display current (getSelectedNodeIds nodes)) }

structure ResolvedConnection where
  blockIds : List String
  connection : Connection
deriving DecidableEq, Repr

/-- One end of a connection against the displayed nodes: the raw node and its handle. -/
def resolveEnd (direction : Direction) (nodeId : String) (handle : Handle) : Option (String × Handle) :=
  match parseSyntheticBlockNodeId nodeId with
  | none => some (nodeId, handle)
  | some _ =>
    match parseBlockHandleId handle with
    | some parsed =>
      if parsed.direction = direction then some (parsed.nodeId, .text parsed.handle) else none
    | none => none

def resolveRawConnectionFromDisplayed (connection : Connection) : Option ResolvedConnection :=
  match resolveEnd .output connection.source connection.sourceHandle,
      resolveEnd .input connection.target connection.targetHandle with
  | some (source, sourceHandle), some (target, targetHandle) =>
    some {
      blockIds := ([parseSyntheticBlockNodeId connection.source,
        parseSyntheticBlockNodeId connection.target].filterMap id).eraseDups
      connection := ⟨source, sourceHandle, target, targetHandle⟩ }
  | _, _ => none

end

end Trakrai.Blocks
