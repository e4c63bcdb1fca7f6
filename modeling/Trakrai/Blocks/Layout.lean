import Mathlib.Algebra.Order.Group.MinMax
import Mathlib.Data.List.Perm.Basic
import Trakrai.Blocks.Connectivity
import Trakrai.Lib.Targeted

namespace Trakrai.Blocks
open List Lib

structure Position (K : Type) where
  x : K
  y : K
deriving DecidableEq

def Position.add [Add K] (p delta : Position K) : Position K := ⟨p.x + delta.x, p.y + delta.y⟩

def Position.sub [Sub K] (p q : Position K) : Position K := ⟨p.x - q.x, p.y - q.y⟩

structure Placed (K Other : Type) where
  position : Position K
  sourcePosition : Option String
  targetPosition : Option String
  other : Other
deriving DecidableEq

/-- Order and names of texts, and what the node of a block has besides its place: that comes from its display
state and from the node that was displayed before. -/
structure Look (Other : Type) where
  localeCompare : String → String → Int
  createDisplayName : String → String
  blockOther : String → Other

section
variable {K Other : Type}

def DisplayedNode.id : DisplayedNode Rest → String
  | .raw node => node.id
  | .block node => node.id

def DisplayedNode.rest : DisplayedNode Rest → Rest
  | .raw node => node.rest
  | .block node => node.rest

section
variable [LinearOrder K]

/-- The least coordinates. None stands for the infinite ones that the code starts from. -/
def getBlockAnchorPosition (nodes : List (Node (Placed K Other))) : Option (Position K) :=
  nodes.foldl (fun acc node => some (acc.elim node.rest.position fun acc =>
    ⟨min acc.x node.rest.position.x, min acc.y node.rest.position.y⟩)) none

end

section
variable [AddCommGroup K] [LinearOrder K]

/-- The canvas without drag previews. An instance has nodes, so that there is an anchor. -/
def canvas (look : Look Other) : Display (Placed K Other) where
  localeCompare := look.localeCompare
  createDisplayName := look.createDisplayName
  blockRest current :=
    ⟨(getBlockAnchorPosition current.nodes).getD ⟨0, 0⟩, none, none, look.blockOther current.blockId⟩

theorem canvas_blockRest {look : Look Other} {current : FluxeryBlockInstance (Placed K Other)}
    (h : getBlockAnchorPosition current.nodes = some anchor) :
    (canvas look).blockRest current = ⟨anchor, none, none, look.blockOther current.blockId⟩ := by
  simp [canvas, h]

def shift (node : Node (Placed K Other)) (delta : Position K) : Node (Placed K Other) :=
  { node with rest := { node.rest with position := node.rest.position.add delta } }

section
variable (nodes : List (Node (Placed K Other)))

def moveBlockNodes (blockId : String) (nextPosition : Position K) :
    List (Node (Placed K Other)) :=
  let blockNodes := nodes.filter fun node => blockIdOf node = some blockId
  match getBlockAnchorPosition blockNodes with
  | none => nodes
  | some currentAnchor =>
    nodes.map fun node =>
      if blockIdOf node ≠ some blockId then node
      else shift node (nextPosition.sub currentAnchor)

def place (node : Node (Placed K Other)) (displayed : Placed K Other) : Node (Placed K Other) :=
  { node with rest := { node.rest with
      position := displayed.position
      sourcePosition := displayed.sourcePosition
      targetPosition := displayed.targetPosition } }

def applyDisplayedNode (nextNodes : List (Node (Placed K Other))) (displayedNode : DisplayedNode (Placed K Other)) :
    List (Node (Placed K Other)) :=
  match parseSyntheticBlockNodeId displayedNode.id with
  | some blockId => moveBlockNodes nextNodes blockId displayedNode.rest.position
  | none => nextNodes.map fun node => if node.id = displayedNode.id then place node displayedNode.rest else node

def applyDisplayedLayoutToRawNodes (displayedNodes : List (DisplayedNode (Placed K Other))) : List (Node (Placed K Other)) :=
  displayedNodes.foldl applyDisplayedNode nodes

def placed (displayedNode : DisplayedNode (Placed K Other)) (node : Node (Placed K Other)) : Bool :=
  match parseSyntheticBlockNodeId displayedNode.id with
  | some blockId => blockIdOf node = some blockId
  | none => node.id = displayedNode.id

def placeBy (displayedNode : DisplayedNode (Placed K Other))
    (node : Node (Placed K Other)) : Node (Placed K Other) :=
  match parseSyntheticBlockNodeId displayedNode.id with
  | some _ =>
    (getBlockAnchorPosition (nodes.filter (placed displayedNode))).elim node fun anchor =>
      shift node (displayedNode.rest.position.sub anchor)
  | none => place node displayedNode.rest

end

theorem placed_placeBy (displayedNode displayedNode' : DisplayedNode (Placed K Other))
    (nodes : List (Node (Placed K Other))) (node : Node (Placed K Other)) :
    placed displayedNode' (placeBy nodes displayedNode node) = placed displayedNode' node := by
  rw [placeBy]
  split
  · cases getBlockAnchorPosition (nodes.filter (placed displayedNode)) <;> rfl
  · rfl

theorem targeted_placeBy : Targeted (ω := DisplayedNode (Placed K Other)) placed placeBy where
  keep nodes displayedNode node displayedNode' _ := placed_placeBy displayedNode displayedNode' nodes node
  filter nodes nodes' displayedNode node h := by rw [placeBy, placeBy, h]

theorem applyDisplayedNode_eq (nodes : List (Node (Placed K Other))) (displayedNode : DisplayedNode (Placed K Other)) :
    applyDisplayedNode nodes displayedNode = ordered placed placeBy nodes displayedNode := by
  rw [applyDisplayedNode, ordered]
  cases hparse : parseSyntheticBlockNodeId displayedNode.id with
  | none =>
    refine map_congr_left fun node _ => ?_
    simp only [placed, placeBy, hparse, decide_eq_true_eq]
  | some blockId =>
    have hplaced : placed displayedNode = fun node : Node (Placed K Other) => decide (blockIdOf node = some blockId) := by
      funext node
      rw [placed, hparse]
    simp only [moveBlockNodes, placeBy, hparse, hplaced]
    cases getBlockAnchorPosition (nodes.filter fun node => blockIdOf node = some blockId) with
    | none => simp
    | some anchor =>
      refine map_congr_left fun node _ => ?_
      by_cases hblock : blockIdOf node = some blockId <;> simp [hblock]

end

section
variable [LinearOrder K] {nodes nodes' : List (Node (Placed K Other))}

theorem getBlockAnchorPosition_perm (h : nodes.Perm nodes') :
    getBlockAnchorPosition nodes = getBlockAnchorPosition nodes' := by
  refine h.foldl_eq' (fun node _ node' _ acc => ?_) _
  cases acc with
  | none => simp [min_comm]
  | some acc => simp [min_right_comm]

theorem exists_anchor (h : nodes ≠ []) : ∃ anchor, getBlockAnchorPosition nodes = some anchor := by
  obtain ⟨start, last, rfl⟩ := eq_nil_or_concat' nodes |>.resolve_left h
  rw [getBlockAnchorPosition, foldl_append]
  exact ⟨_, rfl⟩

end

theorem getBlockAnchorPosition_shift [AddCommGroup K] [LinearOrder K] [IsOrderedAddMonoid K]
    (nodes : List (Node (Placed K Other))) (delta : Position K) :
    getBlockAnchorPosition (nodes.map (shift · delta)) =
      (getBlockAnchorPosition nodes).map (Position.add · delta) := by
  rw [getBlockAnchorPosition, getBlockAnchorPosition, foldl_map]
  change List.foldl _ (Option.map (Position.add · delta) none) nodes = _
  apply foldl_hom
  intro acc node
  cases acc with
  | none => rfl
  | some acc => simp [shift, Position.add, min_add_add_right]

end

def withRest (g : Node Rest → Rest) (node : Node Rest) : Node Rest := { node with rest := g node }

def withNodes (g : Node Rest → Rest) (current : FluxeryBlockInstance Rest) : FluxeryBlockInstance Rest :=
  { current with nodes := current.nodes.map (withRest g) }

section
variable (g : Node Rest → Rest) (display : Display Rest)

theorem collectNode_withRest (instances : List (FluxeryBlockInstance Rest)) (node : Node Rest) :
    collectNode (instances.map (withNodes g)) (withRest g node) = (collectNode instances node).map (withNodes g) := by
  have hblock : getBlockMetadata (withRest g node) = getBlockMetadata node := rfl
  rw [collectNode, collectNode, hblock]
  cases getBlockMetadata node with
  | none => rfl
  | some metadata =>
    have hany : (instances.map (withNodes g)).any (·.blockId == metadata.blockId) =
        instances.any (·.blockId == metadata.blockId) := any_map ..
    simp only [hany]
    split
    · rw [map_map, map_map]
      refine map_congr_left fun current _ => ?_
      simp only [Function.comp_apply, setWhere]
      by_cases hid : current.blockId = metadata.blockId <;> simp [withNodes, pushNode, withRest, hid]
    · simp [withNodes, openInstance, withRest]

theorem sortBy_map (f : α → β) (xs : List α) :
    display.sortBy key (xs.map f) = (display.sortBy (key ∘ f) xs).map f :=
  (map_insertionSort _ _ f xs fun _ _ _ _ => Iff.rfl).symm

theorem toBlockPortList_withRest (nodes : List (Node Rest))
    (mapper : FluxeryBlockNodeMetadata → Option (List (String × String))) (direction : Direction) :
    toBlockPortList display (nodes.map (withRest g)) mapper direction = toBlockPortList display nodes mapper direction := by
  rw [toBlockPortList, toBlockPortList, flatMap_map]
  rfl

theorem listPorts_withNodes (current : FluxeryBlockInstance Rest) :
    listPorts display (withNodes g current) = withNodes g (listPorts display current) := by
  have hconfig : toBlockConfigFieldList display (current.nodes.map (withRest g)) =
      toBlockConfigFieldList display current.nodes := by
    rw [toBlockConfigFieldList, toBlockConfigFieldList, flatMap_map]
    rfl
  have hsort : display.sortBy (·.id) (current.nodes.map (withRest g)) =
      (display.sortBy (·.id) current.nodes).map (withRest g) := sortBy_map display _ _
  simp only [listPorts, withNodes, toBlockPortList_withRest, hconfig, hsort]

theorem collectBlockInstances_withRest (nodes : List (Node Rest)) :
    collectBlockInstances display (nodes.map (withRest g)) = (collectBlockInstances display nodes).map (withNodes g) := by
  have hfold : (nodes.map (withRest g)).foldl collectNode [] = (nodes.foldl collectNode []).map (withNodes g) := by
    rw [foldl_map]
    change List.foldl _ (List.map (withNodes g) []) nodes = _
    apply foldl_hom
    exact fun instances node => collectNode_withRest g instances node
  rw [collectBlockInstances, collectBlockInstances, hfold, map_map, map_map]
  exact map_congr_left fun current _ => listPorts_withNodes g display current

end

end Trakrai.Blocks
