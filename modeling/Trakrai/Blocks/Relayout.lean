import Mathlib.Algebra.Order.Group.Int
import Trakrai.Blocks.Layout

namespace Trakrai.Blocks
open Function List Lib

section
variable {Rest Data : Type} (display : Display Rest) {nodes : List (Node Rest)} {edges : List (Edge Data)}

theorem displayedNodes_scoped (hn : (nodes.map (·.id)).Nodup) (blockId : String) :
    (projectWorkflowWithBlocks display nodes edges (some blockId)).displayedNodes =
      (nodes.filter fun node => blockIdOf node = some blockId).map .raw := by
  refine congrArg (List.map DisplayedNode.raw) (filter_congr ?_)
  intro node hnode
  have hmem : node.id ∈ (nodes.filter fun node => blockIdOf node == some blockId).map (·.id) ↔
      blockIdOf node = some blockId := by
    constructor
    · intro hm
      obtain ⟨other, hother, hid⟩ := mem_map.1 hm
      obtain ⟨hin, hblock⟩ := mem_filter.1 hother
      rw [← inj_on_of_nodup_map hn hin hnode hid]
      exact eq_of_beq hblock
    · exact fun hblock => mem_map_of_mem (mem_filter.2 ⟨hnode, by simpa using hblock⟩)
  exact (contains_eq_mem ..).trans (decide_eq_decide.2 hmem)

theorem toDisplayedBlockNode_withNodes (g : Node Rest → Rest) (current : FluxeryBlockInstance Rest)
    (selectedNodeIds : List String) : toDisplayedBlockNode display (withNodes g current) selectedNodeIds =
      { toDisplayedBlockNode display current selectedNodeIds with rest := display.blockRest (withNodes g current) } := by
  have hconfigured : getConfiguredBlockTargetPortIds display (withNodes g current) =
      getConfiguredBlockTargetPortIds display current := by
    rw [getConfiguredBlockTargetPortIds, getConfiguredBlockTargetPortIds, withNodes, flatMap_map]
    rfl
  simp only [toDisplayedBlockNode, hconfigured]
  simp [withNodes, getVisibleBlockSelection]

theorem getSelectedNodeIds_withRest (g : Node Rest → Rest) (nodes : List (Node Rest)) :
    getSelectedNodeIds (nodes.map (withRest g)) = getSelectedNodeIds nodes := by
  rw [getSelectedNodeIds, getSelectedNodeIds, filter_map, map_map]
  rfl

end

section
variable {K Other Data : Type}

def moveTo (node : Node (Placed K Other)) (position : Position K) : Node (Placed K Other) :=
  { node with rest := { node.rest with position := position } }

section
variable (displayedNode : DisplayedNode (Placed K Other))

def DisplayedNode.at (position : Position K) : DisplayedNode (Placed K Other) :=
  match displayedNode with
  | .raw node => .raw (moveTo node position)
  | .block node => .block { node with rest := { node.rest with position := position } }

theorem DisplayedNode.at_id (position : Position K) :
    (displayedNode.at position).id = displayedNode.id := by
  cases displayedNode <;> rfl

theorem DisplayedNode.at_self : displayedNode.at displayedNode.rest.position = displayedNode := by
  cases displayedNode <;> rfl

end

structure Displays (nodes : List (Node (Placed K Other))) (displayed : List (DisplayedNode (Placed K Other))) :
    Prop where
  raw : ∀ {node}, .raw node ∈ displayed → node ∈ nodes ∧ parseSyntheticBlockNodeId node.id = none
  block : ∀ {node}, .block node ∈ displayed → node.id = getSyntheticBlockNodeId node.blockId
  ids : (displayed.map DisplayedNode.id).Nodup
  outside : ∀ {node block}, .raw node ∈ displayed → .block block ∈ displayed → blockIdOf node ≠ some block.blockId

section
variable {nodes : List (Node (Placed K Other))} {displayed shown : List (DisplayedNode (Placed K Other))}

theorem placed_at (displayedNode : DisplayedNode (Placed K Other)) (position : Position K) :
    placed (displayedNode.at position) = placed displayedNode := by
  funext node
  rw [placed, placed, displayedNode.at_id]

theorem placed_raw (h : parseSyntheticBlockNodeId node.id = none) :
    placed (.raw node) row ↔ row.id = node.id := by
  rw [placed, show (DisplayedNode.raw node).id = node.id from rfl, h]
  exact decide_eq_true_iff

theorem placed_block (h : node.id = getSyntheticBlockNodeId node.blockId):
    placed (.block node) row ↔ blockIdOf row = some node.blockId := by
  rw [placed, show (DisplayedNode.block node).id = _ from h, parseSynthetic_getSynthetic]
  exact decide_eq_true_iff

theorem Displays.unique (h : Displays nodes displayed) (hn : (nodes.map (·.id)).Nodup)
    (hd : d ∈ displayed) (hd' : d' ∈ displayed) (hrow : row ∈ nodes) (hplaced : placed d row)
    (hplaced' : placed d' row) : d = d' := by
  refine inj_on_of_nodup_map h.ids hd hd' ?_
  cases d with
  | raw node =>
    obtain ⟨hnode, hid⟩ := h.raw hd
    have heq : row = node := inj_on_of_nodup_map hn hrow hnode ((placed_raw hid).1 hplaced)
    subst heq
    cases d' with
    | raw node' => exact (placed_raw (h.raw hd').2).1 hplaced'
    | block node' => exact (h.outside hd hd' ((placed_block (h.block hd')).1 hplaced')).elim
  | block node =>
    have hblock := (placed_block (h.block hd)).1 hplaced
    cases d' with
    | raw node' =>
      obtain ⟨hnode, hid⟩ := h.raw hd'
      have heq : row = node' := inj_on_of_nodup_map hn hrow hnode ((placed_raw hid).1 hplaced')
      subst heq
      exact (h.outside hd' hd hblock).elim
    | block node' =>
      have hsame : node.blockId = node'.blockId :=
        Option.some.inj (hblock.symm.trans ((placed_block (h.block hd')).1 hplaced'))
      change node.id = node'.id
      rw [h.block hd, h.block hd', hsame]

def Assigned (displayed shown : List (DisplayedNode (Placed K Other)))
    (assign : DisplayedNode (Placed K Other) → Position K) : Prop :=
  shown.Perm (displayed.map fun d => d.at (assign d))

theorem Displays.apart (h : Displays nodes displayed) (hn : (nodes.map (·.id)).Nodup)
    (hshown : Assigned displayed shown assign) : Apart placed nodes shown := by
  have hpair : displayed.Pairwise fun d d' => d ≠ d' := h.ids.of_map
  have hapart : Apart placed nodes (displayed.map fun d => d.at (assign d)) := by
    refine pairwise_map.2 (hpair.imp_of_mem ?_)
    intro d d' hd hd' hne row hrow hplaced hplaced'
    rw [placed_at] at hplaced hplaced'
    exact hne (h.unique hn hd hd' hrow hplaced hplaced')
  exact hapart.perm hshown.symm

section
variable [AddCommGroup K] [LinearOrder K]

theorem applyDisplayed_eq (h : Displays nodes displayed) (hn : (nodes.map (·.id)).Nodup)
    (hshown : Assigned displayed shown assign) :
    applyDisplayedLayoutToRawNodes nodes shown = nodes.map (settled placed placeBy nodes shown) := by
  have hround : (applyDisplayedNode : List (Node (Placed K Other)) → _ → _) = ordered placed placeBy :=
    funext fun nodes => funext fun d => applyDisplayedNode_eq nodes d
  rw [applyDisplayedLayoutToRawNodes, hround]
  exact targeted_placeBy.foldl_ordered (h.apart hn hshown)

theorem Displays.settled_eq (h : Displays nodes displayed) (hn : (nodes.map (·.id)).Nodup)
    (hshown : Assigned displayed shown assign) (hd : d ∈ displayed) (hrow : row ∈ nodes) (hplaced : placed d row) :
    settled placed placeBy nodes shown row = placeBy nodes (d.at (assign d)) row := by
  have hmem {order} : order ∈ shown ↔ ∃ d ∈ displayed, d.at (assign d) = order := hshown.mem_iff.trans mem_map
  refine Lib.settled_eq ⟨_, hmem.2 ⟨d, hd, rfl⟩, by rwa [placed_at]⟩ ?_
  intro order horder hplaced'
  obtain ⟨d', hd', rfl⟩ := hmem.1 horder
  rw [placed_at] at hplaced'
  rw [h.unique hn hd hd' hrow hplaced hplaced']

theorem Displays.settled_of_not (hshown : Assigned displayed shown assign) (hnot : ∀ d ∈ displayed, ¬ placed d row) :
    settled placed placeBy nodes shown row = row := by
  refine Lib.settled_of_not fun order horder hplaced => ?_
  obtain ⟨d, hd, rfl⟩ := mem_map.1 (hshown.mem_iff.1 horder)
  rw [placed_at] at hplaced
  exact hnot d hd hplaced

theorem placeBy_raw (h : parseSyntheticBlockNodeId node.id = none) (position : Position K): placeBy nodes ((DisplayedNode.raw node).at position) node = moveTo node position := by
  have hid : ((DisplayedNode.raw node).at position).id = node.id := rfl
  rw [placeBy, hid, h]
  rfl

theorem placeBy_block (h : node.id = getSyntheticBlockNodeId node.blockId)
    (row : Node (Placed K Other)) (position : Position K)
    (hanchor : getBlockAnchorPosition (nodes.filter fun row => blockIdOf row = some node.blockId) = some anchor) :
    placeBy nodes ((DisplayedNode.block node).at position) row = shift row (position.sub anchor) := by
  have hplaced : placed (DisplayedNode.block node) =
      fun row : Node (Placed K Other) => decide (blockIdOf row = some node.blockId) := by
    funext row
    rw [Bool.eq_iff_iff, placed_block h, decide_eq_true_iff]
  have hid : ((DisplayedNode.block node).at position).id = getSyntheticBlockNodeId node.blockId := h
  rw [placeBy, hid, parseSynthetic_getSynthetic, placed_at, hplaced, hanchor]
  rfl

theorem settled_eq_withRest (shown : List (DisplayedNode (Placed K Other))) (row : Node (Placed K Other)) :
    settled placed placeBy nodes shown row =
      withRest (fun row => (settled placed placeBy nodes shown row).rest) row := by
  have hplace (d : DisplayedNode (Placed K Other)) :
      placeBy nodes d row = { row with rest := (placeBy nodes d row).rest } := by
    rw [placeBy]
    split
    · cases getBlockAnchorPosition (nodes.filter (placed d)) <;> rfl
    · rfl
  rw [withRest, settled]
  cases shown.find? (placed · row) with
  | none => rfl
  | some d => exact hplace d

end

end

section
variable (display : Display (Placed K Other)) {nodes : List (Node (Placed K Other))}
  {edges : List (Edge Data)} {scopedBlockId : Option String}

theorem displays (hn : (nodes.map (·.id)).Nodup)
    (hraw : ∀ node, .raw node ∈ (projectWorkflowWithBlocks display nodes edges scopedBlockId).displayedNodes →
      parseSyntheticBlockNodeId node.id = none) :
    Displays nodes (projectWorkflowWithBlocks display nodes edges scopedBlockId).displayedNodes := by
  have hids (p : Node (Placed K Other) → Bool) :
      (((nodes.filter p).map DisplayedNode.raw).map DisplayedNode.id).Nodup := by
    rw [map_map]
    exact hn.sublist (filter_sublist.map _)
  cases scopedBlockId with
  | some blockId =>
    rw [displayedNodes_scoped display hn] at hraw ⊢
    have hno {block} : DisplayedNode.block block ∉
        (nodes.filter fun node => blockIdOf node = some blockId).map DisplayedNode.raw := by simp
    refine ⟨fun hm => ⟨?_, hraw _ hm⟩, fun hm => (hno hm).elim, hids _, fun _ hm => (hno hm).elim⟩
    obtain ⟨node, hnode, heq⟩ := mem_map.1 hm
    cases heq
    exact (mem_filter.1 hnode).1
  | none =>
    rw [displayedNodes_eq display hn] at hraw ⊢
    have hrawIn {node} (hm : DisplayedNode.raw node ∈ (nodes.filter fun node => (blockIdOf node).isNone).map .raw ++
        (collectBlockInstances display nodes).map fun current =>
          .block (toDisplayedBlockNode display current (getSelectedNodeIds nodes))) :
        node ∈ nodes ∧ blockIdOf node = none := by
      simpa using hm
    refine ⟨fun hm => ⟨(hrawIn hm).1, hraw _ hm⟩, ?_, ?_, ?_⟩
    · intro node hm
      obtain ⟨current, -, rfl⟩ : ∃ current ∈ collectBlockInstances display nodes,
          toDisplayedBlockNode display current (getSelectedNodeIds nodes) = node := by simpa using hm
      rfl
    · rw [map_append, nodup_append]
      refine ⟨hids _, ?_, ?_⟩
      · have hinstances := (collected display nodes).nodup.map getSyntheticBlockNodeId_inj
        rw [map_map] at hinstances ⊢
        exact hinstances
      · intro id hid id' hid' heq
        obtain ⟨d, hd, rfl⟩ := mem_map.1 hid
        obtain ⟨node, -, rfl⟩ := mem_map.1 hd
        obtain ⟨d', hd', rfl⟩ := mem_map.1 hid'
        obtain ⟨current, -, rfl⟩ := mem_map.1 hd'
        have hparse := hraw node (mem_append_left _ hd)
        rw [show node.id = getSyntheticBlockNodeId current.blockId from heq, parseSynthetic_getSynthetic] at hparse
        cases hparse
    · intro node block hm _ hblock
      rw [(hrawIn hm).2] at hblock
      cases hblock

theorem anchor_of_instance [LinearOrder K] (hc : current ∈ collectBlockInstances display nodes):
    ∃ anchor, getBlockAnchorPosition (nodes.filter fun row => blockIdOf row = some current.blockId) = some anchor ∧
      getBlockAnchorPosition current.nodes = some anchor := by
  have hcollected := collected display nodes
  obtain ⟨node, hnode, hblock⟩ := (hcollected.mem current.blockId).1 (mem_map_of_mem hc)
  have hne : (nodes.filter fun row => blockIdOf row = some current.blockId) ≠ [] :=
    ne_nil_of_mem (mem_filter.2 ⟨hnode, decide_eq_true hblock⟩)
  obtain ⟨anchor, hanchor⟩ := exists_anchor hne
  exact ⟨anchor, hanchor, (getBlockAnchorPosition_perm (hcollected.nodes current hc)).trans hanchor⟩

end

theorem Position.add_sub [AddCommGroup K] (p q : Position K) : q.add (p.sub q) = p := by
  simp [Position.add, Position.sub]

theorem shift_sub_self [AddCommGroup K] (node : Node (Placed K Other)) (p : Position K) :
    shift node (p.sub p) = node := by
  simp [shift, Position.add, Position.sub]

section
variable [AddCommGroup K] [LinearOrder K] {look : Look Other} {nodes : List (Node (Placed K Other))}
  {edges : List (Edge Data)} {scopedBlockId : Option String} {shown : List (DisplayedNode (Placed K Other))}

def displayedOn (look : Look Other) (nodes : List (Node (Placed K Other))) (edges : List (Edge Data))
    (scopedBlockId : Option String) : List (DisplayedNode (Placed K Other)) :=
  (projectWorkflowWithBlocks (canvas look) nodes edges scopedBlockId).displayedNodes

theorem settled_raw (h : Displays nodes displayed)
    (hn : (nodes.map (·.id)).Nodup) (hshown : Assigned displayed shown assign) (hd : .raw row ∈ displayed) :
    settled placed placeBy nodes shown row = moveTo row (assign (.raw row)) := by
  obtain ⟨hrow, hid⟩ := h.raw hd
  rw [h.settled_eq hn hshown hd hrow ((placed_raw hid).2 rfl), placeBy_raw hid]

theorem block_mem_displayedOn (edges : List (Edge Data)) (hn : (nodes.map (·.id)).Nodup)
    (hc : current ∈ collectBlockInstances (canvas look) nodes) :
    .block (toDisplayedBlockNode (canvas look) current (getSelectedNodeIds nodes)) ∈
      displayedOn look nodes edges none := by
  rw [displayedOn, displayedNodes_eq _ hn]
  exact mem_append_right _ (mem_map_of_mem hc)

theorem instance_of_displayedOn (hn : (nodes.map (·.id)).Nodup)
    (hd : .block node ∈ displayedOn look nodes edges scopedBlockId) :
    scopedBlockId = none ∧ ∃ current ∈ collectBlockInstances (canvas look) nodes,
      toDisplayedBlockNode (canvas look) current (getSelectedNodeIds nodes) = node := by
  cases scopedBlockId with
  | some blockId =>
    rw [displayedOn, displayedNodes_scoped _ hn] at hd
    simp at hd
  | none =>
    rw [displayedOn, displayedNodes_eq _ hn] at hd
    exact ⟨rfl, by simpa using hd⟩

theorem settled_block (h : Displays nodes (displayedOn look nodes edges none)) (hn : (nodes.map (·.id)).Nodup)
    (hshown : Assigned (displayedOn look nodes edges none) shown assign)
    (hc : current ∈ collectBlockInstances (canvas look) nodes)
    (hanchor : getBlockAnchorPosition (nodes.filter fun row => blockIdOf row = some current.blockId) = some anchor)
    (hrow : row ∈ nodes) (hblock : blockIdOf row = some current.blockId) :
    settled placed placeBy nodes shown row = shift row
      ((assign (.block (toDisplayedBlockNode (canvas look) current (getSelectedNodeIds nodes)))).sub anchor) := by
  have hd := block_mem_displayedOn edges hn hc
  rw [h.settled_eq hn hshown hd hrow ((placed_block (h.block hd)).2 hblock), placeBy_block (h.block hd) row _ hanchor]

theorem rows_applied (h : Displays nodes displayed)
    (hn : (nodes.map (·.id)).Nodup) (hshown : Assigned displayed shown assign) :
    applyDisplayedLayoutToRawNodes nodes shown =
      nodes.map (withRest fun row => (settled placed placeBy nodes shown row).rest) :=
  (applyDisplayed_eq h hn hshown).trans (map_congr_left fun row _ => settled_eq_withRest shown row)

theorem raws_applied (h : Displays nodes displayed)
    (hn : (nodes.map (·.id)).Nodup) (hshown : Assigned displayed shown assign) (p : Node (Placed K Other) → Bool)
    (hp : ∀ g row, p (withRest g row) = p row) (hshows : ∀ row ∈ nodes, p row → .raw row ∈ displayed) :
    ((applyDisplayedLayoutToRawNodes nodes shown).filter p).map DisplayedNode.raw =
      ((nodes.filter p).map DisplayedNode.raw).map fun d => d.at (assign d) := by
  have hsame : p ∘ withRest (fun row => (settled placed placeBy nodes shown row).rest) = p := funext (hp _)
  rw [rows_applied h hn hshown, filter_map, hsame, map_map, map_map]
  refine map_congr_left fun row hm => ?_
  obtain ⟨hrow, hprow⟩ := mem_filter.1 hm
  rw [comp_apply, comp_apply, ← settled_eq_withRest,
    settled_raw h hn hshown (hshows row hrow hprow)]
  rfl

theorem anchor_applied [IsOrderedAddMonoid K] (h : Displays nodes (displayedOn look nodes edges none))
    (hn : (nodes.map (·.id)).Nodup) (hshown : Assigned (displayedOn look nodes edges none) shown assign)
    (hc : current ∈ collectBlockInstances (canvas look) nodes) :
    getBlockAnchorPosition (withNodes (fun row => (settled placed placeBy nodes shown row).rest) current).nodes =
      some (assign (.block (toDisplayedBlockNode (canvas look) current (getSelectedNodeIds nodes)))) := by
  obtain ⟨anchor, hanchor, hcurrent⟩ := anchor_of_instance (canvas look) hc
  have hshift : (withNodes (fun row => (settled placed placeBy nodes shown row).rest) current).nodes =
      current.nodes.map (shift · ((assign (.block (toDisplayedBlockNode (canvas look) current
        (getSelectedNodeIds nodes)))).sub anchor)) := by
    refine map_congr_left fun row hm => ?_
    obtain ⟨hrow, hblock⟩ := mem_filter.1 (((collected (canvas look) nodes).nodes current hc).mem_iff.1 hm)
    rw [← settled_eq_withRest, settled_block h hn hshown hc hanchor hrow (of_decide_eq_true hblock)]
  rw [hshift, getBlockAnchorPosition_shift, hcurrent, Option.map_some, Position.add_sub]

theorem projected_again [IsOrderedAddMonoid K] (h : Displays nodes (displayedOn look nodes edges scopedBlockId))
    (hn : (nodes.map (·.id)).Nodup) (hshown : Assigned (displayedOn look nodes edges scopedBlockId) shown assign) :
    displayedOn look (applyDisplayedLayoutToRawNodes nodes shown) edges scopedBlockId =
      (displayedOn look nodes edges scopedBlockId).map fun d => d.at (assign d) := by
  have hrows := rows_applied h hn hshown
  have hn' : ((applyDisplayedLayoutToRawNodes nodes shown).map (·.id)).Nodup := by
    rw [hrows, map_map]
    exact hn
  cases scopedBlockId with
  | some blockId =>
    have hraws := raws_applied h hn hshown (fun row => blockIdOf row = some blockId) (fun _ _ => rfl)
    rw [displayedOn, displayedOn, displayedNodes_scoped _ hn', displayedNodes_scoped _ hn]
    refine hraws fun row hrow hblock => ?_
    rw [displayedOn, displayedNodes_scoped _ hn]
    exact mem_map_of_mem (mem_filter.2 ⟨hrow, hblock⟩)
  | none =>
    have hraws := raws_applied h hn hshown (fun row => (blockIdOf row).isNone) (fun _ _ => rfl)
    rw [displayedOn, displayedOn, displayedNodes_eq _ hn', displayedNodes_eq _ hn, map_append]
    congr 1
    · refine hraws fun row hrow hout => ?_
      rw [displayedOn, displayedNodes_eq _ hn]
      exact mem_append_left _ (mem_map_of_mem (mem_filter.2 ⟨hrow, hout⟩))
    · rw [hrows, collectBlockInstances_withRest, getSelectedNodeIds_withRest, map_map, map_map]
      refine map_congr_left fun current hc => ?_
      have hanchor := anchor_applied h hn hshown hc
      rw [comp_apply, comp_apply, toDisplayedBlockNode_withNodes, canvas_blockRest hanchor]
      rfl

theorem applied_own (h : Displays nodes (displayedOn look nodes edges scopedBlockId)) (hn : (nodes.map (·.id)).Nodup)
    (hshown : shown.Perm (displayedOn look nodes edges scopedBlockId)) :
    applyDisplayedLayoutToRawNodes nodes shown = nodes := by
  have hself : (displayedOn look nodes edges scopedBlockId).map (fun d => d.at d.rest.position) =
      displayedOn look nodes edges scopedBlockId := by
    refine (map_congr_left fun d _ => d.at_self).trans (map_id _)
  have hassigned : Assigned (displayedOn look nodes edges scopedBlockId) shown fun d => d.rest.position := by
    rw [Assigned, hself]
    exact hshown
  rw [applyDisplayed_eq h hn hassigned]
  refine (map_congr_left fun row hrow => ?_).trans (map_id _)
  by_cases hplaced : ∃ d ∈ displayedOn look nodes edges scopedBlockId, placed d row
  · obtain ⟨d, hd, hplaced⟩ := hplaced
    cases d with
    | raw node =>
      obtain ⟨hnode, hid⟩ := h.raw hd
      have heq : row = node := inj_on_of_nodup_map hn hrow hnode ((placed_raw hid).1 hplaced)
      rw [heq, settled_raw h hn hassigned hd]
      rfl
    | block node =>
      have hblock := (placed_block (h.block hd)).1 hplaced
      obtain ⟨rfl, current, hc, rfl⟩ := instance_of_displayedOn hn hd
      obtain ⟨anchor, hanchor, hcurrent⟩ := anchor_of_instance (canvas look) hc
      have hown : (toDisplayedBlockNode (canvas look) current (getSelectedNodeIds nodes)).rest =
          ⟨anchor, none, none, look.blockOther current.blockId⟩ := canvas_blockRest hcurrent
      rw [settled_block h hn hassigned hc hanchor hrow hblock, DisplayedNode.rest, hown]
      exact shift_sub_self row anchor
  · exact Displays.settled_of_not hassigned fun d hd hd' => hplaced ⟨d, hd, hd'⟩

theorem settled_congr (h : Displays nodes displayed)
    (hn : (nodes.map (·.id)).Nodup) (hshown : Assigned displayed shown assign)
    (hshown' : Assigned displayed shown' assign) (hrow : row ∈ nodes) :
    settled placed placeBy nodes shown row = settled placed placeBy nodes shown' row := by
  by_cases hplaced : ∃ d ∈ displayed, placed d row
  · obtain ⟨d, hd, hplaced⟩ := hplaced
    rw [h.settled_eq hn hshown hd hrow hplaced, h.settled_eq hn hshown' hd hrow hplaced]
  · have hnot : ∀ d ∈ displayed, ¬ placed d row := fun d hd hd' => hplaced ⟨d, hd, hd'⟩
    rw [Displays.settled_of_not hshown hnot, Displays.settled_of_not hshown' hnot]

theorem settled_moveTo (h : Displays nodes (displayedOn look nodes edges scopedBlockId))
    (hn : (nodes.map (·.id)).Nodup) (hshown : Assigned (displayedOn look nodes edges scopedBlockId) shown assign)
    (hrow : row ∈ nodes) :
    settled placed placeBy nodes shown row = moveTo row (settled placed placeBy nodes shown row).rest.position := by
  by_cases hplaced : ∃ d ∈ displayedOn look nodes edges scopedBlockId, placed d row
  · obtain ⟨d, hd, hplaced⟩ := hplaced
    cases d with
    | raw node =>
      obtain ⟨hnode, hid⟩ := h.raw hd
      obtain rfl : row = node := inj_on_of_nodup_map hn hrow hnode ((placed_raw hid).1 hplaced)
      rw [settled_raw h hn hshown hd]
      rfl
    | block node =>
      have hblock := (placed_block (h.block hd)).1 hplaced
      obtain ⟨rfl, current, hc, rfl⟩ := instance_of_displayedOn hn hd
      obtain ⟨anchor, hanchor, -⟩ := anchor_of_instance (canvas look) hc
      rw [settled_block h hn hshown hc hanchor hrow hblock]
      rfl
  · rw [Displays.settled_of_not hshown fun d hd hd' => hplaced ⟨d, hd, hd'⟩]
    rfl

theorem settled_relative (h : Displays nodes (displayedOn look nodes edges scopedBlockId))
    (hn : (nodes.map (·.id)).Nodup) (hshown : Assigned (displayedOn look nodes edges scopedBlockId) shown assign)
    (hscope : scopedBlockId ≠ some blockId) (hrow : row ∈ nodes) (hrow' : row' ∈ nodes)
    (hblock : blockIdOf row = some blockId) (hblock' : blockIdOf row' = some blockId) :
    (settled placed placeBy nodes shown row).rest.position.sub (settled placed placeBy nodes shown row').rest.position =
      row.rest.position.sub row'.rest.position := by
  cases scopedBlockId with
  | some scope =>
    have hnot {row} (hrow : row ∈ nodes) (hblock : blockIdOf row = some blockId) :
        ∀ d ∈ displayedOn look nodes edges (some scope), ¬ placed d row := by
      intro d hd hplaced
      cases d with
      | raw node =>
        obtain ⟨hnode, hid⟩ := h.raw hd
        obtain rfl : row = node := inj_on_of_nodup_map hn hrow hnode ((placed_raw hid).1 hplaced)
        rw [displayedOn, displayedNodes_scoped _ hn] at hd
        have hin : blockIdOf row = some scope := by simpa [hrow] using hd
        exact hscope (hin.symm.trans hblock)
      | block node => cases (instance_of_displayedOn hn hd).1
    rw [Displays.settled_of_not hshown (hnot hrow hblock), Displays.settled_of_not hshown (hnot hrow' hblock')]
  | none =>
    obtain ⟨current, hc, rfl⟩ := mem_map.1
      (((collected (canvas look) nodes).mem blockId).2 ⟨row, hrow, hblock⟩)
    obtain ⟨anchor, hanchor, -⟩ := anchor_of_instance (canvas look) hc
    rw [settled_block h hn hshown hc hanchor hrow hblock, settled_block h hn hshown hc hanchor hrow' hblock']
    simp [shift, Position.add, Position.sub]

/-- Applying a displayed layout is exact: the nodes displayed, in any order, get the positions that they are
assigned, the nodes of a block that is displayed as one keep their distances, and the positions of the projection
itself move nothing. -/
theorem displayed_layout_applied [IsOrderedAddMonoid K] (hn : (nodes.map (·.id)).Nodup)
    (hraw : ∀ node, .raw node ∈ displayedOn look nodes edges scopedBlockId →
      parseSyntheticBlockNodeId node.id = none) :
    (∀ assign shown, Assigned (displayedOn look nodes edges scopedBlockId) shown assign →
      displayedOn look (applyDisplayedLayoutToRawNodes nodes shown) edges scopedBlockId =
          (displayedOn look nodes edges scopedBlockId).map (fun d => d.at (assign d)) ∧
        (∃ move : Node (Placed K Other) → Position K,
          applyDisplayedLayoutToRawNodes nodes shown = nodes.map (fun node => moveTo node (move node)) ∧
            ∀ blockId, scopedBlockId ≠ some blockId → ∀ node ∈ nodes, ∀ node' ∈ nodes,
              blockIdOf node = some blockId → blockIdOf node' = some blockId →
                (move node).sub (move node') = node.rest.position.sub node'.rest.position) ∧
        ∀ shown', Assigned (displayedOn look nodes edges scopedBlockId) shown' assign →
          applyDisplayedLayoutToRawNodes nodes shown' = applyDisplayedLayoutToRawNodes nodes shown) ∧
      ∀ shown, shown.Perm (displayedOn look nodes edges scopedBlockId) →
        applyDisplayedLayoutToRawNodes nodes shown = nodes := by
  have h : Displays nodes (displayedOn look nodes edges scopedBlockId) := displays (canvas look) hn hraw
  refine ⟨?_, fun shown => applied_own h hn⟩
  intro assign shown hshown
  refine ⟨projected_again h hn hshown, ⟨fun row => (settled placed placeBy nodes shown row).rest.position, ?_, ?_⟩, ?_⟩
  · rw [applyDisplayed_eq h hn hshown]
    exact map_congr_left fun row hrow => settled_moveTo h hn hshown hrow
  · intro blockId hscope row hrow row' hrow' hblock hblock'
    exact settled_relative h hn hshown hscope hrow hrow' hblock hblock'
  · intro shown' hshown'
    rw [applyDisplayed_eq h hn hshown, applyDisplayed_eq h hn hshown']
    exact map_congr_left fun row hrow => settled_congr h hn hshown' hshown hrow

end

def plainLook : Look Unit := ⟨fun a b => if a.toList < b.toList then -1 else if a = b then 0 else 1, id, fun _ => ()⟩

def rawNode (id : String) (block : Option String) (x y : Int) : Node (Placed Int Unit) where
  id := id
  type := none
  selected := false
  block := block.map fun blockId => { blockId := blockId }
  title := none
  configuration := none
  rest := ⟨⟨x, y⟩, none, none, ()⟩

def deskNodes : List (Node (Placed Int Unit)) :=
  [rawNode "detect" (some "b1") 40 10, rawNode "mail" none 200 0, rawNode "count" (some "b1") 20 60]

theorem displayed_layout_applied_desk :
    let displayed := displayedOn plainLook deskNodes ([] : List (Edge Unit)) none
    let shown := displayed.map fun d => d.at ⟨7, 7⟩
    displayedOn plainLook (applyDisplayedLayoutToRawNodes deskNodes shown) ([] : List (Edge Unit)) none = shown ∧
      applyDisplayedLayoutToRawNodes deskNodes displayed = deskNodes := by
  have hn : (deskNodes.map (·.id)).Nodup := by decide
  have hids : ∀ node ∈ deskNodes, parseSyntheticBlockNodeId node.id = none := by decide +kernel
  have hraw : ∀ node, .raw node ∈ displayedOn plainLook deskNodes ([] : List (Edge Unit)) none →
      parseSyntheticBlockNodeId node.id = none := by
    intro node hm
    rw [displayedOn, displayedNodes_eq _ hn] at hm
    obtain ⟨hnode, -⟩ : node ∈ deskNodes ∧ blockIdOf node = none := by simpa using hm
    exact hids node hnode
  obtain ⟨hassigned, hown⟩ := displayed_layout_applied hn hraw
  exact ⟨(hassigned _ _ (.refl _)).1, hown _ (.refl _)⟩

/-- A raw node whose id reads as that of a block is not moved. -/
theorem synthetic_id_unmoved : let nodes := [rawNode "__fluxery_block__::b1" none 0 0]
    let displayed := displayedOn plainLook nodes ([] : List (Edge Unit)) none
    let moved := applyDisplayedLayoutToRawNodes nodes (displayed.map fun d => d.at ⟨1, 0⟩)
    displayed.map (·.rest.position) = [⟨0, 0⟩] ∧
      (displayedOn plainLook moved ([] : List (Edge Unit)) none).map (·.rest.position) = [⟨0, 0⟩] := by
  decide +kernel

end

end Trakrai.Blocks
