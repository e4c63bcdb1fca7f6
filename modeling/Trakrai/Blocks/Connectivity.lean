import Trakrai.Blocks.Projection
import Mathlib.Data.List.Induction

namespace Trakrai.Blocks
open List Lib

section
variable {Rest Data : Type}

def blockIdOf (node : Node Rest) : Option String := (getBlockMetadata node).map (·.blockId)

def blockOf (nodes : List (Node Rest)) (nodeId : String) : Option String :=
  (nodes.find? (·.id == nodeId)).bind blockIdOf

structure Collected (nodes : List (Node Rest)) (instances : List (FluxeryBlockInstance Rest)) : Prop where
  nodup : (instances.map (·.blockId)).Nodup
  mem : ∀ blockId, blockId ∈ instances.map (·.blockId) ↔ ∃ node ∈ nodes, blockIdOf node = some blockId
  nodes : ∀ current ∈ instances,
    current.nodes.Perm (nodes.filter fun node => blockIdOf node = some current.blockId)
  nodeIds : ∀ current ∈ instances, current.nodeIds.Perm (current.nodes.map (·.id))

theorem Collected.nil : Collected ([] : List (Node Rest)) [] :=
  ⟨nodup_nil, fun _ => by simp, nofun, nofun⟩

theorem Collected.other {nodes : List (Node Rest)} {instances : List (FluxeryBlockInstance Rest)}
    (h : Collected nodes instances) {node : Node Rest} (hnode : blockIdOf node = none) :
    Collected (nodes ++ [node]) instances where
  nodup := h.nodup
  mem blockId := by simp [h.mem, or_and_right, exists_or, hnode]
  nodes current hc := by
    rw [filter_append, filter_cons_of_neg (by simp [hnode])]
    simpa using h.nodes current hc
  nodeIds := h.nodeIds

section
variable {nodes : List (Node Rest)} {instances : List (FluxeryBlockInstance Rest)} {node : Node Rest}
  {blockId : String}

theorem exists_block_append (hnode : blockIdOf node = some blockId) (other : String) :
    (∃ n ∈ nodes ++ [node], blockIdOf n = some other) ↔
      (∃ n ∈ nodes, blockIdOf n = some other) ∨ blockId = other := by
  simp [or_and_right, exists_or, hnode]

theorem filter_block_append (hnode : blockIdOf node = some blockId) :
    ((nodes ++ [node]).filter fun n => blockIdOf n = some blockId) =
      (nodes.filter fun n => blockIdOf n = some blockId) ++ [node] := by
  rw [filter_append, filter_cons_of_pos (by simpa using hnode)]
  simp

theorem filter_block_append_of_ne (hnode : blockIdOf node = some blockId) (hne : other ≠ blockId): ((nodes ++ [node]).filter fun n => blockIdOf n = some other) =
      nodes.filter fun n => blockIdOf n = some other := by
  rw [filter_append, filter_cons_of_neg (by simpa [hnode] using hne.symm)]
  simp

theorem Collected.push (h : Collected nodes instances) (hnode : blockIdOf node = some blockId)
    (hold : blockId ∈ instances.map (·.blockId)) :
    Collected (nodes ++ [node]) (instances.map (setWhere (·.blockId) blockId (pushNode node))) := by
  have hset (current : FluxeryBlockInstance Rest) : (pushNode node current).blockId = current.blockId :=
    rfl
  have hkeys : (instances.map (setWhere (·.blockId) blockId (pushNode node))).map (·.blockId) =
      instances.map (·.blockId) := map_key_setWhere hset blockId
  constructor
  · rw [hkeys]
    exact h.nodup
  · intro other
    rw [hkeys, exists_block_append hnode, ← h.mem, or_iff_left_of_imp]
    rintro rfl
    exact hold
  · intro current hc
    obtain ⟨old, hm, rfl⟩ := mem_map.1 hc
    by_cases hk : old.blockId = blockId
    · rw [setWhere, if_pos hk]
      change (old.nodes ++ [node]).Perm ((nodes ++ [node]).filter fun n => blockIdOf n = some old.blockId)
      rw [hk, filter_block_append hnode]
      exact (hk ▸ h.nodes old hm).append_right _
    · rw [setWhere, if_neg hk, filter_block_append_of_ne hnode hk]
      exact h.nodes old hm
  · intro current hc
    obtain ⟨old, hm, rfl⟩ := mem_map.1 hc
    rw [setWhere]
    split
    · change (old.nodeIds ++ [node.id]).Perm ((old.nodes ++ [node]).map (·.id))
      rw [map_append]
      exact (h.nodeIds old hm).append_right _
    · exact h.nodeIds old hm

theorem Collected.opens (h : Collected nodes instances) {metadata : FluxeryBlockNodeMetadata}
    (hnode : blockIdOf node = some metadata.blockId)
    (hnew : metadata.blockId ∉ instances.map (·.blockId)) :
    Collected (nodes ++ [node]) (instances ++ [openInstance metadata node]) := by
  have hkeys : (instances ++ [openInstance metadata node]).map (·.blockId) =
      instances.map (·.blockId) ++ [metadata.blockId] := map_append
  have hnone : (nodes.filter fun n => blockIdOf n = some metadata.blockId) = [] := by
    rw [filter_eq_nil_iff]
    intro n hn hk
    exact hnew ((h.mem _).2 ⟨n, hn, of_decide_eq_true hk⟩)
  constructor
  · rw [hkeys, nodup_append]
    refine ⟨h.nodup, nodup_singleton _, ?_⟩
    rintro _ hin other hkey rfl
    rw [mem_singleton] at hkey
    exact hnew (hkey ▸ hin)
  · intro other
    rw [hkeys, mem_append, exists_block_append hnode, h.mem, mem_singleton, @eq_comm _ other]
  · intro current hc
    rcases mem_append.1 hc with hold | hc
    · have hne : current.blockId ≠ metadata.blockId := by
        intro heq
        exact hnew (heq ▸ mem_map_of_mem hold)
      rw [filter_block_append_of_ne hnode hne]
      exact h.nodes current hold
    · obtain rfl := mem_singleton.1 hc
      change [node].Perm ((nodes ++ [node]).filter fun n => blockIdOf n = some metadata.blockId)
      rw [filter_block_append hnode, hnone]
      exact List.Perm.refl _
  · intro current hc
    rcases mem_append.1 hc with hold | hc
    · exact h.nodeIds current hold
    · obtain rfl := mem_singleton.1 hc
      exact List.Perm.refl _

theorem Collected.collectNode (h : Collected nodes instances) (node : Node Rest) :
    Collected (nodes ++ [node]) (collectNode instances node) := by
  rw [Blocks.collectNode]
  cases hm : getBlockMetadata node with
  | none => exact h.other (congrArg (Option.map _) hm)
  | some metadata =>
    have hnode : blockIdOf node = some metadata.blockId := congrArg (Option.map _) hm
    dsimp only
    split
    · rename_i hold
      apply h.push hnode
      obtain ⟨current, hc, hk⟩ := any_key_iff.1 hold
      exact hk ▸ mem_map_of_mem hc
    · rename_i hnew
      apply h.opens hnode
      intro hin
      obtain ⟨current, hc, hk⟩ := mem_map.1 hin
      exact hnew (any_key_iff.2 ⟨current, hc, hk⟩)

end

theorem collected_foldl (nodes : List (Node Rest)) : Collected nodes (nodes.foldl collectNode []) := by
  induction nodes using List.reverseRecOn with
  | nil => exact .nil
  | append_singleton nodes node ih =>
    rw [foldl_append]
    exact ih.collectNode node

theorem collected (display : Display Rest) (nodes : List (Node Rest)) :
    Collected nodes (collectBlockInstances display nodes) := by
  have h := collected_foldl nodes
  have hkeys : (collectBlockInstances display nodes).map (·.blockId) =
      (nodes.foldl collectNode []).map (·.blockId) := by
    rw [collectBlockInstances, map_map]
    rfl
  refine ⟨hkeys ▸ h.nodup, hkeys ▸ h.mem, ?_, ?_⟩
  · intro current hc
    obtain ⟨old, hold, rfl⟩ := mem_map.1 hc
    exact (perm_insertionSort ..).trans (h.nodes old hold)
  · intro current hc
    obtain ⟨old, hold, rfl⟩ := mem_map.1 hc
    have hsorted : (display.sortBy (·.id) old.nodes).Perm old.nodes := perm_insertionSort ..
    exact ((perm_insertionSort ..).trans (h.nodeIds old hold)).trans (hsorted.map _).symm

theorem mem_nodeBlockIds (display : Display Rest) (nodes : List (Node Rest)) (nodeId blockId : String) :
    (nodeId, blockId) ∈ nodeBlockIds (collectBlockInstances display nodes) ↔
      ∃ node ∈ nodes, node.id = nodeId ∧ blockIdOf node = some blockId := by
  have h := collected display nodes
  rw [nodeBlockIds, mem_flatMap]
  constructor
  · rintro ⟨current, hc, hm⟩
    obtain ⟨nodeId, hid, heq⟩ := mem_map.1 hm
    obtain ⟨rfl, rfl⟩ := Prod.mk.inj heq
    obtain ⟨node, hnode, rfl⟩ := mem_map.1 ((h.nodeIds current hc).mem_iff.1 hid)
    obtain ⟨hnode, hblock⟩ := mem_filter.1 ((h.nodes current hc).mem_iff.1 hnode)
    exact ⟨node, hnode, rfl, of_decide_eq_true hblock⟩
  · rintro ⟨node, hnode, rfl, hblock⟩
    obtain ⟨current, hc, rfl⟩ := mem_map.1 ((h.mem blockId).2 ⟨node, hnode, hblock⟩)
    refine ⟨current, hc, mem_map.2 ⟨node.id, ?_, rfl⟩⟩
    have hmember : node ∈ current.nodes :=
      (h.nodes current hc).mem_iff.2 (mem_filter.2 ⟨hnode, decide_eq_true hblock⟩)
    exact (h.nodeIds current hc).mem_iff.2 (mem_map_of_mem hmember)

theorem blockOf_eq_some_iff {nodes : List (Node Rest)} (hn : (nodes.map (·.id)).Nodup)
    {nodeId blockId : String} : blockOf nodes nodeId = some blockId ↔
      ∃ node ∈ nodes, node.id = nodeId ∧ blockIdOf node = some blockId := by
  rw [blockOf, Option.bind_eq_some_iff]
  constructor
  · rintro ⟨node, hf, hblock⟩
    obtain ⟨hnode, hid⟩ := mem_of_find?_key hf
    exact ⟨node, hnode, hid, hblock⟩
  · rintro ⟨node, hnode, hid, hblock⟩
    exact ⟨node, find?_key_of_mem hn hnode hid, hblock⟩

theorem getNodeBlockId_eq (display : Display Rest) {nodes : List (Node Rest)}
    (hn : (nodes.map (·.id)).Nodup) (nodeId : String) :
    getNodeBlockId (collectBlockInstances display nodes) nodeId = blockOf nodes nodeId := by
  apply Option.ext
  intro blockId
  rw [blockOf_eq_some_iff hn, ← mem_nodeBlockIds display, getNodeBlockId, Option.map_eq_some_iff]
  constructor
  · rintro ⟨entry, hf, rfl⟩
    have hentry := List.mem_reverse.1 (List.mem_of_find?_eq_some hf)
    have hid : entry.1 = nodeId := by simpa using List.find?_some hf
    exact hid ▸ hentry
  · intro hm
    cases hf : (nodeBlockIds (collectBlockInstances display nodes)).reverse.find? (·.1 == nodeId) with
    | none => exact absurd (List.find?_eq_none.1 hf _ (List.mem_reverse.2 hm)) (by simp)
    | some entry =>
      refine ⟨entry, rfl, ?_⟩
      have hentry : (entry.1, entry.2) ∈ nodeBlockIds (collectBlockInstances display nodes) :=
        List.mem_reverse.1 (List.mem_of_find?_eq_some hf)
      have hid : entry.1 = nodeId := by simpa using List.find?_some hf
      rw [hid, mem_nodeBlockIds, ← blockOf_eq_some_iff hn] at hentry
      rw [mem_nodeBlockIds, ← blockOf_eq_some_iff hn, hentry] at hm
      exact Option.some.inj hm

end

def IsNodeId (nodeId : String) : Prop :=
  nodeId ≠ "" ∧ ¬ BLOCK_HANDLE_SEPARATOR.toList <:+: nodeId.toList

def EndsInColon (nodeId : String) : Prop := [':'] <:+ nodeId.toList

instance (nodeId : String) : Decidable (EndsInColon nodeId) :=
  inferInstanceAs (Decidable ([':'] <:+ nodeId.toList))

section
variable {direction : Direction} {nodeId handle : String}

theorem separator_ne_nil : BLOCK_HANDLE_SEPARATOR.toList ≠ [] := by decide

theorem split_handleId (rest : String) : jsSplitText BLOCK_HANDLE_SEPARATOR
    (handlePrefix direction ++ BLOCK_HANDLE_SEPARATOR ++ rest) =
      handlePrefix direction :: jsSplitText BLOCK_HANDLE_SEPARATOR rest := by
  apply jsSplitText_append separator_ne_nil
  have hsep : BLOCK_HANDLE_SEPARATOR.toList = [':', ':'] := by decide
  have hword : ':' ∉ (handlePrefix direction).toList := by cases direction <;> decide
  rw [hsep]
  exact clear_of_not_mem hword

theorem split_nodeId (hid : IsNodeId nodeId) (hcolon : ¬ EndsInColon nodeId) :
    jsSplitText BLOCK_HANDLE_SEPARATOR (nodeId ++ BLOCK_HANDLE_SEPARATOR ++ handle) =
      nodeId :: jsSplitText BLOCK_HANDLE_SEPARATOR handle := by
  apply jsSplitText_append separator_ne_nil
  have hsep : BLOCK_HANDLE_SEPARATOR.toList = [':', ':'] := by decide
  have hno := hid.2
  rw [hsep] at hno ⊢
  exact clear_double hno hcolon

theorem split_colon (hid : IsNodeId nodeId) (hcolon : EndsInColon nodeId) (handle : String) :
    ∃ nodeId' handleParts, nodeId' ≠ nodeId ∧
      jsSplitText BLOCK_HANDLE_SEPARATOR (nodeId ++ BLOCK_HANDLE_SEPARATOR ++ handle) =
        nodeId' :: handleParts := by
  obtain ⟨b, hb⟩ := hcolon
  have hsep : BLOCK_HANDLE_SEPARATOR.toList = [':', ':'] := by decide
  have hno := hid.2
  rw [hsep, ← hb] at hno
  refine ⟨String.ofList b, (pieces [':', ':'] (':' :: handle.toList)).map String.ofList, ?_, ?_⟩
  · intro heq
    have hlength := congrArg List.length ((congrArg String.toList heq).symm.trans String.toList_ofList)
    rw [← hb, length_append] at hlength
    exact absurd hlength (by simp)
  · have htext : (nodeId ++ BLOCK_HANDLE_SEPARATOR ++ handle).toList =
        (b ++ [':']) ++ ([':', ':'] ++ handle.toList) := by simp [← hsep, hb]
    rw [jsSplitText, htext, hsep, pieces_double_of_suffix hno, map_cons]

theorem parseBlockHandleId_of_split
    (h : jsSplitText BLOCK_HANDLE_SEPARATOR text = handlePrefix direction :: nodeId :: handleParts) :
    parseBlockHandleId (.text text) =
      if nodeId = "" ∨ jsJoinText BLOCK_HANDLE_SEPARATOR handleParts = "" then none
      else some ⟨direction, nodeId, jsJoinText BLOCK_HANDLE_SEPARATOR handleParts⟩ := by
  have hne : BLOCK_OUTPUT_HANDLE_PREFIX ≠ BLOCK_INPUT_HANDLE_PREFIX := by decide
  rw [parseBlockHandleId, h]
  by_cases hid : nodeId = ""
  · simp [hid]
  · cases direction with
    | input => simp [handlePrefix, hid]
    | output => simp [handlePrefix, hid, hne]

theorem parse_buildBlockHandleId (hid : IsNodeId nodeId) (hcolon : ¬ EndsInColon nodeId) :
    parseBlockHandleId (.text (buildBlockHandleId direction nodeId handle)) =
      if handle = "" then none else some ⟨direction, nodeId, handle⟩ := by
  have hsplit : jsSplitText BLOCK_HANDLE_SEPARATOR (buildBlockHandleId direction nodeId handle) =
      handlePrefix direction :: nodeId :: jsSplitText BLOCK_HANDLE_SEPARATOR handle := by
    rw [buildBlockHandleId, split_handleId, split_nodeId hid hcolon]
  rw [parseBlockHandleId_of_split hsplit, jsJoinText_jsSplitText separator_ne_nil]
  simp [hid.1]

theorem parse_buildBlockHandleId_colon (hid : IsNodeId nodeId) (hcolon : EndsInColon nodeId)
    (h : parseBlockHandleId (.text (buildBlockHandleId direction nodeId handle)) = some parsed) :
    parsed.nodeId ≠ nodeId := by
  obtain ⟨nodeId', handleParts, hne, hsplit⟩ := split_colon hid hcolon handle
  have hfull : jsSplitText BLOCK_HANDLE_SEPARATOR (buildBlockHandleId direction nodeId handle) =
      handlePrefix direction :: nodeId' :: handleParts := by
    rw [buildBlockHandleId, split_handleId, hsplit]
  rw [parseBlockHandleId_of_split hfull] at h
  split at h
  · cases h
  · cases h
    exact hne

end

theorem parseSynthetic_of_isNodeId (h : IsNodeId nodeId) :
    parseSyntheticBlockNodeId nodeId = none := by
  rw [parseSyntheticBlockNodeId]
  apply if_neg
  intro hmark
  apply h.2
  have hsep : BLOCK_HANDLE_SEPARATOR.toList <:+: (FLUXERY_BLOCK_NODE_TYPE ++ BLOCK_HANDLE_SEPARATOR).toList :=
    ⟨FLUXERY_BLOCK_NODE_TYPE.toList, [], by simp⟩
  exact hsep.trans hmark.isInfix

theorem parseSynthetic_getSynthetic (blockId : String) :
    parseSyntheticBlockNodeId (getSyntheticBlockNodeId blockId) = some blockId := by
  have htext : (getSyntheticBlockNodeId blockId).toList =
      (FLUXERY_BLOCK_NODE_TYPE ++ BLOCK_HANDLE_SEPARATOR).toList ++ blockId.toList := by
    rw [getSyntheticBlockNodeId, String.toList_append]
  rw [parseSyntheticBlockNodeId, htext, drop_left, String.ofList_toList]
  exact if_pos (prefix_append ..)

theorem getSyntheticBlockNodeId_inj : Function.Injective getSyntheticBlockNodeId := by
  intro blockId other h
  have hparsed := congrArg parseSyntheticBlockNodeId h
  rw [parseSynthetic_getSynthetic, parseSynthetic_getSynthetic] at hparsed
  exact Option.some.inj hparsed

def EndHidden (block : Option String) (handle : Handle) : Prop :=
  block.isSome ∧ (handle = .undefined ∨ handle = .text "")

def EndKept (block : Option String) (nodeId : String) (handle : Handle) : Prop :=
  block.isSome → handle ≠ .null ∧ ¬ EndsInColon nodeId

def shownEnd (direction : Direction) (block : Option String) (nodeId : String) (handle : Handle) :
    String × Handle :=
  match block with
  | none => (nodeId, handle)
  | some blockId =>
    (getSyntheticBlockNodeId blockId, .text (buildBlockHandleId direction nodeId handle.orEmpty))

theorem resolveEnd_shownEnd (direction : Direction) (hid : IsNodeId nodeId) (hshown : ¬ EndHidden block handle) :
    resolveEnd direction (shownEnd direction block nodeId handle).1
      (shownEnd direction block nodeId handle).2 = some (nodeId, handle) ↔
        EndKept block nodeId handle := by
  cases block with
  | none => simp [shownEnd, resolveEnd, parseSynthetic_of_isNodeId hid, EndKept]
  | some blockId =>
    simp only [shownEnd, resolveEnd, parseSynthetic_getSynthetic, EndKept, Option.isSome_some,
      true_imp_iff]
    by_cases hcolon : EndsInColon nodeId
    · constructor
      · intro h
        exfalso
        cases hp : parseBlockHandleId (.text (buildBlockHandleId direction nodeId handle.orEmpty)) with
        | none => simp [hp] at h
        | some parsed =>
          have hne := parse_buildBlockHandleId_colon hid hcolon hp
          simp [hp, hne] at h
      · exact fun h => absurd hcolon h.2
    · rw [parse_buildBlockHandleId hid hcolon]
      cases handle with
      | undefined => exact absurd ⟨rfl, .inl rfl⟩ hshown
      | null => simp [Handle.orEmpty]
      | text value =>
        have hvalue : value ≠ "" := by
          rintro rfl
          exact hshown ⟨rfl, .inr rfl⟩
        simp [Handle.orEmpty, hvalue, hcolon]

section
variable {Rest Data : Type}

def Edge.connection (edge : Edge Data) : Connection :=
  ⟨edge.source, edge.sourceHandle, edge.target, edge.targetHandle⟩

def shownEdge (edge : Edge Data) (sourceBlockId targetBlockId : Option String) : Edge Data :=
  { edge with
    source := (shownEnd .output sourceBlockId edge.source edge.sourceHandle).1
    sourceHandle := (shownEnd .output sourceBlockId edge.source edge.sourceHandle).2
    target := (shownEnd .input targetBlockId edge.target edge.targetHandle).1
    targetHandle := (shownEnd .input targetBlockId edge.target edge.targetHandle).2
    rawEdgeId := some edge.id }

theorem toDisplayedBoundaryEdge_eq_some_iff :
    toDisplayedBoundaryEdge edge sourceBlockId targetBlockId = some shown ↔
      ¬ (sourceBlockId.isSome ∧ sourceBlockId = targetBlockId) ∧
      ¬ EndHidden sourceBlockId edge.sourceHandle ∧ ¬ EndHidden targetBlockId edge.targetHandle ∧
      shownEdge edge sourceBlockId targetBlockId = shown := by
  have hshown : shownEdge edge sourceBlockId targetBlockId = { edge with
      source := sourceBlockId.elim edge.source getSyntheticBlockNodeId
      sourceHandle := match sourceBlockId with
        | none => edge.sourceHandle
        | some _ => .text (buildBlockHandleId .output edge.source edge.sourceHandle.orEmpty)
      target := targetBlockId.elim edge.target getSyntheticBlockNodeId
      targetHandle := match targetBlockId with
        | none => edge.targetHandle
        | some _ => .text (buildBlockHandleId .input edge.target edge.targetHandle.orEmpty)
      rawEdgeId := some edge.id } := by
    cases sourceBlockId <;> cases targetBlockId <;> rfl
  have hinside : (sourceBlockId.isSome ∧ targetBlockId.isSome ∧ sourceBlockId = targetBlockId) ↔
      (sourceBlockId.isSome ∧ sourceBlockId = targetBlockId) := by
    constructor
    · exact fun h => ⟨h.1, h.2.2⟩
    · exact fun h => ⟨h.1, h.2 ▸ h.1, h.2⟩
  unfold toDisplayedBoundaryEdge
  rw [if_congr hinside rfl rfl]
  by_cases h : sourceBlockId.isSome ∧ sourceBlockId = targetBlockId
  · rw [if_pos h]
    exact ⟨nofun, fun h' => absurd h h'.1⟩
  · rw [if_neg h]
    dsimp only [EndHidden]
    split
    · rename_i hends
      exact ⟨nofun, fun h' => absurd hends (not_or.2 ⟨h'.2.1, h'.2.2.1⟩)⟩
    · rename_i hends
      obtain ⟨hs, ht⟩ := not_or.1 hends
      rw [Option.some.injEq]
      exact ⟨fun h' => ⟨h, hs, ht, hshown.trans h'⟩, fun h' => hshown.symm.trans h'.2.2.2⟩

theorem resolve_shownEdge (hsource : IsNodeId edge.source) (htarget : IsNodeId edge.target)
    (hs : ¬ EndHidden sourceBlockId edge.sourceHandle) (ht : ¬ EndHidden targetBlockId edge.targetHandle) :
    (resolveRawConnectionFromDisplayed (shownEdge edge sourceBlockId targetBlockId).connection).map
        (·.connection) = some edge.connection ↔
      EndKept sourceBlockId edge.source edge.sourceHandle ∧
        EndKept targetBlockId edge.target edge.targetHandle := by
  rw [← resolveEnd_shownEnd .output hsource hs, ← resolveEnd_shownEnd .input htarget ht]
  simp only [resolveRawConnectionFromDisplayed, Edge.connection, shownEdge]
  cases resolveEnd .output (shownEnd .output sourceBlockId edge.source edge.sourceHandle).1
    (shownEnd .output sourceBlockId edge.source edge.sourceHandle).2 with
  | none => simp
  | some source =>
    cases resolveEnd .input (shownEnd .input targetBlockId edge.target edge.targetHandle).1
      (shownEnd .input targetBlockId edge.target edge.targetHandle).2 with
    | none => simp
    | some target =>
      obtain ⟨source, sourceHandle⟩ := source
      obtain ⟨target, targetHandle⟩ := target
      simp only [Option.map_some, Option.some.injEq, Connection.mk.injEq, Prod.mk.injEq]
      exact ⟨fun ⟨a, b, c, d⟩ => ⟨⟨a, b⟩, c, d⟩, fun ⟨⟨a, b⟩, c, d⟩ => ⟨a, b, c, d⟩⟩

structure RawWorkflow (nodes : List (Node Rest)) (edges : List (Edge Data)) : Prop where
  nodeIds : (nodes.map (·.id)).Nodup
  edgeIds : (edges.map (·.id)).Nodup
  isNodeId : ∀ node ∈ nodes, IsNodeId node.id
  ends : ∀ edge ∈ edges, IsNodeId edge.source ∧ IsNodeId edge.target

def DisplayedNode.raw? : DisplayedNode Rest → Option (Node Rest)
  | .raw node => some node
  | .block _ => none

def DisplayedNode.block? : DisplayedNode Rest → Option (BlockNode Rest)
  | .raw _ => none
  | .block node => some node

def Inside (nodes : List (Node Rest)) (edge : Edge Data) : Prop :=
  (blockOf nodes edge.source).isSome ∧ blockOf nodes edge.source = blockOf nodes edge.target

/-- A projection shows what is outside the blocks as it is and one node for each block, hides what is
inside, and each edge that it shows is connected as the raw edge that it names. -/
structure KeepsConnectivity (nodes : List (Node Rest)) (edges : List (Edge Data))
    (projection : FluxeryBlockProjection Rest Data) : Prop where
  outside : projection.displayedNodes.filterMap DisplayedNode.raw? =
    nodes.filter fun node => (blockIdOf node).isNone
  blocks : ((projection.displayedNodes.filterMap DisplayedNode.block?).map (·.blockId)).Nodup
  blockIds : ∀ blockId,
    blockId ∈ (projection.displayedNodes.filterMap DisplayedNode.block?).map (·.blockId) ↔
      ∃ node ∈ nodes, blockIdOf node = some blockId
  synthetic : ∀ node ∈ projection.displayedNodes.filterMap DisplayedNode.block?,
    node.id = getSyntheticBlockNodeId node.blockId ∧ node.type = FLUXERY_BLOCK_NODE_TYPE
  hidden : ∀ edge ∈ edges, Inside nodes edge →
    ∀ shown ∈ projection.displayedEdges, shown.rawEdgeId ≠ some edge.id
  connected : ∀ shown ∈ projection.displayedEdges, ∃ edge ∈ edges, shown.rawEdgeId = some edge.id ∧
    (resolveRawConnectionFromDisplayed shown.connection).map (·.connection) = some edge.connection

/-- The edge is not shown, or both of its ends can be read back. -/
def EdgeKept (nodes : List (Node Rest)) (edge : Edge Data) : Prop :=
  Inside nodes edge ∨
  EndHidden (blockOf nodes edge.source) edge.sourceHandle ∨
  EndHidden (blockOf nodes edge.target) edge.targetHandle ∨
  EndKept (blockOf nodes edge.source) edge.source edge.sourceHandle ∧
    EndKept (blockOf nodes edge.target) edge.target edge.targetHandle

section
variable {nodes : List (Node Rest)} {edges : List (Edge Data)} (display : Display Rest)

theorem displayedNodes_eq (hn : (nodes.map (·.id)).Nodup) :
    (projectWorkflowWithBlocks display nodes edges none).displayedNodes =
      (nodes.filter fun node => (blockIdOf node).isNone).map .raw ++
        (collectBlockInstances display nodes).map fun current =>
          .block (toDisplayedBlockNode display current (getSelectedNodeIds nodes)) := by
  have hfilter : (nodes.filter fun node => (getNodeBlockId (collectBlockInstances display nodes) node.id).isNone) =
      nodes.filter fun node => (blockIdOf node).isNone := by
    apply filter_congr
    intro node hnode
    have hblockOf : blockOf nodes node.id = blockIdOf node := by
      rw [blockOf, find?_key_of_mem hn hnode rfl]
      rfl
    rw [getNodeBlockId_eq display hn, hblockOf]
  rw [projectWorkflowWithBlocks, hfilter]

theorem displayedNodes_raw (hn : (nodes.map (·.id)).Nodup) :
    (projectWorkflowWithBlocks display nodes edges none).displayedNodes.filterMap DisplayedNode.raw? =
      nodes.filter fun node => (blockIdOf node).isNone := by
  have hraw (rows : List (Node Rest)) : (rows.map DisplayedNode.raw).filterMap DisplayedNode.raw? = rows := by
    rw [filterMap_map]
    exact filterMap_some
  have hblock (rows : List (FluxeryBlockInstance Rest)) (toNode : FluxeryBlockInstance Rest → BlockNode Rest) :
      (rows.map fun current => DisplayedNode.block (toNode current)).filterMap DisplayedNode.raw? = [] := by
    rw [filterMap_map, filterMap_eq_nil_iff]
    exact fun _ _ => rfl
  rw [displayedNodes_eq display hn, filterMap_append, hraw, hblock, append_nil]

theorem displayedNodes_block (hn : (nodes.map (·.id)).Nodup) :
    (projectWorkflowWithBlocks display nodes edges none).displayedNodes.filterMap
      DisplayedNode.block? = (collectBlockInstances display nodes).map fun current =>
        toDisplayedBlockNode display current (getSelectedNodeIds nodes) := by
  have hraw (rows : List (Node Rest)) : (rows.map DisplayedNode.raw).filterMap DisplayedNode.block? = [] := by
    rw [filterMap_map, filterMap_eq_nil_iff]
    exact fun _ _ => rfl
  rw [displayedNodes_eq display hn, filterMap_append, hraw, nil_append, filterMap_map]
  exact congrFun filterMap_eq_map _

theorem mem_displayedEdges (hn : (nodes.map (·.id)).Nodup) :
    shown ∈ (projectWorkflowWithBlocks display nodes edges none).displayedEdges ↔
      ∃ edge ∈ edges, ¬ Inside nodes edge ∧ ¬ EndHidden (blockOf nodes edge.source) edge.sourceHandle ∧
        ¬ EndHidden (blockOf nodes edge.target) edge.targetHandle ∧
        shownEdge edge (blockOf nodes edge.source) (blockOf nodes edge.target) = shown := by
  rw [projectWorkflowWithBlocks, mem_filterMap]
  simp only [getNodeBlockId_eq display hn, toDisplayedBoundaryEdge_eq_some_iff]
  rfl

/-- The projection keeps the connections exactly when each edge that it shows has, at its ends in
blocks, a handle that is not null and a node id that does not end in a colon. -/
theorem projectWorkflowWithBlocks_keeps_iff (h : RawWorkflow nodes edges) :
    KeepsConnectivity nodes edges (projectWorkflowWithBlocks display nodes edges none) ↔
      ∀ edge ∈ edges, EdgeKept nodes edge := by
  constructor
  · intro hkeeps edge hedge
    by_cases hinside : Inside nodes edge
    · exact .inl hinside
    by_cases hs : EndHidden (blockOf nodes edge.source) edge.sourceHandle
    · exact .inr (.inl hs)
    by_cases ht : EndHidden (blockOf nodes edge.target) edge.targetHandle
    · exact .inr (.inr (.inl ht))
    have hshown := (mem_displayedEdges display h.nodeIds).2 ⟨edge, hedge, hinside, hs, ht, rfl⟩
    obtain ⟨raw, hraw, hid, hresolved⟩ := hkeeps.connected _ hshown
    obtain rfl : edge = raw :=
      inj_on_of_nodup_map h.edgeIds hedge hraw (Option.some.inj hid)
    have hends := h.ends edge hedge
    exact .inr (.inr (.inr ((resolve_shownEdge hends.1 hends.2 hs ht).1 hresolved)))
  · intro hkept
    have hcollected := collected display nodes
    have hblockIds : ((projectWorkflowWithBlocks display nodes edges none).displayedNodes.filterMap
        DisplayedNode.block?).map (·.blockId) =
          (collectBlockInstances display nodes).map (·.blockId) := by
      rw [displayedNodes_block display h.nodeIds, map_map]
      rfl
    constructor
    · exact displayedNodes_raw display h.nodeIds
    · rw [hblockIds]
      exact hcollected.nodup
    · rw [hblockIds]
      exact hcollected.mem
    · intro node hnode
      rw [displayedNodes_block display h.nodeIds] at hnode
      obtain ⟨current, -, rfl⟩ := mem_map.1 hnode
      exact ⟨rfl, rfl⟩
    · intro edge hedge hinside shown hshown hid
      obtain ⟨raw, hraw, hout, -, -, rfl⟩ := (mem_displayedEdges display h.nodeIds).1 hshown
      obtain rfl : raw = edge :=
        inj_on_of_nodup_map h.edgeIds hraw hedge (Option.some.inj hid)
      exact hout hinside
    · intro shown hshown
      obtain ⟨edge, hedge, hinside, hs, ht, rfl⟩ := (mem_displayedEdges display h.nodeIds).1 hshown
      refine ⟨edge, hedge, rfl, ?_⟩
      have hends := h.ends edge hedge
      rw [resolve_shownEdge hends.1 hends.2 hs ht]
      rcases hkept edge hedge with hin | hin | hin | hin
      · exact absurd hin hinside
      · exact absurd hin hs
      · exact absurd hin ht
      · exact hin

end

end

def plainDisplay : Display Unit :=
  ⟨fun a b => if a.toList < b.toList then -1 else if a = b then 0 else 1, id, fun _ => ()⟩

def sampleNodes : List (Node Unit) :=
  [member "detect", ⟨"mail", none, false, none, some "mail", none, ()⟩, member "count"]
where
  member (id : String) : Node Unit :=
    ⟨id, none, false, some (.mk "b1" none none none none none none), some id, none, ()⟩

def sampleEdges : List (Edge Unit) :=
  [⟨"e1", "detect", .text "out", "count", .text "in", none, ()⟩,
   ⟨"e2", "count", .text "a::b", "mail", .null, none, ()⟩,
   ⟨"e3", "mail", .undefined, "detect", .text "in", none, ()⟩,
   ⟨"e4", "count", .undefined, "mail", .text "in", none, ()⟩]

theorem sample_raw : RawWorkflow sampleNodes sampleEdges where
  nodeIds := by decide +kernel
  edgeIds := by decide +kernel
  isNodeId := by simp only [IsNodeId]; decide +kernel
  ends := by simp only [IsNodeId]; decide +kernel

theorem projectWorkflowWithBlocks_keeps_sample :
    ((projectWorkflowWithBlocks plainDisplay sampleNodes sampleEdges none).displayedEdges.map (·.id)) =
      ["e2", "e3"] ∧
    KeepsConnectivity sampleNodes sampleEdges
      (projectWorkflowWithBlocks plainDisplay sampleNodes sampleEdges none) := by
  refine ⟨by decide +kernel, (projectWorkflowWithBlocks_keeps_iff plainDisplay sample_raw).2 ?_⟩
  simp only [EdgeKept, Inside, EndHidden, EndKept]
  decide +kernel

/-- An edge that leaves a block with a null handle is shown and leads nowhere. -/
theorem null_handle_lost :
    ¬ ∀ (display : Display Unit) (nodes : List (Node Unit)) (edges : List (Edge Unit)),
      RawWorkflow nodes edges →
        KeepsConnectivity nodes edges (projectWorkflowWithBlocks display nodes edges none) := by
  intro h
  have hraw : RawWorkflow sampleNodes [⟨"e1", "count", .null, "mail", .text "in", none, ()⟩] := by
    refine ⟨sample_raw.nodeIds, by decide, sample_raw.isNodeId, ?_⟩
    simp only [IsNodeId]
    decide +kernel
  have hconnected := (h plainDisplay _ _ hraw).connected
  exact absurd hconnected (by decide +kernel)

end Trakrai.Blocks
