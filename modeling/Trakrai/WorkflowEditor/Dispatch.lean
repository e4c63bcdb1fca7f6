import Trakrai.Lib.Table
import Trakrai.WorkflowEditor.NodeMutations

namespace Trakrai.WorkflowEditor
open Option List Lib

def WorkflowData.DistinctIds (data : WorkflowData) : Prop := (data.nodes.map Node.id).Nodup

section
variable {nodes : List Node}

theorem nodesById_eq_find? (hn : (nodes.map Node.id).Nodup) (id : String) :
    nodesById nodes id = nodes.find? (·.id == id) := by
  cases hf : nodes.find? (·.id == id) with
  | none =>
    rw [nodesById, List.find?_eq_none]
    intro node hnode
    exact (List.find?_eq_none.1 hf) node (List.mem_reverse.1 hnode)
  | some node =>
    obtain ⟨hmem, hid⟩ := mem_of_find?_key hf
    have hn' : (nodes.reverse.map Node.id).Nodup := by rwa [map_reverse, List.nodup_reverse]
    exact find?_key_of_mem hn' (List.mem_reverse.2 hmem) hid

theorem filter_id (hn : (nodes.map Node.id).Nodup) (id : String) :
    nodes.filter (·.id == id) = (nodesById nodes id).toList := by
  rw [nodesById_eq_find? hn]
  cases hf : nodes.find? (·.id == id) with
  | none =>
    rw [toList_none, filter_eq_nil_iff]
    exact List.find?_eq_none.1 hf
  | some node =>
    obtain ⟨hmem, hid⟩ := mem_of_find?_key hf
    rw [toList_some]
    exact filter_key_of_mem hn hmem hid

theorem nodesById_id {id : String} (h : nodesById nodes id = some node) : node.id = id := by
  simpa using List.find?_some h

end

theorem removedMutation_node (h : removedMutation current node = some mutation) : mutation.node = node := by
  unfold removedMutation at h
  split at h
  · cases h
    rfl
  · split at h
    · cases h
      rfl
    · cases h

theorem currentMutation_node (h : currentMutation previous node = some mutation) : mutation.node = node := by
  unfold currentMutation at h
  split at h
  · cases h
    rfl
  · split at h
    · cases h
      rfl
    · split at h
      · cases h
        rfl
      · cases h

theorem filter_filterMap_id (mutationOf : String → Node → Option NodeMutation)
    (hnode : ∀ id node mutation, mutationOf id node = some mutation → mutation.node = node)
    (hn : (nodes.map Node.id).Nodup) (id : String) :
    (nodes.filterMap fun node => mutationOf node.id node).filter (·.node.id == id) =
      (nodesById nodes id).toList.filterMap (mutationOf id) := by
  have hcomm : (nodes.filterMap fun node => mutationOf node.id node).filter (·.node.id == id) =
      (nodes.filter (·.id == id)).filterMap fun node => mutationOf node.id node := by
    clear hn
    induction nodes with
    | nil => rfl
    | cons node nodes ih =>
      cases hm : mutationOf node.id node with
      | none =>
        rw [filterMap_cons_none (f := fun node => mutationOf node.id node) hm, ih, filter_cons]
        split
        · rw [filterMap_cons_none (f := fun node => mutationOf node.id node) hm]
        · rfl
      | some mutation =>
        have he := hnode _ _ _ hm
        rw [filterMap_cons_some (f := fun node => mutationOf node.id node) hm, filter_cons,
          filter_cons, he, ih]
        split
        · rw [filterMap_cons_some (f := fun node => mutationOf node.id node) hm]
        · rfl
  rw [hcomm, filter_id hn]
  cases hf : nodesById nodes id with
  | none => rfl
  | some node =>
    rw [toList_some, filterMap_cons, filterMap_cons, nodesById_id hf]
    rfl

def mutationsOf (previous current : Option Node) : List NodeMutation :=
  previous.toList.filterMap (removedMutation current) ++ current.toList.filterMap (currentMutation previous)

theorem filter_getNodeMutations (ha : a.DistinctIds) (hb : b.DistinctIds) (id : String) :
    (getNodeMutations a b).filter (·.node.id == id) = mutationsOf (nodesById a.nodes id) (nodesById b.nodes id) := by
  rw [getNodeMutations, filter_append,
    filter_filterMap_id (fun id => removedMutation (nodesById b.nodes id))
      (fun _ _ _ => removedMutation_node) ha,
    filter_filterMap_id (fun id => currentMutation (nodesById a.nodes id))
      (fun _ _ _ => currentMutation_node) hb]
  rfl

theorem configuration_of_deepEqual (h : a.data.deepEqual b.data) (name : String) :
    ((getNodeConfiguration a).field name).bind Json.string? =
      ((getNodeConfiguration b).field name).bind Json.string? := by
  have hstring : ∀ x y : Json, x.deepEqual y → x.string? = y.string? := by
    intro x y he
    cases x with
    | str value =>
      cases y with
      | str value' => rw [eq_of_beq he]
      | _ => cases he
    | _ =>
      cases y with
      | str value => cases he
      | _ => rfl
  have hfield : ∀ x y : Json, x.deepEqual y →
      (x.field name).bind Json.string? = (y.field name).bind Json.string? := by
    intro x y he
    rcases Json.deepEqual_field he name with ⟨hx, hy⟩ | ⟨x', y', hx, hy, he'⟩
    · rw [hx, hy]
    · rw [hx, hy]
      exact hstring x' y' he'
  rw [getNodeConfiguration, getNodeConfiguration]
  rcases Json.deepEqual_field h "configuration" with ⟨ha, hb⟩ | ⟨x, y, ha, hb, he⟩
  · rw [ha, hb]
  · rw [ha, hb]
    cases x with
    | obj fields =>
      cases y with
      | obj fields' => exact hfield _ _ he
      | _ => cases he
    | _ =>
      cases y with
      | obj fields' => cases he
      | _ => rfl

theorem configured_of_deepEqual {a b : Node} {handler : Handler} (ht : handler.trigger = some (kind, configured))
    (h : a.data.deepEqual b.data) : configured a = configured b := by
  cases handler with
  | cron =>
    cases ht
    rw [getConfiguredCronExpression, configuration_of_deepEqual h, getConfiguredCronExpression]
  | event eventsByName =>
    cases ht
    rw [getPersistedEventName, getConfiguredEventName, configuration_of_deepEqual h, getPersistedEventName,
      getConfiguredEventName]
  | other => cases ht

section
variable {nodeHandlers : String → Option Handler}

def asks (nodeHandlers : String → Option Handler) (node : Option Node) (kind : TriggerKind) : Option String := do
  let node ← node
  let handler ← node.type.bind nodeHandlers
  let (kind', configured) ← handler.trigger
  if kind' = kind then configured node else none

theorem asksFor_eq (nodes : List Node) (kind : TriggerKind) (id : String) :
    asksFor nodeHandlers nodes kind id = asks nodeHandlers (nodesById nodes id) kind := rfl

def Call.nodeId : Call → String
  | .saveTrigger _ nodeId _ | .deleteTrigger _ nodeId | .other nodeId => nodeId

theorem callback_nodeId (h : callback nodeHandlers mutation = some call) : call.nodeId = mutation.node.id := by
  unfold callback at h
  split at h
  · cases h
  · split at h
    · cases h
      rfl
    · cases mutation with
      | added node =>
        obtain ⟨trigger, -, rfl⟩ := map_eq_some_iff.1 h
        rfl
      | removed node =>
        cases h
        rfl
      | updated node previousNode =>
        simp only [onNodeUpdated, onNodeRemoved] at h
        split at h
        · cases h
        · split at h
          · cases h
            rfl
          · cases h
            rfl

section
variable {r : Registrations}

theorem set_of_ne {id : String} (h : nodeId ≠ id) :
    (r.set kind nodeId trigger) kind' id = r kind' id :=
  if_neg fun he => h he.2.symm

theorem apply_of_ne {id : String} (h : call.nodeId ≠ id) (kind : TriggerKind) :
    r.apply call kind id = r kind id := by
  cases call with
  | saveTrigger kind' nodeId trigger => exact set_of_ne h
  | deleteTrigger kind' nodeId => exact set_of_ne h
  | other nodeId => rfl

theorem apply_congr {r r' : Registrations} {id : String} (h : ∀ kind, r kind id = r' kind id) (call : Call)
    (kind : TriggerKind) : r.apply call kind id = r'.apply call kind id := by
  cases call with
  | saveTrigger kind' nodeId trigger => simp only [Registrations.apply, Registrations.set, h]
  | deleteTrigger kind' nodeId => simp only [Registrations.apply, Registrations.set, h]
  | other nodeId => exact h kind

def Registrations.process (nodeHandlers : String → Option Handler) (r : Registrations) (mutation : NodeMutation) :
    Registrations :=
  match callback nodeHandlers mutation with
  | some call => r.apply call
  | none => r

theorem process_of_none (h : callback nodeHandlers mutation = none) :
    r.process nodeHandlers mutation = r := by
  rw [Registrations.process, h]

theorem process_of_some (h : callback nodeHandlers mutation = some call) :
    r.process nodeHandlers mutation = r.apply call := by
  rw [Registrations.process, h]

theorem process_of_ne {id : String} (h : mutation.node.id ≠ id) (kind : TriggerKind) :
    r.process nodeHandlers mutation kind id = r kind id := by
  cases hcall : callback nodeHandlers mutation with
  | none => rw [process_of_none hcall]
  | some call =>
    rw [process_of_some hcall]
    exact apply_of_ne (by rwa [callback_nodeId hcall]) kind

theorem process_congr {r r' : Registrations} {id : String} (h : ∀ kind, r kind id = r' kind id)
    (mutation : NodeMutation) (kind : TriggerKind) :
    r.process nodeHandlers mutation kind id = r'.process nodeHandlers mutation kind id := by
  cases hcall : callback nodeHandlers mutation with
  | none =>
    rw [process_of_none hcall, process_of_none hcall]
    exact h kind
  | some call =>
    rw [process_of_some hcall, process_of_some hcall]
    exact apply_congr h call kind

def Registrations.processAll (nodeHandlers : String → Option Handler) (r : Registrations)
    (mutations : List NodeMutation) : Registrations :=
  mutations.foldl (Registrations.process nodeHandlers) r

theorem processAll_filter {r r' : Registrations} {id : String} (h : ∀ kind, r kind id = r' kind id)
    (mutations : List NodeMutation) (kind : TriggerKind) :
    r.processAll nodeHandlers mutations kind id =
      r'.processAll nodeHandlers (mutations.filter (·.node.id == id)) kind id := by
  induction mutations generalizing r r' with
  | nil => exact h kind
  | cons mutation mutations ih =>
    rw [filter_cons]
    split
    · exact ih fun kind => process_congr h mutation kind
    · rename_i hne
      exact ih fun kind => (process_of_ne (by simpa using hne) kind).trans (h kind)

theorem asks_of_handler (h : node.type.bind nodeHandlers = some handler)
    (ht : handler.trigger = some (kind', configured)) (kind : TriggerKind) :
    asks nodeHandlers (some node) kind = if kind' = kind then configured node else none := by
  simp only [asks, bind_eq_bind, bind_some, h, ht]

theorem asks_of_no_trigger (h : (node.type.bind nodeHandlers).bind Handler.trigger = none)
    (kind : TriggerKind) : asks nodeHandlers (some node) kind = none := by
  simp only [asks, bind_eq_bind, bind_some]
  rw [← Option.bind_assoc, h]
  rfl

theorem process_of_no_trigger (mutation : NodeMutation)
    (h : (mutation.node.type.bind nodeHandlers).bind Handler.trigger = none) (kind : TriggerKind) (id : String) :
    r.process nodeHandlers mutation kind id = r kind id := by
  cases hh : mutation.node.type.bind nodeHandlers with
  | none => rw [process_of_none (by rw [callback, hh])]
  | some handler =>
    rw [hh, bind_some] at h
    have hcall : callback nodeHandlers mutation = some (.other mutation.node.id) := by
      rw [callback, hh]
      simp only [h]
    rw [process_of_some hcall]
    rfl

theorem trigger_cases (nodeHandlers : String → Option Handler) (node : Node) :
    (node.type.bind nodeHandlers).bind Handler.trigger = none ∨
      ∃ handler kind configured, node.type.bind nodeHandlers = some handler ∧
        handler.trigger = some (kind, configured) := by
  cases hh : node.type.bind nodeHandlers with
  | none => exact .inl rfl
  | some handler =>
    cases ht : handler.trigger with
    | none => exact .inl ht
    | some entry => exact .inr ⟨handler, entry.1, entry.2, rfl, ht⟩

theorem process_removed {node : Node}
    (h : ∀ kind, r kind node.id = asks nodeHandlers (some node) kind) (kind : TriggerKind) :
    r.process nodeHandlers (.removed node) kind node.id = none := by
  rcases trigger_cases nodeHandlers node with hno | ⟨handler, kind', configured, hh, ht⟩
  · rw [process_of_no_trigger (.removed node) hno, h, asks_of_no_trigger hno]
  · have hcall : callback nodeHandlers (.removed node) = some (.deleteTrigger kind' node.id) := by
      simp only [callback, NodeMutation.node, hh, ht]
      rfl
    rw [process_of_some hcall]
    simp only [Registrations.apply, Registrations.set, and_true]
    split
    · rfl
    · rename_i hne
      rw [h, asks_of_handler hh ht, if_neg fun he => hne he.symm]

theorem process_added {node : Node} (h : ∀ kind, r kind node.id = none) (kind : TriggerKind) :
    r.process nodeHandlers (.added node) kind node.id = asks nodeHandlers (some node) kind := by
  rcases trigger_cases nodeHandlers node with hno | ⟨handler, kind', configured, hh, ht⟩
  · rw [process_of_no_trigger (.added node) hno, h, asks_of_no_trigger hno]
  · have hcall : callback nodeHandlers (.added node) = onNodeAdded kind' configured node := by
      simp only [callback, NodeMutation.node, hh, ht]
    rw [asks_of_handler hh ht]
    cases hconf : configured node with
    | none =>
      rw [process_of_none (by rw [hcall, onNodeAdded, hconf]; rfl), h, ite_self]
    | some trigger =>
      rw [onNodeAdded, hconf, map_some] at hcall
      rw [process_of_some hcall]
      simp only [Registrations.apply, Registrations.set, and_true, h, eq_comm]

theorem process_updated {node previousNode : Node} (ht : previousNode.type = node.type)
    (h : ∀ kind, r kind node.id = asks nodeHandlers (some previousNode) kind) (kind : TriggerKind) :
    r.process nodeHandlers (.updated node previousNode) kind node.id = asks nodeHandlers (some node) kind := by
  rcases trigger_cases nodeHandlers node with hno | ⟨handler, kind', configured, hh, htr⟩
  · rw [process_of_no_trigger (.updated node previousNode) hno, h, asks_of_no_trigger hno,
      asks_of_no_trigger (ht ▸ hno)]
  · have hcall : callback nodeHandlers (.updated node previousNode) =
        onNodeUpdated kind' configured node previousNode := by
      simp only [callback, NodeMutation.node, hh, htr]
    have hh' : previousNode.type.bind nodeHandlers = some handler := ht ▸ hh
    have hprev := asks_of_handler hh' htr
    rw [asks_of_handler hh htr]
    by_cases hsame : configured node = configured previousNode
    · rw [process_of_none (by rw [hcall, onNodeUpdated, if_pos hsame]), h, hprev, hsame]
    · have hother : kind ≠ kind' → r kind node.id = none := by
        intro hne
        rw [h, hprev, if_neg fun he => hne he.symm]
      cases hconf : configured node with
      | none =>
        rw [onNodeUpdated, if_neg hsame, hconf, onNodeRemoved] at hcall
        rw [process_of_some hcall, ite_self]
        simp only [Registrations.apply, Registrations.set, and_true]
        split
        · rfl
        · exact hother ‹_›
      | some trigger =>
        rw [onNodeUpdated, if_neg hsame, hconf] at hcall
        rw [process_of_some hcall]
        simp only [Registrations.apply, Registrations.set, and_true]
        split
        · rename_i he
          rw [if_pos he.symm]
        · rename_i hne
          rw [if_neg fun he => hne he.symm]
          exact hother hne

theorem asks_congr {a b : Node} (ht : a.type = b.type) (h : a.data.deepEqual b.data) (kind : TriggerKind) :
    asks nodeHandlers (some a) kind = asks nodeHandlers (some b) kind := by
  rcases trigger_cases nodeHandlers a with hno | ⟨handler, kind', configured, hh, htr⟩
  · rw [asks_of_no_trigger hno, asks_of_no_trigger (ht ▸ hno)]
  · rw [asks_of_handler hh htr, asks_of_handler (ht ▸ hh) htr, configured_of_deepEqual htr h]

theorem processAll_mutationsOf {previous current : Option Node} {id : String}
    (hp : ∀ node ∈ previous, node.id = id) (hc : ∀ node ∈ current, node.id = id)
    (h : ∀ kind, r kind id = asks nodeHandlers previous kind) (kind : TriggerKind) :
    r.processAll nodeHandlers (mutationsOf previous current) kind id = asks nodeHandlers current kind := by
  cases previous with
  | none =>
    cases current with
    | none => exact h kind
    | some node =>
      have hid := hc node rfl
      subst hid
      exact process_added h kind
  | some previousNode =>
    have hid := hp previousNode rfl
    subst hid
    cases current with
    | none => exact process_removed h kind
    | some node =>
      have hid := hc node rfl
      by_cases ht : previousNode.type = node.type
      · by_cases hd : previousNode.data.deepEqual node.data
        · have hm : mutationsOf (some previousNode) (some node) = [] := by
            simp [mutationsOf, removedMutation, currentMutation, ht, hd]
          rw [hm, ← asks_congr ht hd]
          exact h kind
        · have hm : mutationsOf (some previousNode) (some node) = [.updated node previousNode] := by
            simp [mutationsOf, removedMutation, currentMutation, ht, hd]
          rw [hm, ← hid]
          exact process_updated ht (hid ▸ h) kind
      · have hm : mutationsOf (some previousNode) (some node) = [.removed previousNode, .added node] := by
          simp [mutationsOf, removedMutation, currentMutation, ht]
        rw [hm, ← hid]
        exact process_added (fun kind => by rw [hid]; exact process_removed h kind) kind

end

section
variable (nodeHandlers : String → Option Handler)

section
variable (outcome : NodeMutation → Outcome)

def fails (mutation : NodeMutation) : Bool :=
  match callback nodeHandlers mutation, outcome mutation with
  | some _, .failed _ => true
  | _, _ => false

def ran (mutations : List NodeMutation) : List NodeMutation :=
  mutations.takeWhile (!fails nodeHandlers outcome ·)

def skipped (mutations : List NodeMutation) : List NodeMutation :=
  (mutations.dropWhile (!fails nodeHandlers outcome ·)).tail

def failingNode (mutations : List NodeMutation) : Option String :=
  (mutations.find? (fails nodeHandlers outcome)).map (·.node.id)

end

end

section
variable {outcome : NodeMutation → Outcome}

theorem cons_of_fails (h : fails nodeHandlers outcome mutation)
    (mutations : List NodeMutation) : ran nodeHandlers outcome (mutation :: mutations) = [] ∧
      skipped nodeHandlers outcome (mutation :: mutations) = mutations ∧
        failingNode nodeHandlers outcome (mutation :: mutations) = some mutation.node.id := by
  refine ⟨?_, ?_, ?_⟩
  · rw [ran, takeWhile_cons, h]
    rfl
  · rw [skipped, dropWhile_cons, h]
    rfl
  · rw [failingNode, List.find?_cons_of_pos h]
    rfl

theorem cons_of_not_fails (h : fails nodeHandlers outcome mutation = false)
    (mutations : List NodeMutation) :
    ran nodeHandlers outcome (mutation :: mutations) = mutation :: ran nodeHandlers outcome mutations ∧
      skipped nodeHandlers outcome (mutation :: mutations) = skipped nodeHandlers outcome mutations ∧
        failingNode nodeHandlers outcome (mutation :: mutations) = failingNode nodeHandlers outcome mutations := by
  refine ⟨?_, ?_, ?_⟩
  · rw [ran, takeWhile_cons, h]
    rfl
  · rw [skipped, dropWhile_cons, h]
    rfl
  · rw [failingNode, List.find?_cons_of_neg (by simp [h]), failingNode]

section
variable (nodeHandlers : String → Option Handler)

theorem mutations_eq (outcome : NodeMutation → Outcome)
    (mutations : List NodeMutation) :
    (mutations = ran nodeHandlers outcome mutations ∧ skipped nodeHandlers outcome mutations = [] ∧
      failingNode nodeHandlers outcome mutations = none) ∨
    ∃ mutation, mutations =
        ran nodeHandlers outcome mutations ++ mutation :: skipped nodeHandlers outcome mutations ∧
      failingNode nodeHandlers outcome mutations = some mutation.node.id := by
  induction mutations with
  | nil => exact .inl ⟨rfl, rfl, rfl⟩
  | cons mutation mutations ih =>
    cases hf : fails nodeHandlers outcome mutation with
    | true =>
      obtain ⟨hr, hs, hn⟩ := cons_of_fails hf mutations
      rw [hr, hs, hn]
      exact .inr ⟨mutation, rfl, rfl⟩
    | false =>
      obtain ⟨hr, hs, hn⟩ := cons_of_not_fails hf mutations
      rw [hr, hs, hn]
      rcases ih with ⟨hm, hs, hn⟩ | ⟨failing, hm, hn⟩
      · exact .inl ⟨congrArg (mutation :: ·) hm, hs, hn⟩
      · exact .inr ⟨failing, congrArg (mutation :: ·) hm, hn⟩

theorem dispatch_eq (outcome : NodeMutation → Outcome) (r : Registrations)
    (mutations : List NodeMutation) :
    (dispatchNodeMutationCallbacks nodeHandlers outcome r mutations).2.1 =
        failingNode nodeHandlers outcome mutations ∧
      ∀ id, failingNode nodeHandlers outcome mutations ≠ some id → ∀ kind,
        (dispatchNodeMutationCallbacks nodeHandlers outcome r mutations).1 kind id =
          r.processAll nodeHandlers (ran nodeHandlers outcome mutations) kind id := by
  induction mutations generalizing r with
  | nil => exact ⟨rfl, fun _ _ _ => rfl⟩
  | cons mutation mutations ih =>
    unfold dispatchNodeMutationCallbacks
    cases hcall : callback nodeHandlers mutation with
    | none =>
      have hf : fails nodeHandlers outcome mutation = false := by rw [fails, hcall]
      obtain ⟨hr, -, hn⟩ := cons_of_not_fails hf mutations
      rw [hr, hn, Registrations.processAll, foldl_cons, process_of_none hcall]
      exact ih r
    | some call =>
      cases ho : outcome mutation with
      | done =>
        have hf : fails nodeHandlers outcome mutation = false := by rw [fails, hcall, ho]
        obtain ⟨hr, -, hn⟩ := cons_of_not_fails hf mutations
        rw [hr, hn, Registrations.processAll, foldl_cons, process_of_some hcall]
        exact ih _
      | failed applied =>
        have hf : fails nodeHandlers outcome mutation := by rw [fails, hcall, ho]
        obtain ⟨hr, -, hn⟩ := cons_of_fails hf mutations
        rw [hr, hn]
        refine ⟨rfl, fun id hne kind => ?_⟩
        have hid : call.nodeId ≠ id := by
          rw [callback_nodeId hcall]
          exact fun he => hne (congrArg some he)
        cases applied with
        | true => exact apply_of_ne hid kind
        | false => rfl

/-- What is left of the mutations of a node after another node's callback has failed. -/
def Settled (outcome : NodeMutation → Outcome) (a b : WorkflowData)
    (id : String) : Prop :=
  (∃ mutation ∈ skipped nodeHandlers outcome (getNodeMutations a b), mutation.node.id = id) →
    if ∃ mutation ∈ ran nodeHandlers outcome (getNodeMutations a b), mutation.node.id = id then
      ∀ kind, asksFor nodeHandlers b.nodes kind id = none
    else ∀ kind, asksFor nodeHandlers a.nodes kind id = asksFor nodeHandlers b.nodes kind id

end

theorem mutationsOf_two (h : mutationsOf previous current = first :: mutations)
    (hne : mutations ≠ []) : (∃ node, previous = some node ∧ first = .removed node) ∧ mutations.length = 1 := by
  have hone : (current.toList.filterMap (currentMutation previous)).length ≤ 1 := by
    cases current with
    | none => exact Nat.zero_le 1
    | some node => exact length_filterMap_le ..
  cases previous with
  | none =>
    rw [mutationsOf, toList_none, filterMap_nil, nil_append] at h
    rw [h, length_cons] at hone
    exact absurd (eq_nil_of_length_eq_zero (by omega)) hne
  | some node =>
    cases hm : removedMutation current node with
    | none =>
      rw [mutationsOf, toList_some, filterMap_cons_none hm, filterMap_nil, nil_append] at h
      rw [h, length_cons] at hone
      exact absurd (eq_nil_of_length_eq_zero (by omega)) hne
    | some mutation =>
      rw [mutationsOf, toList_some, filterMap_cons_some hm, filterMap_nil, singleton_append] at h
      obtain ⟨rfl, rfl⟩ := List.cons.inj h
      refine ⟨⟨node, rfl, ?_⟩, Nat.le_antisymm hone (length_pos_iff.2 hne)⟩
      unfold removedMutation at hm
      split at hm
      · exact (some.inj hm).symm
      · split at hm
        · exact (some.inj hm).symm
        · cases hm

theorem exists_node_iff {mutations : List NodeMutation} {id : String} :
    (∃ mutation ∈ mutations, mutation.node.id = id) ↔ mutations.filter (·.node.id == id) ≠ [] := by
  rw [Ne, filter_eq_nil_iff]
  simp

theorem dispatch_inSync_iff {r : Registrations} {a b : WorkflowData} {id : String}
    (ha : a.DistinctIds) (hb : b.DistinctIds)
    (hne : failingNode nodeHandlers outcome (getNodeMutations a b) ≠ some id)
    (h : ∀ kind, r kind id = asksFor nodeHandlers a.nodes kind id) :
    (∀ kind, (dispatchNodeMutationCallbacks nodeHandlers outcome r (getNodeMutations a b)).1 kind id =
      asksFor nodeHandlers b.nodes kind id) ↔ Settled nodeHandlers outcome a b id := by
  have hown := filter_getNodeMutations ha hb id
  have hreg : ∀ kind, (dispatchNodeMutationCallbacks nodeHandlers outcome r (getNodeMutations a b)).1 kind id =
      r.processAll nodeHandlers ((ran nodeHandlers outcome (getNodeMutations a b)).filter (·.node.id == id))
        kind id := by
    intro kind
    rw [(dispatch_eq nodeHandlers outcome r (getNodeMutations a b)).2 id hne kind]
    exact processAll_filter (fun _ => rfl) _ kind
  have hsplit : mutationsOf (nodesById a.nodes id) (nodesById b.nodes id) =
      (ran nodeHandlers outcome (getNodeMutations a b)).filter (·.node.id == id) ++
        (skipped nodeHandlers outcome (getNodeMutations a b)).filter (·.node.id == id) := by
    rcases mutations_eq nodeHandlers outcome (getNodeMutations a b) with ⟨hm, hs, -⟩ | ⟨failing, hm, hn⟩
    · rw [hs, filter_nil, append_nil, ← hm, hown]
    · have hid : (failing.node.id == id) = false := by
        rw [beq_eq_false_iff_ne]
        exact fun he => hne (hn.trans (congrArg some he))
      rw [← hown]
      conv => lhs; rw [hm]
      rw [filter_append, filter_cons_of_neg (by simp [hid])]
  simp only [Settled, exists_node_iff, hreg]
  generalize (ran nodeHandlers outcome (getNodeMutations a b)).filter (·.node.id == id) = done at hsplit ⊢
  generalize (skipped nodeHandlers outcome (getNodeMutations a b)).filter (·.node.id == id) = left at hsplit ⊢
  cases left with
  | nil =>
    rw [append_nil] at hsplit
    refine ⟨fun _ hl => absurd rfl hl, fun _ kind => ?_⟩
    rw [← hsplit]
    exact processAll_mutationsOf (fun _ => nodesById_id) (fun _ => nodesById_id) h kind
  | cons mutation left =>
    cases done with
    | nil =>
      simp only [Registrations.processAll, foldl_nil, h]
      simp
    | cons first done =>
      -- The removal has run, and the addition under the new type has not.
      obtain ⟨⟨node, hnode, rfl⟩, hlen⟩ := mutationsOf_two hsplit (by simp)
      have hdone : done = [] := by
        have hlen' : (done ++ mutation :: left).length = 1 := hlen
        rw [length_append, length_cons] at hlen'
        exact eq_nil_of_length_eq_zero (by omega)
      have hid := nodesById_id hnode
      have hnone : ∀ kind, r.processAll nodeHandlers [.removed node] kind id = none := by
        subst hid
        refine process_removed fun kind => ?_
        rw [h, asksFor_eq, hnode]
      rw [hdone]
      simp only [hnone]
      simp [eq_comm]

end

end

end Trakrai.WorkflowEditor
