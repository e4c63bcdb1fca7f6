import Trakrai.Lib.Json
import Trakrai.Lib.Text

namespace Trakrai.WorkflowEditor
open Lib

/-- A node as `serializeWorkflowData` leaves it. -/
structure Node where
  id : String
  type : Option String
  data : Json
  /-- `position` and `measured`. -/
  layout : Json := .null

structure WorkflowData where
  nodes : List Node
  edges : List Json := []

def Node.equal (a b : Node) : Bool :=
  a.id == b.id && a.type == b.type && a.layout.deepEqual b.layout && a.data.deepEqual b.data

def WorkflowData.equal (a b : WorkflowData) : Bool :=
  a.nodes.length == b.nodes.length && (a.nodes.zip b.nodes).all (fun pair => pair.1.equal pair.2) &&
    Json.deepEqualItems a.edges b.edges

/-- The `Map` of the nodes, in which a later node takes the place of an earlier one with its id. -/
def nodesById (nodes : List Node) (id : String) : Option Node := nodes.reverse.find? (·.id == id)

inductive NodeMutation where
  | added (node : Node)
  | removed (node : Node)
  | updated (node previousNode : Node)

def NodeMutation.node : NodeMutation → Node
  | .added node | .removed node | .updated node _ => node

def removedMutation (current : Option Node) (previousNode : Node) : Option NodeMutation :=
  match current with
  | none => some (.removed previousNode)
  | some currentNode => if previousNode.type ≠ currentNode.type then some (.removed previousNode) else none

def currentMutation (previous : Option Node) (currentNode : Node) : Option NodeMutation :=
  match previous with
  | none => some (.added currentNode)
  | some previousNode =>
    if previousNode.type ≠ currentNode.type then some (.added currentNode)
    else if !previousNode.data.deepEqual currentNode.data then some (.updated currentNode previousNode)
    else none

def getNodeMutations (previousWorkflowData currentWorkflowData : WorkflowData) : List NodeMutation :=
  let previousNodesById := nodesById previousWorkflowData.nodes
  let currentNodesById := nodesById currentWorkflowData.nodes
  previousWorkflowData.nodes.filterMap (fun previousNode =>
      removedMutation (currentNodesById previousNode.id) previousNode) ++
    currentWorkflowData.nodes.filterMap fun currentNode =>
      currentMutation (previousNodesById currentNode.id) currentNode

inductive TriggerKind where
  | cron
  | event
deriving DecidableEq

inductive Handler where
  | cron
  /-- The handler of event triggers, with the names of the events that it knows. -/
  | event (eventsByName : List String)
  /-- Another handler, whose callbacks do not touch cron or event triggers. -/
  | other

def getNodeConfiguration (node : Node) : Json :=
  match node.data.field "configuration" with
  | some (.obj fields) => .obj fields
  | _ => .obj []

def getConfiguredCronExpression (node : Node) : Option String :=
  (((getNodeConfiguration node).field "cronExpression").bind Json.string?).bind fun cronExpression =>
    if jsTrim cronExpression = "" then none else some (jsTrim cronExpression)

def getConfiguredEventName (nodeConfiguration : Json) : Option String :=
  ((nodeConfiguration.field "eventName").bind Json.string?).filter (· ≠ "")

def getPersistedEventName (eventsByName : List String) (node : Node) : Option String :=
  (getConfiguredEventName (getNodeConfiguration node)).filter (· ∈ eventsByName)

def Handler.trigger : Handler → Option (TriggerKind × (Node → Option String))
  | .cron => some (.cron, getConfiguredCronExpression)
  | .event eventsByName => some (.event, getPersistedEventName eventsByName)
  | .other => none

/-- What a callback of a handler asks for. -/
inductive Call where
  | saveTrigger (kind : TriggerKind) (nodeId trigger : String)
  | deleteTrigger (kind : TriggerKind) (nodeId : String)
  | other (nodeId : String)
deriving DecidableEq

def onNodeAdded (kind : TriggerKind) (configured : Node → Option String) (node : Node) : Option Call :=
  (configured node).map (.saveTrigger kind node.id)

def onNodeRemoved (kind : TriggerKind) (node : Node) : Option Call := some (.deleteTrigger kind node.id)

def onNodeUpdated (kind : TriggerKind) (configured : Node → Option String) (node previousNode : Node) : Option Call :=
  if configured node = configured previousNode then none
  else
    match configured node with
    | none => onNodeRemoved kind node
    | some trigger => some (.saveTrigger kind node.id trigger)

section
variable (nodeHandlers : String → Option Handler)

def callback (mutation : NodeMutation) : Option Call :=
  match mutation.node.type.bind nodeHandlers with
  | none => none
  | some handler =>
    match handler.trigger with
    | none => some (.other mutation.node.id)
    | some (kind, configured) =>
      match mutation with
      | .added node => onNodeAdded kind configured node
      | .removed node => onNodeRemoved kind node
      | .updated node previousNode => onNodeUpdated kind configured node previousNode

end

def Registrations : Type := TriggerKind → String → Option String

def Registrations.set (r : Registrations) (kind : TriggerKind) (nodeId : String) (trigger : Option String) :
    Registrations :=
  fun kind' nodeId' => if kind' = kind ∧ nodeId' = nodeId then trigger else r kind' nodeId'

def Registrations.apply (r : Registrations) : Call → Registrations
  | .saveTrigger kind nodeId trigger => r.set kind nodeId (some trigger)
  | .deleteTrigger kind nodeId => r.set kind nodeId none
  | .other _ => r

/-- How the promise of a callback ends. One that fails may have done its work all the same. -/
inductive Outcome where
  | done
  | failed (applied : Bool)

section
variable (nodeHandlers : String → Option Handler)

def dispatchNodeMutationCallbacks (outcome : NodeMutation → Outcome) (r : Registrations) :
    List NodeMutation → Registrations × Option String × List NodeMutation
  | [] => (r, none, [])
  | mutation :: mutations =>
    match callback nodeHandlers mutation with
    | none => dispatchNodeMutationCallbacks outcome r mutations
    | some call =>
      match outcome mutation with
      | .done => dispatchNodeMutationCallbacks outcome (r.apply call) mutations
      | .failed applied => (if applied then r.apply call else r, some mutation.node.id, mutations)

def asksFor (nodes : List Node) (kind : TriggerKind) (nodeId : String) : Option String := do
  let node ← nodesById nodes nodeId
  let handler ← node.type.bind nodeHandlers
  let (kind', configured) ← handler.trigger
  if kind' = kind then configured node else none

end

/-- The part of the state of the editor that mutations of nodes go through. -/
structure Editor where
  /-- `previousNodeMutationDataRef`, which the first snapshot has set. -/
  previousData : WorkflowData
  /-- The dispatches that have yet to run, with their two snapshots. -/
  queue : List (WorkflowData × WorkflowData) := []
  registrations : Registrations
  /-- The last snapshot whose mutations have been processed. -/
  processed : WorkflowData := previousData
  /-- The nodes one of whose callbacks has failed. -/
  failed : List String := []

/-- The editor has a new snapshot, or the next dispatch runs. -/
inductive Action where
  | snapshot (currentData : WorkflowData)
  | dispatch (outcome : NodeMutation → Outcome)

namespace Editor
variable (nodeHandlers : String → Option Handler)

def snapshot (s : Editor) (currentData : WorkflowData) : Editor :=
  if s.previousData.equal currentData ∨ (getNodeMutations s.previousData currentData).isEmpty then
    { s with previousData := currentData }
  else { s with previousData := currentData, queue := s.queue ++ [(s.previousData, currentData)] }

def dispatch (s : Editor) (outcome : NodeMutation → Outcome) : Editor :=
  match s.queue with
  | [] => s
  | (previousData, currentData) :: queue =>
    let mutations := getNodeMutations previousData currentData
    let (registrations, failed, _) := dispatchNodeMutationCallbacks nodeHandlers outcome s.registrations mutations
    { s with queue, registrations, processed := currentData, failed := s.failed ++ failed.toList }

def after (s : Editor) : Action → Editor
  | .snapshot currentData => s.snapshot currentData
  | .dispatch outcome => s.dispatch nodeHandlers outcome

def Enabled (s : Editor) : Action → Prop
  | .snapshot currentData => (currentData.nodes.map Node.id).Nodup
  | .dispatch _ => s.queue ≠ []

end Editor
end Trakrai.WorkflowEditor
