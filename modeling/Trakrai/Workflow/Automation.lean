import Trakrai.Lib.Base64
import Trakrai.Lib.Text
import Trakrai.Lib.Transition
import Trakrai.Workflow.Validation

namespace Trakrai.Workflow
open Lib

inductive ExecutionResult where
  | success (id : String) (data : Json)
  | failure (id : String) (error : String)

def ExecutionResult.succeeded : ExecutionResult → Bool
  | .success .. => true
  | .failure .. => false

/-- The parts of a text between the marks `###`. -/
def splitHandle : List Char → List Char → List (List Char)
  | part, '#' :: '#' :: '#' :: rest => part.reverse :: splitHandle [] rest
  | part, c :: rest => splitHandle (c :: part) rest
  | part, [] => [part.reverse]

def isEventHandle (handleId : String) : Option (String × String) :=
  match splitHandle [] handleId.toList with
  | eventName :: eventHandle :: _ =>
    if eventName = [] ∨ eventHandle = [] then none
    else some (String.ofList eventName, String.ofList eventHandle)
  | _ => none

def buildNodeEventId (nodeId eventName : String) : String := nodeId ++ "###" ++ eventName

def DependencyInfo.resultKey (dep : DependencyInfo) : String × String :=
  match isEventHandle dep.sourceHandle with
  | none => (dep.sourceNodeId, dep.sourceHandle)
  | some (eventName, eventHandle) => (buildNodeEventId dep.sourceNodeId eventName, eventHandle)

/-- A code unit of a text as a text of its own. Half of a surrogate pair is none of ours. -/
def codeUnit (unit : Nat) : Option Json :=
  if 0xd800 ≤ unit ∧ unit ≤ 0xdfff then none else some (.str (String.singleton (Char.ofNat unit)))

/-- `value[key]`, as far as it is JSON. -/
def readProperty (value : Json) (key : String) : Except String (Option Json) :=
  match value with
  | .null => .error ("Cannot read properties of null (reading '" ++ key ++ "')")
  | .bool _ | .num _ => .ok none
  | .str text =>
    if key = "length" then .ok (some (.num (utf16 text).length))
    else .ok (((utf16 text).zipIdx.find? (toString ·.2 == key)).bind fun entry => codeUnit entry.1)
  | .arr items =>
    if key = "length" then .ok (some (.num items.length))
    else .ok ((items.zipIdx.find? (toString ·.2 == key)).map Prod.fst)
  | .obj fields => .ok (fields.lookup key)

section
variable (get : String → Option ExecutionResult)

/-- `get` is the lookup in the result map. -/
def checkDependencyFailure (dep : DependencyInfo) : Except String Bool :=
  if dep.sourceHandle = executionSuccessHandle then
    match get dep.sourceNodeId, dep.conditional with
    | none, _ => .ok true
    | some status, some conditional => .ok (!(Json.bool status.succeeded).identical conditional)
    | some status, none => .ok (!status.succeeded)
  else
    match get dep.resultKey.1, dep.conditional with
    | some (.success _ data), some conditional => do
      let conditionalResult ← readProperty data dep.resultKey.2
      .ok (!conditionalResult.any (·.identical conditional))
    | some (.success ..), none => .ok false
    | _, _ => .ok true

/-- `dependencies.some((dep) => checkDependencyFailure(dep, resultMap))`. -/
def hasDependencyFailure (dependencies : List DependencyInfo) : Except String Bool :=
  dependencies.anyM (checkDependencyFailure get)

def addInput (input : Input) (dep : DependencyInfo) : Input :=
  if dep.targetHandle = triggerHandle then input
  else
    match get dep.resultKey.1 with
    | some (.success _ (.obj fields)) =>
      if hasKey fields dep.resultKey.2 then
        setKey input dep.targetHandle
          (match fields.lookup dep.resultKey.2 with
          | some value => .json value
          | none => .inherited dep.resultKey.2)
      else input
    | _ => input

def buildNodeInput (node : Node) (dependencies : List DependencyInfo) : Input :=
  dependencies.foldl (addInput get)
    ((node.configuration.getD []).map fun field => (field.1, .json field.2))

/-- The call of the handler, unless the node has none, and what became of the execution. -/
def executeNode (registry : Registry) (node : Node) (dependencies : List DependencyInfo) :
    Option Input × Outcome :=
  match node.type with
  | none => (none, .threw (some ("Node type is undefined for node " ++ node.id)))
  | some nodeType =>
    match registry.getNodeHandler nodeType, registry.resolveNodeSchema node with
    | none, _ => (none, .threw (some ("Node handler not found for node type " ++ nodeType)))
    | some _, none => (none, .threw (some ("Node schema not found for node type " ++ nodeType)))
    | some handler, some _ =>
      let input := buildNodeInput get node dependencies
      (some input, handler.execute node input)

end

def Outcome.result (nodeId : String) : Outcome → ExecutionResult
  | .returned output => .success nodeId (.obj output)
  | .threw message => .failure nodeId (message.getD "Unknown error")

def Outcome.signalData : Outcome → Json
  | .returned _ => .obj []
  | .threw message => .obj [("reason", .str (message.getD "Unknown error"))]

def dependencyFailureReason : String := "Dependency failure"

def generateEventName (eventId : String) (parts : List String) : String :=
  base64Text (eventId ++ "-" ++ "-".intercalate parts)

/-- The event dependencies among `dependencies`, with the names of the events. -/
def eventDependencies (dependencies : List DependencyInfo) : List (DependencyInfo × String) :=
  dependencies.filterMap fun dep => (isEventHandle dep.sourceHandle).map fun event => (dep, event.1)

/-- Which of its two signals a waiter of `waitForAnyDependency` got. -/
inductive WaitKind where
  | source
  | merge

/-- The sources that are still to be tried, and the waiters that have got a signal. -/
structure Race where
  pending : List String
  settled : List (String × WaitKind) := []

inductive Task where
  | started
  /-- At the completion signals, with those that have not come yet. -/
  | completions (pending : List DependencyInfo)
  /-- At the events. -/
  | events (pending : List (DependencyInfo × String))
  /-- Mode `any`: at the race between the sources, with its winner. -/
  | racing (race : Race) (next : Option (String × WaitKind))
  /-- Mode `any`: at the events of the source that came next. -/
  | racedEvents (race : Race) (source : String) (pending : List (DependencyInfo × String))
  /-- Mode `any`: about to send the merge signal. -/
  | merging (source : String)
  /-- About to execute the node. -/
  | ready (dependencies : List DependencyInfo)
  /-- The execution is over. -/
  | ran (outcome : Outcome)
  /-- About to send the completion signal. -/
  | announcing (data : Json)
  | done
  /-- An error that nothing catches. -/
  | rejected (message : String)

/-- A validated workflow chart that is run for the event `eventId`. -/
structure Automation where
  nodes : List Node
  edges : List Edge
  registry : Registry
  dependencyMap : DependencyMap
  eventId : String

structure State where
  resultMap : List (String × ExecutionResult)
  /-- The signals that have been sent, with their data. -/
  signals : List (String × Json)
  tasks : String → Task
  /-- The calls of handlers. -/
  calls : List (String × Input)

section
variable (s : State)

def State.get (id : String) : Option ExecutionResult := s.resultMap.lookup id

/-- A signal stays: it reaches those who wait for it and those who will. -/
def State.sent (name : String) : Bool := s.signals.any (·.1 == name)

def State.setTask (nodeId : String) (task : Task) : State :=
  { s with tasks := fun id => if id = nodeId then task else s.tasks id }

def State.setResult (nodeId : String) (result : ExecutionResult) : State :=
  { s with resultMap := setKey s.resultMap nodeId result }

def State.send (name : String) (data : Json) : State :=
  { s with signals := s.signals ++ [(name, data)] }

def State.call (nodeId : String) (input : Option Input) : State :=
  { s with calls := s.calls ++ (input.map fun input => (nodeId, input)).toList }

def State.skip (nodeId : String) : State :=
  (s.setResult nodeId (.failure nodeId dependencyFailureReason)).setTask nodeId
    (.announcing (.obj [("reason", .str dependencyFailureReason)]))

/-- The next turn of the loop of `waitForAnyDependency`: among the waiters that have already got
a signal, the first one wins. -/
def State.nextRace (nodeId : String) (race : Race) : State :=
  if race.pending = [] then s.skip nodeId
  else
    s.setTask nodeId (.racing race
      (race.pending.findSome? fun source => (race.settled.lookup source).map (source, ·)))

end

namespace Automation
variable (w : Automation)

def initial : State := ⟨[], [], fun _ => .started, []⟩

def completionName (nodeId : String) : String := generateEventName w.eventId [nodeId]

def eventName (nodeId event : String) : String := generateEventName w.eventId [nodeId, event]

def mergeName (nodeId : String) : String := generateEventName w.eventId [nodeId, "merge-any"]

def getDependencyModeForNode (node : Node) : DependencyMode :=
  match w.registry.getNodeHandler node.type with
  | none => .all
  | some handler => handler.getDependencyMode node

def processEventDependencyData (eventData : Option Json) (dep : DependencyInfo)
    (eventName : String) : ExecutionResult :=
  let nodeEventId := buildNodeEventId dep.sourceNodeId eventName
  let schema := (w.nodes.find? (·.id == dep.sourceNodeId)).bind w.registry.resolveNodeSchema
  match eventData, schema with
  | none, _ =>
    .failure nodeEventId
      ("Timeout waiting for event " ++ eventName ++ " from node " ++ dep.sourceNodeId)
  | some _, none =>
    .failure nodeEventId ("Source node schema not found for node " ++ dep.sourceNodeId)
  | some data, some schema =>
    match (schema.events.getD []).lookup eventName with
    | none =>
      .failure nodeEventId
        ("Event schema not found for event " ++ eventName ++ " from node " ++ dep.sourceNodeId)
    | some eventSchema =>
      match eventSchema.safeParse data with
      | .ok parsed => .success nodeEventId parsed
      | .error error =>
        .failure nodeEventId
          ("Invalid event data for event " ++ eventName ++ " from node " ++ dep.sourceNodeId ++
            ": " ++ error)

section
variable (node : Node)

def dependencies : List DependencyInfo := w.dependencyMap.get node.id

def dependenciesOn (source : String) : List DependencyInfo :=
  (w.dependencies node).filter (·.sourceNodeId == source)

def begin : Task :=
  if w.dependencies node = [] then .ready []
  else
    match w.getDependencyModeForNode node with
    | .any => .racing ⟨((w.dependencies node).map (·.sourceNodeId)).eraseDups, []⟩ none
    | .all => .completions (w.dependencies node)

/-- What a task does when it need not wait, up to its next await. -/
def advance (s : State) : Option State :=
  match s.tasks node.id with
  | .started => some (s.setTask node.id (w.begin node))
  | .completions [] =>
    some (s.setTask node.id (.events (eventDependencies (w.dependencies node))))
  | .events [] =>
    match hasDependencyFailure s.get (w.dependencies node) with
    | .error message => some (s.setTask node.id (.rejected message))
    | .ok true => some (s.skip node.id)
    | .ok false => some (s.setTask node.id (.ready (w.dependencies node)))
  | .racing _ (some (_, .merge)) => some (s.skip node.id)
  | .racing race (some (source, .source)) =>
    some (s.setTask node.id (.racedEvents { race with pending := race.pending.erase source } source
      (eventDependencies (w.dependenciesOn node source))))
  | .racedEvents race source [] =>
    match hasDependencyFailure s.get (w.dependenciesOn node source) with
    | .error message => some (s.setTask node.id (.rejected message))
    | .ok true => some (s.nextRace node.id race)
    | .ok false => some (s.setTask node.id (.merging source))
  | .merging source =>
    some ((s.send (w.mergeName node.id) (.obj [("sourceNodeId", .str source)])).setTask node.id
      (.ready (w.dependenciesOn node source)))
  | .ready dependencies =>
    let (input, outcome) := executeNode s.get w.registry node dependencies
    some ((s.call node.id input).setTask node.id (.ran outcome))
  | .ran outcome =>
    some ((s.setResult node.id (outcome.result node.id)).setTask node.id
      (.announcing outcome.signalData))
  | .announcing data => some ((s.send (w.completionName node.id) data).setTask node.id .done)
  | _ => none

def deliverCompletion (index : Nat) (s : State) : Option State :=
  match s.tasks node.id with
  | .completions pending =>
    match pending[index]? with
    | some dep =>
      if s.sent (w.completionName dep.sourceNodeId) then
        some (s.setTask node.id (.completions (pending.eraseIdx index)))
      else none
    | none => none
  | _ => none

def Task.eventWaits : Task → Option
    (List (DependencyInfo × String) × (List (DependencyInfo × String) → Task))
  | .events pending => some (pending, .events)
  | .racedEvents race source pending => some (pending, .racedEvents race source)
  | _ => none

def deliverEvent (index signal : Nat) (s : State) : Option State := do
  let (pending, task) ← Task.eventWaits (s.tasks node.id)
  let (dep, event) ← pending[index]?
  let (name, data) ← s.signals[signal]?
  if name = w.eventName dep.sourceNodeId event then
    some ((s.setResult (buildNodeEventId dep.sourceNodeId event)
      (w.processEventDependencyData (some data) dep event)).setTask node.id
        (task (pending.eraseIdx index)))
  else none

/-- A signal reaches the waiter for a source. The first one to get a signal wins the race. -/
def settle (source : String) (kind : WaitKind) (s : State) : Option State :=
  let name := match kind with
    | .source => w.completionName source
    | .merge => w.mergeName node.id
  let unsettled (race : Race) : Bool :=
    s.sent name && (w.dependencies node).any (·.sourceNodeId == source) &&
      (race.settled.lookup source).isNone
  let settled (race : Race) : Race := { race with settled := race.settled ++ [(source, kind)] }
  match s.tasks node.id with
  | .racing race next =>
    if unsettled race then
      let next := next.or (if source ∈ race.pending then some (source, kind) else none)
      some (s.setTask node.id (.racing (settled race) next))
    else none
  | .racedEvents race current pending =>
    if unsettled race then some (s.setTask node.id (.racedEvents (settled race) current pending))
    else none
  | _ => none

inductive Move where
  | advance
  | completion (index : Nat)
  | event (index signal : Nat)
  | settle (source : String) (kind : WaitKind)

def move (m : Move) (s : State) : Option State :=
  match m with
  | .advance => w.advance node s
  | .completion index => w.deliverCompletion node index s
  | .event index signal => w.deliverEvent node index signal s
  | .settle source kind => w.settle node source kind s

def events : List String :=
  ((w.registry.resolveNodeSchema node).bind (·.events)).getD [] |>.map Prod.fst

end

inductive Action where
  | task (node : Node) (m : Move)
  /-- A handler that has been called, or someone it told, emits an event of its node. -/
  | emit (node : Node) (event : String) (data : Json)

def step (s : State) (action : Action) (t : State) : Prop :=
  match action with
  | .task node m => node ∈ w.nodes ∧ w.move node m s = some t
  | .emit node event data =>
    node ∈ w.nodes ∧ (∃ input, (node.id, input) ∈ s.calls) ∧ event ∈ w.events node ∧
      t = s.send (w.eventName node.id event) data

/-- The tasks of all nodes, interleaved in any way. -/
def system : System State Action where
  init s := s = initial
  step := w.step

end Automation

end Trakrai.Workflow
