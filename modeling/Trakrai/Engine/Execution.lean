import Trakrai.Engine.Dag
import Trakrai.Lib.Transition

namespace Trakrai.Engine
open Lib

inductive ExecutionStatus where
  | pending
  | running
  | completed
  | failed
  | skipped
deriving DecidableEq

structure NodeResult (α : Type) where
  status : ExecutionStatus
  outputs : Dict α := .empty
  error : Option String := none

/-- What became of the call of a node function. -/
inductive Outcome (α : Type) where
  | returned (outputs : Dict α)
  /-- It returned something that is no dictionary. -/
  | returnedOther (value : α)
  /-- The name of the exception's type and its text. -/
  | raised (error : String)

/-- The registered functions, by what a call of the function of a type may do. Every call comes
to its end. -/
structure NodeFunctions (α : Type) where
  may : String → Dict α → Outcome α → Prop
  returns : ∀ type inputs, ∃ outcome, may type inputs outcome

def NodeFunctions.pure (function : String → Dict α → Outcome α) : NodeFunctions α where
  may type inputs outcome := outcome = function type inputs
  returns type inputs := ⟨function type inputs, rfl⟩

/-- `output_map`, `result_map` and `failed_nodes`. -/
structure Memory (α : Type) where
  outputMap : String → String → Option α := fun _ _ => none
  resultMap : List (String × NodeResult α) := []
  failedNodes : List String := []

/-- One of the assignments that a node makes under the lock. -/
inductive Write (α : Type) where
  | output (port : String) (value : α)
  | result (nodeResult : NodeResult α)
  | failed

def Write.apply (nodeId : String) (memory : Memory α) : Write α → Memory α
  | .output port value =>
    { memory with
      outputMap := Function.update memory.outputMap nodeId
        (Function.update (memory.outputMap nodeId) port (some value)) }
  | .result nodeResult => { memory with resultMap := setKey memory.resultMap nodeId nodeResult }
  | .failed => { memory with failedNodes := memory.failedNodes.insert nodeId }

def upstreamFailure : List (Write α) :=
  [.result { status := .skipped, error := some "Skipped: upstream dependency failed." }, .failed]

def unmetCondition (error : String) : List (Write α) :=
  [.result { status := .skipped, error := some error }]

def completed (outputs : Dict α) : List (Write α) :=
  outputs.entries.map (fun entry => .output entry.1 entry.2) ++
    [.result { status := .completed, outputs }]

def Outcome.writes : Outcome α → List (Write α)
  | .returned outputs => completed outputs
  | .returnedOther value => completed (.singleton "result" value)
  | .raised error => [.result { status := .failed, error := some error }, .failed]

structure WorkflowEngine (α : Type) where
  workflow : WorkflowDefinition α
  dag : DAG α
  maxWorkers : Nat

def loadWorkflow [PyObject α] (registry : NodeRegistry α) (maxWorkers : Int)
    (workflow : WorkflowDefinition α) : Except String (WorkflowEngine α) := do
  let workflow ← validateStrict registry workflow
  let dag ← build workflow
  .ok { workflow, dag, maxWorkers := (max 1 maxWorkers).toNat }

/-- `self._node_map`. -/
def WorkflowEngine.nodeMap (engine : WorkflowEngine α) (nodeId : String) :
    Option (WorkflowNode α) :=
  byId id engine.workflow.nodes nodeId

section
variable [PyObject α]

def Memory.sourceOutput (memory : Memory α) (edge : EdgeMapping α) : α :=
  (memory.outputMap edge.sourceNodeId edge.sourceHandle).getD PyObject.none

def EdgeMapping.unmet (edge : EdgeMapping α) (sourceOutput : α) : Option String :=
  if !edge.isConditional then none
  else if !PyObject.isNone edge.conditionalValue then
    if PyObject.ne sourceOutput edge.conditionalValue then
      some ("Skipped: trigger from " ++ edge.sourceNodeId ++ "." ++ edge.sourceHandle ++ " value " ++
        PyObject.repr sourceOutput ++ " != expected " ++ PyObject.repr edge.conditionalValue ++ ".")
    else none
  else if !PyObject.truthy sourceOutput then
    some ("Skipped: conditional edge from " ++ edge.sourceNodeId ++ "." ++ edge.sourceHandle ++
      " is falsy.")
  else none

def EdgeMapping.addInput (edge : EdgeMapping α) (inputs : Dict α) (value : α) : Dict α :=
  if edge.targetHandle = "trigger" then inputs
  else if PyObject.isNone value then inputs
  else inputs.set edge.targetHandle value

/-- Where `_execute_single_node` stands. -/
inductive Task (α : Type) where
  | waiting
  /-- At the dependencies that it has yet to look up among the failed nodes. -/
  | upstream (node : WorkflowNode α) (rest : List String)
  /-- At the edges whose conditions it has yet to check. -/
  | conditions (node : WorkflowNode α) (rest : List (EdgeMapping α))
  /-- At the edges whose values it has yet to read. -/
  | collecting (node : WorkflowNode α) (rest : List (EdgeMapping α)) (inputs : Dict α)
  | calling (node : WorkflowNode α) (inputs : Dict α)
  /-- About to take the lock for its writes. -/
  | locking (writes : List (Write α))
  /-- With the lock. -/
  | writing (writes : List (Write α))
  | done

def Task.isDone : Task α → Bool
  | .done => true
  | _ => false

def Task.isActive : Task α → Bool
  | .waiting | .done => false
  | _ => true

/-- A step of a node without the lock, up to the call of its function. Every access to a shared
dictionary or set is a step. -/
def Task.next (engine : WorkflowEngine α) (context : α) (memory : Memory α) (nodeId : String) :
    Task α → Option (Task α)
  | .waiting => (engine.nodeMap nodeId).map fun node =>
    .upstream node (engine.dag.reverseAdjacency nodeId)
  | .upstream node [] => some (.conditions node (engine.dag.incomingEdges nodeId))
  | .upstream node (dependency :: rest) =>
    some (if dependency ∈ memory.failedNodes then .locking upstreamFailure else .upstream node rest)
  | .conditions node [] =>
    some (.collecting node (engine.dag.incomingEdges nodeId)
      (node.configuration.set "__context__" context))
  | .conditions node (edge :: rest) =>
    some (match edge.unmet (memory.sourceOutput edge) with
      | some error => .locking (unmetCondition error)
      | none => .conditions node rest)
  | .collecting node [] inputs => some (.calling node inputs)
  | .collecting node (edge :: rest) inputs =>
    some (.collecting node rest (edge.addInput inputs (memory.sourceOutput edge)))
  | _ => none

end

structure Execution (α : Type) where
  memory : Memory α := {}
  /-- The task of the level that has `state_lock`. -/
  lock : Option Nat := none
  /-- The nodes of the current level, in the order in which they are submitted. -/
  level : List (String × Task α) := []
  /-- The levels to come. -/
  remaining : List (List String)
  /-- The nodes of the levels that are over. -/
  past : List String := []
  /-- The nodes that `_execute_single_node` was run on, in order. -/
  ran : List (WorkflowNode α) := []

inductive Action (α : Type) where
  | nextLevel
  | run (index : Nat)
  | call (index : Nat) (outcome : Outcome α)
  | acquire (index : Nat)
  | write (index : Nat)
  | release (index : Nat)

namespace Execution

def setTask (s : Execution α) (index : Nat) (nodeId : String) (task : Task α) : Execution α :=
  { s with level := s.level.set index (nodeId, task) }

def begins (engine : WorkflowEngine α) (nodeId : String) : Task α → List (WorkflowNode α)
  | .waiting => (engine.nodeMap nodeId).toList
  | _ => []

def hasWorker (engine : WorkflowEngine α) (s : Execution α) (task : Task α) : Bool :=
  task.isActive || s.level.countP (·.2.isActive) < engine.maxWorkers

def move [PyObject α] (engine : WorkflowEngine α) (context : α) (s : Execution α) :
    Action α → Option (Execution α)
  | .nextLevel =>
    match s.remaining with
    | [] => none
    | ids :: remaining =>
      if s.level.all fun entry => Task.isDone entry.2 then
        some { s with
          level := ids.map fun id => (id, .waiting)
          remaining
          past := s.past ++ s.level.map Prod.fst }
      else none
  | .run index =>
    match s.level[index]? with
    | none => none
    | some (nodeId, task) =>
      if s.hasWorker engine task then
        (task.next engine context s.memory nodeId).map fun task' =>
          { s.setTask index nodeId task' with ran := s.ran ++ begins engine nodeId task }
      else none
  | .call index outcome =>
    match s.level[index]? with
    | some (nodeId, .calling _ _) => some (s.setTask index nodeId (.locking outcome.writes))
    | _ => none
  | .acquire index =>
    match s.level[index]?, s.lock with
    | some (nodeId, .locking writes), none =>
      some { s.setTask index nodeId (.writing writes) with lock := some index }
    | _, _ => none
  | .write index =>
    match s.level[index]? with
    | some (nodeId, .writing (write :: writes)) =>
      some { s.setTask index nodeId (.writing writes) with memory := write.apply nodeId s.memory }
    | _ => none
  | .release index =>
    match s.level[index]? with
    | some (nodeId, .writing []) => some { s.setTask index nodeId .done with lock := none }
    | _ => none

def Allowed (functions : NodeFunctions α) (s : Execution α) : Action α → Prop
  | .call index outcome => ∀ nodeId node inputs,
    s.level[index]? = some (nodeId, .calling node inputs) → functions.may node.type inputs outcome
  | _ => True

end Execution

def WorkflowEngine.start (engine : WorkflowEngine α) : Execution α :=
  { remaining := engine.dag.executionLevels }

/-- `WorkflowEngine.execute`: the nodes of a level run side by side, the levels one after
another. -/
def WorkflowEngine.execute [PyObject α] (engine : WorkflowEngine α) (context : α)
    (functions : NodeFunctions α) : System (Execution α) (Action α) :=
  .ofMoves (· = engine.start) (Execution.Allowed functions) (Execution.move engine context)

def Execution.Finished (s : Execution α) : Prop :=
  s.remaining = [] ∧ ∀ entry ∈ s.level, entry.2 = .done

structure WorkflowExecutionResult (α : Type) where
  success : Bool
  nodeResults : List (String × NodeResult α)
  errors : List String
  outputs : List (String × Dict α)

/-- What `execute` returns at the end. -/
def Memory.result (memory : Memory α) (leafNodes : List String) : WorkflowExecutionResult α where
  success := memory.failedNodes.length = 0
  nodeResults := memory.resultMap
  errors := memory.resultMap.filterMap fun entry =>
    if entry.1 ∈ memory.failedNodes then entry.2.error.filter (· ≠ "") else none
  outputs := leafNodes.foldl
    (fun outputs leafId =>
      match memory.resultMap.lookup leafId with
      | some result =>
        if result.status = .completed then setKey outputs leafId result.outputs else outputs
      | none => outputs) []

end Trakrai.Engine
