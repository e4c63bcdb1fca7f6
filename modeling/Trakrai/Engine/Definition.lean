import Trakrai.Lib.Json

namespace Trakrai.Engine
open Lib

/-- What the engine asks of the Python objects that flow along the edges of a workflow. -/
class PyObject (α : Type) where
  none : α
  /-- `value is None`. -/
  isNone : α → Bool
  /-- `bool(value)`. -/
  truthy : α → Bool
  /-- `a != b`. -/
  ne : α → α → Bool
  repr : α → String
  isNone_none : isNone none = true
  truthy_none : truthy none = false
  ne_none : ∀ value, isNone value = false → ne none value = true

/-- A dictionary in the order of its insertions. -/
structure Dict (α : Type) where
  entries : List (String × α)
  nodup : (entries.map Prod.fst).Nodup

namespace Dict
variable {α : Type}

def empty : Dict α := ⟨[], List.nodup_nil⟩

def singleton (key : String) (value : α) : Dict α := ⟨[(key, value)], List.nodup_singleton _⟩

def get (dict : Dict α) (key : String) : Option α := dict.entries.lookup key

def set (dict : Dict α) (key : String) (value : α) : Dict α :=
  ⟨setKey dict.entries key value, nodup_setKey dict.nodup key value⟩

end Dict

/-- Python's `repr` of a character inside a text quoted with `quote`. The characters outside ASCII stay as they
are: those that Python does not count as printable, such as U+00A0, are not escaped here. -/
def reprChar (quote c : Char) : String :=
  if c = quote ∨ c = '\\' then String.ofList ['\\', c]
  else if c = '\n' then "\\n"
  else if c = '\r' then "\\r"
  else if c = '\t' then "\\t"
  else if c.toNat < 0x20 ∨ c.toNat = 0x7f then
    "\\x" ++ String.ofList [Nat.digitChar (c.toNat / 16), Nat.digitChar (c.toNat % 16)]
  else String.singleton c

/-- Python's `repr` of a text. -/
def reprStr (text : String) : String :=
  let quote := if text.toList.contains '\'' && !text.toList.contains '"' then '"' else '\''
  String.singleton quote ++ String.join (text.toList.map (reprChar quote)) ++ String.singleton quote

/-- The Python objects that the texts of JSON without fractions load to. -/
inductive PyValue where
  | none
  | bool (value : Bool)
  | int (value : Int)
  | str (value : String)
  | list (items : List PyValue)
  | dict (fields : List (String × PyValue))

namespace PyValue

mutual

def repr : PyValue → String
  | .none => "None"
  | .bool value => if value then "True" else "False"
  | .int value => toString value
  | .str value => reprStr value
  | .list items => "[" ++ ", ".intercalate (reprs items) ++ "]"
  | .dict fields => "\x7b" ++ ", ".intercalate (reprFields fields) ++ "\x7d"

def reprs : List PyValue → List String
  | [] => []
  | item :: items => repr item :: reprs items

def reprFields : List (String × PyValue) → List String
  | [] => []
  | field :: fields => reprField field :: reprFields fields

def reprField : String × PyValue → String
  | (key, value) => reprStr key ++ ": " ++ repr value

end

mutual

def eq : PyValue → PyValue → Bool
  | .none, .none => true
  | .bool a, .bool b => a == b
  | .bool a, .int b => (if a then 1 else 0) == b
  | .int a, .bool b => a == (if b then 1 else 0)
  | .int a, .int b => a == b
  | .str a, .str b => a == b
  | .list a, .list b => eqItems a b
  | .dict a, .dict b => a.length == b.length && eqFields a b
  | _, _ => false
termination_by structural a => a

def eqItems : List PyValue → List PyValue → Bool
  | [], [] => true
  | a :: as, b :: bs => eq a b && eqItems as bs
  | _, _ => false
termination_by structural a => a

def eqFields : List (String × PyValue) → List (String × PyValue) → Bool
  | [], _ => true
  | field :: fields, others => eqField field others && eqFields fields others
termination_by structural a => a

def eqField : String × PyValue → List (String × PyValue) → Bool
  | (key, value), others =>
    match others.lookup key with
    | some other => eq value other
    | .none => false
termination_by structural a => a

end

def truthy : PyValue → Bool
  | .none => false
  | .bool value => value
  | .int value => value != 0
  | .str value => value != ""
  | .list items => !items.isEmpty
  | .dict fields => !fields.isEmpty

end PyValue

instance : PyObject PyValue where
  none := .none
  isNone
    | .none => true
    | _ => false
  truthy := PyValue.truthy
  ne a b := !PyValue.eq a b
  repr := PyValue.repr
  isNone_none := rfl
  truthy_none := rfl
  ne_none value h := by
    cases value with
    | none => cases h
    | _ => rfl

section
variable (α : Type)

/-- A port; `default` is `None` where there is none. -/
structure PortDefinition where
  name : String
  /-- `type_schema.type`. -/
  dataType : String := "any"
  required : Bool := true
  default : α

structure NodeDefinition where
  nodeTypeId : String
  inputs : List (PortDefinition α) := []
  outputs : List (PortDefinition α) := []

structure WorkflowNode where
  id : String
  type : String
  /-- `data.configuration`. -/
  configuration : Dict α := .empty

structure WorkflowEdge where
  id : String
  source : String
  sourceHandle : String
  target : String
  targetHandle : String
  type : Option String := none
  data : Option (Dict α) := none

structure WorkflowDefinition where
  nodes : List (WorkflowNode α)
  edges : List (WorkflowEdge α)

end

def NodeDefinition.getInputPort (definition : NodeDefinition α) (portName : String) :
    Option (PortDefinition α) :=
  definition.inputs.find? (·.name == portName)

def NodeDefinition.getOutputPort (definition : NodeDefinition α) (portName : String) :
    Option (PortDefinition α) :=
  definition.outputs.find? (·.name == portName)

abbrev NodeRegistry (α : Type) := List (String × NodeDefinition α)

section
variable [PyObject α]

/-- `_TYPE_COMPAT.get(source_type, {"any"})`. -/
def typeCompat (sourceType : String) : List String :=
  if sourceType = "any" then ["any", "number", "string", "boolean", "array", "object"]
  else if sourceType ∈ ["number", "string", "boolean", "array", "object"] then ["any", sourceType]
  else ["any"]

def typesCompatible (sourceType targetType : String) : Bool :=
  if sourceType = "any" ∨ targetType = "any" then true
  else (typeCompat sourceType).contains targetType

/-- `WorkflowValidator.Result`; the workflow is valid if there are no errors. -/
structure ValidationResult where
  errors : List String := []
  warnings : List String := []

def ValidationResult.addError (result : ValidationResult) (message : String) : ValidationResult :=
  { result with errors := result.errors ++ [message] }

def ValidationResult.addWarning (result : ValidationResult) (message : String) :
    ValidationResult :=
  { result with warnings := result.warnings ++ [message] }

/-- A dictionary comprehension over the nodes: the last node with an id counts. -/
def byId (f : WorkflowNode α → β) (nodes : List (WorkflowNode α)) (nodeId : String) : Option β :=
  (nodes.reverse.find? (·.id == nodeId)).map f

structure EdgeCheck where
  connectedInputs : List (String × String) := []
  result : ValidationResult := {}

def validateEdge (nodeIds : List String) (definitionMap : String → Option (NodeDefinition α))
    (check : EdgeCheck) (edge : WorkflowEdge α) : EdgeCheck :=
  let fail (message : String) : EdgeCheck := { check with result := check.result.addError message }
  let connected (result : ValidationResult) : EdgeCheck :=
    ⟨check.connectedInputs ++ [(edge.target, edge.targetHandle)], result⟩
  if !nodeIds.contains edge.source then
    fail ("Edge " ++ reprStr edge.id ++ ": source node " ++ reprStr edge.source ++
      " does not exist.")
  else if !nodeIds.contains edge.target then
    fail ("Edge " ++ reprStr edge.id ++ ": target node " ++ reprStr edge.target ++
      " does not exist.")
  else
    match definitionMap edge.source, definitionMap edge.target with
    | some sourceDefinition, some targetDefinition =>
      match sourceDefinition.getOutputPort edge.sourceHandle with
      | none =>
        fail ("Edge " ++ reprStr edge.id ++ ": source handle " ++ reprStr edge.sourceHandle ++
          " is not a valid output of " ++ reprStr sourceDefinition.nodeTypeId ++ ".")
      | some sourcePort =>
        match targetDefinition.getInputPort edge.targetHandle with
        | none =>
          if edge.targetHandle = "trigger" then connected check.result
          else
            fail ("Edge " ++ reprStr edge.id ++ ": target handle " ++ reprStr edge.targetHandle ++
              " is not a valid input of " ++ reprStr targetDefinition.nodeTypeId ++ ".")
        | some targetPort =>
          connected
            (if typesCompatible sourcePort.dataType targetPort.dataType then check.result
            else check.result.addWarning ("Edge " ++ reprStr edge.id ++ ": type mismatch " ++
              reprStr sourcePort.dataType ++ " -> " ++ reprStr targetPort.dataType ++ "."))
    | _, _ => check

def missingInputs (definition : NodeDefinition α) (connectedInputs : List (String × String))
    (node : WorkflowNode α) : List String :=
  (definition.inputs.filter fun port =>
    port.required && !(connectedInputs.contains (node.id, port.name) ||
      (node.configuration.get port.name).isSome || !PyObject.isNone port.default)).map fun port =>
    "Node " ++ reprStr node.id ++ " (" ++ node.type ++ "): required input " ++ reprStr port.name ++
      " is missing."

def validate (registry : NodeRegistry α) (workflow : WorkflowDefinition α) : ValidationResult :=
  if workflow.nodes.isEmpty then { errors := ["Workflow has no nodes."] }
  else
    let unknown := workflow.nodes.filter fun node => (registry.lookup node.type).isNone
    if !unknown.isEmpty then
      { errors := unknown.map fun node =>
          "Node " ++ reprStr node.id ++ ": type " ++ reprStr node.type ++ " is not registered." }
    else
      let definitionMap (nodeId : String) : Option (NodeDefinition α) :=
        (byId WorkflowNode.type workflow.nodes nodeId).bind fun nodeType => registry.lookup nodeType
      let check := workflow.edges.foldl
        (validateEdge (workflow.nodes.map (·.id)) definitionMap) {}
      workflow.nodes.foldl
        (fun result node =>
          match definitionMap node.id with
          | none => result
          | some definition =>
            (missingInputs definition check.connectedInputs node).foldl .addError result)
        check.result

def validateStrict (registry : NodeRegistry α) (workflow : WorkflowDefinition α) :
    Except String (WorkflowDefinition α) :=
  let result := validate registry workflow
  if result.errors.isEmpty then .ok workflow
  else .error ("Workflow validation failed with " ++ toString result.errors.length ++ " error(s).")

end

end Trakrai.Engine
