import Trakrai.Workflow.JsonSchema

namespace Trakrai.Workflow
open Option Lib

structure Node where
  id : String
  type : Option String
  /-- `data.configuration`; `null` is `none`. -/
  configuration : Option (List (String × Json)) := none

structure Edge where
  id : String
  source : String
  target : String
  sourceHandle : Option String := none
  targetHandle : Option String := none
  /-- `data?.configuration`. -/
  configuration : Option Json := none

structure DependencyInfo where
  sourceNodeId : String
  sourceHandle : String
  targetHandle : String
  conditional : Option Json

def triggerHandle : String := "trigger"

def executionSuccessHandle : String := "__executionSuccess__"

inductive DependencyMode where
  | all
  | any
deriving DecidableEq

/-- A value that a node receives: JSON, or what `Object.prototype` has under a name. -/
inductive InputValue where
  | json (value : Json)
  | inherited (name : String)

abbrev Input := List (String × InputValue)

/-- What became of an execution. Only an `Error` has a message. -/
inductive Outcome where
  | returned (output : List (String × Json))
  | threw (message : Option String)

/-- The schema of a property: a boolean, or another value that is no object, as a message shows it, or an object
with its default. -/
inductive PropertySchema where
  | primitive (text : String)
  | object (default : Option Json)

/-- `ResolvedObjectSchema`. An entry of `required` that is no string stands apart, by the key that it reads. -/
structure ObjectSchema where
  properties : List (String × PropertySchema) := []
  required : Option (List String) := none
  unnamed : List String := []

def emptyObjectSchema : ObjectSchema := {}

/-- A resolved schema with the definitions that its references are to. -/
structure OutputSchema where
  schema : JsonSchema
  defs : List (String × JsonSchema) := []

/-- `EMPTY_OBJECT_SCHEMA`. -/
def emptyOutputSchema : OutputSchema where
  schema := .object
    { type := some (.one .object), properties := some [], additionalProperties := some (.bool false) }

/-- `safeParseSchema` succeeds on a value, if enough references are followed. -/
def OutputSchema.Accepts (output : OutputSchema) (value : Json) : Prop :=
  ∃ depth, schemaAccepts output.defs depth output.schema value = true

/-- The schema of an event's data, by what `safeParseSchema` makes of a value. -/
structure EventSchema where
  safeParse : Json → Except String Json

/-- The static schema of a node type: what the validator reads of it, and what its Zod schemas
do. -/
structure NodeSchema where
  input : ObjectSchema
  output : OutputSchema := emptyOutputSchema
  parseInput : Input → Except String Input
  parseOutput : List (String × Json) → Except String (List (String × Json))
  events : Option (List (String × EventSchema)) := none

structure NodeHandler where
  getInputSchema : Node → Option ObjectSchema
  getOutputSchema : Node → Option OutputSchema := fun _ => none
  getEvents : Node → Option (List (String × EventSchema)) := fun _ => none
  getDependencyMode : Node → DependencyMode := fun _ => .all
  execute : Node → Input → Outcome

abbrev NodeFunction := Input → Node → Outcome

/-- What the application registers, keyed by node type. -/
structure Registry where
  nodeSchemas : List (String × NodeSchema) := []
  nodeFunctions : List (String × NodeFunction) := []
  nodeHandlers : List (String × Option NodeHandler) := []

/-- `BasicInputOutputNodeHandler.execute`. -/
def NodeSchema.execute (schema : NodeSchema) (nodeFunction : Option NodeFunction) (node : Node)
    (input : Input) : Outcome :=
  match nodeFunction with
  | none =>
    .threw (some ("Node function is not defined for node type '" ++ node.type.getD "unknown" ++
      "'"))
  | some function =>
    match schema.parseInput input with
    | .error error => .threw (some ("Invalid input: " ++ error))
    | .ok parsed =>
      match function parsed node with
      | .threw message => .threw message
      | .returned output =>
        match schema.parseOutput output with
        | .error error => .threw (some ("Invalid output: " ++ error))
        | .ok parsed => .returned parsed

def basicInputOutputNodeHandler (schema : NodeSchema) (nodeFunction : Option NodeFunction) :
    NodeHandler where
  getInputSchema _ := some schema.input
  getOutputSchema _ := some schema.output
  getEvents _ := schema.events
  execute := schema.execute nodeFunction

/-- A registered handler comes before the static schema of the type. -/
def Registry.getNodeHandler (registry : Registry) (nodeType : Option String) : Option NodeHandler :=
  nodeType.bind fun nodeType =>
    match registry.nodeHandlers.lookup nodeType with
    | some (some handler) => some handler
    | _ =>
      (registry.nodeSchemas.lookup nodeType).map fun schema =>
        basicInputOutputNodeHandler schema (registry.nodeFunctions.lookup nodeType)

structure ResolvedNodeSchema where
  input : ObjectSchema
  output : OutputSchema
  events : Option (List (String × EventSchema))

/-- What a handler leaves open is taken from the static schema. -/
def Registry.resolveNodeSchema (registry : Registry) (node : Node) : Option ResolvedNodeSchema :=
  node.type.bind fun nodeType =>
    let handler := registry.getNodeHandler nodeType
    let static := registry.nodeSchemas.lookup nodeType
    if handler.isNone && static.isNone then none
    else
      some {
        input := ((handler.bind (·.getInputSchema node)).or (static.map (·.input))).getD
          emptyObjectSchema
        output := ((handler.bind (·.getOutputSchema node)).or (static.map (·.output))).getD
          emptyOutputSchema
        events := (handler.bind (·.getEvents node)).or (static.bind (·.events)) }

theorem Registry.handler_of_resolve {registry : Registry} {node : Node} {schema : ResolvedNodeSchema}
    (h : registry.resolveNodeSchema node = some schema) :
    ∃ nodeType handler, node.type = some nodeType ∧
      registry.getNodeHandler nodeType = some handler := by
  obtain ⟨nodeType, htype, h⟩ := bind_eq_some_iff.1 h
  refine ⟨nodeType, ?_⟩
  cases hhandler : registry.getNodeHandler nodeType with
  | some handler => exact ⟨handler, htype, rfl⟩
  | none =>
    -- without a handler there is no static schema either, so nothing is resolved
    have hstatic : registry.nodeSchemas.lookup nodeType = none := by
      simp only [getNodeHandler, bind_some] at hhandler
      split at hhandler
      · cases hhandler
      · exact map_eq_none_iff.1 hhandler
    simp [hhandler, hstatic] at h

end Trakrai.Workflow
