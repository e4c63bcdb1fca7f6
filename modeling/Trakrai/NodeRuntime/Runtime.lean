import Mathlib.Logic.Function.Basic
import Trakrai.Lib.Dialogue
import Trakrai.Lib.Json
import Trakrai.Workflow.Chart

namespace Trakrai.NodeRuntime
open Lib
open Workflow (Node Edge)

/-- Types of the Zod library, and the schemas into which it converts them. -/
class ZodTypes (Zod : Type) where
  toJSONSchema : Zod → Except String Json

instance : ZodTypes Empty := ⟨nofun⟩

/-- A Zod type or a plain JSON Schema. -/
inductive NodeSchemaLike (Zod : Type) where
  | zod (type : Zod)
  | json (schema : Json)

structure NodeEvent (Zod : Type) where
  description : String
  data : Zod

structure NodeEventSchemaLike (Zod : Type) where
  description : String
  data : NodeSchemaLike Zod

structure NodeConfigurationField where
  key : String
  label : String
  description : Option String
  field : Option String
  fieldConfig : Option Json

structure NodeSchema (Zod : Type) where
  input : Zod
  output : Zod
  category : String
  description : String
  events : Option (List (String × NodeEvent Zod))
  configurationFields : Option (List NodeConfigurationField)

structure ResolvedNodeSchemaSource (Zod : Type) where
  input : NodeSchemaLike Zod
  output : NodeSchemaLike Zod
  events : Option (List (String × NodeEventSchemaLike Zod))
  configurationFields : Option (List NodeConfigurationField)
  category : String
  description : String

abbrev ResolvedObjectSchema := List (String × Json)

structure ResolvedNodeEventSchema where
  description : String
  data : ResolvedObjectSchema

structure ResolvedNodeSchema where
  input : ResolvedObjectSchema
  output : ResolvedObjectSchema
  events : Option (List (String × ResolvedNodeEventSchema))
  configurationFields : Option (List NodeConfigurationField)
  category : String
  description : String

def emptyObjectSchema : ResolvedObjectSchema :=
  [("type", .str "object"), ("properties", .obj []), ("additionalProperties", .bool false)]

def normalizeRequired : Option Json → Option (List Json)
  | some (.arr required) =>
    let entries := required.filter fun item => item.string?.isSome
    if entries.isEmpty then none else some entries
  | _ => none

def normalizeProperties : Option Json → Json
  | some (.obj fields) => .obj fields
  | some (.arr items) => .arr items
  | _ => .obj []

/-- `Object.keys(properties)`. -/
def propertyNames : Option Json → List String
  | some (.obj fields) => fields.map Prod.fst
  | some (.arr items) => (List.range items.length).map toString
  | _ => []

/-- The part of `toObjectSchema` after the conversion of a Zod type. -/
def objectShape : Json → Except String ResolvedObjectSchema
  | .obj fields =>
    let isObject := match fields.lookup "type" with
      | some (.str name) => name == "object"
      | _ => false
    if isObject || (fields.lookup "properties").isSome then
      let properties := normalizeProperties (fields.lookup "properties")
      let shape := setKey (setKey fields "type" (.str "object")) "properties" properties
      match normalizeRequired (fields.lookup "required") with
      | some required => .ok (setKey shape "required" (.arr required))
      | none => .ok shape
    else .ok emptyObjectSchema
  | .null => .error "Cannot read properties of null (reading 'type')"
  | _ => .ok emptyObjectSchema

def toEventSchemaLike (events : Option (List (String × NodeEvent Zod))) :
    Option (List (String × NodeEventSchemaLike Zod)) :=
  events.map (·.map fun (eventName, event) => (eventName, ⟨event.description, .zod event.data⟩))

def getStaticSchemaSource (nodeSchema : NodeSchema Zod) : ResolvedNodeSchemaSource Zod where
  input := .zod nodeSchema.input
  output := .zod nodeSchema.output
  events := toEventSchemaLike nodeSchema.events
  configurationFields := nodeSchema.configurationFields
  category := nodeSchema.category
  description := nodeSchema.description

section
variable [ZodTypes Zod]

def toObjectSchema : NodeSchemaLike Zod → Except String ResolvedObjectSchema
  | .json (.bool _) => .ok emptyObjectSchema
  | .json schema => objectShape schema
  | .zod type => do objectShape (← ZodTypes.toJSONSchema type)

def toResolvedEvents (events : List (String × NodeEventSchemaLike Zod)) :
    Except String (List (String × ResolvedNodeEventSchema)) :=
  events.mapM fun (eventName, event) => do
    return (eventName, ⟨event.description, ← toObjectSchema event.data⟩)

/-- The schema that `resolveNodeSchema` makes of a source. -/
def normalise : Option (ResolvedNodeSchemaSource Zod) → Except String (Option ResolvedNodeSchema)
  | none => .ok none
  | some source => do
    let input ← toObjectSchema source.input
    let output ← toObjectSchema source.output
    let events ← source.events.mapM toResolvedEvents
    return some {
      input, output, events
      configurationFields := source.configurationFields
      category := source.category
      description := source.description }

end

/-- What a handler may ask of the runtime while its schemas are resolved. -/
inductive SchemaQuestion where
  | resolveNodeSchema (nodeId : String)
  | resolveNodeSchemaSource (nodeId : String)

/-- An answer: a schema, `undefined`, or an exception, which the handler may catch. -/
def SchemaAnswer (Zod : Type) : SchemaQuestion → Type
  | .resolveNodeSchema _ => Except String (Option ResolvedNodeSchema)
  | .resolveNodeSchemaSource _ => Except String (Option (ResolvedNodeSchemaSource Zod))

/-- What a getter of a handler does: it asks questions, and returns or throws in the end. -/
abbrev Resolution (Zod : Type) := ExceptT String (Dialogue SchemaQuestion (SchemaAnswer Zod))

structure SchemaResolutionContext (Zod : Type) where
  node : Node
  nodes : List Node
  edges : List Edge
  nodeSchemas : String → Option (NodeSchema Zod)

namespace SchemaResolutionContext

def resolveNodeSchema (_ : SchemaResolutionContext Zod) (nodeId : String) :
    Resolution Zod (Option ResolvedNodeSchema) :=
  ExceptT.mk (.ask (.resolveNodeSchema nodeId) .done)

def resolveNodeSchemaSource (_ : SchemaResolutionContext Zod) (nodeId : String) :
    Resolution Zod (Option (ResolvedNodeSchemaSource Zod)) :=
  ExceptT.mk (.ask (.resolveNodeSchemaSource nodeId) .done)

end SchemaResolutionContext

structure WorkflowNodeHandler (Zod : Type) where
  getInputSchema : SchemaResolutionContext Zod → Resolution Zod (Option (NodeSchemaLike Zod))
  getOutputSchema : SchemaResolutionContext Zod → Resolution Zod (Option (NodeSchemaLike Zod))
  getEvents : SchemaResolutionContext Zod →
    Resolution Zod (Option (List (String × NodeEventSchemaLike Zod))) := fun _ => pure none
  getConfigurationFields : SchemaResolutionContext Zod →
    Resolution Zod (Option (List NodeConfigurationField)) := fun _ => pure none
  getCategory : SchemaResolutionContext Zod → Resolution Zod (Option String) := fun _ => pure none
  getDescription : SchemaResolutionContext Zod → Resolution Zod (Option String) := fun _ => pure none

def basicInputOutputNodeHandler (nodeSchema : NodeSchema Zod) : WorkflowNodeHandler Zod where
  getInputSchema _ := pure (some (.zod nodeSchema.input))
  getOutputSchema _ := pure (some (.zod nodeSchema.output))
  getEvents _ := pure (toEventSchemaLike nodeSchema.events)
  getCategory _ := pure (some nodeSchema.category)
  getDescription _ := pure (some nodeSchema.description)

structure CreateNodeRuntimeArgs (Zod : Type) where
  nodes : List Node
  edges : List Edge
  nodeSchemas : String → Option (NodeSchema Zod)
  nodeHandlers : String → Option (WorkflowNodeHandler Zod)

/-- A node whose handler is running, and whether `resolveNodeSchema` of that node asked for its source. The
program keeps the id only. -/
structure Frame where
  nodeId : String
  forSchema : Bool
deriving DecidableEq

/-- A call of `resolveNodeSchema`, and the handlers that ran at the time. -/
structure SchemaRequest where
  nodeId : String
  resolving : List Frame

structure Runtime (Zod : Type) where
  schemaSourceCache : String → Option (Option (ResolvedNodeSchemaSource Zod)) := fun _ => none
  schemaCache : String → Option (Option ResolvedNodeSchema) := fun _ => none
  resolving : List Frame := []
  /-- The calls of `resolveNodeSchema` so far. The program does not keep them. -/
  requests : List SchemaRequest := []

namespace Runtime

section
variable (s : Runtime Zod)

section
variable (nodeId : String)

def cacheSource (source : Option (ResolvedNodeSchemaSource Zod)) : Runtime Zod :=
  { s with schemaSourceCache := Function.update s.schemaSourceCache nodeId (some source) }

def cacheSchema (schema : Option ResolvedNodeSchema) : Runtime Zod :=
  { s with schemaCache := Function.update s.schemaCache nodeId (some schema) }

def isResolving : Bool := s.resolving.any (·.nodeId == nodeId)

def enter (frame : Frame) : Runtime Zod := { s with resolving := frame :: s.resolving }

def leave : Runtime Zod :=
  { s with resolving := s.resolving.filter fun frame => !(frame.nodeId == nodeId) }

def request : Runtime Zod :=
  { s with requests := ⟨nodeId, s.resolving⟩ :: s.requests }

end

end

end Runtime

/-- A result with the runtime after it. `none` where there is no result yet for lack of fuel. -/
abbrev Outcome (Zod α : Type) := Option (Except String α × Runtime Zod)

/-- `resolveNodeSchemaSource`, as the other functions call it. The flag says that `resolveNodeSchema` does. -/
abbrev SourceResolver (Zod : Type) :=
  Bool → Node → Runtime Zod → Outcome Zod (Option (ResolvedNodeSchemaSource Zod))

/-- `a ?? b`: a schema that is `null` counts as missing. -/
def NodeSchemaLike.orElse (a b : Option (NodeSchemaLike Zod)) : Option (NodeSchemaLike Zod) :=
  match a with
  | none | some (.json .null) => b
  | some schema => some schema

section
variable (args : CreateNodeRuntimeArgs Zod)

def nodeById (nodeId : String) : Option Node := args.nodes.reverse.find? (·.id == nodeId)

def getNodeHandler (nodeType : String) : Option (WorkflowNodeHandler Zod) :=
  (args.nodeHandlers nodeType).or ((args.nodeSchemas nodeType).map basicInputOutputNodeHandler)

def resolveWithHandler (node : Node) (handler : WorkflowNodeHandler Zod)
    (fallback : Option (ResolvedNodeSchemaSource Zod)) : Resolution Zod (ResolvedNodeSchemaSource Zod) := do
  let context : SchemaResolutionContext Zod := ⟨node, args.nodes, args.edges, args.nodeSchemas⟩
  let emptySchema : NodeSchemaLike Zod := .json (.obj emptyObjectSchema)
  let input ← handler.getInputSchema context
  let output ← handler.getOutputSchema context
  let events ← handler.getEvents context
  let configurationFields ← handler.getConfigurationFields context
  let category ← handler.getCategory context
  let description ← handler.getDescription context
  return {
    input := (NodeSchemaLike.orElse input (fallback.map (·.input))).getD emptySchema
    output := (NodeSchemaLike.orElse output (fallback.map (·.output))).getD emptySchema
    events := events.or (fallback.bind (·.events))
    configurationFields := configurationFields.or (fallback.bind (·.configurationFields))
    category := (category.or (fallback.map (·.category))).getD "custom"
    description := (description.or (fallback.map (·.description))).getD "" }

def resolveNodeSchemaSourceById (resolve : SourceResolver Zod) (nodeId : String) (s : Runtime Zod) :
    Outcome Zod (Option (ResolvedNodeSchemaSource Zod)) :=
  match nodeById args nodeId with
  | none => some (.ok none, s)
  | some node => resolve false node s

variable [ZodTypes Zod]

section
variable (resolve : SourceResolver Zod)

def resolveNodeSchema (node : Node) (runtime : Runtime Zod) :
    Outcome Zod (Option ResolvedNodeSchema) :=
  let s := runtime.request node.id
  match s.schemaCache node.id with
  | some schema => some (.ok schema, s)
  | none =>
    match resolve true node s with
    | none => none
    | some (.error error, s) => some (.error error, s)
    | some (.ok source, s) =>
      match normalise source with
      | .error error => some (.error error, s)
      | .ok schema => some (.ok schema, s.cacheSchema node.id schema)

def resolveNodeSchemaById (nodeId : String) (s : Runtime Zod) :
    Outcome Zod (Option ResolvedNodeSchema) :=
  match nodeById args nodeId with
  | none => some (.ok none, s)
  | some node => resolveNodeSchema resolve node s

def replies :
    (question : SchemaQuestion) → Runtime Zod → Option (SchemaAnswer Zod question × Runtime Zod)
  | .resolveNodeSchema nodeId => resolveNodeSchemaById args resolve nodeId
  | .resolveNodeSchemaSource nodeId => resolveNodeSchemaSourceById args resolve nodeId

end

/-- The fuel bounds how many handlers may run inside one another. -/
def resolveNodeSchemaSource (fuel : Nat) : SourceResolver Zod := fun forSchema node s =>
  match s.schemaSourceCache node.id with
  | some source => some (.ok source, s)
  | none =>
    match node.type with
    | none => some (.ok none, s.cacheSource node.id none)
    | some nodeType =>
      let staticSource := (args.nodeSchemas nodeType).map getStaticSchemaSource
      if s.isResolving node.id then some (.ok staticSource, s.cacheSource node.id staticSource)
      else
        match getNodeHandler args nodeType with
        | none => some (.ok none, s.cacheSource node.id none)
        | some handler =>
          match fuel with
          | 0 => none
          | fuel + 1 =>
            let resolution := resolveWithHandler args node handler staticSource
            match resolution.run.run (replies args (resolveNodeSchemaSource fuel)) (s.enter ⟨node.id, forSchema⟩) with
            | none => none
            | some (.error error, s) => some (.error error, s.leave node.id)
            | some (.ok resolved, s) =>
              -- `finally` comes after the source has been cached
              some (.ok (some resolved), (s.cacheSource node.id (some resolved)).leave node.id)

/-- The calls that the runtime offers to its users. -/
inductive Call where
  | resolveNodeSchema (node : Node)
  | resolveNodeSchemaById (nodeId : String)
  | resolveNodeSchemaSource (node : Node)
  | resolveNodeSchemaSourceById (nodeId : String)

inductive Answer (Zod : Type) where
  | schema (result : Except String (Option ResolvedNodeSchema))
  | source (result : Except String (Option (ResolvedNodeSchemaSource Zod)))

def perform (fuel : Nat) (s : Runtime Zod) : Call → Option (Answer Zod × Runtime Zod)
  | .resolveNodeSchema node =>
    (resolveNodeSchema (resolveNodeSchemaSource args fuel) node s).map (Prod.map .schema id)
  | .resolveNodeSchemaById nodeId =>
    (resolveNodeSchemaById args (resolveNodeSchemaSource args fuel) nodeId s).map (Prod.map .schema id)
  | .resolveNodeSchemaSource node =>
    (resolveNodeSchemaSource args fuel false node s).map (Prod.map .source id)
  | .resolveNodeSchemaSourceById nodeId =>
    (resolveNodeSchemaSourceById args (resolveNodeSchemaSource args fuel) nodeId s).map (Prod.map .source id)

/-- Calls in a row. An exception of one does not keep the next from being made. -/
def performAll (fuel : Nat) : List Call → Runtime Zod → Option (List (Answer Zod) × Runtime Zod)
  | [], s => some ([], s)
  | call :: calls, s =>
    match perform args fuel s call with
    | none => none
    | some (answer, s) => (performAll fuel calls s).map (Prod.map (answer :: ·) id)

end

end Trakrai.NodeRuntime
