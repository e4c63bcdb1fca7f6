import Trakrai.Workflow.Automation
import Trakrai.Workflow.Inputs
import Trakrai.Workflow.References
import Trakrai.WorkflowNodes.Merge

namespace Trakrai.WorkflowNodes
open Lib Workflow

def withoutDefinitions (ref : String) (_ : Json) (path : String) : Option SchemaError :=
  some ⟨path, .unresolved ref⟩

def functionError (keywords : Keywords JsonSchema) (path : String) : Option SchemaError :=
  let isOther : TypeName → Bool
    | .other _ => true
    | _ => false
  (keywords.const.bind fun const => some ⟨path, .expected const⟩) <|>
  (keywords.enum.bind fun values => some ⟨path, .expectedOneOf values⟩) <|>
  (keywords.type.bind fun type =>
    if type.names.any isOther then none else some ⟨path, .expectedType type.names (.other "function")⟩) <|>
  if keywords.items.isSome || keywords.prefixItems.isSome then some ⟨path, .expectedArray (.other "function")⟩
  else if keywords.properties.isSome || keywords.required.isSome ||
      keywords.additionalProperties.isSome || keywords.propertyNames.isSome then
    some ⟨path, .expectedObject (.other "function")⟩
  else none

/-- `validateJsonSchemaValue` without definitions, of what a node receives. -/
def validateInput (schema : JsonSchema) (value : InputValue) (path : String) : Option SchemaError :=
  match value with
  | .json value => validateJsonSchemaValue withoutDefinitions schema value path
  | .inherited name =>
    -- all that an object inherits are functions, but for the prototype itself
    if name = "__proto__" then validateJsonSchemaValue withoutDefinitions schema (.obj []) path
    else validateWith (fun ref path => withoutDefinitions ref .null path) functionError schema path

section
variable (validate : JsonSchema → α → String → Option SchemaError)

/-- `validateObjectShape`, where `validate` checks the fields. -/
def fieldsError (keywords : Keywords JsonSchema) (fields : List (String × α)) (path : String) : Option SchemaError :=
  ((keywords.required.getD []).findSome? fun key =>
    if hasKey fields key then none else some ⟨pathForKey path key, .isRequired⟩) <|>
  fields.findSome? fun field =>
    let key := field.1
    match lookupSchema (keywords.properties.getD []) key with
    | some schema => validate schema field.2 (pathForKey path key)
    | none =>
      (keywords.propertyNames.bind fun schema =>
        validateJsonSchemaValue withoutDefinitions schema (.str key) (pathForKey path key)) <|>
      match keywords.additionalProperties with
      | none => none
      | some (.bool true) => none
      | some (.bool false) => some ⟨pathForKey path key, .notAllowed⟩
      | some schema => validate schema field.2 (pathForKey path key)

/-- `validateJsonSchemaValue` without definitions, of an object where `validate` checks the fields. -/
def validateObject (schema : JsonSchema) (fields : List (String × α)) (path : String) : Option SchemaError :=
  validateWith (fun ref path => withoutDefinitions ref .null path)
    (fun keywords path => flatError keywords (.obj []) path <|>
      if keywords.items.isSome || keywords.prefixItems.isSome then some ⟨path, .expectedArray .object⟩
      else fieldsError validate keywords fields path)
    schema path

end

def Fits (schema : JsonSchema) (value : InputValue) : Prop := validateInput schema value "$" = none

theorem agreeOn_withoutDefinitions (schema : JsonSchema) : AgreeOn withoutDefinitions withoutDefinitions schema := by
  intro ref _ value path path'
  simp [withoutDefinitions]

theorem functionError_eq_none_congr :
    functionError keywords path = none ↔ functionError keywords path' = none := by
  simp only [functionError, orElse_eq_none, Option.bind_eq_none_iff]
  grind

theorem fits_iff (path : String) : validateInput schema value path = none ↔ Fits schema value := by
  rw [Fits]
  cases value with
  | json value => exact validate_congr schema (agreeOn_withoutDefinitions schema) value _ _
  | inherited name =>
    rw [validateInput, validateInput]
    split
    · exact validate_congr schema (agreeOn_withoutDefinitions schema) _ _ _
    · apply validateWith_congr (P := fun _ => True) (fun _ _ _ _ => trivial) ?_ ?_ schema trivial
      · intro keywords ref _ _
        simp [withoutDefinitions]
      · exact fun keywords _ => functionError_eq_none_congr

def closedKeywords (properties : List (String × JsonSchema)) (required : List String) : Keywords JsonSchema where
  type := some (.one .object)
  properties := some properties
  required := some required
  additionalProperties := some (.bool false)

theorem validateObject_closed (validate : JsonSchema → α → String → Option SchemaError)
    (properties : List (String × JsonSchema)) (required : List String) (fields : List (String × α)) (path : String) :
    validateObject validate (.object (closedKeywords properties required)) fields path = none ↔
      (∀ key ∈ required, hasKey fields key) ∧ ∀ field ∈ fields, ∃ schema,
        lookupSchema properties field.1 = some schema ∧ validate schema field.2 (pathForKey path field.1) = none := by
  have hflat : flatError (closedKeywords properties required) (.obj []) path = none := rfl
  rw [validateObject, validateWith_plain rfl rfl, orElse_eq_none, orElse_eq_none, and_iff_right hflat,
    closedKeywords, and_iff_right (by simp), if_neg (by simp), fieldsError, orElse_eq_none]
  simp only [List.findSome?_eq_none_iff, Option.getD_some, ite_eq_left_iff, reduceCtorEq, imp_false, Bool.not_eq_true,
    Bool.not_eq_false]
  apply and_congr_right'
  apply forall₂_congr
  intro field _
  cases lookupSchema properties field.1 with
  | some schema => simp
  | none => simp

def readTypeName : String → TypeName
  | "string" => .string
  | "number" => .number
  | "integer" => .integer
  | "boolean" => .boolean
  | "null" => .null
  | "array" => .array
  | "object" => .object
  | name => .other name

def readType : Json → TypeKeyword
  | .str name => .one (readTypeName name)
  | .arr items => .many ((items.filterMap Json.string?).map readTypeName)
  | _ => .many []

def isList : Json → Bool
  | .arr _ => true
  | _ => false

mutual

/-- A schema of the configuration as the validator sees it. It fails on what is no JSON Schema: where the validator
would stop with an exception, and on a list for `properties`. -/
def readSchema : Json → Except String JsonSchema
  | .bool value => .ok (.bool value)
  | .obj fields => do
    let keywords ← readKeywords fields
    -- beside alternatives in `anyOf` the validator only asks whether there is a `oneOf`
    if keywords.oneOf.isSome && keywords.anyOf.isNone && !(fields.lookup "oneOf").any isList then
      .error "variants.filter is not a function"
    else .ok (.object keywords)
  | .null => .error "Cannot read properties of null (reading '$ref')"
  | _ => .ok (.object {})

def readKeywords : List (String × Json) → Except String (Keywords JsonSchema)
  | [] => .ok {}
  | entry :: rest => do
    let keywords ← readKeywords rest
    readKeyword entry keywords

def readKeyword : String × Json → Keywords JsonSchema → Except String (Keywords JsonSchema)
  | ("$ref", .str ref), keywords => .ok { keywords with ref := some ref }
  | ("$ref", _), _ => .error "schema.$ref.replace is not a function"
  | ("anyOf", .arr items), keywords => do
    let schemas ← readSchemas items
    .ok { keywords with anyOf := some schemas }
  | ("anyOf", .null), keywords => .ok keywords
  | ("anyOf", _), _ => .error "variants.filter is not a function"
  | ("oneOf", .arr items), keywords => do
    let schemas ← readSchemas items
    .ok { keywords with oneOf := some schemas }
  | ("oneOf", _), keywords => .ok { keywords with oneOf := some [] }
  | ("allOf", .arr items), keywords => do
    let schemas ← readSchemas items
    .ok { keywords with allOf := some schemas }
  | ("allOf", .str _), keywords => .ok keywords
  | ("allOf", _), _ => .error "schema.allOf is not iterable"
  | ("const", value), keywords => .ok { keywords with const := some value }
  | ("enum", .arr values), keywords => .ok { keywords with enum := some values }
  | ("enum", _), _ => .error "schema.enum.some is not a function"
  | ("type", value), keywords => .ok { keywords with type := some (readType value) }
  | ("properties", .obj fields), keywords => do
    let properties ← readProperties fields
    .ok { keywords with properties := some properties }
  | ("properties", .arr _), _ => .error "properties is no object"
  | ("properties", _), keywords => .ok { keywords with properties := some [] }
  | ("required", .arr items), keywords => .ok { keywords with required := some (items.filterMap Json.string?) }
  | ("required", _), keywords => .ok { keywords with required := some [] }
  | ("propertyNames", value), keywords => do
    let schema ← readSchema value
    .ok { keywords with propertyNames := some schema }
  | ("additionalProperties", value), keywords => do
    let schema ← readSchema value
    .ok { keywords with additionalProperties := some schema }
  | ("items", .arr _), keywords => .ok { keywords with items := some (.many []) }
  | ("items", value), keywords => do
    let schema ← readSchema value
    .ok { keywords with items := some (.one schema) }
  | ("prefixItems", .arr items), keywords => do
    let schemas ← readSchemas items
    .ok { keywords with prefixItems := some schemas }
  | ("prefixItems", _), keywords => .ok { keywords with prefixItems := some [] }
  | _, keywords => .ok keywords

def readSchemas : List Json → Except String (List JsonSchema)
  | [] => .ok []
  | item :: rest => do
    let schema ← readSchema item
    let schemas ← readSchemas rest
    .ok (schema :: schemas)

def readProperties : List (String × Json) → Except String (List (String × JsonSchema))
  | [] => .ok []
  | entry :: rest => do
    let property ← readNamedSchema entry
    let properties ← readProperties rest
    .ok (property :: properties)

def readNamedSchema : String × Json → Except String (String × JsonSchema)
  | (key, value) => do
    let schema ← readSchema value
    .ok (key, schema)

end

def propertySchemas : Option Json → Except String (List (String × JsonSchema))
  | some (.obj fields) => readProperties fields
  | some (.arr items) => do
    let schemas ← readSchemas items
    .ok (schemas.zipIdx.map fun entry => (toString entry.2, entry.1))
  | _ => .ok []

/-- A resolved object schema, with the definitions that the schemas of its properties hold themselves. -/
structure SourceObjectSchema extends OutputSchema where
  propertyDefs : List (String × List (String × JsonSchema)) := []

/-- `properties[key]`. -/
def SourceObjectSchema.property (object : SourceObjectSchema) (key : String) : Option OutputSchema :=
  (lookupSchema (object.schema.keywords.properties.getD []) key).map fun schema =>
    ⟨schema, (object.propertyDefs.lookup key).getD []⟩

/-- What the handlers read of the resolved schema of a node. -/
structure SourceSchema where
  output : SourceObjectSchema
  events : Option (List (String × SourceObjectSchema)) := none

structure NodeSchemaResolutionContext where
  node : Node
  edges : List Edge
  resolveNodeSchema : String → Except String (Option SourceSchema)

section
variable (context : NodeSchemaResolutionContext)

def getSourcePropertySchema (edge : Edge) : Except String (Option OutputSchema) := do
  match ← context.resolveNodeSchema edge.source, edge.sourceHandle.filter (· != "") with
  | some sourceSchema, some sourceHandle =>
    match isEventHandle sourceHandle with
    | none => .ok (sourceSchema.output.property sourceHandle)
    | some (eventName, eventHandle) =>
      match sourceSchema.events with
      | none => .ok none
      | some events =>
        match events.lookup eventName with
        | some data => .ok (data.property eventHandle)
        | none =>
          if objectPrototypeNames.contains eventName then
            .error "Cannot read properties of undefined (reading 'properties')"
          else .ok none
  | _, _ => .ok none

def inputHandle (edge : Edge) : Option String :=
  if edge.target = context.node.id then
    edge.targetHandle.filter fun handle => handle != "" && handle != triggerHandle
  else none

structure CombinedSchema where
  properties : List (String × JsonSchema)
  required : List String

/-- The loop over the edges in `getCombinedInputSchema`. -/
def addEdge (combined : CombinedSchema) (edge : Edge) : Except String CombinedSchema :=
  match inputHandle context edge with
  | none => .ok combined
  | some handle => do
    match ← getSourcePropertySchema context edge with
    | none => .ok combined
    | some sourceSchema =>
      .ok {
        properties := setKey combined.properties handle sourceSchema.schema
        required := if handle ∈ combined.required then combined.required else combined.required ++ [handle] }

end

structure CombineObjectNodeHandler where
  outputHandle : String := "result"
  inputSchemaField : String := "inputSchema"

namespace CombineObjectNodeHandler
variable (handler : CombineObjectNodeHandler) (context : NodeSchemaResolutionContext)

def configuredInputSchema : Except String CombinedSchema := do
  let schema ← configuredObjectSchema (context.node.configuration.getD []) handler.inputSchemaField
  let fields ← outputFields schema
  let properties ← propertySchemas (schema.lookup "properties")
  .ok ⟨properties, fields.required.eraseDups⟩

def getCombinedInputSchema : Except String CombinedSchema := do
  context.edges.foldlM (addEdge context) (← handler.configuredInputSchema context)

def getOutputSchema : Except String JsonSchema := do
  let inputSchema ← handler.getCombinedInputSchema context
  let result := closedKeywords inputSchema.properties inputSchema.required
  .ok (.object (closedKeywords [(handler.outputHandle, .object result)] [handler.outputHandle]))

def execute (input : Input) : List (String × Input) := [(handler.outputHandle, input)]

end CombineObjectNodeHandler

def asObject (keywords : Keywords JsonSchema) : Keywords JsonSchema :=
  { keywords with
    type := some (.one .object)
    properties := some (keywords.properties.getD []) }

/-- `toObjectSchema` of a schema that is no Zod type. -/
def toObjectSchema : Option OutputSchema → OutputSchema
  | none => emptyOutputSchema
  | some ⟨.bool _, _⟩ => emptyOutputSchema
  | some ⟨.object keywords, defs⟩ =>
    if hasType .object keywords.type || keywords.properties.isSome then
      ⟨.object (asObject keywords), defs⟩
    else emptyOutputSchema

structure SpreadObjectNodeHandler where
  inputHandle : String := "object"

namespace SpreadObjectNodeHandler
variable (handler : SpreadObjectNodeHandler) (context : NodeSchemaResolutionContext)

def incomingObjectEdge : Option Edge :=
  context.edges.find? fun edge =>
    edge.target == context.node.id && edge.targetHandle == some handler.inputHandle

def getOutputSchema : Except String OutputSchema :=
  match handler.incomingObjectEdge context with
  | none => .ok emptyOutputSchema
  | some edge => do .ok (toObjectSchema (← getSourcePropertySchema context edge))

/-- What an object inherits is no plain object, or one without fields of its own. -/
def execute (input : Input) : List (String × Json) :=
  match inputValue input handler.inputHandle with
  | .json (.obj fields) => fields
  | _ => []

end SpreadObjectNodeHandler

section
variable (context : NodeSchemaResolutionContext)

def edgeSchema (key : String) (edge : Edge) : Option JsonSchema :=
  if inputHandle context edge = some key then
    match getSourcePropertySchema context edge with
    | .ok sourceSchema => sourceSchema.map (·.schema)
    | .error _ => none
  else none

def handleSchema (key : String) : Option JsonSchema := context.edges.reverse.findSome? (edgeSchema context key)

variable {context} {combined next : CombinedSchema} {edge : Edge}

theorem edgeSchema_of_ne (h : inputHandle context edge ≠ some key) : edgeSchema context key edge = none := if_neg h

theorem addEdge_ok (h : addEdge context combined edge = .ok next) (key : String) :
    next.properties.lookup key = (edgeSchema context key edge).or (combined.properties.lookup key) ∧
    (key ∈ next.required ↔ key ∈ combined.required ∨ (edgeSchema context key edge).isSome) := by
  rw [addEdge] at h
  cases hhandle : inputHandle context edge with
  | none =>
    rw [hhandle] at h
    cases h
    simp [edgeSchema, hhandle]
  | some handle =>
    rw [hhandle] at h
    obtain ⟨sourceSchema, hsource, h⟩ := bind_eq_ok_iff.1 h
    by_cases hkey : handle = key
    · subst hkey
      rw [edgeSchema, if_pos hhandle, hsource]
      cases sourceSchema with
      | none =>
        cases h
        simp
      | some sourceSchema =>
        cases h
        simp only [lookup_setKey]
        constructor
        · simp
        · split
          · rename_i hmem
            simp [hmem]
          · simp
    · rw [edgeSchema_of_ne (by simpa [hhandle] using hkey)]
      cases sourceSchema with
      | none =>
        cases h
        simp
      | some sourceSchema =>
        cases h
        simp only [lookup_setKey, if_neg (Ne.symm hkey)]
        constructor
        · simp
        · split
          · simp
          · simp [Ne.symm hkey]

theorem exists_of_handleSchema (h : handleSchema context key = some schema) :
    ∃ edge ∈ context.edges, inputHandle context edge = some key ∧ edgeSchema context key edge = some schema := by
  obtain ⟨edge, hedge, hschema⟩ := List.exists_of_findSome?_eq_some h
  refine ⟨edge, List.mem_reverse.1 hedge, ?_, hschema⟩
  by_contra hne
  rw [edgeSchema_of_ne hne] at hschema
  cases hschema

theorem foldlM_addEdge_ok {edges : List Edge} (h : edges.foldlM (addEdge context) combined = .ok next) (key : String) :
    next.properties.lookup key =
      (edges.reverse.findSome? (edgeSchema context key)).or (combined.properties.lookup key) ∧
    (key ∈ next.required ↔
      key ∈ combined.required ∨ (edges.reverse.findSome? (edgeSchema context key)).isSome) := by
  induction edges generalizing combined with
  | nil =>
    cases h
    simp
  | cons edge edges ih =>
    obtain ⟨middle, hedge, hrest⟩ := bind_eq_ok_iff.1 h
    obtain ⟨hlookup, hrequired⟩ := addEdge_ok hedge key
    obtain ⟨hlookup', hrequired'⟩ := ih hrest
    rw [List.reverse_cons, List.findSome?_append, List.findSome?_singleton, Option.or_assoc, ← hlookup, ← hlookup',
      hrequired', hrequired, or_assoc, Option.isSome_or]
    simp only [true_and, Bool.or_eq_true]
    tauto

end

def declaredSchema (context : NodeSchemaResolutionContext) (configured : CombinedSchema) (key : String) :
    Option JsonSchema :=
  match handleSchema context key with
  | some schema => some schema
  | none => lookupSchema configured.properties key

/-- All that the node is configured with or receives is declared and fits, without the definitions of the source, what
is declared for it; and all that is required, by the configuration or by an edge, is there. -/
structure Declared (context : NodeSchemaResolutionContext) (configured : CombinedSchema) (input : Input) : Prop where
  entries : ∀ entry ∈ input, ∃ schema, declaredSchema context configured entry.1 = some schema ∧ Fits schema entry.2
  configured : ∀ key ∈ configured.required, hasKey input key
  connected : ∀ key, (handleSchema context key).isSome → hasKey input key

/-- The schema that a combine node resolves accepts what it returns. -/
def CombinedAccepts (schema : JsonSchema) (output : List (String × Input)) : Prop :=
  validateObject (validateObject validateInput) schema output "$" = none

section
variable {context : NodeSchemaResolutionContext}

theorem lookupSchema_combined {combined configured : CombinedSchema}
    (h : combined.properties.lookup key = (handleSchema context key).or (configured.properties.lookup key)) :
    lookupSchema combined.properties key = declaredSchema context configured key := by
  rw [lookupSchema, declaredSchema, h]
  cases handleSchema context key with
  | some schema => rfl
  | none => rfl

theorem combine_accepts_iff {handler : CombineObjectNodeHandler} {configured : CombinedSchema} {schema : JsonSchema}
    (hconfigured : handler.configuredInputSchema context = .ok configured)
    (hschema : handler.getOutputSchema context = .ok schema) (input : Input) :
    CombinedAccepts schema (handler.execute input) ↔ Declared context configured input := by
  obtain ⟨combined, hcombined, hschema⟩ := bind_eq_ok_iff.1 hschema
  cases hschema
  rw [CombineObjectNodeHandler.getCombinedInputSchema, hconfigured] at hcombined
  have hlookup (key : String) : lookupSchema combined.properties key = declaredSchema context configured key :=
    lookupSchema_combined (foldlM_addEdge_ok hcombined key).1
  have hrequired (key : String) : key ∈ combined.required ↔
      key ∈ configured.required ∨ (handleSchema context key).isSome := (foldlM_addEdge_ok hcombined key).2
  have houter (result : JsonSchema) :
      lookupSchema [(handler.outputHandle, result)] handler.outputHandle = some result := by
    simp [lookupSchema]
  rw [CombinedAccepts, CombineObjectNodeHandler.execute, validateObject_closed]
  simp only [List.mem_singleton, forall_eq, houter, Option.some.injEq, exists_eq_left', validateObject_closed, hlookup,
    fits_iff]
  constructor
  · rintro ⟨_, hall, hentries⟩
    exact ⟨hentries, fun key hkey => hall key ((hrequired key).2 (.inl hkey)),
      fun key hkey => hall key ((hrequired key).2 (.inr hkey))⟩
  · intro hdeclared
    refine ⟨by simp [hasKey], ?_, hdeclared.entries⟩
    intro key hkey
    rcases (hrequired key).1 hkey with hkey | hkey
    · exact hdeclared.configured key hkey
    · exact hdeclared.connected key hkey

end

theorem emptyOutputSchema_accepts_iff {fields : List (String × Json)} :
    emptyOutputSchema.Accepts (.obj fields) ↔ ∀ field ∈ fields, objectPrototypeNames.contains field.1 := by
  have hdepth (depth : Nat) : schemaAccepts [] depth emptyOutputSchema.schema (.obj fields) = true ↔
      ∀ field ∈ fields, objectPrototypeNames.contains field.1 := by
    rw [schemaAccepts, Option.isNone_iff_eq_none, emptyOutputSchema, validate_properties [] none]
    simp only [Json.obj.injEq, exists_eq_left', Option.getD_none, List.not_mem_nil, false_imp_iff, implies_true,
      true_and]
    apply forall₂_congr
    intro field _
    constructor
    · rintro ⟨s, hlookup, _⟩
      simp only [lookupSchema, List.lookup_nil] at hlookup
      split at hlookup
      · rename_i hinherited
        exact hinherited
      · cases hlookup
    · intro hinherited
      exact ⟨.object {}, by simp only [lookupSchema, List.lookup_nil, if_pos hinherited], validate_keywordless _ _⟩
  constructor
  · rintro ⟨depth, h⟩
    exact (hdepth depth).1 h
  · intro h
    exact ⟨0, (hdepth 0).2 h⟩

def untyped (keywords : Keywords JsonSchema) : Keywords JsonSchema := { keywords with type := none }

/-- Among objects, the type and the missing properties of an object schema make no difference. -/
theorem validate_asObject (resolve : String → Json → String → Option SchemaError) (keywords : Keywords JsonSchema)
    (fields : List (String × Json)) (path : String) :
    validateJsonSchemaValue resolve (.object (asObject keywords)) (.obj fields) path = none ↔
      validateJsonSchemaValue resolve (.object (untyped keywords)) (.obj fields) path = none := by
  cases href : (untyped keywords).ref with
  | some ref =>
    have href' : (asObject keywords).ref = some ref := href
    rw [validateJsonSchemaValue.eq_def, validateJsonSchemaValue.eq_def]
    simp only [href, href']
  | none =>
    have href' : (asObject keywords).ref = none := href
    cases hopts : (JsonSchema.object (untyped keywords)).options with
    | some variants =>
      have hopts' : (JsonSchema.object (asObject keywords)).options = some variants := hopts
      rw [validate_variants href hopts, validate_variants href' hopts']
      rfl
    | none =>
      have hopts' : (JsonSchema.object (asObject keywords)).options = none := hopts
      rw [validate_plain href hopts, validate_plain href' hopts']
      simp only [orElse_eq_none]
      apply and_congr_right'
      apply and_congr
      · simp [flatError, asObject, untyped, TypeKeyword.names, matchesPrimitiveType]
      · rw [shapeError, shapeError]
        split
        · rename_i hitems
          rw [if_pos (show (untyped keywords).items.isSome || (untyped keywords).prefixItems.isSome from hitems)]
        · rename_i hitems
          rw [if_neg (show ¬ ((untyped keywords).items.isSome || (untyped keywords).prefixItems.isSome) from hitems),
            validateObjectShape_eq_none, validateObjectShape_eq_none]
          rfl

/-- The schema of the property that the first edge to the input handle delivers, if it has the shape of an object. -/
def SpreadObjectNodeHandler.sourceObject (handler : SpreadObjectNodeHandler) (context : NodeSchemaResolutionContext) :
    Option (Keywords JsonSchema × List (String × JsonSchema)) :=
  (handler.incomingObjectEdge context).bind fun edge =>
    match getSourcePropertySchema context edge with
    | .ok (some ⟨.object keywords, defs⟩) =>
      if hasType .object keywords.type || keywords.properties.isSome then some (keywords, defs) else none
    | _ => none

/-- The object that a spread node receives fits the schema of the source's property, whatever type that names, without
the definitions of the source; what is no object counts as one without fields. Where that schema has not the shape of
an object, or there is none, the node receives no field. -/
def Spreads (handler : SpreadObjectNodeHandler) (context : NodeSchemaResolutionContext) (value : InputValue) : Prop :=
  match handler.sourceObject context with
  | some (keywords, defs) =>
    (∀ fields, value = .json (.obj fields) →
      OutputSchema.Accepts ⟨.object (untyped keywords), defs⟩ (.obj fields)) ∧
    ((∀ fields, value ≠ .json (.obj fields)) → OutputSchema.Accepts ⟨.object (untyped keywords), defs⟩ (.obj []))
  | none => ∀ fields, value = .json (.obj fields) → ∀ field ∈ fields, objectPrototypeNames.contains field.1

section
variable {handler : SpreadObjectNodeHandler} {context : NodeSchemaResolutionContext} {schema : OutputSchema}

theorem SpreadObjectNodeHandler.getOutputSchema_ok (hschema : handler.getOutputSchema context = .ok schema) :
    schema = match handler.sourceObject context with
      | some (keywords, defs) => ⟨.object (asObject keywords), defs⟩
      | none => emptyOutputSchema := by
  rw [getOutputSchema] at hschema
  rw [sourceObject]
  cases hedge : handler.incomingObjectEdge context with
  | none =>
    rw [hedge] at hschema
    cases hschema
    rfl
  | some edge =>
    rw [hedge] at hschema
    obtain ⟨sourceSchema, hsource, hschema⟩ := bind_eq_ok_iff.1 hschema
    cases hschema
    rw [Option.bind_some, hsource]
    cases sourceSchema with
    | none => rfl
    | some sourceSchema =>
      obtain ⟨schema, defs⟩ := sourceSchema
      cases schema with
      | bool value => rfl
      | object keywords =>
        simp only [toObjectSchema]
        split
        · rfl
        · rfl

theorem accepts_asObject {keywords : Keywords JsonSchema} {defs : List (String × JsonSchema)}
    {fields : List (String × Json)} :
    OutputSchema.Accepts ⟨.object (asObject keywords), defs⟩ (.obj fields) ↔
      OutputSchema.Accepts ⟨.object (untyped keywords), defs⟩ (.obj fields) := by
  apply exists_congr
  intro depth
  simp only [schemaAccepts, Option.isNone_iff_eq_none]
  exact validate_asObject _ keywords fields "$"

theorem execute_iff {P : List (String × Json) → Prop} (handler : SpreadObjectNodeHandler) (input : Input) :
    P (handler.execute input) ↔
      (∀ fields, inputValue input handler.inputHandle = .json (.obj fields) → P fields) ∧
      ((∀ fields, inputValue input handler.inputHandle ≠ .json (.obj fields)) → P []) := by
  rw [SpreadObjectNodeHandler.execute]
  split
  · rename_i fields hvalue
    rw [hvalue]
    simp
  · rename_i hvalue
    constructor
    · intro h
      exact ⟨fun fields hfields => absurd hfields (hvalue fields), fun _ => h⟩
    · intro h
      exact h.2 hvalue

theorem spread_accepts_iff (hschema : handler.getOutputSchema context = .ok schema) (input : Input) :
    schema.Accepts (.obj (handler.execute input)) ↔
      Spreads handler context (inputValue input handler.inputHandle) := by
  rw [handler.getOutputSchema_ok hschema, Spreads]
  cases handler.sourceObject context with
  | none =>
    rw [emptyOutputSchema_accepts_iff]
    rw [execute_iff (P := fun fields => ∀ field ∈ fields, objectPrototypeNames.contains field.1 = true)]
    simp
  | some source =>
    obtain ⟨keywords, defs⟩ := source
    rw [accepts_asObject]
    exact execute_iff (P := fun fields => OutputSchema.Accepts ⟨.object (untyped keywords), defs⟩ (.obj fields))
      handler input

end

end Trakrai.WorkflowNodes
