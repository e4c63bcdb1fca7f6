import Trakrai.Lib.Json

namespace Trakrai.Workflow
open List Lib

inductive TypeName where
  | string
  | number
  | integer
  | boolean
  | null
  | array
  | object
  | other (name : String)
deriving DecidableEq

/-- The value of `type`. -/
inductive TypeKeyword where
  | one (name : TypeName)
  | many (names : List TypeName)

/-- The value of `items`. -/
inductive Items (σ : Type) where
  | one (schema : σ)
  | many (schemas : List σ)

structure Keywords (σ : Type) where
  ref : Option String := none
  anyOf : Option (List σ) := none
  oneOf : Option (List σ) := none
  allOf : Option (List σ) := none
  const : Option Json := none
  enum : Option (List Json) := none
  type : Option TypeKeyword := none
  properties : Option (List (String × σ)) := none
  required : Option (List String) := none
  propertyNames : Option σ := none
  additionalProperties : Option σ := none
  items : Option (Items σ) := none
  prefixItems : Option (List σ) := none

inductive JsonSchema where
  | bool (value : Bool)
  | object (keywords : Keywords JsonSchema)

def JsonSchema.keywords : JsonSchema → Keywords JsonSchema
  | .bool _ => {}
  | .object keywords => keywords

/-- `schema.anyOf ?? schema.oneOf`. -/
def JsonSchema.options (schema : JsonSchema) : Option (List JsonSchema) :=
  schema.keywords.anyOf.or schema.keywords.oneOf

/-- A property of a dictionary of schemas; the names that it inherits stand for values without
keywords. -/
def lookupSchema (fields : List (String × JsonSchema)) (key : String) : Option JsonSchema :=
  match fields.lookup key with
  | some schema => some schema
  | none => if objectPrototypeNames.contains key then some (.object {}) else none

theorem JsonSchema.sizeOf_keyword [SizeOf α] {schema : JsonSchema} {a : α}
    (f : Keywords JsonSchema → Option α) (hf : ∀ k a, f k = some a → sizeOf a < sizeOf k)
    (hnone : f {} = none) (h : f schema.keywords = some a) : sizeOf a < sizeOf schema := by
  cases schema with
  | bool value => cases hnone.symm.trans h
  | object keywords =>
    have hlt := hf keywords a h
    simp only [JsonSchema.object.sizeOf_spec]
    omega

theorem JsonSchema.sizeOf_options {schema : JsonSchema} {options : List JsonSchema}
    (h : schema.options = some options) : sizeOf options < sizeOf schema := by
  rw [JsonSchema.options, Option.or_eq_some_iff] at h
  rcases h with h | ⟨_, h⟩
  · refine sizeOf_keyword Keywords.anyOf ?_ rfl h
    rintro ⟨⟩ a rfl
    simp only [Keywords.mk.sizeOf_spec, Option.some.sizeOf_spec]
    omega
  · refine sizeOf_keyword Keywords.oneOf ?_ rfl h
    rintro ⟨⟩ a rfl
    simp only [Keywords.mk.sizeOf_spec, Option.some.sizeOf_spec]
    omega

theorem JsonSchema.sizeOf_allOf {schema : JsonSchema} {parts : List JsonSchema}
    (h : schema.keywords.allOf = some parts) : sizeOf parts < sizeOf schema := by
  refine sizeOf_keyword Keywords.allOf ?_ rfl h
  rintro ⟨⟩ a rfl
  simp only [Keywords.mk.sizeOf_spec, Option.some.sizeOf_spec]
  omega

theorem JsonSchema.sizeOf_properties {schema : JsonSchema} {properties : List (String × JsonSchema)}
    (h : schema.keywords.properties = some properties) : sizeOf properties < sizeOf schema := by
  refine sizeOf_keyword Keywords.properties ?_ rfl h
  rintro ⟨⟩ a rfl
  simp only [Keywords.mk.sizeOf_spec, Option.some.sizeOf_spec]
  omega

theorem JsonSchema.sizeOf_propertyNames {schema s : JsonSchema}
    (h : schema.keywords.propertyNames = some s) : sizeOf s < sizeOf schema := by
  refine sizeOf_keyword Keywords.propertyNames ?_ rfl h
  rintro ⟨⟩ a rfl
  simp only [Keywords.mk.sizeOf_spec, Option.some.sizeOf_spec]
  omega

theorem JsonSchema.sizeOf_additionalProperties {schema s : JsonSchema}
    (h : schema.keywords.additionalProperties = some s) : sizeOf s < sizeOf schema := by
  refine sizeOf_keyword Keywords.additionalProperties ?_ rfl h
  rintro ⟨⟩ a rfl
  simp only [Keywords.mk.sizeOf_spec, Option.some.sizeOf_spec]
  omega

theorem JsonSchema.sizeOf_items {schema s : JsonSchema}
    (h : schema.keywords.items = some (.one s)) : sizeOf s < sizeOf schema := by
  have hlt : sizeOf (Items.one s) < sizeOf schema := by
    refine sizeOf_keyword Keywords.items ?_ rfl h
    rintro ⟨⟩ a rfl
    simp only [Keywords.mk.sizeOf_spec, Option.some.sizeOf_spec]
    omega
  simp only [Items.one.sizeOf_spec] at hlt
  omega

theorem sizeOf_snd_lt {entry : String × JsonSchema} {fields : List (String × JsonSchema)}
    (h : entry ∈ fields) : sizeOf entry.2 < sizeOf fields := by
  have hlt := sizeOf_lt_of_mem h
  obtain ⟨key, s⟩ := entry
  simp only [Prod.mk.sizeOf_spec] at hlt ⊢
  omega

/-- `schemaA.type === schemaB.type`. Two arrays are different. -/
def sameType : Option TypeKeyword → Option TypeKeyword → Bool
  | none, none => true
  | some (.one a), some (.one b) => a == b
  | _, _ => false

/-- `typeof value === type`. -/
def isTypeOf (value : Json) : TypeKeyword → Bool
  | .one .string => value.typeOf == .string
  | .one .number => value.typeOf == .number
  | .one .boolean => value.typeOf == .boolean
  | .one .object => value.typeOf == .object
  | _ => false

def hasType (name : TypeName) : Option TypeKeyword → Bool
  | some (.one type) => type == name
  | _ => false

def includes (values : List Json) (value : Json) : Bool := values.any (·.identical value)

/-- The branch of `isJsonSchemaSubset` for a constant, if it decides. -/
def constSubset (a b : Keywords JsonSchema) : Option Bool :=
  match a.const, b.const, b.enum with
  | none, _, _ => none
  | some value, some expected, _ => some (value.identical expected)
  | some value, none, some values => some (includes values value)
  | some value, none, none => b.type.map (isTypeOf value)

/-- The branch of `isJsonSchemaSubset` for an enumeration, if it decides. -/
def enumSubset (a b : Keywords JsonSchema) : Option Bool :=
  match a.enum, b.enum, b.const with
  | none, _, _ => none
  | some values, some allowed, _ => some (values.all (includes allowed))
  | some _, none, some _ => some false
  | some values, none, none => b.type.map fun type => values.all fun value => isTypeOf value type

/-- What `isJsonSchemaSubset` asks of a property of the second schema, before it compares the
schemas. -/
def requiredSubset (aRequired bRequired : List String) (key : String) : Option JsonSchema → Bool
  | none => !bRequired.contains key
  | some _ => !bRequired.contains key || aRequired.contains key

def isJsonSchemaSubset (schemaA schemaB : JsonSchema) : Bool :=
  match schemaA, schemaB with
  | .bool a, .bool b => a == b
  | schemaA, schemaB =>
    let a := schemaA.keywords
    let b := schemaB.keywords
    match _hA : schemaA.options with
    | some optionsA => optionsA.attach.all fun opt => isJsonSchemaSubset opt.1 schemaB
    | none =>
      match _hB : schemaB.options with
      | some options => options.attach.any fun opt => isJsonSchemaSubset schemaA opt.1
      | none =>
        match constSubset a b, enumSubset a b with
        | some verdict, _ => verdict
        | none, some verdict => verdict
        | none, none =>
          if b.enum.isSome || b.const.isSome then false
          else if a.type.isSome && b.type.isSome && !sameType a.type b.type then false
          else if hasType .object a.type && hasType .object b.type then
            match a.properties, _hprops : b.properties with
            | some aProps, some bProps =>
              bProps.attach.all fun entry =>
                let propA := lookupSchema aProps entry.1.1
                requiredSubset (a.required.getD []) (b.required.getD []) entry.1.1 propA &&
                  propA.all fun propA => isJsonSchemaSubset propA entry.1.2
            | _, _ =>
              if b.properties.isNone && b.propertyNames.isNone && b.additionalProperties.isNone then
                true
              else
                match a.propertyNames, _hnames : b.propertyNames, a.additionalProperties,
                    _hrest : b.additionalProperties with
                | some aNames, some bNames, some aRest, some bRest =>
                  isJsonSchemaSubset aNames bNames && isJsonSchemaSubset aRest bRest
                | _, _, _, _ => false
          else if hasType .array a.type && hasType .array b.type then
            match a.items, _hitems : b.items with
            | some (.one aItems), some (.one bItems) => isJsonSchemaSubset aItems bItems
            | _, _ => false
          else sameType a.type b.type || (b.type.isNone && b.properties.isNone)
termination_by (sizeOf schemaB, sizeOf schemaA)
decreasing_by
  · exact .right _ (lt_trans (sizeOf_lt_of_mem opt.2) (JsonSchema.sizeOf_options _hA))
  · exact .left _ _ (lt_trans (sizeOf_lt_of_mem opt.2) (JsonSchema.sizeOf_options _hB))
  · exact .left _ _ (lt_trans (sizeOf_snd_lt entry.2) (JsonSchema.sizeOf_properties _hprops))
  · exact .left _ _ (JsonSchema.sizeOf_propertyNames _hnames)
  · exact .left _ _ (JsonSchema.sizeOf_additionalProperties _hrest)
  · exact .left _ _ (JsonSchema.sizeOf_items _hitems)

inductive SchemaMessage where
  | notAllowed
  | isRequired
  | unresolved (ref : String)
  | notExactlyOne
  | notAny
  | expected (value : Json)
  | expectedOneOf (values : List Json)
  | expectedType (names : List TypeName) (received : TypeName)
  | expectedArray (received : TypeName)
  | expectedObject (received : TypeName)
  | expectedItems (count : Nat)

/-- `buildSchemaError`. -/
structure SchemaError where
  path : String
  message : SchemaMessage

def describeValue : Json → TypeName
  | .null => .null
  | .bool _ => .boolean
  | .num _ => .number
  | .str _ => .string
  | .arr _ => .array
  | .obj _ => .object

def pathForKey (path key : String) : String := path ++ "." ++ key

def pathForIndex (path : String) (index : Nat) : String := path ++ "[" ++ toString index ++ "]"

def matchesPrimitiveType (value : Json) : TypeName → Bool
  | .string => value.typeOf == .string
  | .number => value.typeOf == .number
  | .integer =>
    match value with
    | .num number => number.isInt
    | _ => false
  | .boolean => value.typeOf == .boolean
  | .null =>
    match value with
    | .null => true
    | _ => false
  | .array =>
    match value with
    | .arr _ => true
    | _ => false
  | .object =>
    match value with
    | .obj _ => true
    | _ => false
  | .other _ => true

def TypeKeyword.names : TypeKeyword → List TypeName
  | .one name => [name]
  | .many names => names

/-- The checks of `validateJsonSchemaValue` that do not look inside the value. -/
def flatError (keywords : Keywords JsonSchema) (value : Json) (path : String) :
    Option SchemaError :=
  (keywords.const.bind fun const =>
    if value.identical const then none else some ⟨path, .expected const⟩) <|>
  (keywords.enum.bind fun values =>
    if includes values value then none else some ⟨path, .expectedOneOf values⟩) <|>
  (keywords.type.bind fun type =>
    if type.names.any (matchesPrimitiveType value) then none
    else some ⟨path, .expectedType type.names (describeValue value)⟩)

/-- The errors of a value that is neither an array nor a plain object. -/
def scalarError (keywords : Keywords JsonSchema) (value : Json) (path : String) :
    Option SchemaError :=
  if keywords.properties.isSome || keywords.required.isSome ||
      keywords.additionalProperties.isSome || keywords.propertyNames.isSome then
    some ⟨path, .expectedObject (describeValue value)⟩
  else none

theorem sizeOf_item_lt (h : item ∈ items) : sizeOf item < sizeOf (Json.arr items) := by
  have := sizeOf_lt_of_mem h
  simp only [Json.arr.sizeOf_spec]
  omega

theorem sizeOf_field_lt {fields : List (String × Json)} {field : String × Json}
    (h : field ∈ fields) : sizeOf field < sizeOf (Json.obj fields) := by
  have := sizeOf_lt_of_mem h
  simp only [Json.obj.sizeOf_spec]
  omega

section
variable (resolve : String → Json → String → Option SchemaError)

mutual

def validateArrayItems (keywords : Keywords JsonSchema) (items : List Json) (path : String) :
    Option SchemaError :=
  (keywords.prefixItems.bind fun prefixItems =>
    if items.length < prefixItems.length then some ⟨path, .expectedItems prefixItems.length⟩
    else
      (items.zip prefixItems).zipIdx.attach.findSome? fun entry =>
        validateJsonSchemaValue entry.1.1.2 entry.1.1.1 (pathForIndex path entry.1.2)) <|>
  match keywords.items with
  | some (.one schema) =>
    items.zipIdx.attach.findSome? fun entry =>
      validateJsonSchemaValue schema entry.1.1 (pathForIndex path entry.1.2)
  | _ => none
termination_by (sizeOf (Json.arr items), sizeOf keywords)
decreasing_by
  · obtain ⟨⟨⟨item, schema⟩, index⟩, hentry⟩ := entry
    have hitem : item ∈ items :=
      (of_mem_zip (fst_mem_of_mem_zipIdx hentry)).1
    exact .left _ _ (sizeOf_item_lt hitem)
  · obtain ⟨⟨item, index⟩, hentry⟩ := entry
    exact .left _ _ (sizeOf_item_lt (fst_mem_of_mem_zipIdx hentry))

def validateObjectShape (keywords : Keywords JsonSchema) (fields : List (String × Json))
    (path : String) : Option SchemaError :=
  ((keywords.required.getD []).findSome? fun key =>
    if hasKey fields key then none else some ⟨pathForKey path key, .isRequired⟩) <|>
  fields.attach.findSome? fun field =>
    let key := field.1.1
    match lookupSchema (keywords.properties.getD []) key with
    | some schema => validateJsonSchemaValue schema field.1.2 (pathForKey path key)
    | none =>
      (keywords.propertyNames.bind fun schema =>
        validateJsonSchemaValue schema (.str key) (pathForKey path key)) <|>
      match keywords.additionalProperties with
      | none => none
      | some (.bool true) => none
      | some (.bool false) => some ⟨pathForKey path key, .notAllowed⟩
      | some schema => validateJsonSchemaValue schema field.1.2 (pathForKey path key)
termination_by (sizeOf (Json.obj fields), sizeOf keywords)
decreasing_by
  · have hlt := sizeOf_field_lt field.2
    obtain ⟨⟨key, value⟩, hfield⟩ := field
    simp only [Prod.mk.sizeOf_spec] at hlt
    exact .left _ _ (by simp only; omega)
  · have hlt := sizeOf_field_lt field.2
    obtain ⟨⟨key, value⟩, hfield⟩ := field
    simp only [Prod.mk.sizeOf_spec] at hlt
    exact .left _ _ (by simp only [Json.str.sizeOf_spec]; omega)
  · have hlt := sizeOf_field_lt field.2
    obtain ⟨⟨key, value⟩, hfield⟩ := field
    simp only [Prod.mk.sizeOf_spec] at hlt
    exact .left _ _ (by simp only; omega)

/-- `validateJsonSchemaValue`, with what it answers for a reference to the definitions of the
root schema. -/
def validateJsonSchemaValue (schema : JsonSchema) (value : Json) (path : String) :
    Option SchemaError :=
  match schema with
  | .bool allowed => if allowed then none else some ⟨path, .notAllowed⟩
  | .object keywords =>
    match keywords.ref with
    | some ref => resolve ref value path
    | none =>
      match _hopts : (JsonSchema.object keywords).options with
      | some variants =>
        let successes := variants.attach.filter fun variant =>
          (validateJsonSchemaValue variant.1 value path).isNone
        if keywords.oneOf.isSome then
          if successes.length = 1 then none else some ⟨path, .notExactlyOne⟩
        else if successes.length > 0 then none else some ⟨path, .notAny⟩
      | none =>
        (match _hall : keywords.allOf with
        | some parts => parts.attach.findSome? fun part =>
            validateJsonSchemaValue part.1 value path
        | none => none) <|>
        flatError keywords value path <|>
        match value with
        | .arr items => validateArrayItems keywords items path
        | value =>
          if keywords.items.isSome || keywords.prefixItems.isSome then
            some ⟨path, .expectedArray (describeValue value)⟩
          else
            match value with
            | .obj fields => validateObjectShape keywords fields path
            | value => scalarError keywords value path
termination_by (sizeOf value, sizeOf schema)
decreasing_by
  · exact .right _ (lt_trans (sizeOf_lt_of_mem variant.2) (JsonSchema.sizeOf_options _hopts))
  · have hparts : (JsonSchema.object keywords).keywords.allOf = some parts := _hall
    exact .right _ (lt_trans (sizeOf_lt_of_mem part.2) (JsonSchema.sizeOf_allOf hparts))
  · exact .right _ (by simp)
  · exact .right _ (by simp)

end

end

/-- `schema.$ref.replace(/^#\/\$defs\//, '')`. -/
def refName (ref : String) : String :=
  if "#/$defs/".toList.isPrefixOf ref.toList then
    String.ofList (ref.toList.drop "#/$defs/".toList.length)
  else ref

/-- The answer for a reference, when at most `depth` references are followed. -/
def resolveReference (defs : List (String × JsonSchema)) :
    Nat → String → Json → String → Option SchemaError
  | 0, ref, _, path => some ⟨path, .unresolved ref⟩
  | depth + 1, ref, value, path =>
    match lookupSchema defs (refName ref) with
    | none => some ⟨path, .unresolved ref⟩
    | some schema => validateJsonSchemaValue (resolveReference defs depth) schema value path

/-- `safeParseSchema` succeeds on a JSON Schema. -/
def schemaAccepts (defs : List (String × JsonSchema)) (depth : Nat) (schema : JsonSchema)
    (value : Json) : Bool :=
  (validateJsonSchemaValue (resolveReference defs depth) schema value "$").isNone

end Trakrai.Workflow
