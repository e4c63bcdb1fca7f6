import Trakrai.Workflow.JsonSchema

namespace Trakrai.Workflow
open List Lib

/-- The name of a property. An assignment to `__proto__` makes no property, and the definitions here have none of that
name. -/
abbrev PropertyName := { name : String // name ≠ "__proto__" }

structure PropertyDescriptor (σ : Type) where
  name : PropertyName
  required : Bool
  nullable : Bool
  schema : σ

inductive Literal where
  | string (value : String)
  | number (value : Rat)
  | boolean (value : Bool)

inductive SchemaDefinition where
  | string
  | number
  | boolean
  | null
  | object (properties : List (PropertyDescriptor SchemaDefinition))
  | array (items : SchemaDefinition)
  | enum (values : List String)
  | literal (value : Literal)
  | union (variants : List SchemaDefinition)

def Literal.json : Literal → Json
  | .string value => .str value
  | .number value => .num value
  | .boolean value => .bool value

def wrapNullable (schema : JsonSchema) (nullable : Bool) : JsonSchema :=
  if nullable then .object { anyOf := some [schema, .object { type := some (.one .null) }] }
  else schema

theorem sizeOf_schema_lt (h : p ∈ properties) :
    sizeOf p.schema < sizeOf (SchemaDefinition.object properties) := by
  have hlt := sizeOf_lt_of_mem h
  obtain ⟨⟩ := p
  simp only [PropertyDescriptor.mk.sizeOf_spec, SchemaDefinition.object.sizeOf_spec] at hlt ⊢
  omega

theorem sizeOf_variant_lt (h : d ∈ variants): sizeOf d < sizeOf (SchemaDefinition.union variants) := by
  have hlt := sizeOf_lt_of_mem h
  simp only [SchemaDefinition.union.sizeOf_spec] at hlt ⊢
  omega

def definitionToJsonSchema : SchemaDefinition → JsonSchema
  | .string => .object { type := some (.one .string) }
  | .number => .object { type := some (.one .number) }
  | .boolean => .object { type := some (.one .boolean) }
  | .null => .object { type := some (.one .null) }
  | .object properties =>
    let required := (properties.filter (·.required)).map (·.name.1)
    .object {
      type := some (.one .object)
      properties := some (properties.attach.foldl (fun fields p =>
        setKey fields p.1.name.1 (wrapNullable (definitionToJsonSchema p.1.schema) p.1.nullable)) [])
      required := if required.length > 0 then some required else none
      additionalProperties := some (.bool false) }
  | .array items =>
    .object { type := some (.one .array), items := some (.one (definitionToJsonSchema items)) }
  | .enum values => .object { enum := some (values.map .str) }
  | .literal value => .object { const := some value.json }
  | .union variants =>
    .object { anyOf := some (variants.attach.map fun d => definitionToJsonSchema d.1) }
termination_by d => sizeOf d
decreasing_by
  · exact sizeOf_schema_lt p.2
  · simp
  · exact sizeOf_variant_lt d.2

def PropertyDescriptor.definition (p : PropertyDescriptor SchemaDefinition) : SchemaDefinition :=
  if p.nullable then .union [p.schema, .null] else p.schema

def propertyNamed (properties : List (PropertyDescriptor SchemaDefinition)) (key : String) :
    Option (PropertyDescriptor SchemaDefinition) :=
  properties.reverse.find? (·.name.1 == key)

theorem propertyNamed_mem (h : propertyNamed properties key = some p) :
    p ∈ properties ∧ p.name.1 = key := by
  rw [propertyNamed] at h
  exact ⟨List.mem_reverse.1 (List.mem_of_find?_eq_some h), by simpa using List.find?_some h⟩

theorem propertyNamed_of_mem (h : p ∈ properties) :
    ∃ p', propertyNamed properties p.name.1 = some p' := by
  rw [← Option.isSome_iff_exists, propertyNamed, List.find?_isSome]
  exact ⟨p, List.mem_reverse.2 h, by simp⟩

theorem sizeOf_definition_lt (h : p ∈ properties) :
    sizeOf p.definition < sizeOf (SchemaDefinition.object properties) := by
  have hlt := sizeOf_lt_of_mem h
  obtain ⟨⟨name, hname⟩, required, nullable, schema⟩ := p
  simp only [PropertyDescriptor.mk.sizeOf_spec, SchemaDefinition.object.sizeOf_spec] at hlt ⊢
  simp only [PropertyDescriptor.definition]
  split
  · simp only [SchemaDefinition.union.sizeOf_spec, List.cons.sizeOf_spec, List.nil.sizeOf_spec,
      SchemaDefinition.null.sizeOf_spec]
    have hname : 1 ≤ sizeOf name := by
      obtain ⟨⟩ := name
      simp
    have hbool : 1 ≤ sizeOf required := by cases required <;> simp
    have hbool' : 1 ≤ sizeOf nullable := by cases nullable <;> simp
    simp only [Subtype.mk.sizeOf_spec] at hlt
    omega
  · omega

/-- What a definition means. If it is not `closed`, objects may have undeclared keys. -/
def Matches (closed : Bool) : SchemaDefinition → Json → Prop
  | .string, value => value.typeOf = .string
  | .number, value => value.typeOf = .number
  | .boolean, value => value.typeOf = .boolean
  | .null, value => value = .null
  | .object properties, value =>
    ∃ fields, value = .obj fields ∧ (∀ p ∈ properties, p.required → hasKey fields p.name.1) ∧
      ∀ field ∈ fields, match _h : propertyNamed properties field.1 with
        | some p => Matches closed p.definition field.2
        | none => closed → objectPrototypeNames.contains field.1
  | .array items, value => ∃ values, value = .arr values ∧ ∀ v ∈ values, Matches closed items v
  | .enum values, value => ∃ text ∈ values, value = .str text
  | .literal literal, value => value = literal.json
  | .union variants, value => ∃ d : { d // d ∈ variants }, Matches closed d.1 value
termination_by d => sizeOf d
decreasing_by
  · exact sizeOf_definition_lt (propertyNamed_mem _h).1
  · simp
  · exact sizeOf_variant_lt d.2

theorem matches_object : Matches closed (.object properties) value ↔ ∃ fields, value = .obj fields ∧
      (∀ p ∈ properties, p.required → hasKey fields p.name.1) ∧ ∀ field ∈ fields,
        (∀ p, propertyNamed properties field.1 = some p → Matches closed p.definition field.2) ∧
        (propertyNamed properties field.1 = none → closed →
          objectPrototypeNames.contains field.1) := by
  rw [Matches]
  refine exists_congr fun fields => and_congr_right fun _ => and_congr_right fun _ => ?_
  refine forall₂_congr fun field _ => ?_
  split
  · rename_i p hp
    simp [hp]
  · rename_i hp
    simp [hp]

theorem matches_array : Matches closed (.array items) value ↔
      ∃ values, value = .arr values ∧ ∀ v ∈ values, Matches closed items v := by
  rw [Matches]

theorem matches_union :
    Matches closed (.union variants) value ↔ ∃ d ∈ variants, Matches closed d value := by
  rw [Matches]
  simp

section
variable (properties : List (PropertyDescriptor SchemaDefinition))

def propertySchemas : List (String × JsonSchema) :=
  properties.foldl (fun fields p => setKey fields p.name.1 (definitionToJsonSchema p.definition)) []

def requiredNames : List String :=
  (properties.filter (·.required)).map (·.name.1)

theorem definitionToJsonSchema_definition (p : PropertyDescriptor SchemaDefinition) :
    definitionToJsonSchema p.definition =
      wrapNullable (definitionToJsonSchema p.schema) p.nullable := by
  rw [PropertyDescriptor.definition, wrapNullable]
  split
  · simp [definitionToJsonSchema]
  · rfl

theorem definitionToJsonSchema_object : definitionToJsonSchema (.object properties) = .object {
      type := some (.one .object)
      properties := some (propertySchemas properties)
      required := if (requiredNames properties).length > 0 then some (requiredNames properties)
        else none
      additionalProperties := some (.bool false) } := by
  have hfold : propertySchemas properties = properties.attach.foldl (fun fields p =>
      setKey fields p.1.name.1
        (wrapNullable (definitionToJsonSchema p.1.schema) p.1.nullable)) [] := by
    simp only [propertySchemas, definitionToJsonSchema_definition]
    exact foldl_attach.symm
  rw [definitionToJsonSchema, hfold, requiredNames]

theorem definitionToJsonSchema_union (variants : List SchemaDefinition) :
    definitionToJsonSchema (.union variants) =
      .object { anyOf := some (variants.map definitionToJsonSchema) } := by
  rw [definitionToJsonSchema, attach_map_val]

theorem lookup_propertySchemas (key : String) : (propertySchemas properties).lookup key =
      (propertyNamed properties key).map fun p => definitionToJsonSchema p.definition := by
  rw [propertySchemas, lookup_foldl_setKey, lookup_nil, Option.or_none, propertyNamed]

end

theorem mem_propertySchemas : entry ∈ propertySchemas properties ↔
      ∃ p, propertyNamed properties entry.1 = some p ∧ entry.2 = definitionToJsonSchema p.definition := by
  have hlookup := lookup_propertySchemas properties entry.1
  constructor
  · intro h
    have hnil : (([] : List (String × JsonSchema)).map Prod.fst).Nodup := nodup_nil
    have hn : ((propertySchemas properties).map Prod.fst).Nodup := nodup_foldl_setKey _ _ _ hnil
    rw [lookup_of_mem hn h] at hlookup
    obtain ⟨p, hp, he⟩ := Option.map_eq_some_iff.1 hlookup.symm
    exact ⟨p, hp, he.symm⟩
  · rintro ⟨p, hp, he⟩
    rw [hp, Option.map_some, ← he] at hlookup
    exact mem_of_lookup hlookup

theorem orElse_eq_none : (x <|> y) = none ↔ x = none ∧ y = none := by
  cases x <;> simp

section
variable {resolve : String → Json → String → Option SchemaError} {value : Json} {path : String}

/-- The checks that look inside an array or object. -/
def shapeError (resolve : String → Json → String → Option SchemaError)
    (keywords : Keywords JsonSchema) (value : Json) (path : String) : Option SchemaError :=
  match value with
  | .arr items => validateArrayItems resolve keywords items path
  | value =>
    if keywords.items.isSome || keywords.prefixItems.isSome then
      some ⟨path, .expectedArray (describeValue value)⟩
    else
      match value with
      | .obj fields => validateObjectShape resolve keywords fields path
      | value => scalarError keywords value path

theorem validate_eq_none (href : keywords.ref = none)
    (hopts : (JsonSchema.object keywords).options = none) (hall : keywords.allOf = none) :
    validateJsonSchemaValue resolve (.object keywords) value path = none ↔
      flatError keywords value path = none ∧ shapeError resolve keywords value path = none := by
  rw [← orElse_eq_none]
  unfold validateJsonSchemaValue shapeError
  simp only [href]
  split
  · rename_i h
    cases hopts.symm.trans h
  · split
    · rename_i h
      cases hall.symm.trans h
    · rfl

theorem validate_anyOf (schemas : List JsonSchema) :
    validateJsonSchemaValue resolve (.object { anyOf := some schemas }) value path = none ↔
      ∃ s ∈ schemas, validateJsonSchemaValue resolve s value path = none := by
  rw [validateJsonSchemaValue.eq_def]
  simp only
  split
  · rename_i variants h
    cases h
    simp
  · rename_i h
    cases h

theorem lookupSchema_nil (h : lookupSchema [] key = some schema): schema = .object {} := by
  simp only [lookupSchema, lookup_nil] at h
  split at h
  · cases h
    rfl
  · cases h

theorem shapeError_eq_none (hitems : keywords.items = none)
    (hpre : keywords.prefixItems = none) (hprops : keywords.properties = none)
    (hreq : keywords.required = none) (hnames : keywords.propertyNames = none)
    (hrest : keywords.additionalProperties = none)
    (h : ∀ fields, value = .obj fields → ∀ field ∈ fields, ∀ path,
      validateJsonSchemaValue resolve (.object {}) field.2 path = none) :
    shapeError resolve keywords value path = none := by
  cases value with
  | arr items => simp [shapeError, validateArrayItems, hitems, hpre]
  | obj fields =>
    simp only [shapeError, hitems, hpre, Option.isSome_none, Bool.or_false, Bool.false_eq_true,
      if_false]
    rw [validateObjectShape, orElse_eq_none]
    simp only [hreq, hprops, hnames, hrest, Option.getD_none, List.findSome?_nil, true_and,
      List.findSome?_eq_none_iff, Option.bind_none]
    intro field _
    cases hlookup : lookupSchema [] field.1.1 with
    | none => rfl
    | some schema =>
      rw [lookupSchema_nil hlookup]
      exact h fields rfl field.1 field.2 _
  | null => simp [shapeError, scalarError, hitems, hpre, hprops, hreq, hnames, hrest]
  | bool b => simp [shapeError, scalarError, hitems, hpre, hprops, hreq, hnames, hrest]
  | num n => simp [shapeError, scalarError, hitems, hpre, hprops, hreq, hnames, hrest]
  | str s => simp [shapeError, scalarError, hitems, hpre, hprops, hreq, hnames, hrest]

theorem validate_keywordless (value : Json) (path : String) :
    validateJsonSchemaValue resolve (.object {}) value path = none := by
  rw [validate_eq_none rfl rfl rfl]
  refine ⟨rfl, shapeError_eq_none rfl rfl rfl rfl rfl rfl ?_⟩
  rintro fields rfl field hfield path
  exact validate_keywordless field.2 path
termination_by sizeOf value
decreasing_by
  have hlt := sizeOf_field_lt hfield
  obtain ⟨key, v⟩ := field
  subst_vars
  simp only [Prod.mk.sizeOf_spec] at hlt ⊢
  omega

theorem validate_flat (href : keywords.ref = none)
    (hopts : (JsonSchema.object keywords).options = none) (hall : keywords.allOf = none)
    (hitems : keywords.items = none)
    (hpre : keywords.prefixItems = none) (hprops : keywords.properties = none)
    (hreq : keywords.required = none) (hnames : keywords.propertyNames = none)
    (hrest : keywords.additionalProperties = none) :
    validateJsonSchemaValue resolve (.object keywords) value path = none ↔
      flatError keywords value path = none := by
  rw [validate_eq_none href hopts hall, and_iff_left]
  apply shapeError_eq_none hitems hpre hprops hreq hnames hrest
  exact fun _ _ field _ path => validate_keywordless field.2 path

theorem validate_typed (name : TypeName) :
    validateJsonSchemaValue resolve (.object { type := some (.one name) }) value path = none ↔
      matchesPrimitiveType value name := by
  rw [validate_flat rfl rfl rfl rfl rfl rfl rfl rfl rfl]
  simp [flatError, TypeKeyword.names]

theorem validate_const (expected : Json) :
    validateJsonSchemaValue resolve (.object { const := some expected }) value path = none ↔
      value.identical expected := by
  rw [validate_flat rfl rfl rfl rfl rfl rfl rfl rfl rfl]
  simp [flatError]

theorem validate_enum (values : List Json) :
    validateJsonSchemaValue resolve (.object { enum := some values }) value path = none ↔
      includes values value := by
  rw [validate_flat rfl rfl rfl rfl rfl rfl rfl rfl rfl]
  simp [flatError]

theorem validate_array (schema : JsonSchema) : validateJsonSchemaValue resolve
        (.object { type := some (.one .array), items := some (.one schema) }) value path = none ↔
      ∃ items, value = .arr items ∧ ∀ entry ∈ items.zipIdx,
        validateJsonSchemaValue resolve schema entry.1 (pathForIndex path entry.2) = none := by
  rw [validate_eq_none rfl rfl rfl]
  cases value with
  | arr items =>
    simp [flatError, TypeKeyword.names, matchesPrimitiveType, shapeError, validateArrayItems]
  | null => simp [flatError, TypeKeyword.names, matchesPrimitiveType]
  | bool b => simp [flatError, TypeKeyword.names, matchesPrimitiveType]
  | num n => simp [flatError, TypeKeyword.names, matchesPrimitiveType]
  | str s => simp [flatError, TypeKeyword.names, matchesPrimitiveType]
  | obj fields => simp [flatError, TypeKeyword.names, matchesPrimitiveType]

theorem validate_properties (properties : List (String × JsonSchema)) (required : Option (List String)) :
    validateJsonSchemaValue resolve (.object {
        type := some (.one .object)
        properties := some properties
        required := required
        additionalProperties := some (.bool false) }) value path = none ↔
      ∃ fields, value = .obj fields ∧ (∀ key ∈ required.getD [], hasKey fields key) ∧
        ∀ field ∈ fields, ∃ s, lookupSchema properties field.1 = some s ∧
          validateJsonSchemaValue resolve s field.2 (pathForKey path field.1) = none := by
  rw [validate_eq_none rfl rfl rfl]
  cases value with
  | obj fields =>
    rw [and_iff_right (by rfl), shapeError, if_neg (by simp), validateObjectShape, orElse_eq_none]
    simp only [List.findSome?_eq_none_iff, ite_eq_left_iff, reduceCtorEq, imp_false, not_not,
      Json.obj.injEq, exists_eq_left', Option.getD_some, Option.bind_none]
    apply and_congr_right
    intro _
    constructor
    · intro h field hfield
      have hf := h ⟨field, hfield⟩ (mem_attach ..)
      simp only at hf
      cases hlookup : lookupSchema properties field.1 with
      | none =>
        simp only [hlookup] at hf
        cases hf
      | some s =>
        simp only [hlookup] at hf
        exact ⟨s, rfl, hf⟩
    · rintro h ⟨field, hfield⟩ _
      obtain ⟨s, hlookup, hs⟩ := h field hfield
      simp only [hlookup]
      exact hs
  | null => simp [flatError, TypeKeyword.names, matchesPrimitiveType]
  | bool b => simp [flatError, TypeKeyword.names, matchesPrimitiveType]
  | num n => simp [flatError, TypeKeyword.names, matchesPrimitiveType]
  | str s => simp [flatError, TypeKeyword.names, matchesPrimitiveType]
  | arr items => simp [flatError, TypeKeyword.names, matchesPrimitiveType]

theorem lookupSchema_propertySchemas (key : String): lookupSchema (propertySchemas properties) key =
      match propertyNamed properties key with
      | some p => some (definitionToJsonSchema p.definition)
      | none => if objectPrototypeNames.contains key then some (.object {}) else none := by
  rw [lookupSchema, lookup_propertySchemas]
  cases propertyNamed properties key <;> rfl

theorem str_identical : (Json.str text).identical value ↔ value = .str text := by
  cases value with
  | str s => rw [Json.identical, beq_iff_eq, Json.str.injEq, eq_comm]
  | null => simp [Json.identical]
  | bool b => simp [Json.identical]
  | num n => simp [Json.identical]
  | arr items => simp [Json.identical]
  | obj fields => simp [Json.identical]

theorem identical_literal {literal : Literal} :
    value.identical literal.json ↔ value = literal.json := by
  cases literal <;> cases value <;> simp [Json.identical, Literal.json]

theorem required_getD (properties : List (PropertyDescriptor SchemaDefinition)) :
    (if (requiredNames properties).length > 0 then some (requiredNames properties) else none).getD
      [] = requiredNames properties := by
  split
  · rfl
  · rename_i h
    rw [eq_nil_of_length_eq_zero (Nat.eq_zero_of_not_pos h)]
    rfl

theorem mem_requiredNames :
    key ∈ requiredNames properties ↔ ∃ p ∈ properties, p.required ∧ p.name.1 = key := by
  simp [requiredNames, and_assoc]

theorem validate_iff_matches (d : SchemaDefinition) (value : Json) (path : String) :
    validateJsonSchemaValue resolve (definitionToJsonSchema d) value path = none ↔
      Matches true d value := by
  cases d with
  | string | number | boolean =>
    rw [definitionToJsonSchema, validate_typed, Matches]
    simp [matchesPrimitiveType]
  | null =>
    rw [definitionToJsonSchema, validate_typed, Matches]
    cases value <;> simp [matchesPrimitiveType]
  | object properties =>
    rw [definitionToJsonSchema_object, validate_properties, matches_object, required_getD]
    refine exists_congr fun fields => and_congr_right fun _ => and_congr ?_ ?_
    · simp only [mem_requiredNames]
      constructor
      · exact fun h p hp hr => h _ ⟨p, hp, hr, rfl⟩
      · rintro h _ ⟨p, hp, hr, rfl⟩
        exact h p hp hr
    · refine forall₂_congr fun field _ => ?_
      rw [lookupSchema_propertySchemas]
      cases hp : propertyNamed properties field.1 with
      | some p =>
        -- a declared property is validated by its own definition
        have ih := validate_iff_matches p.definition field.2 (pathForKey path field.1)
        simp [ih]
      | none => simp [validate_keywordless]
  | array items =>
    rw [definitionToJsonSchema, validate_array, matches_array]
    refine exists_congr fun values => and_congr_right fun _ => ?_
    constructor
    · intro h v hv
      obtain ⟨n, hn, rfl⟩ := getElem_of_mem hv
      have hentry := h (values[n], n) (List.mk_mem_zipIdx_iff_getElem?.2 (List.getElem?_eq_getElem hn))
      exact (validate_iff_matches items values[n] _).1 hentry
    · intro h entry hentry
      exact (validate_iff_matches items entry.1 _).2 (h _ (fst_mem_of_mem_zipIdx hentry))
  | enum values =>
    rw [definitionToJsonSchema, validate_enum, Matches, includes, any_map, any_eq_true]
    exact exists_congr fun text => and_congr_right fun _ => str_identical
  | literal literal =>
    rw [definitionToJsonSchema, validate_const, Matches]
    exact identical_literal
  | union variants =>
    rw [definitionToJsonSchema_union, validate_anyOf, matches_union]
    simp only [mem_map, exists_exists_and_eq_and]
    refine exists_congr fun d => and_congr_right fun hd => ?_
    exact validate_iff_matches d value path
termination_by sizeOf d
decreasing_by
  · exact sizeOf_definition_lt (propertyNamed_mem hp).1
  · subst_vars
    simp
  · subst_vars
    simp
  · exact sizeOf_variant_lt hd

end

theorem accepts_iff_matches :
    schemaAccepts defs depth (definitionToJsonSchema d) value ↔ Matches true d value := by
  rw [schemaAccepts, Option.isNone_iff_eq_none, validate_iff_matches]

end Trakrai.Workflow
