import Trakrai.Workflow.SchemaRoundTrip

namespace Trakrai.Workflow
open Bool List Lib

/-- What `jsonSchemaToDefinition` leaves: unions without `null`, properties in the order of JavaScript, and no
nullable property that is `null`. -/
inductive Normal : SchemaDefinition → Prop
  | string : Normal .string
  | number : Normal .number
  | boolean : Normal .boolean
  | null : Normal .null
  | enum (values : List String) : Normal (.enum values)
  | literal (value : Literal) : Normal (.literal value)
  | array : Normal items → Normal (.array items)
  | union : (∀ d ∈ variants, d.isNull = false) → (∀ d ∈ variants, Normal d) → Normal (.union variants)
  | object : (properties.map (·.name.1)).Nodup → KeysOrdered (properties.map (·.name.1)) →
      (∀ p ∈ properties, p.nullable → p.schema.isNull = false) → (∀ p ∈ properties, Normal p.schema) →
      Normal (.object properties)

/-- The forms of schema that `definitionToJsonSchema` writes. -/
inductive Written : JsonSchema → Prop
  | typed (name : TypeName) : Written (.object { type := some (.one name) })
  | enum (values : List String) : Written (.object { enum := some (values.map .str) })
  | literal (value : Literal) : Written (.object { const := some value.json })
  | array : Written items → Written (.object { type := some (.one .array), items := some (.one items) })
  | union : (∀ schema ∈ variants, Written schema) → Written (.object { anyOf := some variants })
  | object : (properties.map Prod.fst).Nodup → (∀ entry ∈ properties, entry.1 ≠ "__proto__") →
      (∀ entry ∈ properties, Written entry.2) → Written (.object {
        type := some (.one .object)
        properties := some properties
        required := required
        additionalProperties := some (.bool false) })

section
variable {numberText : Rat → String} {schema : JsonSchema} {d : SchemaDefinition}

/-- The reading of a written schema is a normal form, and `null` only for the type `null`. -/
def ReadsNormal (numberText : Rat → String) (schema : JsonSchema) : Prop :=
  ∃ d, jsonSchemaToDefinition numberText schema = some d ∧ Normal d ∧ (d.isNull → isNullVariant schema)

theorem nullableInner_mem {inner : JsonSchema} (h : nullableInner schema = some inner) :
    ∃ variants, schema.options = some variants ∧ inner ∈ nonNullVariants variants := by
  rw [nullableInner] at h
  split at h
  · cases h
  · rename_i variants hoptions
    split at h
    · rename_i only honly
      split at h
      · cases h
        exact ⟨variants, hoptions, honly ▸ mem_singleton_self _⟩
      · cases h
    · cases h

theorem mem_nonNullVariants :
    schema ∈ nonNullVariants variants ↔ schema ∈ variants ∧ isNullVariant schema = false := by
  rw [nonNullVariants, mem_filter, not_eq_true']

theorem readsNormal_union (ih : ∀ schema ∈ variants, ReadsNormal numberText schema) :
    ReadsNormal numberText (.object { anyOf := some variants }) := by
  rw [ReadsNormal, jsonSchemaToDefinition_anyOf]
  cases hinner : nullableInner (.object { anyOf := some variants }) with
  | some inner =>
    obtain ⟨variants', hoptions, hmem⟩ := nullableInner_mem hinner
    obtain rfl : variants = variants' := Option.some.inj hoptions
    obtain ⟨hmem, hnull⟩ := mem_nonNullVariants.1 hmem
    obtain ⟨d, hd, hnormal, hisNull⟩ := ih inner hmem
    refine ⟨d, hd, hnormal, fun h => ?_⟩
    rw [hisNull h] at hnull
    cases hnull
  | none =>
    obtain ⟨decoded, hdecoded, hall⟩ := mapM_some_of_forall
      (P := fun schema d => isNullVariant schema = false ∧ Normal d ∧ (d.isNull → isNullVariant schema))
      fun (schema : JsonSchema) (hmem : schema ∈ nonNullVariants variants) => by
        obtain ⟨hmem, hnull⟩ := mem_nonNullVariants.1 hmem
        obtain ⟨d, hd, hnormal⟩ := ih schema hmem
        exact ⟨d, hd, hnull, hnormal⟩
    have hvariant {d : SchemaDefinition} (hd : d ∈ decoded) : d.isNull = false ∧ Normal d := by
      obtain ⟨schema, -, hnull, hnormal, hisNull⟩ := exists_of_forall₂ hall.flip hd
      refine ⟨eq_false_iff.2 fun h => ?_, hnormal⟩
      rw [hisNull h] at hnull
      cases hnull
    refine ⟨.union decoded, congrArg (Option.map SchemaDefinition.union) hdecoded, ?_, nofun⟩
    exact .union (fun d hd => (hvariant hd).1) fun d hd => (hvariant hd).2

theorem jsonSchemaToDefinition_inner (h : Written schema) :
    jsonSchemaToDefinition numberText ((nullableInner schema).getD schema) =
      jsonSchemaToDefinition numberText schema := by
  cases hinner : nullableInner schema with
  | none => rfl
  | some inner =>
    obtain ⟨variants, hoptions, -⟩ := nullableInner_mem hinner
    cases h with
    | union =>
      rw [jsonSchemaToDefinition_anyOf, hinner]
      rfl
    | _ => cases hoptions

theorem not_isNullVariant_of_nullable (h : Written schema) (hn : (nullableInner schema).isSome) :
    isNullVariant schema = false := by
  obtain ⟨inner, hinner⟩ := Option.isSome_iff_exists.1 hn
  obtain ⟨variants, hoptions, -⟩ := nullableInner_mem hinner
  cases h with
  | union => rfl
  | _ => cases hoptions

theorem readsNormal_object
    (hnodup : (properties.map Prod.fst).Nodup) (hproto : ∀ entry ∈ properties, entry.1 ≠ "__proto__")
    (hwritten : ∀ entry ∈ properties, Written entry.2)
    (ih : ∀ entry ∈ properties, ReadsNormal numberText entry.2) :
    ReadsNormal numberText (.object {
      type := some (.one .object)
      properties := some properties
      required := required
      additionalProperties := some (.bool false) }) := by
  have hread : ∀ entry ∈ objectEntries properties, ∃ p,
      propertyDefinition numberText (required.getD []) entry = some p ∧ (p.name.1 = entry.1 ∧
        (p.nullable → p.schema.isNull = false) ∧ Normal p.schema) := by
    intro entry hentry
    rw [mem_objectEntries] at hentry
    obtain ⟨d, hd, hnormal, hisNull⟩ := ih entry hentry
    rw [propertyDefinition, dif_pos (hproto entry hentry), jsonSchemaToDefinition_inner (hwritten entry hentry), hd]
    refine ⟨_, rfl, rfl, fun hn => eq_false_iff.2 fun h => ?_, hnormal⟩
    have hnull := not_isNullVariant_of_nullable (hwritten entry hentry) hn
    rw [hisNull h] at hnull
    cases hnull
  obtain ⟨decoded, hdecoded, hall⟩ := mapM_some_of_forall hread
  have hnames : decoded.map (·.name.1) = (objectEntries properties).map Prod.fst := by
    rw [← List.forall₂_eq_eq_eq, List.forall₂_map_left_iff, List.forall₂_map_right_iff]
    exact hall.flip.imp fun _ _ h => h.1
  rw [ReadsNormal, jsonSchemaToDefinition_properties, hdecoded]
  refine ⟨.object decoded, rfl, .object ?_ ?_ (fun p hp => ?_) (fun p hp => ?_), by rintro ⟨⟩⟩
  · rw [hnames]
    exact nodup_objectEntries hnodup
  · rw [hnames]
    exact keysOrdered_objectEntries properties
  · obtain ⟨entry, -, -, hnull, -⟩ := exists_of_forall₂ hall.flip hp
    exact hnull
  · obtain ⟨entry, -, -, -, hnormal⟩ := exists_of_forall₂ hall.flip hp
    exact hnormal

theorem readsNormal_of_written (h : Written schema) : ReadsNormal numberText schema := by
  induction h with
  | typed name =>
    rw [ReadsNormal, jsonSchemaToDefinition_typed]
    cases name with
    | null => exact ⟨_, rfl, .null, fun _ => rfl⟩
    | number => exact ⟨_, rfl, .number, by rintro ⟨⟩⟩
    | integer => exact ⟨_, rfl, .number, by rintro ⟨⟩⟩
    | boolean => exact ⟨_, rfl, .boolean, by rintro ⟨⟩⟩
    | array => exact ⟨_, rfl, .array .string, by rintro ⟨⟩⟩
    | object => exact ⟨_, rfl, .object nodup_nil List.Pairwise.nil (by rintro _ ⟨⟩) (by rintro _ ⟨⟩), by rintro ⟨⟩⟩
    | _ => exact ⟨_, rfl, .string, by rintro ⟨⟩⟩
  | enum values =>
    rw [ReadsNormal, jsonSchemaToDefinition]
    exact ⟨_, rfl, .enum _, by rintro ⟨⟩⟩
  | literal value =>
    rw [ReadsNormal, jsonSchemaToDefinition]
    cases value <;> exact ⟨_, rfl, .literal _, by rintro ⟨⟩⟩
  | array _ ih =>
    obtain ⟨d, hd, hnormal, -⟩ := ih
    rw [ReadsNormal, jsonSchemaToDefinition_array, hd]
    exact ⟨_, rfl, .array hnormal, by rintro ⟨⟩⟩
  | union _ ih => exact readsNormal_union ih
  | object hnodup hproto hwritten ih => exact readsNormal_object hnodup hproto hwritten ih

theorem propertySchemas_of_nodup (hnodup : (properties.map (·.name.1)).Nodup): propertySchemas properties =
      properties.map fun p => (p.name.1, definitionToJsonSchema p.definition) := by
  have hkeys : (([] ++ properties.map fun p : PropertyDescriptor SchemaDefinition =>
      (p.name.1, definitionToJsonSchema p.definition)).map Prod.fst).Nodup := by
    simpa [Function.comp_def] using hnodup
  have hfold := foldl_setKey_of_nodup hkeys
  rw [foldl_map, nil_append] at hfold
  exact hfold

theorem contains_requiredNames (hnodup : (properties.map (·.name.1)).Nodup) (hp : p ∈ properties) :
    (requiredNames properties).contains p.name.1 = p.required := by
  rw [Bool.eq_iff_iff, contains_eq_mem, decide_eq_true_eq, mem_requiredNames]
  constructor
  · rintro ⟨p', hp', hrequired, hname⟩
    rwa [← inj_on_of_nodup_map hnodup hp' hp hname]
  · exact fun hrequired => ⟨p, hp, hrequired, rfl⟩

theorem Normal.not_optional (h : Normal d) : ¬ d.Optional := by
  cases h with
  | @union variants hnull _ =>
    rintro ⟨hone, hmore⟩
    have hall : variants.filter (!·.isNull) = variants :=
      filter_eq_self.2 fun d hd => by rw [hnull d hd]; rfl
    rw [hall] at hone
    omega
  | _ => exact id

theorem nullableInner_of_normal (h : Normal d) : nullableInner (definitionToJsonSchema d) = none := by
  rcases nullableInner_definition d with ⟨_, _, _, _, hoptional, _⟩ | ⟨-, hinner⟩
  · exact absurd hoptional h.not_optional
  · exact hinner

theorem nullableInner_property {p : PropertyDescriptor SchemaDefinition} (hnormal : Normal p.schema)
    (hnull : p.nullable → p.schema.isNull = false) : nullableInner (definitionToJsonSchema p.definition) =
      if p.nullable then some (definitionToJsonSchema p.schema) else none := by
  rw [PropertyDescriptor.definition]
  split
  · rename_i hn
    have hfilter : nonNullVariants ([p.schema, .null].map definitionToJsonSchema) =
        [definitionToJsonSchema p.schema] := by
      have hisNull : SchemaDefinition.null.isNull = true := rfl
      rw [nonNullVariants_definitions]
      simp only [filter_cons, filter_nil, hnull hn, hisNull, Bool.not_false, Bool.not_true, if_true,
        false_eq_true, if_false, map_cons, map_nil]
    rw [definitionToJsonSchema_union, nullableInner]
    simp only [JsonSchema.options, JsonSchema.keywords, Option.some_or, hfilter]
    rfl
  · exact nullableInner_of_normal hnormal

theorem jsonSchemaToDefinition_of_normal (h : Normal d) :
    jsonSchemaToDefinition numberText (definitionToJsonSchema d) = some d := by
  induction h with
  | string => rw [definitionToJsonSchema, jsonSchemaToDefinition_typed]
  | number => rw [definitionToJsonSchema, jsonSchemaToDefinition_typed]
  | boolean => rw [definitionToJsonSchema, jsonSchemaToDefinition_typed]
  | null => rw [definitionToJsonSchema, jsonSchemaToDefinition_typed]
  | enum values =>
    rw [definitionToJsonSchema, jsonSchemaToDefinition]
    simp [valueText, Function.comp_def]
  | literal value =>
    rw [definitionToJsonSchema, jsonSchemaToDefinition]
    cases value <;> rfl
  | array _ ih => rw [definitionToJsonSchema, jsonSchemaToDefinition_array, ih, Option.map_some]
  | @union variants hnull hnormal ih =>
    have hinner := nullableInner_of_normal (.union hnull hnormal)
    have hall : variants.filter (!·.isNull) = variants :=
      filter_eq_self.2 fun d hd => by rw [hnull d hd]; rfl
    obtain ⟨decoded, hdecoded, heq⟩ := mapM_some_of_forall
      (f := jsonSchemaToDefinition numberText ∘ definitionToJsonSchema) (P := Eq)
      fun d hd => ⟨d, ih d hd, rfl⟩
    rw [List.forall₂_eq_eq_eq] at heq
    subst heq
    rw [definitionToJsonSchema_union] at hinner ⊢
    rw [jsonSchemaToDefinition_anyOf, hinner, nonNullVariants_definitions, hall, mapM_map]
    exact congrArg (Option.map SchemaDefinition.union) hdecoded
  | @object properties hnodup hordered hnull hnormal ih =>
    have hread : ∀ p ∈ properties, ∃ p', propertyDefinition numberText (requiredNames properties)
        (p.name.1, definitionToJsonSchema p.definition) = some p' ∧ p = p' := by
      intro p hp
      have hinner := nullableInner_property (hnormal p hp) (hnull p hp)
      have hschema : (nullableInner (definitionToJsonSchema p.definition)).getD
          (definitionToJsonSchema p.definition) = definitionToJsonSchema p.schema := by
        rw [hinner, PropertyDescriptor.definition]
        split <;> rfl
      have hnullable : (nullableInner (definitionToJsonSchema p.definition)).isSome = p.nullable := by
        rw [hinner]
        cases p.nullable <;> rfl
      rw [propertyDefinition, dif_pos p.name.2, hschema, ih p hp, hnullable, contains_requiredNames hnodup hp]
      exact ⟨p, rfl, rfl⟩
    have hkeys : KeysOrdered ((properties.map fun p =>
        (p.name.1, definitionToJsonSchema p.definition)).map Prod.fst) := by
      rwa [map_map]
    obtain ⟨decoded, hdecoded, heq⟩ := mapM_some_of_forall hread
    rw [List.forall₂_eq_eq_eq] at heq
    subst heq
    rw [definitionToJsonSchema_object, jsonSchemaToDefinition_properties, required_getD,
      propertySchemas_of_nodup hnodup, objectEntries_of_keysOrdered hkeys, mapM_map]
    exact congrArg (Option.map SchemaDefinition.object) hdecoded

end

structure BuilderProperty (σ : Type) where
  name : String
  required : Bool
  nullable : Bool
  schema : σ

/-- A definition as the builder holds it: `__proto__`, which no assignment makes a property, may be a name. -/
inductive BuilderDefinition where
  | string
  | number
  | boolean
  | null
  | object (properties : List (BuilderProperty BuilderDefinition))
  | array (items : BuilderDefinition)
  | enum (values : List String)
  | literal (value : Literal)
  | union (variants : List BuilderDefinition)

namespace BuilderDefinition

theorem sizeOf_schema_lt {p : BuilderProperty BuilderDefinition} {properties : List (BuilderProperty BuilderDefinition)}
    (h : p ∈ properties) : sizeOf p.schema < sizeOf (BuilderDefinition.object properties) := by
  have hlt := sizeOf_lt_of_mem h
  obtain ⟨⟩ := p
  simp only [BuilderProperty.mk.sizeOf_spec, BuilderDefinition.object.sizeOf_spec] at hlt ⊢
  omega

theorem sizeOf_variant_lt {d : BuilderDefinition} {variants : List BuilderDefinition} (h : d ∈ variants) :
    sizeOf d < sizeOf (BuilderDefinition.union variants) := by
  have hlt := sizeOf_lt_of_mem h
  simp only [BuilderDefinition.union.sizeOf_spec] at hlt ⊢
  omega

/-- `definitionToJsonSchema`. -/
def toJsonSchema : BuilderDefinition → JsonSchema
  | .string => .object { type := some (.one .string) }
  | .number => .object { type := some (.one .number) }
  | .boolean => .object { type := some (.one .boolean) }
  | .null => .object { type := some (.one .null) }
  | .object properties =>
    let required := (properties.filter (·.required)).map (·.name)
    .object {
      type := some (.one .object)
      properties := some (properties.attach.foldl (fun fields p =>
        if p.1.name = "__proto__" then fields
        else setKey fields p.1.name (wrapNullable (toJsonSchema p.1.schema) p.1.nullable)) [])
      required := if required.length > 0 then some required else none
      additionalProperties := some (.bool false) }
  | .array items => .object { type := some (.one .array), items := some (.one (toJsonSchema items)) }
  | .enum values => .object { enum := some (values.map .str) }
  | .literal value => .object { const := some value.json }
  | .union variants => .object { anyOf := some (variants.attach.map fun d => toJsonSchema d.1) }
termination_by d => sizeOf d
decreasing_by
  · exact sizeOf_schema_lt p.2
  · simp
  · exact sizeOf_variant_lt d.2

def ofDefinition : SchemaDefinition → BuilderDefinition
  | .string => .string
  | .number => .number
  | .boolean => .boolean
  | .null => .null
  | .object properties => .object (properties.attach.map fun p =>
      ⟨p.1.name.1, p.1.required, p.1.nullable, ofDefinition p.1.schema⟩)
  | .array items => .array (ofDefinition items)
  | .enum values => .enum values
  | .literal value => .literal value
  | .union variants => .union (variants.attach.map fun d => ofDefinition d.1)
termination_by d => sizeOf d
decreasing_by
  · exact Workflow.sizeOf_schema_lt p.2
  · simp
  · exact Workflow.sizeOf_variant_lt d.2

/-- `properties[property.name] = …`. -/
def addProperty (fields : List (String × JsonSchema)) (p : BuilderProperty BuilderDefinition) :
    List (String × JsonSchema) :=
  if p.name = "__proto__" then fields
  else setKey fields p.name (wrapNullable p.schema.toJsonSchema p.nullable)

theorem toJsonSchema_object (properties : List (BuilderProperty BuilderDefinition)) :
    toJsonSchema (.object properties) = .object {
      type := some (.one .object)
      properties := some (properties.foldl addProperty [])
      required := if ((properties.filter (·.required)).map (·.name)).length > 0 then
        some ((properties.filter (·.required)).map (·.name)) else none
      additionalProperties := some (.bool false) } := by
  have hfold : properties.foldl addProperty [] = properties.attach.foldl (fun fields p =>
      addProperty fields p.1) [] := foldl_attach.symm
  rw [toJsonSchema, hfold]
  rfl

theorem toJsonSchema_union (variants : List BuilderDefinition) :
    toJsonSchema (.union variants) = .object { anyOf := some (variants.map toJsonSchema) } := by
  rw [toJsonSchema, attach_map_val]

theorem toJsonSchema_ofDefinition (d : SchemaDefinition) :
    (ofDefinition d).toJsonSchema = definitionToJsonSchema d := by
  cases d with
  | object properties =>
    have hfold (rest : List (PropertyDescriptor SchemaDefinition)) (fields : List (String × JsonSchema))
        (hrest : ∀ p ∈ rest, p ∈ properties) :
        (rest.map fun p => (⟨p.name.1, p.required, p.nullable, ofDefinition p.schema⟩ :
          BuilderProperty BuilderDefinition)).foldl addProperty fields =
        rest.foldl (fun fields p => setKey fields p.name.1 (definitionToJsonSchema p.definition)) fields := by
      induction rest generalizing fields with
      | nil => rfl
      | cons p rest ih =>
        obtain ⟨hp, hrest⟩ := forall_mem_cons.1 hrest
        rw [map_cons, foldl_cons, foldl_cons, ih _ hrest, addProperty, if_neg p.name.2,
          toJsonSchema_ofDefinition p.schema, definitionToJsonSchema_definition]
    rw [ofDefinition, toJsonSchema_object, definitionToJsonSchema_object, propertySchemas, requiredNames,
      attach_map_val (f := fun p : PropertyDescriptor SchemaDefinition =>
        (⟨p.name.1, p.required, p.nullable, ofDefinition p.schema⟩ : BuilderProperty BuilderDefinition)),
      hfold properties [] fun _ => id, filter_map, map_map]
    rfl
  | array items => rw [ofDefinition, toJsonSchema, definitionToJsonSchema, toJsonSchema_ofDefinition items]
  | union variants =>
    have hvariants : variants.map (toJsonSchema ∘ ofDefinition) = variants.map definitionToJsonSchema :=
      map_congr_left fun d hd => toJsonSchema_ofDefinition d
    rw [ofDefinition, toJsonSchema_union, definitionToJsonSchema_union, attach_map_val, map_map, hvariants]
  | _ => rw [ofDefinition, toJsonSchema, definitionToJsonSchema]
termination_by sizeOf d
decreasing_by
  · subst_vars
    exact Workflow.sizeOf_schema_lt hp
  · simp
  · subst_vars
    exact Workflow.sizeOf_variant_lt hd

theorem written_wrapNullable (h : Written schema) (nullable : Bool) :
    Written (wrapNullable schema nullable) := by
  rw [wrapNullable]
  split
  · refine .union fun variant hvariant => ?_
    rcases mem_cons.1 hvariant with rfl | hnull
    · exact h
    · rw [mem_singleton.1 hnull]
      exact .typed .null
  · exact h

theorem written_foldl_addProperty {properties : List (BuilderProperty BuilderDefinition)}
    {fields : List (String × JsonSchema)} (hproperties : ∀ p ∈ properties, Written p.schema.toJsonSchema)
    (hnodup : (fields.map Prod.fst).Nodup)
    (hfields : ∀ entry ∈ fields, entry.1 ≠ "__proto__" ∧ Written entry.2) :
    ((properties.foldl addProperty fields).map Prod.fst).Nodup ∧
      ∀ entry ∈ properties.foldl addProperty fields, entry.1 ≠ "__proto__" ∧ Written entry.2 := by
  induction properties generalizing fields with
  | nil => exact ⟨hnodup, hfields⟩
  | cons p properties ih =>
    obtain ⟨hp, hproperties⟩ := forall_mem_cons.1 hproperties
    rw [foldl_cons, addProperty]
    split
    · exact ih hproperties hnodup hfields
    · rename_i hname
      refine ih hproperties (nodup_setKey hnodup _ _) ?_
      have hnew : ∀ entry ∈ [(p.name, wrapNullable p.schema.toJsonSchema p.nullable)],
          entry.1 ≠ "__proto__" ∧ Written entry.2 := by
        rw [forall_mem_singleton]
        exact ⟨hname, written_wrapNullable hp p.nullable⟩
      exact forall_foldl_setKey hfields hnew

theorem written_toJsonSchema (d : BuilderDefinition) : Written d.toJsonSchema := by
  cases d with
  | string | number | boolean | null =>
    rw [toJsonSchema]
    exact .typed _
  | enum values =>
    rw [toJsonSchema]
    exact .enum values
  | literal value =>
    rw [toJsonSchema]
    exact .literal value
  | array items =>
    rw [toJsonSchema]
    exact .array (written_toJsonSchema items)
  | union variants =>
    rw [toJsonSchema_union]
    refine .union fun schema hschema => ?_
    obtain ⟨d, hd, rfl⟩ := mem_map.1 hschema
    exact written_toJsonSchema d
  | object properties =>
    rw [toJsonSchema_object]
    have hproperties : ∀ p ∈ properties, Written p.schema.toJsonSchema := fun p hp => written_toJsonSchema p.schema
    have hnil : (([] : List (String × JsonSchema)).map Prod.fst).Nodup := nodup_nil
    obtain ⟨hnodup, hentries⟩ := written_foldl_addProperty hproperties hnil (forall_mem_nil _)
    exact .object hnodup (fun entry h => (hentries entry h).1) fun entry h => (hentries entry h).2
termination_by sizeOf d
decreasing_by
  · subst_vars
    exact sizeOf_schema_lt hp
  · simp
  · subst_vars
    exact sizeOf_variant_lt hd

/-- What the builder holds after a definition is saved and opened again. -/
def reopened (numberText : Rat → String) (d : BuilderDefinition) : Option BuilderDefinition :=
  (jsonSchemaToDefinition numberText d.toJsonSchema).map ofDefinition

/-- A definition that is saved and opened a second time is the same as after the first. -/
theorem reopened_twice (numberText : Rat → String) (d : BuilderDefinition) :
    ∃ n, reopened numberText d = some n ∧ reopened numberText n = some n := by
  obtain ⟨decoded, hdecoded, hnormal, -⟩ := readsNormal_of_written (written_toJsonSchema d)
  refine ⟨ofDefinition decoded, ?_, ?_⟩
  · rw [reopened, hdecoded, Option.map_some]
  · rw [reopened, toJsonSchema_ofDefinition, jsonSchemaToDefinition_of_normal hnormal, Option.map_some]

end BuilderDefinition

end Trakrai.Workflow
