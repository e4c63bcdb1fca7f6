import Trakrai.Workflow.SchemaMatching

namespace Trakrai.Workflow
open Bool List Lib

section
variable {a b : Keywords JsonSchema}

/-- What `isJsonSchemaSubset` asks of two objects with properties. -/
def propertiesSubset (aProps bProps : List (String × JsonSchema)) (aRequired bRequired : List String) :
    Bool :=
  bProps.all fun entry =>
    let propA := lookupSchema aProps entry.1
    requiredSubset aRequired bRequired entry.1 propA &&
      propA.all fun propA => isJsonSchemaSubset propA entry.2

theorem subset_anyOf_left (schemas : List JsonSchema) (schemaB : JsonSchema) :
    isJsonSchemaSubset (.object { anyOf := some schemas }) schemaB =
      schemas.all (isJsonSchemaSubset · schemaB) := by
  rw [isJsonSchemaSubset.eq_def]
  simp only
  split
  · rename_i h
    cases h
    simp
  · rename_i h
    cases h

theorem subset_anyOf_right (hA : (JsonSchema.object a).options = none) (schemas : List JsonSchema) :
    isJsonSchemaSubset (.object a) (.object { anyOf := some schemas }) =
      schemas.any (isJsonSchemaSubset (.object a) ·) := by
  rw [isJsonSchemaSubset.eq_def]
  simp only
  split
  · rename_i h
    cases hA.symm.trans h
  · split
    · rename_i h
      cases h
      simp
    · rename_i h
      cases h

section
variable (a b : Keywords JsonSchema)

/-- `isJsonSchemaSubset` for two objects. -/
def objectSubset : Bool :=
  match a.properties, b.properties with
  | some aProps, some bProps =>
    propertiesSubset aProps bProps (a.required.getD []) (b.required.getD [])
  | _, _ =>
    if b.properties.isNone && b.propertyNames.isNone && b.additionalProperties.isNone then true
    else
      match a.propertyNames, b.propertyNames, a.additionalProperties, b.additionalProperties with
      | some aNames, some bNames, some aRest, some bRest =>
        isJsonSchemaSubset aNames bNames && isJsonSchemaSubset aRest bRest
      | _, _, _, _ => false

/-- `isJsonSchemaSubset` for two arrays. -/
def arraySubset : Bool :=
  match a.items, b.items with
  | some (.one aItems), some (.one bItems) => isJsonSchemaSubset aItems bItems
  | _, _ => false

/-- `isJsonSchemaSubset` for two schemas without options, constants and enumerations. -/
def typedSubset : Bool :=
  if b.enum.isSome || b.const.isSome then false
  else if a.type.isSome && b.type.isSome && !sameType a.type b.type then false
  else if hasType .object a.type && hasType .object b.type then objectSubset a b
  else if hasType .array a.type && hasType .array b.type then arraySubset a b
  else sameType a.type b.type || (b.type.isNone && b.properties.isNone)

end

theorem subset_plain (hA : (JsonSchema.object a).options = none)
    (hB : (JsonSchema.object b).options = none) :
    isJsonSchemaSubset (.object a) (.object b) =
      ((constSubset a b).or (enumSubset a b)).getD (typedSubset a b) := by
  rw [isJsonSchemaSubset.eq_def]
  simp only
  split
  · rename_i h
    cases hA.symm.trans h
  split
  · rename_i h
    cases hB.symm.trans h
  simp only [JsonSchema.keywords]
  cases constSubset a b with
  | some verdict => rfl
  | none =>
    cases enumSubset a b with
    | some verdict => rfl
    | none =>
      simp only [Option.or_none, Option.getD_none]
      rw [typedSubset]
      obtain ⟨_, _, _, _, _, _, _, aProps, _, aNames, aRest, aItems, _⟩ := a
      obtain ⟨_, _, _, _, _, _, _, bProps, _, bNames, bRest, bItems, _⟩ := b
      congr 3
      · simp only [objectSubset]
        cases aProps with
        | none =>
          cases bProps <;> cases aNames <;> cases bNames <;> cases aRest <;> cases bRest <;> rfl
        | some aProps =>
          cases bProps with
          | none => cases aNames <;> cases bNames <;> cases aRest <;> cases bRest <;> rfl
          | some bProps =>
            rw [Bool.eq_iff_iff]
            simp [propertiesSubset]
      · congr 1
        simp only [arraySubset]
        rcases aItems with _ | ⟨_ | _⟩ <;> rcases bItems with _ | ⟨_ | _⟩ <;> rfl

end

def SchemaDefinition.typeName : SchemaDefinition → Option TypeName
  | .string => some .string
  | .number => some .number
  | .boolean => some .boolean
  | .null => some .null
  | .object _ => some .object
  | .array _ => some .array
  | .enum _ | .literal _ | .union _ => none

section
variable {a b : SchemaDefinition}

theorem typed_schema (h : a.typeName = some name) : ∃ k, definitionToJsonSchema a = .object k ∧
    (JsonSchema.object k).options = none ∧ k.const = none ∧ k.enum = none ∧
    k.type = some (.one name) := by
  cases a with
  | string =>
    cases h
    exact ⟨_, definitionToJsonSchema.eq_1, rfl, rfl, rfl, rfl⟩
  | number =>
    cases h
    exact ⟨_, definitionToJsonSchema.eq_2, rfl, rfl, rfl, rfl⟩
  | boolean =>
    cases h
    exact ⟨_, definitionToJsonSchema.eq_3, rfl, rfl, rfl, rfl⟩
  | null =>
    cases h
    exact ⟨_, definitionToJsonSchema.eq_4, rfl, rfl, rfl, rfl⟩
  | object properties =>
    cases h
    exact ⟨_, definitionToJsonSchema_object properties, rfl, rfl, rfl, rfl⟩
  | array items =>
    cases h
    exact ⟨_, definitionToJsonSchema.eq_6 items, rfl, rfl, rfl, rfl⟩
  | enum values => cases h
  | literal literal => cases h
  | union variants => cases h

theorem plain_schema (h : ∀ variants, a ≠ .union variants) : ∃ k,
    definitionToJsonSchema a = .object k ∧ (JsonSchema.object k).options = none := by
  cases ht : a.typeName with
  | some name =>
    obtain ⟨k, hk, hopts, _⟩ := typed_schema ht
    exact ⟨k, hk, hopts⟩
  | none =>
    cases a with
    | enum values => exact ⟨_, definitionToJsonSchema.eq_7 values, rfl⟩
    | literal literal => exact ⟨_, definitionToJsonSchema.eq_8 literal, rfl⟩
    | union variants => exact (h variants rfl).elim
    | _ => cases ht

theorem subset_object (aProps bProps : List (PropertyDescriptor SchemaDefinition)) :
    isJsonSchemaSubset (definitionToJsonSchema (.object aProps))
        (definitionToJsonSchema (.object bProps)) =
      propertiesSubset (propertySchemas aProps) (propertySchemas bProps) (requiredNames aProps)
        (requiredNames bProps) := by
  rw [definitionToJsonSchema_object, definitionToJsonSchema_object, subset_plain rfl rfl]
  have hobjects {required required' : Option (List String)} : typedSubset
        { type := some (.one .object), properties := some (propertySchemas aProps),
          required := required, additionalProperties := some (.bool false) }
        { type := some (.one .object), properties := some (propertySchemas bProps),
          required := required', additionalProperties := some (.bool false) } =
        propertiesSubset (propertySchemas aProps) (propertySchemas bProps) (required.getD [])
          (required'.getD []) := rfl
  rw [← required_getD aProps, ← required_getD bProps, ← hobjects, required_getD, required_getD]
  rfl

end

/-- The objects in the value have only keys that the definition declares for them, or that every
object inherits. A union asks this of a variant that the value matches otherwise. -/
def Declared : SchemaDefinition → Json → Prop
  | .object properties, value => ∀ fields, value = .obj fields → ∀ field ∈ fields,
    match _h : propertyNamed properties field.1 with
    | some p => Declared p.definition field.2
    | none => objectPrototypeNames.contains field.1
  | .array items, value => ∀ values, value = .arr values → ∀ v ∈ values, Declared items v
  | .union variants, value => ∃ d : { d // d ∈ variants }, Matches false d.1 value ∧ Declared d.1 value
  | .string, _ | .number, _ | .boolean, _ | .null, _ | .enum _, _ | .literal _, _ => True
termination_by d => sizeOf d
decreasing_by
  · exact sizeOf_definition_lt (propertyNamed_mem _h).1
  · simp
  · exact sizeOf_variant_lt d.2

inductive Nested : SchemaDefinition → SchemaDefinition → Prop
  | refl (d : SchemaDefinition) : Nested d d
  | variant : d ∈ variants → Nested a d → Nested a (.union variants)

theorem Nested.variant_left (h : Nested a b) (ha : a = .union variants) (hd : d ∈ variants) : Nested d b := by
  induction h with
  | refl => exact ha ▸ .variant hd (.refl d)
  | variant hmem _ ih => exact .variant hmem (ih ha)

theorem subset_of_nested (ha : ∀ variants, a ≠ .union variants) (h : Nested a b)
    (hself : isJsonSchemaSubset (definitionToJsonSchema a) (definitionToJsonSchema a)) :
    isJsonSchemaSubset (definitionToJsonSchema a) (definitionToJsonSchema b) := by
  induction h with
  | refl => exact hself
  | variant hmem _ ih =>
    obtain ⟨k, hk, hopts⟩ := plain_schema ha
    have hvariant := ih ha hself
    rw [hk] at hvariant ⊢
    rw [definitionToJsonSchema_union, subset_anyOf_right hopts, any_map, any_eq_true]
    exact ⟨_, hmem, hvariant⟩

theorem subset_object_self (h : ∀ key p, propertyNamed properties key = some p →
      isJsonSchemaSubset (definitionToJsonSchema p.definition) (definitionToJsonSchema p.definition)) :
    isJsonSchemaSubset (definitionToJsonSchema (.object properties))
      (definitionToJsonSchema (.object properties)) := by
  rw [subset_object, propertiesSubset, all_eq_true]
  intro entry hentry
  obtain ⟨p, hp, he⟩ := mem_propertySchemas.1 hentry
  simp only [lookupSchema_propertySchemas, hp, requiredSubset, Option.all_some, and_eq_true, he]
  exact ⟨not_or_self _, h entry.1 p hp⟩

theorem nested_subset (a b : SchemaDefinition) (h : Nested a b) :
    isJsonSchemaSubset (definitionToJsonSchema a) (definitionToJsonSchema b) := by
  cases a with
  | string | number | boolean | null =>
    apply subset_of_nested (fun _ => SchemaDefinition.noConfusion) h
    rw [definitionToJsonSchema, subset_plain rfl rfl]
    rfl
  | object properties =>
    apply subset_of_nested (fun _ => SchemaDefinition.noConfusion) h
    apply subset_object_self
    intro key p hp
    exact nested_subset p.definition p.definition (.refl _)
  | array items =>
    apply subset_of_nested (fun _ => SchemaDefinition.noConfusion) h
    have hitems := nested_subset items items (.refl _)
    rw [definitionToJsonSchema, subset_plain rfl rfl]
    exact hitems
  | enum values =>
    apply subset_of_nested (fun _ => SchemaDefinition.noConfusion) h
    rw [definitionToJsonSchema, subset_plain rfl rfl]
    apply all_eq_true.2
    intro value hvalue
    obtain ⟨text, htext, rfl⟩ := mem_map.1 hvalue
    exact any_eq_true.2 ⟨_, hvalue, str_identical.2 rfl⟩
  | literal literal =>
    apply subset_of_nested (fun _ => SchemaDefinition.noConfusion) h
    rw [definitionToJsonSchema, subset_plain rfl rfl]
    exact identical_literal.2 rfl
  | union variants =>
    rw [definitionToJsonSchema_union, subset_anyOf_left, all_map, all_eq_true]
    intro d hd
    exact nested_subset d b (h.variant_left rfl hd)
termination_by sizeOf a
decreasing_by
  · subst_vars
    exact sizeOf_definition_lt (propertyNamed_mem hp).1
  · subst_vars
    simp
  · subst_vars
    exact sizeOf_variant_lt hd

/-- Every handle can be connected to a handle of its own type. No property of a definition is named `__proto__`. -/
theorem subset_refl (d : SchemaDefinition) :
    isJsonSchemaSubset (definitionToJsonSchema d) (definitionToJsonSchema d) = true :=
  nested_subset d d (.refl d)

end Trakrai.Workflow
