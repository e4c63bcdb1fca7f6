import Mathlib.Data.List.Forall2
import Trakrai.Lib.Except
import Trakrai.Lib.Json
import Trakrai.Workflow.SchemaSubset

namespace Trakrai.Workflow
open List Lib

/-- `typeof variant === 'object' && variant.type === 'null'`. -/
def isNullVariant (variant : JsonSchema) : Bool := hasType .null variant.keywords.type

def nonNullVariants (variants : List JsonSchema) : List JsonSchema := variants.filter (!isNullVariant ·)

/-- The only variant besides `null`, of a schema with both. -/
def nullableInner (schema : JsonSchema) : Option JsonSchema :=
  match schema.options with
  | none => none
  | some variants =>
    match nonNullVariants variants with
    | [inner] => if 1 < variants.length then some inner else none
    | _ => none

theorem sizeOf_nonNullVariants {schema variant : JsonSchema} {variants : List JsonSchema}
    (h : schema.options = some variants) (hmem : variant ∈ nonNullVariants variants) :
    sizeOf variant < sizeOf schema :=
  (sizeOf_lt_of_mem (mem_filter.1 hmem).1).trans (JsonSchema.sizeOf_options h)

theorem sizeOf_nullableInner {schema inner : JsonSchema} (h : nullableInner schema = some inner) :
    sizeOf inner < sizeOf schema := by
  rw [nullableInner] at h
  split at h
  · cases h
  · rename_i variants hoptions
    split at h
    · rename_i inner' hinner
      split at h
      · cases h
        exact sizeOf_nonNullVariants hoptions (by rw [hinner]; exact mem_singleton_self _)
      · cases h
    · cases h

theorem sizeOf_inner_le (schema : JsonSchema) : sizeOf ((nullableInner schema).getD schema) ≤ sizeOf schema := by
  cases h : nullableInner schema with
  | none => exact Nat.le_refl _
  | some inner => exact Nat.le_of_lt (sizeOf_nullableInner h)

section
variable (numberText : Rat → String)

/-- `String(value)`. -/
def valueText : Json → String
  | .null => "null"
  | .bool value => toString value
  | .num value => numberText value
  | .str value => value
  | .arr items => ",".intercalate (items.attach.map fun item =>
    match item.1 with
    | .null => ""
    | _ => valueText item.1)
  | .obj _ => "[object Object]"
termination_by value => sizeOf value
decreasing_by
  exact sizeOf_item_lt item.2

def literalOf : Json → Option Literal
  | .str value => some (.string value)
  | .num value => some (.number value)
  | .bool value => some (.boolean value)
  | _ => none

/-- There is no definition where a constant does not have the type it is cast to, and where a property cannot
be written back. -/
def jsonSchemaToDefinition (schema : JsonSchema) : Option SchemaDefinition :=
  match schema with
  | .bool _ => some .string
  | .object keywords =>
    match keywords.const, keywords.enum with
    | some value, _ => (literalOf value).map .literal
    | none, some values => some (.enum (values.map (valueText numberText)))
    | none, none =>
      match _hoptions : (JsonSchema.object keywords).options with
      | some unionVariants =>
        match _hinner : nullableInner (.object keywords) with
        | some inner => jsonSchemaToDefinition inner
        | none =>
          ((nonNullVariants unionVariants).attach.mapM fun variant =>
            jsonSchemaToDefinition variant.1).map .union
      | none =>
        match keywords.type with
        | some (.one .string) => some .string
        | some (.one .number) => some .number
        | some (.one .integer) => some .number
        | some (.one .boolean) => some .boolean
        | some (.one .null) => some .null
        | some (.one .array) =>
          match _hitems : keywords.items with
          | some (.one items) => (jsonSchemaToDefinition items).map .array
          | _ => some (.array .string)
        | some (.one .object) =>
          match _hproperties : keywords.properties with
          | none => some (.object [])
          | some properties =>
            ((objectEntries properties).attach.mapM fun entry =>
              if hname : entry.1.1 ≠ "__proto__" then
                (jsonSchemaToDefinition ((nullableInner entry.1.2).getD entry.1.2)).map fun schema =>
                  ({ name := ⟨entry.1.1, hname⟩
                     required := (keywords.required.getD []).contains entry.1.1
                     nullable := (nullableInner entry.1.2).isSome
                     schema } : PropertyDescriptor SchemaDefinition)
              else none).map .object
        | _ => some .string
termination_by sizeOf schema
decreasing_by
  · exact sizeOf_nullableInner _hinner
  · exact sizeOf_nonNullVariants _hoptions variant.2
  · exact @JsonSchema.sizeOf_items (.object keywords) _ _hitems
  · have hmem := mem_objectEntries.1 entry.2
    have hentry := (sizeOf_snd_lt hmem).trans (@JsonSchema.sizeOf_properties (.object keywords) _ _hproperties)
    exact (sizeOf_inner_le _).trans_lt hentry

end

def SchemaDefinition.isNull : SchemaDefinition → Bool
  | .null => true
  | _ => false

/-- A union of `null`, at least once, and one other variant. -/
def SchemaDefinition.Optional : SchemaDefinition → Prop
  | .union variants => (variants.filter (!·.isNull)).length = 1 ∧ 1 < variants.length
  | _ => False

/-- What a definition accepts without the variants `null` of its unions, those of optional properties apart. -/
def Kept : SchemaDefinition → Json → Prop
  | .object properties, value =>
    ∃ fields, value = .obj fields ∧ (∀ p ∈ properties, p.required → hasKey fields p.name.1) ∧
      ∀ field ∈ fields, match _h : propertyNamed properties field.1 with
        | some p => Kept p.definition field.2 ∨ field.2 = .null ∧ p.definition.Optional
        | none => objectPrototypeNames.contains field.1
  | .array items, value => ∃ values, value = .arr values ∧ ∀ v ∈ values, Kept items v
  | .union variants, value => ∃ d : { d // d ∈ variants }, d.1.isNull = false ∧ Kept d.1 value
  | d, value => Matches true d value
termination_by d => sizeOf d
decreasing_by
  · exact sizeOf_definition_lt (propertyNamed_mem _h).1
  · simp
  · exact sizeOf_variant_lt d.2

theorem kept_object : Kept (.object properties) value ↔ ∃ fields, value = .obj fields ∧
      (∀ p ∈ properties, p.required → hasKey fields p.name.1) ∧ ∀ field ∈ fields,
        (∀ p, propertyNamed properties field.1 = some p →
          Kept p.definition field.2 ∨ field.2 = .null ∧ p.definition.Optional) ∧
        (propertyNamed properties field.1 = none → objectPrototypeNames.contains field.1) := by
  rw [Kept]
  refine exists_congr fun fields => and_congr_right fun _ => and_congr_right fun _ => ?_
  refine forall₂_congr fun field _ => ?_
  split
  · rename_i p hp
    simp [hp]
  · rename_i hp
    simp [hp]

theorem kept_union :
    Kept (.union variants) value ↔ ∃ d ∈ variants, d.isNull = false ∧ Kept d value := by
  rw [Kept]
  constructor
  · rintro ⟨d, h⟩
    exact ⟨d.1, d.2, h⟩
  · rintro ⟨d, hd, h⟩
    exact ⟨⟨d, hd⟩, h⟩

section
variable {numberText : Rat → String}

theorem jsonSchemaToDefinition_anyOf (schemas : List JsonSchema) :
    jsonSchemaToDefinition numberText (.object { anyOf := some schemas }) =
      match nullableInner (.object { anyOf := some schemas }) with
      | some inner => jsonSchemaToDefinition numberText inner
      | none => ((nonNullVariants schemas).mapM (jsonSchemaToDefinition numberText)).map .union := by
  rw [jsonSchemaToDefinition.eq_def]
  simp only
  split
  · rename_i variants hoptions
    cases hoptions
    split
    · rename_i hinner
      rw [hinner]
    · rename_i hinner
      rw [hinner, mapM_subtype (fun _ _ => rfl), unattach_attach]
  · rename_i hoptions
    cases hoptions

theorem jsonSchemaToDefinition_array (items : JsonSchema) :
    jsonSchemaToDefinition numberText (.object { type := some (.one .array), items := some (.one items) }) =
      (jsonSchemaToDefinition numberText items).map .array := by
  rw [jsonSchemaToDefinition.eq_def]
  simp only
  split
  · rename_i hoptions
    cases hoptions
  · rfl

def propertyDefinition (numberText : Rat → String) (required : List String) (entry : String × JsonSchema) :
    Option (PropertyDescriptor SchemaDefinition) :=
  if hname : entry.1 ≠ "__proto__" then
    (jsonSchemaToDefinition numberText ((nullableInner entry.2).getD entry.2)).map fun schema =>
      { name := ⟨entry.1, hname⟩
        required := required.contains entry.1
        nullable := (nullableInner entry.2).isSome
        schema }
  else none

theorem jsonSchemaToDefinition_properties (properties : List (String × JsonSchema))
    (required : Option (List String)) (rest : Option JsonSchema) :
    jsonSchemaToDefinition numberText (.object {
        type := some (.one .object)
        properties := some properties
        required := required
        additionalProperties := rest }) =
      ((objectEntries properties).mapM (propertyDefinition numberText (required.getD []))).map .object := by
  rw [jsonSchemaToDefinition.eq_def]
  simp only
  split
  · rename_i hoptions
    cases hoptions
  · congr 1
    rw [mapM_subtype (g := propertyDefinition numberText (required.getD [])) (fun _ _ => rfl),
      unattach_attach]

end

theorem isNullVariant_definition (d : SchemaDefinition) : isNullVariant (definitionToJsonSchema d) = d.isNull := by
  cases d with
  | object properties =>
    rw [definitionToJsonSchema_object]
    rfl
  | union variants =>
    rw [definitionToJsonSchema_union]
    rfl
  | _ =>
    rw [definitionToJsonSchema]
    rfl

theorem nonNullVariants_definitions (variants : List SchemaDefinition) :
    nonNullVariants (variants.map definitionToJsonSchema) =
      (variants.filter (!·.isNull)).map definitionToJsonSchema := by
  rw [nonNullVariants, filter_map]
  congr 2
  funext d
  exact congrArg _ (isNullVariant_definition d)

theorem nullableInner_definition (d : SchemaDefinition) :
    (∃ variants inner, d = .union variants ∧ variants.filter (!·.isNull) = [inner] ∧ d.Optional ∧
      nullableInner (definitionToJsonSchema d) = some (definitionToJsonSchema inner)) ∨
    ¬ d.Optional ∧ nullableInner (definitionToJsonSchema d) = none := by
  by_cases hd : ∃ variants, d = .union variants
  · obtain ⟨variants, rfl⟩ := hd
    have hinner : nullableInner (definitionToJsonSchema (.union variants)) =
        match (variants.filter (!·.isNull)).map definitionToJsonSchema with
        | [inner] => if 1 < variants.length then some inner else none
        | _ => none := by
      rw [definitionToJsonSchema_union, ← nonNullVariants_definitions]
      simp only [nullableInner, JsonSchema.options, JsonSchema.keywords, Option.some_or, length_map]
    rcases hkept : variants.filter (!·.isNull) with _ | ⟨inner, _ | ⟨second, others⟩⟩
    · rw [hkept] at hinner
      exact .inr ⟨fun h => by simp [SchemaDefinition.Optional, hkept] at h, hinner⟩
    · rw [hkept] at hinner
      by_cases hlt : 1 < variants.length
      · exact .inl ⟨variants, inner, rfl, hkept, ⟨by rw [hkept]; rfl, hlt⟩, hinner.trans (if_pos hlt)⟩
      · exact .inr ⟨fun h => hlt h.2, hinner.trans (if_neg hlt)⟩
    · rw [hkept] at hinner
      exact .inr ⟨fun h => by simp [SchemaDefinition.Optional, hkept] at h, hinner⟩
  · right
    have hunion : ∀ variants, d ≠ .union variants := fun variants he => hd ⟨variants, he⟩
    obtain ⟨k, hk, hoptions⟩ := plain_schema hunion
    refine ⟨fun h => ?_, by rw [nullableInner, hk, hoptions]⟩
    cases d with
    | union variants => exact hunion variants rfl
    | _ => exact h

theorem kept_of_filter {inner : SchemaDefinition} (h : variants.filter (!·.isNull) = [inner]): Kept (.union variants) value ↔ Kept inner value := by
  have hmem (d : SchemaDefinition) : d ∈ variants ∧ d.isNull = false ↔ d = inner := by
    have hfilter := @mem_filter SchemaDefinition (!·.isNull) variants d
    rw [h, mem_singleton, Bool.not_eq_true'] at hfilter
    exact hfilter.symm
  rw [kept_union]
  constructor
  · rintro ⟨d, hd, hnull, hkept⟩
    rwa [(hmem d).1 ⟨hd, hnull⟩] at hkept
  · intro hkept
    obtain ⟨hd, hnull⟩ := (hmem inner).2 rfl
    exact ⟨inner, hd, hnull, hkept⟩

def Decodes (numberText : Rat → String) (d : SchemaDefinition) : Prop :=
  ∃ decoded, jsonSchemaToDefinition numberText (definitionToJsonSchema d) = some decoded ∧
    ∀ value, Matches true decoded value ↔ Kept d value

theorem exists_mem_iff_of_forall₂ {P : α → Prop} {Q : β → Prop} {as : List α} {bs : List β}
    (h : List.Forall₂ (fun a b => Q b ↔ P a) as bs) : (∃ b ∈ bs, Q b) ↔ ∃ a ∈ as, P a := by
  induction h with
  | nil => simp
  | cons hhead _ ih => rw [exists_mem_cons_iff, exists_mem_cons_iff, hhead, ih]

section
variable {numberText : Rat → String}

theorem decodes_union (ih : ∀ d ∈ variants, Decodes numberText d) :
    Decodes numberText (.union variants) := by
  rcases nullableInner_definition (.union variants) with ⟨_, inner, hd, hkept, -, hinner⟩ | ⟨-, hinner⟩
  · cases hd
    have hmem : inner ∈ variants := (mem_filter.1 (hkept ▸ mem_singleton_self inner)).1
    obtain ⟨decoded, hdecoded, hmatches⟩ := ih inner hmem
    refine ⟨decoded, ?_, fun value => (hmatches value).trans (kept_of_filter hkept).symm⟩
    rw [definitionToJsonSchema_union] at hinner ⊢
    rw [jsonSchemaToDefinition_anyOf, hinner]
    exact hdecoded
  · obtain ⟨decoded, hdecoded, hall⟩ := mapM_some_of_forall
      (f := jsonSchemaToDefinition numberText ∘ definitionToJsonSchema) fun d hd => ih d (mem_filter.1 hd).1
    refine ⟨.union decoded, ?_, fun value => ?_⟩
    · rw [definitionToJsonSchema_union] at hinner ⊢
      rw [jsonSchemaToDefinition_anyOf, hinner, nonNullVariants_definitions, mapM_map]
      exact congrArg (Option.map SchemaDefinition.union) hdecoded
    · have hvariants := exists_mem_iff_of_forall₂ (hall.imp fun _ _ h => h value)
      rw [matches_union, kept_union, hvariants]
      simp only [mem_filter, Bool.not_eq_true', and_assoc]

theorem decodes_array (ih : Decodes numberText items) : Decodes numberText (.array items) := by
  obtain ⟨decoded, hdecoded, hmatches⟩ := ih
  refine ⟨.array decoded, ?_, fun value => ?_⟩
  · rw [definitionToJsonSchema, jsonSchemaToDefinition_array, hdecoded]
    rfl
  · rw [matches_array, Kept]
    simp only [hmatches]

structure ReadsAs (properties : List (PropertyDescriptor SchemaDefinition)) (entry : String × JsonSchema)
    (p' : PropertyDescriptor SchemaDefinition) : Prop where
  name : p'.name.1 = entry.1
  required : p'.required = (requiredNames properties).contains entry.1
  matches_iff : ∀ p, propertyNamed properties entry.1 = some p → ∀ value,
    Matches true p'.definition value ↔ Kept p.definition value ∨ value = .null ∧ p.definition.Optional

theorem propertyDefinition_readsAs (hentry : entry ∈ propertySchemas properties)
    (ih : ∀ d, sizeOf d < sizeOf (SchemaDefinition.object properties) → Decodes numberText d) :
    ∃ p', propertyDefinition numberText (requiredNames properties) entry = some p' ∧
      ReadsAs properties entry p' := by
  obtain ⟨p, hp, he⟩ := mem_propertySchemas.1 hentry
  have hname : entry.1 ≠ "__proto__" := (propertyNamed_mem hp).2 ▸ p.name.2
  have hsize := sizeOf_definition_lt (propertyNamed_mem hp).1
  rw [propertyDefinition, dif_pos hname, he]
  rcases nullableInner_definition p.definition with ⟨variants, inner, hd, hkept, hoptional, hinner⟩ | ⟨hoptional, hinner⟩
  · have hmem : inner ∈ variants := (mem_filter.1 (hkept ▸ mem_singleton_self inner)).1
    obtain ⟨decoded, hdecoded, hmatches⟩ := ih inner ((hd ▸ sizeOf_variant_lt hmem).trans hsize)
    rw [hinner, Option.getD_some, hdecoded]
    refine ⟨_, rfl, rfl, rfl, fun p' hp' value => ?_⟩
    obtain rfl := Option.some.inj (hp.symm.trans hp')
    have hunion : Matches true (.union [decoded, .null]) value ↔ Matches true decoded value ∨ value = .null := by
      rw [matches_union]
      simp [Matches]
    have hinner' : Kept p.definition value ↔ Kept inner value := by
      rw [hd, kept_of_filter hkept]
    rw [hinner', and_iff_left hoptional, ← hmatches]
    exact hunion
  · obtain ⟨decoded, hdecoded, hmatches⟩ := ih p.definition hsize
    rw [hinner, Option.getD_none, hdecoded]
    refine ⟨_, rfl, rfl, rfl, fun p' hp' value => ?_⟩
    obtain rfl := Option.some.inj (hp.symm.trans hp')
    rw [PropertyDescriptor.definition, if_neg (by simp), hmatches]
    simp [hoptional]

theorem names_of_readsAs (h : List.Forall₂ (ReadsAs properties) entries decoded) :
    decoded.map (·.name.1) = entries.map Prod.fst := by
  induction h with
  | nil => rfl
  | cons hhead _ ih => rw [map_cons, map_cons, hhead.name, ih]

theorem propertyNamed_iff_of_nodup (hnodup : (properties.map (·.name.1)).Nodup) :
    propertyNamed properties key = some p ↔ p ∈ properties ∧ p.name.1 = key := by
  constructor
  · exact propertyNamed_mem
  · rintro ⟨hmem, rfl⟩
    obtain ⟨p', hp'⟩ := propertyNamed_of_mem hmem
    obtain ⟨hmem', hname⟩ := propertyNamed_mem hp'
    rw [hp', inj_on_of_nodup_map hnodup hmem' hmem hname]

theorem exists_of_forall₂ (h : List.Forall₂ R as bs) (ha : a ∈ as): ∃ b ∈ bs, R a b := by
  induction h with
  | nil => cases ha
  | cons hhead _ ih =>
    rcases mem_cons.1 ha with rfl | ha
    · exact ⟨_, mem_cons_self .., hhead⟩
    · obtain ⟨b, hb, hR⟩ := ih ha
      exact ⟨b, mem_cons_of_mem _ hb, hR⟩

theorem decodes_object
    (ih : ∀ d, sizeOf d < sizeOf (SchemaDefinition.object properties) → Decodes numberText d) :
    Decodes numberText (.object properties) := by
  obtain ⟨decoded, hdecoded, hall⟩ := mapM_some_of_forall
    fun (entry : String × JsonSchema) (hentry : entry ∈ objectEntries (propertySchemas properties)) => propertyDefinition_readsAs (mem_objectEntries.1 hentry) ih
  have hread {p' : PropertyDescriptor SchemaDefinition} (hp' : p' ∈ decoded) :
      ∃ entry ∈ propertySchemas properties, ReadsAs properties entry p' := by
    obtain ⟨entry, hentry, hreads⟩ := exists_of_forall₂ hall.flip hp'
    exact ⟨entry, mem_objectEntries.1 hentry, hreads⟩
  have hwritten {key : String} {p : PropertyDescriptor SchemaDefinition} (hp : propertyNamed properties key = some p) :
      ∃ p' ∈ decoded, ReadsAs properties (key, definitionToJsonSchema p.definition) p' :=
    exists_of_forall₂ hall (mem_objectEntries.2 (mem_propertySchemas.2 ⟨p, hp, rfl⟩))
  have hnodup : (decoded.map (·.name.1)).Nodup := by
    have hnil : (([] : List (String × JsonSchema)).map Prod.fst).Nodup := nodup_nil
    have hkeys : ((propertySchemas properties).map Prod.fst).Nodup := nodup_foldl_setKey _ _ _ hnil
    rw [names_of_readsAs hall]
    exact nodup_objectEntries hkeys
  refine ⟨.object decoded, ?_, fun value => ?_⟩
  · rw [definitionToJsonSchema_object, jsonSchemaToDefinition_properties, required_getD, hdecoded]
    rfl
  · rw [matches_object, kept_object]
    refine exists_congr fun fields => and_congr_right fun _ => and_congr ?_ (forall₂_congr fun field _ => ?_)
    · constructor
      · intro h p hp hrequired
        obtain ⟨named, hnamed⟩ := propertyNamed_of_mem hp
        obtain ⟨p', hp', hreads⟩ := hwritten hnamed
        have hname : p'.name.1 = p.name.1 := hreads.name
        rw [← hname]
        apply h p' hp'
        rw [hreads.required, contains_eq_mem, decide_eq_true_eq, mem_requiredNames]
        exact ⟨p, hp, hrequired, rfl⟩
      · intro h p' hp' hrequired
        obtain ⟨entry, -, hreads⟩ := hread hp'
        rw [hreads.required, contains_eq_mem, decide_eq_true_eq, mem_requiredNames] at hrequired
        obtain ⟨p, hp, hrequired, hname⟩ := hrequired
        rw [hreads.name, ← hname]
        exact h p hp hrequired
    · cases hp : propertyNamed properties field.1 with
      | some p =>
        obtain ⟨p', hp', hreads⟩ := hwritten hp
        rw [(propertyNamed_iff_of_nodup hnodup).2 ⟨hp', hreads.name⟩]
        simp [hreads.matches_iff p hp]
      | none =>
        have hnone : propertyNamed decoded field.1 = none := by
          rw [Option.eq_none_iff_forall_ne_some]
          intro p' hp'
          obtain ⟨hmem, hname⟩ := propertyNamed_mem hp'
          obtain ⟨entry, hentry, hreads⟩ := hread hmem
          obtain ⟨p, hnamed, -⟩ := mem_propertySchemas.1 hentry
          rw [← hreads.name, hname, hp] at hnamed
          cases hnamed
        simp [hnone]

theorem jsonSchemaToDefinition_typed (name : TypeName) :
    jsonSchemaToDefinition numberText (.object { type := some (.one name) }) = match name with
      | .string => some .string
      | .number => some .number
      | .integer => some .number
      | .boolean => some .boolean
      | .null => some .null
      | .array => some (.array .string)
      | .object => some (.object [])
      | .other _ => some .string := by
  rw [jsonSchemaToDefinition.eq_def]
  simp only
  split
  · rename_i hoptions
    cases hoptions
  · cases name <;> rfl

theorem decodes (numberText : Rat → String) (d : SchemaDefinition) : Decodes numberText d := by
  cases d with
  | string => exact ⟨.string, by rw [definitionToJsonSchema, jsonSchemaToDefinition_typed], fun _ => by simp [Kept]⟩
  | number => exact ⟨.number, by rw [definitionToJsonSchema, jsonSchemaToDefinition_typed], fun _ => by simp [Kept]⟩
  | boolean => exact ⟨.boolean, by rw [definitionToJsonSchema, jsonSchemaToDefinition_typed], fun _ => by simp [Kept]⟩
  | null => exact ⟨.null, by rw [definitionToJsonSchema, jsonSchemaToDefinition_typed], fun _ => by simp [Kept]⟩
  | object properties => exact decodes_object fun d _ => decodes numberText d
  | array items => exact decodes_array (decodes numberText items)
  | enum values =>
    refine ⟨.enum values, ?_, fun _ => by simp [Kept]⟩
    rw [definitionToJsonSchema, jsonSchemaToDefinition]
    simp [valueText, Function.comp_def]
  | literal literal =>
    refine ⟨.literal literal, ?_, fun _ => by simp [Kept]⟩
    rw [definitionToJsonSchema, jsonSchemaToDefinition]
    cases literal <;> rfl
  | union variants => exact decodes_union fun d hd => decodes numberText d
termination_by sizeOf d
decreasing_by
  · subst_vars
    assumption
  · subst_vars
    simp
  · subst_vars
    exact sizeOf_variant_lt hd

end

theorem SchemaDefinition.Optional.matches_null (h : d.Optional) : Matches true d .null := by
  cases d with
  | union variants =>
    obtain ⟨hone, hmore⟩ := h
    have hnull : ∃ d ∈ variants, d.isNull = true := by
      by_contra hnone
      have hall : variants.filter (!·.isNull) = variants := by
        apply filter_eq_self.2
        intro d hd
        rw [Bool.not_eq_true', Bool.eq_false_iff]
        exact fun hd' => hnone ⟨d, hd, hd'⟩
      rw [hall] at hone
      omega
    obtain ⟨d, hd, hisNull⟩ := hnull
    refine matches_union.2 ⟨d, hd, ?_⟩
    cases d with
    | null => rw [Matches]
    | _ => cases hisNull
  | _ => exact h.elim

theorem matches_of_kept (d : SchemaDefinition) (value : Json) (h : Kept d value) : Matches true d value := by
  cases d with
  | object properties =>
    obtain ⟨fields, hfields, hrequired, hall⟩ := kept_object.1 h
    refine matches_object.2 ⟨fields, hfields, hrequired, fun field hfield => ⟨fun p hp => ?_, ?_⟩⟩
    · rcases (hall field hfield).1 p hp with hkept | ⟨hnull, hoptional⟩
      · exact matches_of_kept p.definition field.2 hkept
      · exact hnull ▸ hoptional.matches_null
    · exact fun hp _ => (hall field hfield).2 hp
  | array items =>
    rw [Kept] at h
    obtain ⟨values, hvalues, hall⟩ := h
    exact matches_array.2 ⟨values, hvalues, fun v hv => matches_of_kept items v (hall v hv)⟩
  | union variants =>
    obtain ⟨d, hd, -, hkept⟩ := kept_union.1 h
    exact matches_union.2 ⟨d, hd, matches_of_kept d value hkept⟩
  | _ => simpa [Kept] using h
termination_by sizeOf d
decreasing_by
  · subst_vars
    exact sizeOf_definition_lt (propertyNamed_mem hp).1
  · subst_vars
    simp
  · subst_vars
    exact sizeOf_variant_lt hd

/-- Reading and writing a schema keeps its values. -/
def RoundTrips (numberText : Rat → String) (d : SchemaDefinition) : Prop :=
  ∃ decoded, jsonSchemaToDefinition numberText (definitionToJsonSchema d) = some decoded ∧
    ∀ defs depth value, schemaAccepts defs depth (definitionToJsonSchema decoded) value =
      schemaAccepts defs depth (definitionToJsonSchema d) value

theorem RoundTrips.kept (h : RoundTrips numberText d) (value : Json) (hvalue : Matches true d value): Kept d value := by
  obtain ⟨decoded, hdecoded, hmatches⟩ := decodes numberText d
  obtain ⟨decoded', hdecoded', h⟩ := h
  obtain rfl := Option.some.inj (hdecoded.symm.trans hdecoded')
  rw [← hmatches]
  have haccepts := (h [] 0 value).trans (accepts_iff_matches.2 hvalue)
  exact accepts_iff_matches.1 haccepts

/-- The round trip loses exactly the values that need a variant `null` of a union that is no optional property. No
property of a definition is named `__proto__`. -/
theorem roundTrips_iff (numberText : Rat → String) (d : SchemaDefinition) :
    RoundTrips numberText d ↔ ∀ value, Matches true d value → Kept d value := by
  constructor
  · exact RoundTrips.kept
  · intro h
    obtain ⟨decoded, hdecoded, hmatches⟩ := decodes numberText d
    refine ⟨decoded, hdecoded, fun defs depth value => ?_⟩
    rw [Bool.eq_iff_iff, accepts_iff_matches, accepts_iff_matches, hmatches]
    exact ⟨matches_of_kept d value, h value⟩

def missableTags : SchemaDefinition :=
  .object [⟨⟨"tags", by decide⟩, true, false, .array (.union [.string, .null])⟩]

theorem missableTags_not_roundTrips : ¬ ∃ numberText, RoundTrips numberText missableTags := by
  rintro ⟨numberText, h⟩
  have hmatches : Matches true missableTags (.obj [("tags", .arr [.null])]) := by
    simp [missableTags, matches_object, matches_array, matches_union, Matches, propertyNamed,
      PropertyDescriptor.definition, hasKey]
  have hkept := h.kept _ hmatches
  simp [missableTags, kept_object, Kept, kept_union, SchemaDefinition.Optional, SchemaDefinition.isNull, Matches,
    propertyNamed, PropertyDescriptor.definition, hasKey, Json.typeOf] at hkept

end Trakrai.Workflow
