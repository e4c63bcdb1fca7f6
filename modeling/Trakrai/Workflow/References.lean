import Trakrai.Workflow.SchemaMatching

namespace Trakrai.Workflow
open List Lib

def Keywords.below (keywords : Keywords JsonSchema) : List JsonSchema :=
  keywords.anyOf.getD [] ++ keywords.oneOf.getD [] ++ keywords.allOf.getD [] ++
    (keywords.properties.getD []).map Prod.snd ++ keywords.propertyNames.toList ++
    keywords.additionalProperties.toList ++ keywords.prefixItems.getD [] ++
    match keywords.items with
    | some (.one schema) => [schema]
    | some (.many schemas) => schemas
    | none => []

/-- A schema refers to a name, itself or further below. -/
inductive Mentions : JsonSchema → String → Prop where
  | here {k : Keywords JsonSchema} : k.ref = some ref → Mentions (.object k) ref
  | deeper {k : Keywords JsonSchema} : schema ∈ k.below → Mentions schema ref → Mentions (.object k) ref

/-- A schema that can be read without definitions. -/
def SelfContained (schema : JsonSchema) : Prop := ∀ ref, ¬ Mentions schema ref

theorem selfContained_keywordless : SelfContained (.object {}) := by
  intro ref hmentions
  cases hmentions with
  | here href => cases href
  | deeper hschema => simp [Keywords.below] at hschema

def variantsError (keywords : Keywords JsonSchema) (variants : List JsonSchema) (accepts : JsonSchema → Bool)
    (path : String) : Option SchemaError :=
  if keywords.oneOf.isSome then
    if (variants.filter accepts).length = 1 then none else some ⟨path, .notExactlyOne⟩
  else if (variants.filter accepts).length > 0 then none else some ⟨path, .notAny⟩

section
variable {resolve : String → Json → String → Option SchemaError} {keywords : Keywords JsonSchema} {value : Json}

theorem length_filter_attach (items : List α) :
    (items.attach.filter fun item => p item.1).length = (items.filter p).length := by
  conv_rhs => rw [← attach_map_subtype_val items, filter_map, length_map]
  rfl

theorem findSome?_attach (items : List α) :
    (items.attach.findSome? fun item => f item.1) = items.findSome? f := by
  conv_rhs => rw [← attach_map_subtype_val items, List.findSome?_map]
  rfl

theorem findSome?_congr {f g : α → Option β} {items : List α} (h : ∀ item ∈ items, f item = g item) :
    items.findSome? f = items.findSome? g := by
  induction items with
  | nil => rfl
  | cons item items ih =>
    obtain ⟨hitem, hitems⟩ := forall_mem_cons.1 h
    rw [List.findSome?_cons, List.findSome?_cons, hitem, ih hitems]

theorem validate_variants (href : keywords.ref = none) (hopts : (JsonSchema.object keywords).options = some variants)
    (path : String) :
    validateJsonSchemaValue resolve (.object keywords) value path =
      variantsError keywords variants (fun variant => (validateJsonSchemaValue resolve variant value path).isNone)
        path := by
  rw [validateJsonSchemaValue.eq_def, variantsError, ← length_filter_attach]
  simp only [href]
  split
  · rename_i variants' h
    cases hopts.symm.trans h
    rfl
  · rename_i h
    cases hopts.symm.trans h

theorem validate_plain (href : keywords.ref = none) (hopts : (JsonSchema.object keywords).options = none)
    (path : String) :
    validateJsonSchemaValue resolve (.object keywords) value path =
      ((keywords.allOf.getD []).findSome? (validateJsonSchemaValue resolve · value path) <|>
        flatError keywords value path <|> shapeError resolve keywords value path) := by
  rw [validateJsonSchemaValue.eq_def, ← findSome?_attach]
  simp only [href]
  split
  · rename_i variants' h
    cases hopts.symm.trans h
  · cases keywords.allOf with
    | none => rfl
    | some parts => rfl

end

/-- `validateJsonSchemaValue` of a value that is known by its answers for references and by the checks that a schema
without alternatives makes. -/
def validateWith (resolve : String → String → Option SchemaError)
    (check : Keywords JsonSchema → String → Option SchemaError) (schema : JsonSchema) (path : String) :
    Option SchemaError :=
  match schema with
  | .bool allowed => if allowed then none else some ⟨path, .notAllowed⟩
  | .object keywords =>
    match keywords.ref with
    | some ref => resolve ref path
    | none =>
      match _hopts : (JsonSchema.object keywords).options with
      | some variants =>
        let successes := variants.attach.filter fun variant => (validateWith resolve check variant.1 path).isNone
        if keywords.oneOf.isSome then
          if successes.length = 1 then none else some ⟨path, .notExactlyOne⟩
        else if successes.length > 0 then none else some ⟨path, .notAny⟩
      | none =>
        (match _hall : keywords.allOf with
        | some parts => parts.attach.findSome? fun part => validateWith resolve check part.1 path
        | none => none) <|>
        check keywords path
termination_by sizeOf schema
decreasing_by
  · exact lt_trans (sizeOf_lt_of_mem variant.2) (JsonSchema.sizeOf_options _hopts)
  · have hparts : (JsonSchema.object keywords).keywords.allOf = some parts := _hall
    exact lt_trans (sizeOf_lt_of_mem part.2) (JsonSchema.sizeOf_allOf hparts)

section
variable {resolve resolve' : String → String → Option SchemaError}
  {check check' : Keywords JsonSchema → String → Option SchemaError} {keywords : Keywords JsonSchema}
  {path path' : String}

theorem validateWith_ref (href : keywords.ref = some ref) :
    validateWith resolve check (.object keywords) path = resolve ref path := by
  rw [validateWith.eq_def]
  simp only [href]

theorem validateWith_variants (href : keywords.ref = none)
    (hopts : (JsonSchema.object keywords).options = some variants) :
    validateWith resolve check (.object keywords) path =
      variantsError keywords variants (fun variant => (validateWith resolve check variant path).isNone) path := by
  rw [validateWith.eq_def, variantsError, ← length_filter_attach]
  simp only [href]
  split
  · rename_i variants' h
    cases hopts.symm.trans h
    rfl
  · rename_i h
    cases hopts.symm.trans h

theorem validateWith_plain (href : keywords.ref = none) (hopts : (JsonSchema.object keywords).options = none) :
    validateWith resolve check (.object keywords) path =
      ((keywords.allOf.getD []).findSome? (validateWith resolve check · path) <|> check keywords path) := by
  rw [validateWith.eq_def, ← findSome?_attach]
  simp only [href]
  split
  · rename_i variants' h
    cases hopts.symm.trans h
  · cases keywords.allOf with
    | none => rfl
    | some parts => rfl

theorem variantsError_eq_none_congr (h : ∀ variant ∈ variants, accepts variant = accepts' variant):
    variantsError keywords variants accepts path = none ↔ variantsError keywords variants accepts' path' = none := by
  rw [variantsError, variantsError, filter_congr h]
  split
  · simp
  · simp

theorem mem_below_of_anyOf (h : variant ∈ keywords.anyOf.getD []) : variant ∈ keywords.below := by
  simp only [Keywords.below, mem_append]
  tauto

theorem mem_below_of_oneOf (h : variant ∈ keywords.oneOf.getD []) : variant ∈ keywords.below := by
  simp only [Keywords.below, mem_append]
  tauto

theorem mem_below_of_options (hopts : (JsonSchema.object keywords).options = some variants)
    (h : variant ∈ variants) : variant ∈ keywords.below := by
  have hor : keywords.anyOf.or keywords.oneOf = some variants := hopts
  rcases Option.or_eq_some_iff.1 hor with hany | ⟨-, hone⟩
  · apply mem_below_of_anyOf
    rw [hany]
    exact h
  · apply mem_below_of_oneOf
    rw [hone]
    exact h

theorem mem_below_of_allOf (h : part ∈ keywords.allOf.getD []) : part ∈ keywords.below := by
  simp only [Keywords.below, mem_append]
  tauto

theorem mem_below_of_prefixItems (hitems : keywords.prefixItems = some prefixItems) (h : schema ∈ prefixItems) :
    schema ∈ keywords.below := by
  simp only [Keywords.below, hitems, Option.getD_some, mem_append]
  tauto

theorem mem_below_of_items (h : keywords.items = some (.one schema)) : schema ∈ keywords.below := by
  simp [Keywords.below, h]

theorem mem_below_of_propertyNames (h : keywords.propertyNames = some schema) : schema ∈ keywords.below := by
  simp [Keywords.below, h]

theorem mem_below_of_additionalProperties (h : keywords.additionalProperties = some schema) :
    schema ∈ keywords.below := by
  simp [Keywords.below, h]

theorem mem_below_of_properties (h : entry ∈ keywords.properties.getD []) : entry.2 ∈ keywords.below := by
  simp only [Keywords.below, mem_append]
  have hmem := mem_map_of_mem (f := Prod.snd) h
  tauto

theorem sizeOf_lt_of_mem_getD {a : α} [SizeOf α] {items : Option (List α)} (h : a ∈ items.getD []) :
    sizeOf a < sizeOf items := by
  cases items with
  | none => cases h
  | some items =>
    have hlt := sizeOf_lt_of_mem h
    rw [Option.getD_some] at hlt
    rw [Option.some.sizeOf_spec]
    omega

theorem sizeOf_below_lt (h : schema ∈ keywords.below) : sizeOf schema < sizeOf (JsonSchema.object keywords) := by
  obtain ⟨ref, anyOf, oneOf, allOf, const, enum, type, properties, required, names, rest, items, prefixItems⟩ := keywords
  simp only [Keywords.below, mem_append, Option.mem_toList] at h
  simp only [JsonSchema.object.sizeOf_spec, Keywords.mk.sizeOf_spec]
  rcases h with ((((((h | h) | h) | h) | h) | h) | h) | h
  · have hlt := sizeOf_lt_of_mem_getD h
    omega
  · have hlt := sizeOf_lt_of_mem_getD h
    omega
  · have hlt := sizeOf_lt_of_mem_getD h
    omega
  · obtain ⟨⟨key, s⟩, hentry, rfl⟩ := mem_map.1 h
    have hlt := sizeOf_lt_of_mem_getD hentry
    simp only [Prod.mk.sizeOf_spec] at hlt ⊢
    omega
  · have hlt : sizeOf names = 1 + sizeOf schema := by rw [h, Option.some.sizeOf_spec]
    omega
  · have hlt : sizeOf rest = 1 + sizeOf schema := by rw [h, Option.some.sizeOf_spec]
    omega
  · have hlt := sizeOf_lt_of_mem_getD h
    omega
  · cases items with
    | none => cases h
    | some items =>
      simp only [Option.some.sizeOf_spec]
      cases items with
      | one s =>
        rw [mem_singleton.1 h, Items.one.sizeOf_spec]
        omega
      | many schemas =>
        have hlt : sizeOf schema < sizeOf schemas := sizeOf_lt_of_mem h
        rw [Items.many.sizeOf_spec]
        omega

theorem validateWith_congr {P : JsonSchema → Prop} (hbelow : ∀ keywords, P (.object keywords) → ∀ s ∈ keywords.below, P s)
    (hresolve : ∀ (keywords : Keywords JsonSchema) ref, P (.object keywords) → keywords.ref = some ref →
      (resolve ref path = none ↔ resolve' ref path' = none))
    (hcheck : ∀ keywords, P (.object keywords) → (check keywords path = none ↔ check' keywords path' = none))
    (schema : JsonSchema) (h : P schema) :
    validateWith resolve check schema path = none ↔ validateWith resolve' check' schema path' = none := by
  cases schema with
  | bool allowed =>
    rw [validateWith.eq_def, validateWith.eq_def]
    cases allowed with
    | true => simp
    | false => simp
  | object keywords =>
    cases href : keywords.ref with
    | some ref =>
      rw [validateWith_ref href, validateWith_ref href]
      exact hresolve keywords ref h href
    | none =>
      cases hopts : (JsonSchema.object keywords).options with
      | some variants =>
        rw [validateWith_variants href hopts, validateWith_variants href hopts]
        apply variantsError_eq_none_congr
        intro variant hvariant
        have hlt := sizeOf_below_lt (mem_below_of_options hopts hvariant)
        rw [Bool.eq_iff_iff, Option.isNone_iff_eq_none, Option.isNone_iff_eq_none]
        exact validateWith_congr hbelow hresolve hcheck variant
          (hbelow keywords h variant (mem_below_of_options hopts hvariant))
      | none =>
        rw [validateWith_plain href hopts, validateWith_plain href hopts, orElse_eq_none, orElse_eq_none,
          hcheck keywords h, List.findSome?_eq_none_iff, List.findSome?_eq_none_iff]
        apply and_congr_left'
        apply forall₂_congr
        intro part hpart
        have hlt := sizeOf_below_lt (mem_below_of_allOf hpart)
        exact validateWith_congr hbelow hresolve hcheck part
          (hbelow keywords h part (mem_below_of_allOf hpart))
termination_by sizeOf schema
decreasing_by
  · subst_vars
    exact hlt
  · subst_vars
    exact hlt

end

section
variable {resolve resolve' : String → Json → String → Option SchemaError} {keywords : Keywords JsonSchema}

theorem validate_eq_with (resolve : String → Json → String → Option SchemaError) (schema : JsonSchema) (value : Json)
    (path : String) :
    validateJsonSchemaValue resolve schema value path = validateWith (resolve · value ·)
        (fun keywords path => flatError keywords value path <|> shapeError resolve keywords value path) schema path := by
  cases schema with
  | bool allowed => rw [validateJsonSchemaValue.eq_def, validateWith.eq_def]
  | object keywords =>
    cases href : keywords.ref with
    | some ref =>
      rw [validateWith_ref href, validateJsonSchemaValue.eq_def]
      simp only [href]
    | none =>
      cases hopts : (JsonSchema.object keywords).options with
      | some variants =>
        rw [validate_variants href hopts, validateWith_variants href hopts, variantsError, variantsError]
        have hsame : ∀ variant ∈ variants, (validateJsonSchemaValue resolve variant value path).isNone =
            (validateWith (resolve · value ·)
              (fun keywords path => flatError keywords value path <|> shapeError resolve keywords value path)
              variant path).isNone := by
          intro variant hvariant
          have hlt := sizeOf_below_lt (mem_below_of_options hopts hvariant)
          rw [validate_eq_with resolve variant value path]
        rw [filter_congr hsame]
      | none =>
        rw [validate_plain href hopts, validateWith_plain href hopts]
        congr 1
        apply findSome?_congr
        intro part hpart
        have hlt := sizeOf_below_lt (mem_below_of_allOf hpart)
        exact validate_eq_with resolve part value path
termination_by sizeOf schema
decreasing_by
  · subst_vars
    exact hlt
  · subst_vars
    exact hlt

theorem validate_bool (allowed : Bool) (value : Json) (path : String) :
    validateJsonSchemaValue resolve (.bool allowed) value path = if allowed then none else some ⟨path, .notAllowed⟩ := by
  rw [validateJsonSchemaValue.eq_def]

theorem validateArrayItems_eq_none {items : List Json} {path : String} :
    validateArrayItems resolve keywords items path = none ↔
      (∀ prefixItems, keywords.prefixItems = some prefixItems → prefixItems.length ≤ items.length ∧
        ∀ entry ∈ (items.zip prefixItems).zipIdx,
          validateJsonSchemaValue resolve entry.1.2 entry.1.1 (pathForIndex path entry.2) = none) ∧
      ∀ schema, keywords.items = some (.one schema) → ∀ entry ∈ items.zipIdx,
        validateJsonSchemaValue resolve schema entry.1 (pathForIndex path entry.2) = none := by
  rw [validateArrayItems, orElse_eq_none]
  apply and_congr
  · rw [Option.bind_eq_none_iff]
    apply forall₂_congr
    intro prefixItems _
    split
    · rename_i hlt
      simp [hlt]
    · rename_i hlt
      simp only [List.findSome?_eq_none_iff, mem_attach, forall_const, Subtype.forall]
      exact (and_iff_right (Nat.le_of_not_lt hlt)).symm
  · split
    · rename_i schema hitems
      simp [hitems]
    · rename_i hitems
      simp only [true_iff]
      intro schema h
      exact absurd h (hitems schema)

theorem validateObjectShape_eq_none {fields : List (String × Json)} {path : String} :
    validateObjectShape resolve keywords fields path = none ↔
      (∀ key ∈ keywords.required.getD [], hasKey fields key) ∧ ∀ field ∈ fields,
        (∀ s, lookupSchema (keywords.properties.getD []) field.1 = some s →
          validateJsonSchemaValue resolve s field.2 (pathForKey path field.1) = none) ∧
        (lookupSchema (keywords.properties.getD []) field.1 = none →
          (∀ s, keywords.propertyNames = some s →
            validateJsonSchemaValue resolve s (.str field.1) (pathForKey path field.1) = none) ∧
          ∀ s, keywords.additionalProperties = some s →
            validateJsonSchemaValue resolve s field.2 (pathForKey path field.1) = none) := by
  rw [validateObjectShape, orElse_eq_none]
  simp only [List.findSome?_eq_none_iff, ite_eq_left_iff, reduceCtorEq, imp_false, Bool.not_eq_true,
    Bool.not_eq_false, mem_attach, forall_const, Subtype.forall]
  apply and_congr_right'
  apply forall₂_congr
  intro field _
  cases lookupSchema (keywords.properties.getD []) field.1 with
  | some s => simp
  | none =>
    simp only [reduceCtorEq, false_imp_iff, implies_true, true_and, forall_const, orElse_eq_none,
      Option.bind_eq_none_iff]
    apply and_congr_right'
    split
    · rename_i h
      simp [h]
    · rename_i h
      simp [h, validate_bool]
    · rename_i h
      simp [h, validate_bool]
    · rename_i s _ _ h
      simp [h]

/-- What two readings of references agree on for the names that a schema mentions. -/
def AgreeOn (resolve resolve' : String → Json → String → Option SchemaError) (schema : JsonSchema) : Prop :=
  ∀ ref, Mentions schema ref → ∀ value path path', resolve ref value path = none ↔ resolve' ref value path' = none

theorem AgreeOn.below (h : AgreeOn resolve resolve' (.object keywords)) :
    ∀ schema ∈ keywords.below, AgreeOn resolve resolve' schema :=
  fun _ hschema ref href => h ref (.deeper hschema href)

theorem AgreeOn.property (h : AgreeOn resolve resolve' (.object keywords))
    (hlookup : lookupSchema (keywords.properties.getD []) key = some schema) : AgreeOn resolve resolve' schema := by
  rw [lookupSchema] at hlookup
  split at hlookup
  · rename_i s hmem
    cases hlookup
    exact h.below _ (mem_below_of_properties (mem_of_lookup hmem))
  · split at hlookup
    · cases hlookup
      exact fun ref hmentions => absurd hmentions (selfContained_keywordless ref)
    · cases hlookup

theorem sizeOf_value_lt {fields : List (String × Json)} {field : String × Json} (h : field ∈ fields) :
    sizeOf field.2 < sizeOf (Json.obj fields) := by
  have hlt := sizeOf_field_lt h
  obtain ⟨name, value⟩ := field
  simp only [Prod.mk.sizeOf_spec] at hlt ⊢
  omega

theorem sizeOf_name_lt {fields : List (String × Json)} {field : String × Json} (h : field ∈ fields) :
    sizeOf (Json.str field.1) < sizeOf (Json.obj fields) := by
  have hlt := sizeOf_field_lt h
  obtain ⟨name, value⟩ := field
  simp only [Prod.mk.sizeOf_spec, Json.str.sizeOf_spec] at hlt ⊢
  omega

theorem flatError_eq_none_congr {value : Json} {path path' : String} :
    flatError keywords value path = none ↔ flatError keywords value path' = none := by
  simp [flatError, Option.bind_eq_none_iff]

theorem validate_congr (schema : JsonSchema) (h : AgreeOn resolve resolve' schema) (value : Json) (path path' : String) :
    validateJsonSchemaValue resolve schema value path = none ↔
      validateJsonSchemaValue resolve' schema value path' = none := by
  rw [validate_eq_with, validate_eq_with]
  apply validateWith_congr (P := AgreeOn resolve resolve') (fun keywords h => h.below) ?_ ?_ schema h
  · intro keywords ref h href
    exact h ref (.here href) value path path'
  · intro keywords h
    rw [orElse_eq_none, orElse_eq_none]
    apply and_congr flatError_eq_none_congr
    cases value with
    | arr items =>
      rw [shapeError, shapeError, validateArrayItems_eq_none, validateArrayItems_eq_none]
      apply and_congr
      · apply forall₂_congr
        intro prefixItems hprefix
        apply and_congr_right'
        apply forall₂_congr
        intro entry hentry
        obtain ⟨hitem, hschema⟩ := of_mem_zip (fst_mem_of_mem_zipIdx hentry)
        have hlt := sizeOf_item_lt hitem
        exact validate_congr entry.1.2 (h.below _ (mem_below_of_prefixItems hprefix hschema)) entry.1.1 _ _
      · apply forall₂_congr
        intro schema hitems
        apply forall₂_congr
        intro entry hentry
        have hlt := sizeOf_item_lt (fst_mem_of_mem_zipIdx hentry)
        exact validate_congr schema (h.below _ (mem_below_of_items hitems)) entry.1 _ _
    | obj fields =>
      rw [shapeError, shapeError]
      split
      · simp
      · rw [validateObjectShape_eq_none, validateObjectShape_eq_none]
        apply and_congr_right'
        apply forall₂_congr
        intro field hfield
        have hlt := sizeOf_value_lt hfield
        have hname := sizeOf_name_lt hfield
        apply and_congr
        · apply forall₂_congr
          intro s hlookup
          exact validate_congr s (h.property hlookup) field.2 _ _
        · apply imp_congr_right
          intro _
          apply and_congr
          · apply forall₂_congr
            intro s hs
            exact validate_congr s (h.below s (mem_below_of_propertyNames hs)) (.str field.1) _ _
          · apply forall₂_congr
            intro s hs
            exact validate_congr s (h.below s (mem_below_of_additionalProperties hs)) field.2 _ _
    | null => grind [shapeError, scalarError]
    | bool b => grind [shapeError, scalarError]
    | num n => grind [shapeError, scalarError]
    | str s => grind [shapeError, scalarError]
termination_by sizeOf value
decreasing_by
  all_goals
    subst_vars
    assumption

end

end Trakrai.Workflow
