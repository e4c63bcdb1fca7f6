import Trakrai.Lib.Recursion
import Trakrai.Workflow.References

namespace Trakrai.Workflow
open List Lib Lib.Body Relation

structure SchemaCall where
  schema : JsonSchema
  value : Json
  path : String

abbrev Check := Body SchemaCall (Option SchemaError) (Option SchemaError)

def orCheck (first second : Check) : Check := do
  match ← first with
  | some error => return some error
  | none => second

section
variable (keywords : Keywords JsonSchema)

/-- The body of `validateArrayItems`. -/
def validateArrayItemsBody (items : List Json) (path : String) : Check :=
  orCheck
    (match keywords.prefixItems with
    | none => return none
    | some prefixItems =>
      if items.length < prefixItems.length then return some ⟨path, .expectedItems prefixItems.length⟩
      else (items.zip prefixItems).zipIdx.findSomeM? fun entry =>
        recur ⟨entry.1.2, entry.1.1, pathForIndex path entry.2⟩)
    (match keywords.items with
    | some (.one schema) => items.zipIdx.findSomeM? fun entry => recur ⟨schema, entry.1, pathForIndex path entry.2⟩
    | _ => return none)

/-- The body of `validateObjectShape`. -/
def validateObjectShapeBody (fields : List (String × Json)) (path : String) : Check :=
  match (keywords.required.getD []).find? (fun key => !hasKey fields key) with
  | some key => return some ⟨pathForKey path key, .isRequired⟩
  | none =>
    fields.findSomeM? fun field =>
      match lookupSchema (keywords.properties.getD []) field.1 with
      | some schema => recur ⟨schema, field.2, pathForKey path field.1⟩
      | none =>
        orCheck
          (match keywords.propertyNames with
          | some schema => recur ⟨schema, .str field.1, pathForKey path field.1⟩
          | none => return none)
          (match keywords.additionalProperties with
          | none => return none
          | some (.bool true) => return none
          | some (.bool false) => return some ⟨pathForKey path field.1, .notAllowed⟩
          | some schema => recur ⟨schema, field.2, pathForKey path field.1⟩)

/-- The last checks of `validateJsonSchemaValue`, which go into the value. -/
def validateShapeBody (value : Json) (path : String) : Check :=
  match value with
  | .arr items => validateArrayItemsBody keywords items path
  | value =>
    if keywords.items.isSome || keywords.prefixItems.isSome then
      return some ⟨path, .expectedArray (describeValue value)⟩
    else
      match value with
      | .obj fields => validateObjectShapeBody keywords fields path
      | value => return scalarError keywords value path

end

/-- The body of `validateJsonSchemaValue`, with `defs?.[refName]` for a reference. -/
def validateJsonSchemaValueBody (defs : Option (List (String × JsonSchema))) (c : SchemaCall) : Check :=
  match c.schema with
  | .bool allowed => return if allowed then none else some ⟨c.path, .notAllowed⟩
  | .object keywords =>
    match keywords.ref with
    | some ref =>
      match defs.bind (lookupSchema · (refName ref)) with
      | none => return some ⟨c.path, .unresolved ref⟩
      | some schema => recur ⟨schema, c.value, c.path⟩
    | none =>
      match (JsonSchema.object keywords).options with
      | some variants => do
        let answers ← variants.mapM fun variant => recur ⟨variant, c.value, c.path⟩
        let successes := answers.filter (·.isNone)
        if keywords.oneOf.isSome then
          return if successes.length = 1 then none else some ⟨c.path, .notExactlyOne⟩
        else return if successes.length > 0 then none else some ⟨c.path, .notAny⟩
      | none =>
        orCheck ((keywords.allOf.getD []).findSomeM? fun part => recur ⟨part, c.value, c.path⟩)
          (orCheck (pure (flatError keywords c.value c.path)) (validateShapeBody keywords c.value c.path))

/-- A schema leads to another one for the same value. -/
inductive Unfolds (defs : Option (List (String × JsonSchema))) : JsonSchema → JsonSchema → Prop where
  | ref {keywords : Keywords JsonSchema} : keywords.ref = some ref →
      defs.bind (lookupSchema · (refName ref)) = some schema → Unfolds defs (.object keywords) schema
  | anyOf {keywords : Keywords JsonSchema} : keywords.anyOf = some variants → variant ∈ variants →
      Unfolds defs (.object keywords) variant
  | oneOf {keywords : Keywords JsonSchema} : keywords.oneOf = some variants → variant ∈ variants →
      Unfolds defs (.object keywords) variant
  | allOf {keywords : Keywords JsonSchema} : keywords.allOf = some parts → part ∈ parts →
      Unfolds defs (.object keywords) part

section
variable {defs : Option (List (String × JsonSchema))} {keywords : Keywords JsonSchema} {c c' : SchemaCall}
  {first second : Check} {value : Json}

theorem calls_orCheck (h : Calls (orCheck first second) c) : Calls first c ∨ Calls second c := by
  rcases calls_bind h with h | ⟨answer, h⟩
  · exact .inl h
  · cases answer with
    | some error => exact absurd h not_calls_pure
    | none => exact .inr h

theorem validateArrayItemsBody_calls (h : Calls (validateArrayItemsBody keywords items path) c) :
    sizeOf c.value < sizeOf (Json.arr items) := by
  rcases calls_orCheck h with h | h
  · split at h
    · exact absurd h not_calls_pure
    · split at h
      · exact absurd h not_calls_pure
      · obtain ⟨entry, hentry, h⟩ := calls_findSomeM? h
        obtain rfl := calls_recur h
        exact sizeOf_item_lt (of_mem_zip (fst_mem_of_mem_zipIdx hentry)).1
  · split at h
    · obtain ⟨entry, hentry, h⟩ := calls_findSomeM? h
      obtain rfl := calls_recur h
      exact sizeOf_item_lt (fst_mem_of_mem_zipIdx hentry)
    · exact absurd h not_calls_pure

theorem validateObjectShapeBody_calls (h : Calls (validateObjectShapeBody keywords fields path) c): sizeOf c.value < sizeOf (Json.obj fields) := by
  rw [validateObjectShapeBody] at h
  split at h
  · exact absurd h not_calls_pure
  · obtain ⟨field, hfield, h⟩ := calls_findSomeM? h
    split at h
    · obtain rfl := calls_recur h
      exact sizeOf_value_lt hfield
    · rcases calls_orCheck h with h | h
      · split at h
        · obtain rfl := calls_recur h
          exact sizeOf_name_lt hfield
        · exact absurd h not_calls_pure
      · split at h
        · exact absurd h not_calls_pure
        · exact absurd h not_calls_pure
        · exact absurd h not_calls_pure
        · obtain rfl := calls_recur h
          exact sizeOf_value_lt hfield

theorem validateShapeBody_calls (h : Calls (validateShapeBody keywords value path) c) : sizeOf c.value < sizeOf value := by
  rw [validateShapeBody.eq_def] at h
  split at h
  · exact validateArrayItemsBody_calls h
  · split at h
    · exact absurd h not_calls_pure
    · split at h
      · exact validateObjectShapeBody_calls h
      · exact absurd h not_calls_pure

theorem unfolds_of_options (hopts : (JsonSchema.object keywords).options = some variants) (h : variant ∈ variants) :
    Unfolds defs (.object keywords) variant := by
  rw [JsonSchema.options, Option.or_eq_some_iff] at hopts
  rcases hopts with hany | ⟨-, hone⟩
  · exact .anyOf hany h
  · exact .oneOf hone h

theorem unfolds_of_allOf (h : part ∈ keywords.allOf.getD []) : Unfolds defs (.object keywords) part := by
  cases hall : keywords.allOf with
  | none =>
    rw [hall] at h
    cases h
  | some parts =>
    rw [hall] at h
    exact .allOf hall h

theorem validateJsonSchemaValueBody_calls (h : Calls (validateJsonSchemaValueBody defs c) c') :
    sizeOf c'.value < sizeOf c.value ∨ c'.value = c.value ∧ Unfolds defs c.schema c'.schema := by
  rw [validateJsonSchemaValueBody] at h
  split at h
  · exact absurd h not_calls_pure
  · rename_i keywords hschema
    rw [hschema]
    split at h
    · rename_i ref href
      split at h
      · exact absurd h not_calls_pure
      · rename_i schema hlookup
        obtain rfl := calls_recur h
        exact .inr ⟨rfl, .ref href hlookup⟩
    · split at h
      · rename_i variants hopts
        rcases calls_bind h with h | ⟨answers, h⟩
        · obtain ⟨variant, hvariant, h⟩ := calls_mapM h
          obtain rfl := calls_recur h
          exact .inr ⟨rfl, unfolds_of_options hopts hvariant⟩
        · dsimp only at h
          split at h
          · exact absurd h not_calls_pure
          · exact absurd h not_calls_pure
      · rcases calls_orCheck h with h | h
        · obtain ⟨part, hpart, h⟩ := calls_findSomeM? h
          obtain rfl := calls_recur h
          exact .inr ⟨rfl, unfolds_of_allOf hpart⟩
        · rcases calls_orCheck h with h | h
          · exact absurd h not_calls_pure
          · exact .inl (validateShapeBody_calls h)

end

def targets (defs : Option (List (String × JsonSchema))) : Set JsonSchema :=
  {schema | schema ∈ .object {} :: (defs.getD []).map Prod.snd}

section
variable {defs : Option (List (String × JsonSchema))} {keywords : Keywords JsonSchema} {schema schema' : JsonSchema}

theorem lookup_mem_targets (h : defs.bind (lookupSchema · name) = some schema) : schema ∈ targets defs := by
  obtain ⟨fields, rfl, hlookup⟩ := Option.bind_eq_some_iff.1 h
  have h : lookupSchema fields name = some schema := hlookup
  rw [lookupSchema] at h
  split at h
  · rename_i found hfound
    cases h
    exact mem_cons_of_mem _ (mem_map.2 ⟨(name, schema), mem_of_lookup hfound, rfl⟩)
  · split at h
    · cases h
      exact mem_cons_self ..
    · cases h

theorem Unfolds.smaller_or_target (h : Unfolds defs schema schema') :
    sizeOf schema' < sizeOf schema ∨ schema' ∈ targets defs := by
  cases h with
  | ref href hlookup => exact .inr (lookup_mem_targets hlookup)
  | anyOf hany h => exact .inl (sizeOf_below_lt (mem_below_of_anyOf (hany ▸ h)))
  | oneOf hone h => exact .inl (sizeOf_below_lt (mem_below_of_oneOf (hone ▸ h)))
  | allOf hall h => exact .inl (sizeOf_below_lt (mem_below_of_allOf (hall ▸ h)))

theorem acc_calls (hacyclic : ∀ s, ¬ TransGen (Unfolds defs) s s) (c : SchemaCall) :
    Acc (fun c' c => Calls (validateJsonSchemaValueBody defs c) c') c := by
  obtain ⟨schema, value, path⟩ := c
  have hfinite : (targets defs).Finite := finite_toSet _
  induction hn : sizeOf value using Nat.strong_induction_on generalizing schema value path with
  | _ n ihvalue =>
    have hschema : Acc (fun s' s => Unfolds defs s s') schema :=
      acc_of_acyclic hfinite (fun _ _ => Unfolds.smaller_or_target) fun s _ => hacyclic s
    induction hschema generalizing path with
    | intro schema _ ihschema =>
      refine ⟨_, fun c' hcalls => ?_⟩
      obtain ⟨schema', value', path'⟩ := c'
      rcases validateJsonSchemaValueBody_calls hcalls with hlt | ⟨rfl, hunfolds⟩
      · exact ihvalue _ (hn ▸ hlt) schema' value' path' rfl
      · exact ihschema schema' hunfolds path'

/-- The validator comes back with an answer for every value, where no chain of references, alternatives and parts leads
from a schema back to itself. -/
theorem validateJsonSchemaValue_terminates (defs : Option (List (String × JsonSchema)))
    (hacyclic : ∀ s, ¬ TransGen (Unfolds defs) s s) (schema : JsonSchema) (value : Json) (path : String) :
    ∃ answer, Returns (validateJsonSchemaValueBody defs) ⟨schema, value, path⟩ answer :=
  returns_of_acc (acc_calls hacyclic ⟨schema, value, path⟩)

theorem acyclic_of_plain (hplain : ∀ s ∈ targets defs, ∀ s', ¬ Unfolds defs s s') :
    ∀ s, ¬ TransGen (Unfolds defs) s s := by
  have hdown : ∀ s s', TransGen (Unfolds defs) s s' → sizeOf s' < sizeOf s ∨ s' ∈ targets defs := by
    intro s s' h
    induction h with
    | single h => exact h.smaller_or_target
    | tail _ hstep ih =>
      have hlt := ih.resolve_right fun htarget => hplain _ htarget _ hstep
      exact hstep.smaller_or_target.imp_left fun hlt' => lt_trans hlt' hlt
  intro s hcycle
  rcases hdown s s hcycle with hlt | htarget
  · exact lt_irrefl _ hlt
  · obtain ⟨s', hstep, -⟩ := TransGen.head'_iff.1 hcycle
    exact hplain s htarget s' hstep

end

def linkSchema : JsonSchema :=
  .object { type := some (.one .object), required := some ["value"], additionalProperties := some (.bool false)
            properties := some [("value", .object { type := some (.one .number) }),
              ("next", .object { ref := some "#/$defs/link" })] }

def linkDefs : List (String × JsonSchema) := [("link", linkSchema)]

theorem validateJsonSchemaValue_terminates_links :
    ∃ answer, Returns (validateJsonSchemaValueBody (some linkDefs))
      ⟨.object { ref := some "#/$defs/link" }, .obj [("value", .num 1), ("next", .obj [("value", .num 2)])], "$"⟩
      answer := by
  apply validateJsonSchemaValue_terminates
  apply acyclic_of_plain
  intro s hs s' hstep
  have hmem : s = .object {} ∨ s = linkSchema := by simpa [targets, linkDefs] using hs
  rcases hmem with rfl | rfl
  · cases hstep <;> contradiction
  · cases hstep <;> contradiction

/-- The answer of the validator that is given the answers for references. -/
def SchemaCall.answer (resolve : String → Json → String → Option SchemaError) (c : SchemaCall) : Option SchemaError :=
  validateJsonSchemaValue resolve c.schema c.value c.path

section
variable {resolve : String → Json → String → Option SchemaError} {defs : Option (List (String × JsonSchema))}
  {keywords : Keywords JsonSchema} {c : SchemaCall} {value : Json}

theorem run_orCheck (hfirst : first.run f = some a) (hsecond : second.run f = some b):
    (orCheck first second).run f = some (a <|> b) := by
  rw [orCheck, run_bind, hfirst, Option.bind_some]
  cases a with
  | some error => rfl
  | none => exact hsecond

theorem run_validateArrayItemsBody (items : List Json) (path : String) :
    (validateArrayItemsBody keywords items path).run (fun c => some (c.answer resolve)) =
      some (validateArrayItems resolve keywords items path) := by
  rw [validateArrayItems]
  apply run_orCheck
  · cases keywords.prefixItems with
    | none => rfl
    | some prefixItems =>
      dsimp only [Option.bind_some]
      split
      · rfl
      · rw [findSome?_attach (f := fun entry : (Json × JsonSchema) × Nat =>
          validateJsonSchemaValue resolve entry.1.2 entry.1.1 (pathForIndex path entry.2))]
        exact run_findSomeM? fun entry _ => run_recur _
  · cases keywords.items with
    | none => rfl
    | some entry =>
      cases entry with
      | one schema =>
        dsimp only
        rw [findSome?_attach (f := fun entry : Json × Nat =>
          validateJsonSchemaValue resolve schema entry.1 (pathForIndex path entry.2))]
        exact run_findSomeM? fun entry _ => run_recur _
      | _ => rfl

theorem findSome?_unless {p : α → Bool} {error : α → β} (items : List α) :
    (items.findSome? fun item => if p item then none else some (error item)) = (items.find? (!p ·)).map error := by
  induction items with
  | nil => rfl
  | cons item items ih =>
    rw [List.findSome?_cons, List.find?_cons]
    cases p item with
    | true => exact ih
    | false => rfl

/-- What `validateObjectShape` finds about one entry of an object. -/
def fieldError (resolve : String → Json → String → Option SchemaError) (keywords : Keywords JsonSchema) (path : String)
    (field : String × Json) : Option SchemaError :=
  match lookupSchema (keywords.properties.getD []) field.1 with
  | some schema => validateJsonSchemaValue resolve schema field.2 (pathForKey path field.1)
  | none =>
    (keywords.propertyNames.bind fun schema =>
      validateJsonSchemaValue resolve schema (.str field.1) (pathForKey path field.1)) <|>
    match keywords.additionalProperties with
    | none => none
    | some (.bool true) => none
    | some (.bool false) => some ⟨pathForKey path field.1, .notAllowed⟩
    | some schema => validateJsonSchemaValue resolve schema field.2 (pathForKey path field.1)

theorem validateObjectShape_eq (fields : List (String × Json)) (path : String) :
    validateObjectShape resolve keywords fields path =
      ((((keywords.required.getD []).find? fun key => !hasKey fields key).map
          fun key => ⟨pathForKey path key, .isRequired⟩) <|>
        fields.findSome? (fieldError resolve keywords path)) := by
  rw [validateObjectShape, findSome?_unless, ← findSome?_attach (f := fieldError resolve keywords path)]
  rfl

theorem run_validateObjectShapeBody (fields : List (String × Json)) (path : String) :
    (validateObjectShapeBody keywords fields path).run (fun c => some (c.answer resolve)) =
      some (validateObjectShape resolve keywords fields path) := by
  rw [validateObjectShape_eq, validateObjectShapeBody]
  cases (keywords.required.getD []).find? (fun key => !hasKey fields key) with
  | some key => rfl
  | none =>
    apply run_findSomeM?
    intro field _
    rw [fieldError]
    cases lookupSchema (keywords.properties.getD []) field.1 with
    | some schema => exact run_recur _
    | none =>
      apply run_orCheck
      · cases keywords.propertyNames with
        | none => rfl
        | some schema => exact run_recur _
      · split
        · rfl
        · rfl
        · rfl
        · exact run_recur _

theorem run_validateShapeBody (value : Json) (path : String) :
    (validateShapeBody keywords value path).run (fun c => some (c.answer resolve)) =
      some (shapeError resolve keywords value path) := by
  cases value with
  | arr items => exact run_validateArrayItemsBody items path
  | obj fields =>
    rw [validateShapeBody, shapeError]
    split
    · rfl
    · exact run_validateObjectShapeBody fields path
  | null => grind [validateShapeBody, shapeError, run_pure]
  | bool b => grind [validateShapeBody, shapeError, run_pure]
  | num n => grind [validateShapeBody, shapeError, run_pure]
  | str s => grind [validateShapeBody, shapeError, run_pure]

theorem length_filter_isNone (variants : List α) (f : α → Option β) :
    ((variants.map f).filter (·.isNone)).length = (variants.filter fun variant => (f variant).isNone).length := by
  rw [filter_map, length_map]
  rfl

theorem run_validateJsonSchemaValueBody (hc : c.schema.keywords.ref = none) :
    (validateJsonSchemaValueBody defs c).run (fun c => some (c.answer resolve)) = some (c.answer resolve) := by
  obtain ⟨schema, value, path⟩ := c
  cases schema with
  | bool allowed => exact congrArg some (validate_bool allowed value path).symm
  | object keywords =>
    have href : keywords.ref = none := hc
    rw [validateJsonSchemaValueBody]
    dsimp only
    rw [href]
    dsimp only
    cases hopts : (JsonSchema.object keywords).options with
    | some variants =>
      rw [SchemaCall.answer, validate_variants href hopts, variantsError]
      dsimp only
      have hanswers : (variants.mapM fun variant => (recur ⟨variant, value, path⟩ : Check)).run
          (fun c => some (c.answer resolve)) =
            some (variants.map fun variant => validateJsonSchemaValue resolve variant value path) :=
        run_mapM fun variant _ => run_recur _
      rw [run_bind, hanswers, Option.bind_some, length_filter_isNone]
      split
      · rfl
      · rfl
    | none =>
      rw [SchemaCall.answer, validate_plain href hopts]
      dsimp only
      exact run_orCheck (run_findSomeM? fun part _ => run_recur _)
        (run_orCheck rfl (run_validateShapeBody value path))

end

section
variable {defs : List (String × JsonSchema)} {c : SchemaCall} {answer : Option SchemaError}
open Filter

theorem run_reference (href : c.schema.keywords.ref = some ref) (depth : Nat) :
    (validateJsonSchemaValueBody (some defs) c).run (fun c => some (c.answer (resolveReference defs depth))) =
      some (c.answer (resolveReference defs (depth + 1))) := by
  obtain ⟨schema, value, path⟩ := c
  cases schema with
  | bool allowed => cases href
  | object keywords =>
    have hkeyword : keywords.ref = some ref := href
    rw [validateJsonSchemaValueBody, SchemaCall.answer, validateJsonSchemaValue.eq_def]
    dsimp only
    rw [hkeyword]
    dsimp only
    rw [Option.bind_some, resolveReference]
    cases lookupSchema defs (refName ref) with
    | none => rfl
    | some schema => exact run_recur _

/-- Where the validator comes back, it does so with the answer that follows references deep enough. -/
theorem answer_of_returns (h : Returns (validateJsonSchemaValueBody (some defs)) c answer) :
    ∀ᶠ depth in atTop, c.answer (resolveReference defs depth) = answer := by
  obtain ⟨n, hn⟩ := h
  induction n generalizing c answer with
  | zero => cases hn
  | succ n ih =>
    have hbody : ∀ᶠ depth in atTop, (validateJsonSchemaValueBody (some defs) c).run
        (fun c => some (c.answer (resolveReference defs depth))) = some answer := by
      apply run_eventually _ hn
      intro c' answer' h'
      filter_upwards [ih h'] with depth hdepth
      rw [hdepth]
    cases href : c.schema.keywords.ref with
    | none =>
      filter_upwards [hbody] with depth hdepth
      rw [run_validateJsonSchemaValueBody href] at hdepth
      exact Option.some.inj hdepth
    | some ref =>
      obtain ⟨start, hstart⟩ := eventually_atTop.1 hbody
      refine eventually_atTop.2 ⟨start + 1, fun depth hdepth => ?_⟩
      obtain ⟨d, rfl⟩ := Nat.exists_eq_add_of_le' hdepth
      have hrun := hstart (d + start) (Nat.le_add_left ..)
      rw [run_reference href] at hrun
      exact Option.some.inj hrun

theorem answer_of_returns_links : ∀ᶠ depth in atTop,
    (⟨.object { ref := some "#/$defs/link" }, .obj [("value", .num 1), ("next", .obj [("value", .num 2)])], "$"⟩ :
      SchemaCall).answer (resolveReference linkDefs depth) = none :=
  answer_of_returns ⟨5, rfl⟩

end

end Trakrai.Workflow
