import Trakrai.Workflow.Termination

namespace Trakrai.Workflow
open List Lib Lib.Body Relation

structure ConvertCall where
  schema : JsonSchema
  depth : Nat

abbrev Convert := Body ConvertCall String String

def indentation (depth : Nat) : String := String.join (List.replicate depth "  ")

/-- `/^[a-zA-Z_$][a-zA-Z0-9_$]*$/`. -/
def isTypeName (key : String) : Bool :=
  match key.toList with
  | [] => false
  | c :: cs => (c.isAlpha || c == '_' || c == '$') && cs.all fun c => c.isAlphanum || c == '_' || c == '$'

def isNullSchema (schema : JsonSchema) : Bool := hasType .null schema.keywords.type

/-- `additionalProperties === true ? 'unknown' : convert(additionalProperties, depth)`. -/
def convertRest (rest : JsonSchema) (depth : Nat) : Convert :=
  match rest with
  | .bool true => return "unknown"
  | rest => recur ⟨rest, depth⟩

def convertKey (propertyNames : Option JsonSchema) (depth : Nat) : Convert :=
  match propertyNames with
  | some names => recur ⟨names, depth⟩
  | none => return "string"

def indexLines (rest : Option JsonSchema) (depth : Nat) : Body ConvertCall String (List String) :=
  match rest with
  | none => return []
  | some (.bool false) => return []
  | some rest => do
    let additionalType ← convertRest rest (depth + 1)
    return [indentation (depth + 1) ++ "[key: string]: " ++ additionalType ++ ";"]

section
variable (stringify : Json → String) (defs : Option (List (String × JsonSchema)))

section
variable (keywords : Keywords JsonSchema)

section
variable (depth : Nat)

def convertArray : Convert :=
  match keywords.prefixItems, keywords.items with
  | some prefixItems, _ => do
    let elements ← prefixItems.mapM fun item => recur ⟨item, depth⟩
    return "[" ++ ", ".intercalate elements ++ "]"
  | none, some (.one items) => do
    let inner ← recur ⟨items, depth⟩
    let needsParens := inner.toList.contains '|' || inner.toList.contains '&'
    return (if needsParens then "(" ++ inner ++ ")" else inner) ++ "[]"
  | none, _ => return "unknown[]"

def propertyLine (key propType : String) : String :=
  let safeName := if isTypeName key then key else stringify (.str key)
  let optional := !(keywords.required.getD []).contains key
  indentation (depth + 1) ++ safeName ++ (if optional then "?" else "") ++ ": " ++ propType ++ ";"

def convertRecord : Convert :=
  match keywords.additionalProperties with
  | none => return "Record<string, unknown>"
  | some (.bool false) => return "Record<string, unknown>"
  | some rest => do
    let keyType ← convertKey keywords.propertyNames depth
    let valueType ← convertRest rest depth
    return "Record<" ++ keyType ++ ", " ++ valueType ++ ">"

def convertObject : Convert :=
  match keywords.properties with
  | none => convertRecord keywords depth
  | some [] =>
    return match keywords.additionalProperties with
      | some (.bool false) => "Record<string, never>"
      | _ => "Record<string, unknown>"
  | some properties => do
    let lines ← (objectEntries properties).mapM fun entry => do
      let propType ← recur ⟨entry.2, depth + 1⟩
      return propertyLine stringify keywords depth entry.1 propType
    let index ← indexLines keywords.additionalProperties depth
    return "\x7b\n" ++ "\n".intercalate (lines ++ index) ++ "\n" ++ indentation depth ++ "\x7d"

/-- The branches of `convert` by the type. -/
def convertType : Convert :=
  match keywords.type with
  | some (.one .string) => return "string"
  | some (.one .number) => return "number"
  | some (.one .integer) => return "number"
  | some (.one .boolean) => return "boolean"
  | some (.one .null) => return "null"
  | some (.one .array) => convertArray keywords depth
  | some (.one .object) => convertObject stringify keywords depth
  | _ => return "unknown"

end

end

/-- The body of `convert`, with `resolvedDefs?.[refName]` for a reference. -/
def convertBody (c : ConvertCall) : Convert :=
  match c.schema with
  | .bool allowed => return if allowed then "unknown" else "never"
  | .object keywords =>
    match keywords.ref with
    | some ref =>
      match defs.bind (lookupSchema · (refName ref)) with
      | some refSchema => recur ⟨refSchema, c.depth⟩
      | none => return "unknown"
    | none =>
      match (JsonSchema.object keywords).options with
      | some unionVariants => do
        let nonNull := unionVariants.filter fun variant => !isNullSchema variant
        let hasNull := nonNull.length < unionVariants.length
        let types ← nonNull.mapM fun variant => recur ⟨variant, c.depth⟩
        let parts := types ++ if hasNull then ["null"] else []
        return if parts.isEmpty then "never" else " | ".intercalate parts
      | none =>
        match keywords.allOf with
        | some allOf => do
          let parts ← allOf.mapM fun part => recur ⟨part, c.depth⟩
          return match parts with
            | [] => "unknown"
            | [part] => part
            | parts => " & ".intercalate (parts.map fun part => "(" ++ part ++ ")")
        | none =>
          match keywords.const, keywords.enum with
          | some const, _ => return stringify const
          | none, some enum => return " | ".intercalate (enum.map stringify)
          | none, none => convertType stringify keywords c.depth

end

/-- A schema with its `$defs`. -/
structure RootSchema where
  schema : JsonSchema
  defs : Option (List (String × JsonSchema))

/-- `jsonSchemaToTypeString`, as far as its calls are nested less than `fuel` deep. -/
def jsonSchemaToTypeString (stringify : Json → String) (root : RootSchema)
    (defs : Option (List (String × JsonSchema))) (fuel : Nat) : Option String :=
  within (convertBody stringify (defs.or root.defs)) fuel ⟨root.schema, 0⟩

def restParts : Option JsonSchema → List JsonSchema
  | none => []
  | some (.bool _) => []
  | some (.object keywords) => [.object keywords]

def arrayParts (keywords : Keywords JsonSchema) : List JsonSchema :=
  match keywords.prefixItems, keywords.items with
  | some prefixItems, _ => prefixItems
  | none, some (.one items) => [items]
  | none, _ => []

def objectParts (keywords : Keywords JsonSchema) : List JsonSchema :=
  match keywords.properties with
  | none =>
    match keywords.additionalProperties with
    | none => []
    | some (.bool false) => []
    | some rest => keywords.propertyNames.toList ++ restParts (some rest)
  | some [] => []
  | some properties => properties.map Prod.snd ++ restParts keywords.additionalProperties

/-- The schemas that the conversion of a schema goes on to: what a reference stands for, or else the alternatives except
null, or else the parts of `allOf`, or else, without constants, what the array or object holds. -/
def parts (defs : Option (List (String × JsonSchema))) : JsonSchema → List JsonSchema
  | .bool _ => []
  | .object keywords =>
    match keywords.ref with
    | some ref => (defs.bind (lookupSchema · (refName ref))).toList
    | none =>
      match (JsonSchema.object keywords).options with
      | some unionVariants => unionVariants.filter fun variant => !isNullSchema variant
      | none =>
        match keywords.allOf with
        | some allOf => allOf
        | none =>
          if keywords.const.isSome || keywords.enum.isSome then []
          else
            match keywords.type with
            | some (.one .array) => arrayParts keywords
            | some (.one .object) => objectParts keywords
            | _ => []

def GoesOn (defs : Option (List (String × JsonSchema))) (schema schema' : JsonSchema) : Prop :=
  schema' ∈ parts defs schema

section
variable {stringify : Json → String} {defs : Option (List (String × JsonSchema))} {keywords : Keywords JsonSchema}
  {c : ConvertCall}

/-- A part of the conversion that calls just for some schemas, whatever the calls answer. -/
structure CallsFor (p : Body ConvertCall String γ) (schemas : List JsonSchema) : Prop where
  eager : Eager p
  sound : ∀ c, Calls p c → c.schema ∈ schemas
  complete : ∀ s ∈ schemas, ∃ c, Calls p c ∧ c.schema = s

theorem callsFor_pure (answer : γ) : CallsFor (pure answer) [] where
  eager := eager_pure answer
  sound _ h := absurd h not_calls_pure
  complete _ h := nomatch h

theorem callsFor_recur (schema : JsonSchema) (depth : Nat) : CallsFor (recur ⟨schema, depth⟩) [schema] where
  eager := eager_recur _
  sound c h := by
    rw [calls_recur h]
    exact mem_singleton_self schema
  complete s h := ⟨⟨schema, depth⟩, .here, (mem_singleton.1 h).symm⟩

theorem CallsFor.map {p : Body ConvertCall String γ} (hp : CallsFor p schemas) (f : γ → δ) :
    CallsFor (p >>= fun answer => pure (f answer)) schemas where
  eager := hp.eager.bind (fun answer => eager_pure _) fun _ _ _ h => absurd h not_calls_pure
  sound c h := by
    rcases calls_bind h with h | ⟨answer, h⟩
    · exact hp.sound c h
    · exact absurd h not_calls_pure
  complete s h := by
    obtain ⟨c, hc, hs⟩ := hp.complete s h
    exact ⟨c, calls_bind_left hc, hs⟩

theorem CallsFor.seq {p : Body ConvertCall String γ} {q : Body ConvertCall String δ} (hp : CallsFor p schemas)
    (hq : CallsFor q schemas') (f : γ → δ → ε) :
    CallsFor (p >>= fun a => q >>= fun b => pure (f a b)) (schemas ++ schemas') where
  eager := by
    apply hp.eager.bind fun a => (hq.map (f a)).eager
    intro a a' c h
    rcases calls_bind h with h | ⟨b, h⟩
    · exact calls_bind_left h
    · exact absurd h not_calls_pure
  sound c h := by
    rw [mem_append]
    rcases calls_bind h with h | ⟨a, h⟩
    · exact .inl (hp.sound c h)
    · exact .inr ((hq.map (f a)).sound c h)
  complete s h := by
    rcases mem_append.1 h with h | h
    · obtain ⟨c, hc, hs⟩ := hp.complete s h
      exact ⟨c, calls_bind_left hc, hs⟩
    · obtain ⟨a, ha⟩ := exists_run p ""
      obtain ⟨c, hc, hs⟩ := (hq.map (f a)).complete s h
      exact ⟨c, calls_bind_right ha hc, hs⟩

theorem CallsFor.mapM {make : ι → Body ConvertCall String γ} (schema : ι → JsonSchema) (items : List ι)
    (h : ∀ i ∈ items, CallsFor (make i) [schema i]) : CallsFor (items.mapM make) (items.map schema) where
  eager := Eager.mapM fun i hi => (h i hi).eager
  sound c hc := by
    obtain ⟨i, hi, hc⟩ := calls_mapM hc
    rw [mem_singleton.1 ((h i hi).sound c hc)]
    exact mem_map_of_mem hi
  complete s hs := by
    obtain ⟨i, hi, rfl⟩ := mem_map.1 hs
    obtain ⟨c, hc, hschema⟩ := (h i hi).complete (schema i) (mem_singleton_self _)
    exact ⟨c, calls_mapM_of_mem hi hc, hschema⟩

theorem CallsFor.perm {p : Body ConvertCall String γ} (hp : CallsFor p schemas)
    (hmem : ∀ s, s ∈ schemas ↔ s ∈ schemas') : CallsFor p schemas' where
  eager := hp.eager
  sound c h := (hmem _).1 (hp.sound c h)
  complete s h := hp.complete s ((hmem s).2 h)

theorem callsFor_schemas (schemas : List JsonSchema) (depth : Nat) :
    CallsFor (schemas.mapM fun schema => (recur ⟨schema, depth⟩ : Convert)) schemas := by
  have h := CallsFor.mapM id schemas fun schema _ => callsFor_recur schema depth
  rwa [map_id] at h

theorem callsFor_convertRest (hrest : rest ≠ .bool false) (depth : Nat) :
    CallsFor (convertRest rest depth) (restParts (some rest)) := by
  cases rest with
  | bool allowed =>
    cases allowed with
    | true => exact callsFor_pure _
    | false => exact absurd rfl hrest
  | object keywords => exact callsFor_recur _ _

theorem callsFor_convertKey (propertyNames : Option JsonSchema) (depth : Nat) :
    CallsFor (convertKey propertyNames depth) propertyNames.toList := by
  cases propertyNames with
  | none => exact callsFor_pure _
  | some names => exact callsFor_recur _ _

theorem callsFor_indexLines (rest : Option JsonSchema) (depth : Nat) :
    CallsFor (indexLines rest depth) (restParts rest) := by
  rw [indexLines.eq_def]
  split
  · exact callsFor_pure _
  · exact callsFor_pure _
  · rename_i rest hrest
    exact (callsFor_convertRest hrest _).map _

theorem callsFor_convertArray (depth : Nat) : CallsFor (convertArray keywords depth) (arrayParts keywords) := by
  rw [convertArray, arrayParts]
  split
  · exact (callsFor_schemas _ depth).map _
  · exact (callsFor_recur _ depth).map _
  · exact callsFor_pure _

theorem callsFor_lines (properties : List (String × JsonSchema)) (depth : Nat) :
    CallsFor ((objectEntries properties).mapM fun entry => do
      let propType ← recur ⟨entry.2, depth + 1⟩
      return propertyLine stringify keywords depth entry.1 propType) (properties.map Prod.snd) := by
  have h := CallsFor.mapM Prod.snd (objectEntries properties) fun entry _ =>
    (callsFor_recur entry.2 (depth + 1)).map (propertyLine stringify keywords depth entry.1)
  exact h.perm fun s => ((perm_objectEntries properties).map Prod.snd).mem_iff

theorem callsFor_convertObject (depth : Nat) :
    CallsFor (convertObject stringify keywords depth) (objectParts keywords) := by
  rw [convertObject, objectParts]
  split
  · rw [convertRecord.eq_def]
    split
    · exact callsFor_pure _
    · exact callsFor_pure _
    · rename_i rest hrest _
      exact (callsFor_convertKey _ depth).seq (callsFor_convertRest hrest depth) _
  · exact callsFor_pure _
  · exact (callsFor_lines _ depth).seq (callsFor_indexLines _ depth) _

theorem callsFor_convertType (depth : Nat) : CallsFor (convertType stringify keywords depth)
      (match keywords.type with
      | some (.one .array) => arrayParts keywords
      | some (.one .object) => objectParts keywords
      | _ => []) := by
  rw [convertType]
  cases keywords.type with
  | none => exact callsFor_pure _
  | some type =>
    cases type with
    | many names => exact callsFor_pure _
    | one name =>
      cases name with
      | array => exact callsFor_convertArray depth
      | object => exact callsFor_convertObject depth
      | _ => exact callsFor_pure _

theorem callsFor_convertBody (c : ConvertCall) : CallsFor (convertBody stringify defs c) (parts defs c.schema) := by
  obtain ⟨schema, depth⟩ := c
  cases schema with
  | bool allowed => exact callsFor_pure _
  | object keywords =>
    rw [convertBody, parts]
    dsimp only
    cases keywords.ref with
    | some ref =>
      dsimp only
      cases defs.bind (lookupSchema · (refName ref)) with
      | none => exact callsFor_pure _
      | some refSchema => exact callsFor_recur _ _
    | none =>
      dsimp only
      cases (JsonSchema.object keywords).options with
      | some unionVariants => exact (callsFor_schemas _ depth).map _
      | none =>
        dsimp only
        cases keywords.allOf with
        | some allOf => exact (callsFor_schemas _ depth).map _
        | none =>
          dsimp only
          cases keywords.const with
          | some const => exact callsFor_pure _
          | none =>
            cases keywords.enum with
            | some enum => exact callsFor_pure _
            | none => exact callsFor_convertType depth

theorem arrayParts_subset (h : schema ∈ arrayParts keywords) : schema ∈ keywords.below := by
  rw [arrayParts] at h
  split at h
  · rename_i prefixItems hprefix
    exact mem_below_of_prefixItems hprefix h
  · rename_i items hitems
    obtain rfl := mem_singleton.1 h
    exact mem_below_of_items hitems
  · cases h

theorem restParts_subset (h : schema ∈ restParts keywords.additionalProperties) : schema ∈ keywords.below := by
  rw [restParts.eq_def] at h
  split at h
  · cases h
  · cases h
  · rename_i rest hrest
    obtain rfl := mem_singleton.1 h
    exact mem_below_of_additionalProperties hrest

theorem objectParts_subset (h : schema ∈ objectParts keywords) : schema ∈ keywords.below := by
  rw [objectParts] at h
  split at h
  · split at h
    · cases h
    · cases h
    · rename_i rest _ hrest
      rcases mem_append.1 h with h | h
      · exact mem_below_of_propertyNames (Option.mem_toList.1 h)
      · exact restParts_subset (hrest ▸ h)
  · cases h
  · rename_i properties _ hproperties
    rcases mem_append.1 h with h | h
    · obtain ⟨entry, hentry, rfl⟩ := mem_map.1 h
      exact mem_below_of_properties (by simp [hproperties, hentry])
    · exact restParts_subset h

theorem GoesOn.smaller_or_target (h : GoesOn defs schema schema') :
    sizeOf schema' < sizeOf schema ∨ schema' ∈ targets defs := by
  cases schema with
  | bool allowed => cases h
  | object keywords =>
    rw [GoesOn, parts] at h
    split at h
    · exact .inr (lookup_mem_targets (Option.mem_toList.1 h))
    · left
      apply sizeOf_below_lt
      split at h
      · rename_i unionVariants hopts
        exact mem_below_of_options hopts (mem_filter.1 h).1
      · split at h
        · rename_i allOf hall
          exact mem_below_of_allOf (by simp [hall, h])
        · split at h
          · cases h
          · split at h
            · exact arrayParts_subset h
            · exact objectParts_subset h
            · cases h

theorem acc_goesOn (h : Acc (fun c' c => Calls (convertBody stringify defs c) c') c) :
    Acc (fun s' s => GoesOn defs s s') c.schema := by
  induction h with
  | intro c _ ih =>
    refine ⟨_, fun s hs => ?_⟩
    obtain ⟨c', hc', rfl⟩ := (callsFor_convertBody c).complete s hs
    exact ih c' hc'

variable (stringify) in
theorem returns_iff (c : ConvertCall) : (∃ text, Returns (convertBody stringify defs) c text) ↔
      ∀ s, ReflTransGen (GoesOn defs) c.schema s → ¬ TransGen (GoesOn defs) s s := by
  constructor
  · rintro ⟨text, htext⟩
    exact not_transGen_of_acc (acc_goesOn (acc_of_returns (fun c => (callsFor_convertBody c).eager) htext))
  · intro hcycle
    have hacc := acc_of_acyclic (finite_toSet _) (fun _ _ => GoesOn.smaller_or_target) hcycle
    apply returns_of_acc
    exact Subrelation.accessible (fun h => (callsFor_convertBody _).sound _ h)
      (InvImage.accessible ConvertCall.schema hacc)

/-- The type of a schema is displayed, for whatever root, just where following references, alternatives, parts, items and
properties from it never comes back to a schema that is being displayed. -/
theorem jsonSchemaToTypeString_returns_iff (stringify : Json → String) (root : RootSchema)
    (defs : Option (List (String × JsonSchema))) :
    (∃ fuel text, jsonSchemaToTypeString stringify root defs fuel = some text) ↔
      ∀ s, ReflTransGen (GoesOn (defs.or root.defs)) root.schema s → ¬ TransGen (GoesOn (defs.or root.defs)) s s := by
  rw [← returns_iff stringify ⟨root.schema, 0⟩]
  exact exists_comm

end

def recursiveRoot : RootSchema := ⟨.object { ref := some "#/$defs/link" }, some linkDefs⟩

theorem recursive_not_displayed :
    ¬ ∃ stringify fuel text, jsonSchemaToTypeString stringify recursiveRoot none fuel = some text := by
  rintro ⟨stringify, fuel, text, h⟩
  have hname : refName "#/$defs/link" = "link" := by decide
  have hroot : parts (some linkDefs) recursiveRoot.schema = [linkSchema] := by
    simp [parts, recursiveRoot, hname, linkDefs, lookupSchema]
  have hlink : GoesOn (some linkDefs) recursiveRoot.schema linkSchema := by
    rw [GoesOn, hroot]
    exact mem_singleton_self linkSchema
  have hback : GoesOn (some linkDefs) linkSchema recursiveRoot.schema := by
    have hparts : parts (some linkDefs) linkSchema =
        [.object { type := some (.one .number) }, recursiveRoot.schema] := rfl
    rw [GoesOn, hparts]
    exact mem_cons_of_mem _ (mem_singleton_self _)
  exact (returns_iff _ ⟨recursiveRoot.schema, 0⟩).1 ⟨text, fuel, h⟩ linkSchema (.single hlink)
    (.tail (.single hback) hlink)

end Trakrai.Workflow
