import Trakrai.WorkflowNodes.ObjectNodes

namespace Trakrai.WorkflowNodes
open List Lib Workflow

section
variable (get : String → Option ExecutionResult)

/-- What a dependency finds in the results, if its source has the property. -/
def delivered (dep : DependencyInfo) : Option InputValue :=
  match get dep.resultKey.1 with
  | some (.success _ (.obj fields)) =>
    if hasKey fields dep.resultKey.2 then
      some (match fields.lookup dep.resultKey.2 with
        | some value => .json value
        | none => .inherited dep.resultKey.2)
    else none
  | _ => none

/-- What an edge brings to a handle. -/
def delivery (key : String) (edge : Edge) : Option InputValue :=
  if edge.dependency.targetHandle = key ∧ key ≠ triggerHandle then delivered get edge.dependency else none

namespace NodeSchemaResolutionContext
variable (context : NodeSchemaResolutionContext)

def incoming : List Edge := context.edges.filter (·.target == context.node.id)

def input : Input := buildNodeInput get context.node (context.incoming.map Edge.dependency)

/-- The last edge that brings a value to a handle, with the value. -/
def lastDelivery (key : String) : Option (Edge × InputValue) :=
  context.incoming.reverse.findSome? fun edge => (delivery get key edge).map (edge, ·)

/-- The value that a node receives at a handle. -/
def received (key : String) : InputValue :=
  match context.lastDelivery get key with
  | some (_, value) => value
  | none =>
    match (context.node.configuration.getD []).lookup key with
    | some value => .json value
    | none => .inherited key

def Given (key : String) : Prop :=
  (context.lastDelivery get key).isSome ∨ (∃ value, (key, value) ∈ context.node.configuration.getD []) ∨
    objectPrototypeNames.contains key

/-- The resolved schema of the results, or of the event data, that an edge takes its value from. -/
def sourceObject (edge : Edge) : Option SourceObjectSchema :=
  match context.resolveNodeSchema edge.source with
  | .ok (some sourceSchema) =>
    match isEventHandle edge.dependency.sourceHandle with
    | none => some sourceSchema.output
    | some (eventName, _) => sourceSchema.events.bind (·.lookup eventName)
  | _ => none

/-- All that the sources have returned or sent is accepted by the schemas that are resolved for it. -/
def SourcesAccepted : Prop :=
  ∀ edge ∈ context.incoming, ∀ object, context.sourceObject edge = some object → ∀ id data,
    get edge.dependency.resultKey.1 = some (.success id data) → object.Accepts data

/-- The check of the source includes a check of the property, and that does not depend on the definitions of the
source. -/
structure Vouches (edge : Edge) (property : OutputSchema) : Prop where
  resolved : getSourcePropertySchema context edge = .ok (some property)
  direct : ∀ object, context.sourceObject edge = some object →
    object.schema.keywords.ref = none ∧ object.schema.options = none
  selfContained : SelfContained property.schema

end NodeSchemaResolutionContext

/-- A value that needs no check of its own: the source vouches for it with the schema that the node has for the
handle. -/
def VouchedAt (context : NodeSchemaResolutionContext) (key : String) (edge : Edge) (value : InputValue) : Prop :=
  (∃ json, value = .json json) ∧
    ∃ property, context.Vouches edge property ∧ handleSchema context key = some property.schema

/-- What is configured and not replaced, and what the edges bring without a source that vouches for it, is declared and
fits; all that is required, by the configuration or by an edge, is given. -/
structure Combines (context : NodeSchemaResolutionContext) (configured : CombinedSchema) : Prop where
  configuration : ∀ entry ∈ context.node.configuration.getD [], context.lastDelivery get entry.1 = none →
    ∃ schema, declaredSchema context configured entry.1 = some schema ∧ Fits schema (.json entry.2)
  deliveries : ∀ key edge value, context.lastDelivery get key = some (edge, value) →
    VouchedAt context key edge value ∨
      ∃ schema, declaredSchema context configured key = some schema ∧ Fits schema value
  configured : ∀ key ∈ configured.required, context.Given get key
  connected : ∀ key, (handleSchema context key).isSome → context.Given get key

/-- The edge whose schema a spread node resolves is the one that brings the object, and its source vouches for an
object. -/
def SpreadVouched (handler : SpreadObjectNodeHandler) (context : NodeSchemaResolutionContext) : Prop :=
  ∃ edge keywords defs json, handler.incomingObjectEdge context = some edge ∧
    context.lastDelivery get handler.inputHandle = some (edge, .json json) ∧
    context.Vouches edge ⟨.object keywords, defs⟩ ∧ hasType .object keywords.type = true ∧
    (JsonSchema.object keywords).options = none

end

section
variable {get : String → Option ExecutionResult} {context : NodeSchemaResolutionContext} {edge : Edge}
  {edges : List Edge} {input : Input} {key : String} {value : InputValue}

theorem addInput_eq (get : String → Option ExecutionResult) (input : Input) (edge : Edge) :
    addInput get input edge.dependency = match delivery get edge.dependency.targetHandle edge with
      | some value => setKey input edge.dependency.targetHandle value
      | none => input := by
  rw [addInput, delivery]
  by_cases htrigger : edge.dependency.targetHandle = triggerHandle
  · rw [if_pos htrigger, if_neg fun h => h.2 htrigger]
  · rw [if_neg htrigger, if_pos ⟨rfl, htrigger⟩, delivered]
    cases get edge.dependency.resultKey.1 with
    | none => rfl
    | some result =>
      cases result with
      | failure => rfl
      | success id data =>
        cases data with
        | obj fields =>
          dsimp only
          cases hasKey fields edge.dependency.resultKey.2 with
          | true => rfl
          | false => rfl
        | _ => rfl

theorem delivery_of_ne (h : key ≠ edge.dependency.targetHandle) : delivery get key edge = none :=
  if_neg fun hkey => h hkey.1.symm

/-- What only the writes to one key change, an edge changes if it brings a value to that key. -/
theorem observe_addInput {β : Sort _} (get : String → Option ExecutionResult) (observe : Input → β)
    (found : InputValue → β) (hset : ∀ input handle value,
      observe (setKey input handle value) = if key = handle then found value else observe input)
    (input : Input) (edge : Edge) :
    observe (addInput get input edge.dependency) = match delivery get key edge with
      | some value => found value
      | none => observe input := by
  rw [addInput_eq]
  by_cases hkey : key = edge.dependency.targetHandle
  · subst hkey
    cases delivery get edge.dependency.targetHandle edge with
    | none => rfl
    | some value => exact (hset ..).trans (if_pos rfl)
  · rw [delivery_of_ne hkey]
    cases delivery get edge.dependency.targetHandle edge with
    | none => rfl
    | some value => exact (hset ..).trans (if_neg hkey)

/-- The last edge that brings a value to the key decides. -/
theorem observe_foldl_addInput {β : Sort _} (get : String → Option ExecutionResult) (observe : Input → β)
    (found : InputValue → β) (hset : ∀ input handle value,
      observe (setKey input handle value) = if key = handle then found value else observe input)
    (edges : List Edge) (input : Input) :
    observe ((edges.map Edge.dependency).foldl (addInput get) input) =
      match edges.reverse.findSome? fun edge => (delivery get key edge).map (edge, ·) with
      | some (_, value) => found value
      | none => observe input := by
  induction edges generalizing input with
  | nil => rfl
  | cons edge edges ih =>
    rw [map_cons, foldl_cons, ih, observe_addInput get observe found hset, reverse_cons, List.findSome?_append,
      List.findSome?_singleton]
    cases edges.reverse.findSome? fun edge => (delivery get key edge).map (edge, ·) with
    | some last => rfl
    | none =>
      cases delivery get key edge with
      | some value => rfl
      | none => rfl

theorem mem_input : (key, value) ∈ context.input get ↔ match context.lastDelivery get key with
    | some (_, value') => value = value'
    | none => ∃ json, (key, json) ∈ context.node.configuration.getD [] ∧ value = .json json := by
  have hmem := observe_foldl_addInput get (fun input => (key, value) ∈ input) (value = ·)
    fun _ _ _ => propext mem_setKey_iff
  rw [NodeSchemaResolutionContext.input, buildNodeInput, hmem, NodeSchemaResolutionContext.lastDelivery]
  split
  · rfl
  · simp only [mem_map, Prod.mk.injEq, Prod.exists]
    grind

theorem hasKey_input : hasKey (context.input get) key ↔ context.Given get key := by
  have hany : (context.input get).any (·.1 == key) = true ↔ ∃ value, (key, value) ∈ context.input get := by
    rw [any_key_iff]
    constructor
    · rintro ⟨entry, hentry, rfl⟩
      exact ⟨entry.2, hentry⟩
    · rintro ⟨value, hvalue⟩
      exact ⟨_, hvalue, rfl⟩
  rw [hasKey, Bool.or_eq_true, hany, NodeSchemaResolutionContext.Given, ← or_assoc]
  apply or_congr_left
  simp only [mem_input]
  cases context.lastDelivery get key with
  | some last => simp
  | none => simp

theorem inputValue_input : inputValue (context.input get) key = context.received get key := by
  have hlookup := observe_foldl_addInput get (fun input => input.lookup key) some
    fun input handle value => lookup_setKey input handle key value
  rw [inputValue, NodeSchemaResolutionContext.input, buildNodeInput, hlookup, lookup_map_snd,
    NodeSchemaResolutionContext.received, NodeSchemaResolutionContext.lastDelivery]
  cases context.incoming.reverse.findSome? fun edge => (delivery get key edge).map (edge, ·) with
  | some last => rfl
  | none =>
    cases (context.node.configuration.getD []).lookup key with
    | some value => rfl
    | none => rfl

theorem lastDelivery_some (h : context.lastDelivery get key = some (edge, value)) :
    edge ∈ context.incoming ∧ edge.dependency.targetHandle = key ∧ delivered get edge.dependency = some value := by
  obtain ⟨other, hmem, hsome⟩ := List.exists_of_findSome?_eq_some h
  obtain ⟨value', hdelivery, he⟩ := Option.map_eq_some_iff.1 hsome
  cases he
  rw [delivery] at hdelivery
  split at hdelivery
  · rename_i hkey
    exact ⟨List.mem_reverse.1 hmem, hkey.1, hdelivery⟩
  · cases hdelivery

theorem delivered_json {json : Json} (h : delivered get dep = some (.json json)) : ∃ id fields,
    get dep.resultKey.1 = some (.success id (.obj fields)) ∧ fields.lookup dep.resultKey.2 = some json := by
  rw [delivered] at h
  split at h
  · rename_i id fields hresult
    split at h
    · cases hlookup : fields.lookup dep.resultKey.2 with
      | none =>
        rw [hlookup] at h
        cases h
      | some found =>
        rw [hlookup] at h
        cases h
        exact ⟨id, fields, hresult, hlookup⟩
    · cases h
  · cases h

theorem source_of_property (h : getSourcePropertySchema context edge = .ok (some property)) :
    ∃ object, context.sourceObject edge = some object ∧
      object.property edge.dependency.resultKey.2 = some property := by
  obtain ⟨sourceSchema, hsource, h⟩ := bind_eq_ok_iff.1 h
  cases sourceSchema with
  | none => cases h
  | some sourceSchema =>
    cases hhandle : edge.sourceHandle.filter (· != "") with
    | none =>
      rw [hhandle] at h
      cases h
    | some sourceHandle =>
      have hsourceHandle : edge.dependency.sourceHandle = sourceHandle := by
        rw [Edge.dependency, (Option.filter_eq_some_iff.1 hhandle).1]
        rfl
      rw [NodeSchemaResolutionContext.sourceObject, hsource, DependencyInfo.resultKey, hsourceHandle]
      rw [hhandle] at h
      cases hevent : isEventHandle sourceHandle with
      | none =>
        simp only [hevent] at h
        exact ⟨_, rfl, Except.ok.inj h⟩
      | some event =>
        simp only [hevent] at h
        split at h
        · cases h
        · rename_i events hevents
          split at h
          · rename_i data hdata
            refine ⟨data, ?_, Except.ok.inj h⟩
            simp only [hevents, Option.bind_some, hdata]
          · split at h
            · cases h
            · cases h

/-- A schema without references and alternatives of its own checks each property by the property's schema. -/
theorem validate_property {schema property : JsonSchema} {resolve : String → Json → String → Option SchemaError}
    {fields : List (String × Json)} {json : Json} {path : String} (href : schema.keywords.ref = none)
    (hopts : schema.options = none)
    (hlookup : lookupSchema (schema.keywords.properties.getD []) key = some property)
    (h : validateJsonSchemaValue resolve schema (.obj fields) path = none) (hjson : fields.lookup key = some json) :
    validateJsonSchemaValue resolve property json (pathForKey path key) = none := by
  cases schema with
  | bool allowed =>
    rw [lookupSchema] at hlookup
    simp only [JsonSchema.keywords, Option.getD_none, lookup_nil, Option.ite_none_right_eq_some,
      Option.some.injEq] at hlookup
    rw [← hlookup.2]
    exact validate_keywordless json _
  | object keywords =>
    have href' : keywords.ref = none := href
    rw [validate_plain href' hopts, orElse_eq_none, orElse_eq_none, shapeError] at h
    obtain ⟨-, -, hshape⟩ := h
    split at hshape
    · cases hshape
    · obtain ⟨-, hfields⟩ := validateObjectShape_eq_none.1 hshape
      exact (hfields (key, json) (mem_of_lookup hjson)).1 property hlookup

theorem NodeSchemaResolutionContext.Vouches.validates {property : OutputSchema} {json : Json}
    (hvouches : context.Vouches edge property) (haccepted : context.SourcesAccepted get)
    (hedge : edge ∈ context.incoming) (hdelivered : delivered get edge.dependency = some (.json json))
    (resolve : String → Json → String → Option SchemaError) (path : String) :
    validateJsonSchemaValue resolve property.schema json path = none := by
  obtain ⟨id, fields, hresult, hjson⟩ := delivered_json hdelivered
  obtain ⟨object, hobject, hproperty⟩ := source_of_property hvouches.resolved
  obtain ⟨href, hopts⟩ := hvouches.direct object hobject
  obtain ⟨schema, hlookup, rfl⟩ := Option.map_eq_some_iff.1 hproperty
  obtain ⟨depth, haccepts⟩ := haccepted edge hedge object hobject id _ hresult
  have hagree : AgreeOn resolve (resolveReference object.defs depth) schema :=
    fun ref hmentions => absurd hmentions (hvouches.selfContained ref)
  apply (validate_congr schema hagree json _ _).2
  exact validate_property href hopts hlookup (Option.isNone_iff_eq_none.1 haccepts) hjson

theorem fits_of_vouched (h : VouchedAt context key edge value) (haccepted : context.SourcesAccepted get)
    (hlast : context.lastDelivery get key = some (edge, value)) (configured : CombinedSchema) :
    ∃ schema, declaredSchema context configured key = some schema ∧ Fits schema value := by
  obtain ⟨⟨json, rfl⟩, property, hvouches, hschema⟩ := h
  obtain ⟨hedge, -, hdelivered⟩ := lastDelivery_some hlast
  refine ⟨property.schema, by rw [declaredSchema, hschema], ?_⟩
  exact hvouches.validates haccepted hedge hdelivered withoutDefinitions "$"

/-- What is declared of the input, by where its entries come from. -/
theorem declared_iff {configured : CombinedSchema} (haccepted : context.SourcesAccepted get) :
    Declared context configured (context.input get) ↔ Combines get context configured := by
  constructor
  · intro h
    refine ⟨fun entry hentry hlast => ?_, fun key edge value hlast => .inr ?_, fun key hkey => ?_, fun key hkey => ?_⟩
    · exact h.entries (entry.1, .json entry.2) (mem_input.2 (by rw [hlast]; exact ⟨entry.2, hentry, rfl⟩))
    · exact h.entries (key, value) (mem_input.2 (by rw [hlast]))
    · exact hasKey_input.1 (h.configured key hkey)
    · exact hasKey_input.1 (h.connected key hkey)
  · intro h
    refine ⟨?_, fun key hkey => hasKey_input.2 (h.configured key hkey),
      fun key hkey => hasKey_input.2 (h.connected key hkey)⟩
    rintro ⟨key, value⟩ hentry
    have hvalue := mem_input.1 hentry
    cases hlast : context.lastDelivery get key with
    | none =>
      rw [hlast] at hvalue
      obtain ⟨json, hconfigured, rfl⟩ := hvalue
      exact h.configuration (key, json) hconfigured hlast
    | some last =>
      rw [hlast] at hvalue
      cases hvalue
      rcases h.deliveries key last.1 last.2 hlast with hvouched | hfits
      · exact fits_of_vouched hvouched haccepted hlast configured
      · exact hfits

theorem validate_asObject_of_typed {keywords : Keywords JsonSchema} {json : Json}
    {resolve : String → Json → String → Option SchemaError} {path : String} (href : keywords.ref = none)
    (hopts : (JsonSchema.object keywords).options = none) (htype : hasType .object keywords.type = true)
    (h : validateJsonSchemaValue resolve (.object keywords) json path = none) : ∃ fields, json = .obj fields ∧
      validateJsonSchemaValue resolve (.object (asObject keywords)) (.obj fields) path = none := by
  have hobject : keywords.type = some (.one .object) := by
    cases hkeyword : keywords.type with
    | none =>
      rw [hkeyword] at htype
      cases htype
    | some keyword =>
      rw [hkeyword] at htype
      cases keyword with
      | one name => rw [beq_iff_eq.1 (htype : (name == TypeName.object) = true)]
      | many names => cases htype
  rw [validate_plain href hopts, orElse_eq_none, orElse_eq_none] at h
  obtain ⟨hparts, hflat, hshape⟩ := h
  obtain ⟨fields, rfl⟩ : ∃ fields, json = .obj fields := by
    rw [flatError, orElse_eq_none, orElse_eq_none, hobject] at hflat
    cases json with
    | obj fields => exact ⟨fields, rfl⟩
    | _ => simp [TypeKeyword.names, matchesPrimitiveType] at hflat
  refine ⟨fields, rfl, ?_⟩
  have href' : (asObject keywords).ref = none := href
  have hopts' : (JsonSchema.object (asObject keywords)).options = none := hopts
  rw [validate_plain href' hopts', orElse_eq_none, orElse_eq_none]
  refine ⟨hparts, ?_, ?_⟩
  · simp only [flatError, hobject] at hflat
    exact hflat
  · rw [shapeError] at hshape ⊢
    split at hshape
    · cases hshape
    · rename_i hitems
      have hitems' : ¬ ((asObject keywords).items.isSome || (asObject keywords).prefixItems.isSome) = true := hitems
      rw [if_neg hitems']
      rw [validateObjectShape_eq_none] at hshape ⊢
      exact hshape

theorem accepts_of_spreadVouched {handler : SpreadObjectNodeHandler} {schema : OutputSchema}
    (h : SpreadVouched get handler context) (haccepted : context.SourcesAccepted get)
    (hschema : handler.getOutputSchema context = .ok schema) :
    schema.Accepts (.obj (handler.execute (context.input get))) := by
  obtain ⟨edge, keywords, defs, json, hincoming, hlast, hvouches, htype, hopts⟩ := h
  have hsource : handler.sourceObject context = some (keywords, defs) := by
    rw [SpreadObjectNodeHandler.sourceObject, hincoming, Option.bind_some, hvouches.resolved]
    simp only [htype, Bool.true_or, if_true]
  have href : keywords.ref = none := by
    cases href : keywords.ref with
    | none => rfl
    | some ref => exact absurd (.here href) (hvouches.selfContained ref)
  obtain ⟨hedge, -, hdelivered⟩ := lastDelivery_some hlast
  have hvalidates := hvouches.validates haccepted hedge hdelivered (resolveReference defs 0) "$"
  obtain ⟨fields, rfl, hfields⟩ := validate_asObject_of_typed href hopts htype hvalidates
  have hexecute : handler.execute (context.input get) = fields := by
    rw [SpreadObjectNodeHandler.execute, inputValue_input, NodeSchemaResolutionContext.received, hlast]
  rw [handler.getOutputSchema_ok hschema, hsource, hexecute]
  exact ⟨0, Option.isNone_iff_eq_none.2 hfields⟩

end

/-- Where the sources' values are accepted by the sources' schemas, what combine and spread nodes return is accepted by
the schemas that they resolve for themselves exactly when all else that they are given fits what is declared for it,
and all that is required is given. -/
theorem objectNodes_honour_iff (context : NodeSchemaResolutionContext) (get : String → Option ExecutionResult)
    (haccepted : context.SourcesAccepted get) :
    (∀ (handler : CombineObjectNodeHandler) (configured : CombinedSchema) (schema : JsonSchema),
      handler.configuredInputSchema context = .ok configured → handler.getOutputSchema context = .ok schema →
      (CombinedAccepts schema (handler.execute (context.input get)) ↔ Combines get context configured)) ∧
    ∀ (handler : SpreadObjectNodeHandler) (schema : OutputSchema), handler.getOutputSchema context = .ok schema →
      (schema.Accepts (.obj (handler.execute (context.input get))) ↔
        SpreadVouched get handler context ∨ Spreads handler context (context.received get handler.inputHandle)) := by
  constructor
  · intro handler configured schema hconfigured hschema
    rw [combine_accepts_iff hconfigured hschema, declared_iff haccepted]
  · intro handler schema hschema
    constructor
    · intro h
      right
      rw [← inputValue_input]
      exact (spread_accepts_iff hschema _).1 h
    · rintro (hvouched | hspreads)
      · exact accepts_of_spreadVouched hvouched haccepted hschema
      · rw [← inputValue_input] at hspreads
        exact (spread_accepts_iff hschema _).2 hspreads

theorem inputHandle_eq_some_iff : inputHandle context edge = some key ↔
    edge.target = context.node.id ∧ edge.targetHandle = some key ∧ key ≠ "" ∧ key ≠ triggerHandle := by
  rw [inputHandle]
  split
  · rename_i htarget
    rw [Option.filter_eq_some_iff]
    simp [htarget]
  · rename_i htarget
    simp [htarget]

def textSchema : JsonSchema := .object { type := some (.one .string) }

def closedSchema (properties : List (String × JsonSchema)) : JsonSchema :=
  .object {
    type := some (.one .object)
    properties := some properties
    required := none
    additionalProperties := some (.bool false) }

def infoContext : NodeSchemaResolutionContext where
  node := { id := "collect", type := some "combine-object" }
  edges := [{ id := "e1", source := "camera", target := "collect", sourceHandle := some "info"
              targetHandle := some "object" }]
  resolveNodeSchema := fun id =>
    .ok (if id = "camera" then some { output := { schema := closedSchema [("info", closedSchema [("name", textSchema)])] } }
      else none)

def cameraResults : String → Option ExecutionResult :=
  fun id => if id = "camera" then some (.success "camera" (.obj [("info", .obj [("name", .str "gate")])])) else none

theorem selfContained_info : SelfContained (closedSchema [("name", textSchema)]) := by
  have htext : SelfContained textSchema := by
    intro ref hmentions
    cases hmentions with
    | here href => cases href
    | deeper hschema => cases hschema
  have hclosed : SelfContained (.bool false) := by
    intro ref hmentions
    cases hmentions
  intro ref hmentions
  cases hmentions with
  | here href => cases href
  | deeper hschema hbelow =>
    simp only [Keywords.below, Option.getD_none, Option.getD_some, nil_append, map_cons, map_nil,
      Option.toList_none, Option.toList_some, append_nil, mem_cons, mem_append, not_mem_nil,
      or_false] at hschema
    rcases hschema with rfl | rfl
    · exact htext ref hbelow
    · exact hclosed ref hbelow

theorem cameraResults_accepted : infoContext.SourcesAccepted cameraResults := by
  intro edge hedge object hobject id data hresult
  obtain rfl := mem_singleton.1 hedge
  cases hobject
  cases hresult
  refine ⟨0, Option.isNone_iff_eq_none.2 ((validate_properties _ none).2 ⟨_, rfl, forall_mem_nil _, ?_⟩)⟩
  refine forall_mem_singleton.2 ⟨_, rfl, (validate_properties _ none).2 ⟨_, rfl, forall_mem_nil _, ?_⟩⟩
  refine forall_mem_singleton.2 ⟨textSchema, rfl, ?_⟩
  rw [textSchema, validate_plain rfl rfl]
  rfl

/-- The camera vouches for what it tells, so it is not checked again. -/
theorem objectNodes_honour_iff_info :
    (∃ schema, CombineObjectNodeHandler.getOutputSchema {} infoContext = .ok schema ∧
      CombinedAccepts schema (CombineObjectNodeHandler.execute {} (infoContext.input cameraResults))) ∧
    ∃ schema : OutputSchema, SpreadObjectNodeHandler.getOutputSchema {} infoContext = .ok schema ∧
      schema.Accepts (.obj (SpreadObjectNodeHandler.execute {} (infoContext.input cameraResults))) := by
  obtain ⟨hcombine, hspread⟩ := objectNodes_honour_iff infoContext cameraResults cameraResults_accepted
  have hvouches (edge : Edge) (hedge : edge ∈ infoContext.incoming) :
      infoContext.Vouches edge ⟨closedSchema [("name", textSchema)], []⟩ := by
    obtain rfl := mem_singleton.1 hedge
    refine ⟨rfl, ?_, selfContained_info⟩
    rintro object ⟨⟩
    exact ⟨rfl, rfl⟩
  constructor
  · refine ⟨_, rfl, (hcombine {} ⟨[], []⟩ _ rfl rfl).2 ⟨forall_mem_nil _, fun key edge value hlast => .inl ?_,
      forall_mem_nil _, fun key hkey => ?_⟩⟩
    · obtain ⟨hedge, hkey, hdelivered⟩ := lastDelivery_some hlast
      refine ⟨?_, _, hvouches edge hedge, ?_⟩
      · obtain rfl := mem_singleton.1 hedge
        cases hdelivered
        exact ⟨_, rfl⟩
      · obtain rfl := mem_singleton.1 hedge
        subst hkey
        rfl
    · obtain ⟨edge, hedge, hhandle, -⟩ := exists_of_handleSchema (Option.eq_some_of_isSome hkey)
      obtain rfl := mem_singleton.1 hedge
      obtain ⟨-, htargetHandle, -⟩ := inputHandle_eq_some_iff.1 hhandle
      cases htargetHandle
      exact .inl rfl
  · refine ⟨_, rfl, (hspread {} _ rfl).2 (.inl ⟨_, _, _, _, rfl, rfl, hvouches _ ?_, rfl, rfl⟩)⟩
    exact mem_singleton.2 rfl

def noteContext : NodeSchemaResolutionContext where
  node := {
    id := "combine"
    type := some "combine-object"
    configuration := some [("inputSchema", .obj [("type", .str "object"),
      ("properties", .obj [("note", .obj [("type", .str "string")])]), ("required", .arr [])])] }
  edges := []
  resolveNodeSchema := fun _ => .ok none

/-- The configured schema is given on in the output, where it is not allowed. -/
theorem configured_schema_rejected : noteContext.SourcesAccepted (fun _ => none) ∧ ∃ schema,
    CombineObjectNodeHandler.getOutputSchema {} noteContext = .ok schema ∧
    ¬ CombinedAccepts schema (CombineObjectNodeHandler.execute {} (noteContext.input fun _ => none)) := by
  have hconfigured : CombineObjectNodeHandler.configuredInputSchema {} noteContext =
      .ok ⟨[("note", .object { type := some (.one .string) })], []⟩ := by rfl
  refine ⟨forall_mem_nil _, _, rfl, ?_⟩
  rw [combine_accepts_iff hconfigured rfl]
  intro hdeclared
  obtain ⟨schema, hschema, -⟩ := hdeclared.entries _ (mem_cons_self ..)
  cases hschema

end Trakrai.WorkflowNodes
