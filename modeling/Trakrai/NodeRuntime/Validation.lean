import Trakrai.NodeRuntime.Resolution
import Trakrai.Workflow.Specification

namespace Trakrai.NodeRuntime
open Option List Lib
open Workflow (Node Edge ObjectSchema PropertySchema SchemaResolver Validation Specified Decides
  PlainInputs NamelessConfigured decides_iff)

/-- What an application registers, by node type. -/
structure Registrations (Zod : Type) where
  nodeSchemas : List (String × NodeSchema Zod) := []
  nodeHandlers : List (String × Option (WorkflowNodeHandler Zod)) := []

def Registrations.args (registrations : Registrations Zod) (nodes : List Node) (edges : List Edge) :
    CreateNodeRuntimeArgs Zod where
  nodes := nodes
  edges := edges
  nodeSchemas nodeType := registrations.nodeSchemas.lookup nodeType
  nodeHandlers nodeType := (registrations.nodeHandlers.lookup nodeType).join

section
variable (numberText : Rat → String)

mutual

/-- `String(value)`. An object with a `toString` of its own has no text. -/
def text : Json → Except String String
  | .null => .ok "null"
  | .bool value => .ok (toString value)
  | .num value => .ok (numberText value)
  | .str value => .ok value
  | .arr items => (",".intercalate ·) <$> elementTexts items
  | .obj fields =>
    if (fields.lookup "toString").isSome then .error "Cannot convert object to primitive value"
    else .ok "[object Object]"

/-- The texts that `join` puts together. -/
def elementTexts : List Json → Except String (List String)
  | [] => .ok []
  | .null :: items => ("" :: ·) <$> elementTexts items
  | item :: items => do
    let first ← text item
    let rest ← elementTexts items
    .ok (first :: rest)

end

def propertySchema : Json → PropertySchema
  | .obj fields => .object (fields.lookup "default")
  | .arr _ => .object none
  | .null => .primitive "null"
  | .bool value => .primitive (toString value)
  | .num value => .primitive (numberText value)
  | .str value => .primitive value

/-- What `properties[field]` finds. An array has a length besides its items; a member that is inherited has no
default, like one that is missing. -/
def propertySchemas : Option Json → List (String × PropertySchema)
  | some (.obj fields) => fields.map fun (name, schema) => (name, propertySchema numberText schema)
  | some (.arr items) =>
    (items.zipIdx.map fun (item, i) => (toString i, propertySchema numberText item)) ++
      [("length", .primitive (toString items.length))]
  | _ => []

/-- A resolved schema as `getRequiredInputFields` reads it. -/
def inputSchema (schema : ResolvedObjectSchema) : Except String ObjectSchema :=
  let properties := schema.lookup "properties"
  match schema.lookup "required" with
  | none | some .null =>
    .ok { properties := propertySchemas numberText properties, required := some (propertyNames properties) }
  | some (.arr entries) => do
    let unnamed ← (entries.filter (·.string?.isNone)).mapM (text numberText)
    .ok {
      properties := propertySchemas numberText properties
      required := some (entries.filterMap Json.string?)
      unnamed := unnamed }
  | some _ => .error "required.filter is not a function"

end

/-- A runtime between two calls of its user. -/
structure IdleRuntime (Zod : Type) extends Runtime Zod where
  idle : toRuntime.resolving = [] := by rfl

section
variable {Zod : Type} [ZodTypes Zod]

/-- One handler more than there are nodes may run at a time (`resolveNodeSchema_idle`), so the call returns. -/
def IdleRuntime.resolveNodeSchema (args : CreateNodeRuntimeArgs Zod) (s : IdleRuntime Zod) (node : Node) :
    Except String (Option ResolvedNodeSchema) × IdleRuntime Zod :=
  let outcome := NodeRuntime.resolveNodeSchema (resolveNodeSchemaSource args (args.nodes.length + 1)) node s.toRuntime
  have hreturns := resolveNodeSchema_idle s.idle (Nat.lt_succ_self args.nodes.length) node
  have hsome : outcome.isSome := by
    obtain ⟨result, s', h, -⟩ := hreturns
    exact isSome_iff_exists.2 ⟨_, h⟩
  let answer := outcome.get hsome
  (answer.1, {
    toRuntime := answer.2
    idle := by
      obtain ⟨result, s', h, hidle⟩ := hreturns
      have hanswer : answer = (result, s') := get_of_eq_some hsome h
      rw [hanswer]
      exact hidle })

section
variable (numberText : Rat → String)

def Registrations.resolver (registrations : Registrations Zod) (nodes : List Node)
    (edges : List Edge) : SchemaResolver (IdleRuntime Zod) where
  knownNodeTypes := registrations.nodeSchemas.map Prod.fst ++ registrations.nodeHandlers.map Prod.fst
  resolveInput node s :=
    let (schema, s) := s.resolveNodeSchema (registrations.args nodes edges) node
    (schema.bind fun schema => schema.mapM fun resolved => inputSchema numberText resolved.input, s)

def validateWorkflow (nodes : List Node) (edges : List Edge)
    (registrations : Registrations Zod) (asyncNodeTypes : List String) : Except String Validation :=
  (registrations.resolver numberText nodes edges).validate {} nodes edges asyncNodeTypes

/-- The validation decides its specification exactly where the schemas of the nodes, resolved one after another,
come without an exception, no required input has a schema that is no object, and none without a name is left to an
edge alone. -/
theorem validateWorkflow_decides (registrations : Registrations Zod) (nodes : List Node)
    (edges : List Edge) (asyncNodeTypes : List String) (hne : nodes ≠ []) :
    Decides nodes edges (validateWorkflow numberText nodes edges registrations asyncNodeTypes)
      (Specified (registrations.resolver numberText nodes edges) {} nodes edges) ↔
    ∃ answers, (registrations.resolver numberText nodes edges).answers nodes {} = .ok answers ∧
      PlainInputs answers ∧
      (Specified (registrations.resolver numberText nodes edges) {} nodes edges → NamelessConfigured answers) :=
  decides_iff hne

end

end

def inputHandler (properties : List (String × Json)) : WorkflowNodeHandler Empty where
  getInputSchema _ := pure (some (.json (.obj [("type", .str "object"), ("properties", .obj properties)])))
  getOutputSchema _ := pure none

def switchRegistrations : Registrations Empty where
  nodeHandlers := [ ("switch", some (inputHandler [("enabled", .bool true)])),
    ("timer", some (inputHandler [("seconds", .obj [("default", .num 5)])]))]

def timer : List Node := [⟨"t", some "timer", none⟩]

def twins : List Node := [⟨"t", some "timer", none⟩, ⟨"t", some "switch", none⟩]

def timerInput : ObjectSchema :=
  { properties := [("seconds", .object (some (.num 5)))], required := some ["seconds"] }

theorem timerInput_plain : timerInput.Plain := by
  intro field hfield text
  rw [mem_singleton.1 hfield]
  rintro ⟨⟩

theorem timerInput_requires : ¬ timerInput.Requires "" := fun h => absurd (mem_singleton.1 h.1) (by decide)

/-- A timer is valid, and two nodes of one id are not: the second is judged by the schema of the first, which the
runtime keeps. -/
theorem validateWorkflow_decides_timer :
    Decides timer [] (validateWorkflow toString timer [] switchRegistrations [])
      (Specified (switchRegistrations.resolver toString timer []) {} timer []) ∧
    Decides twins [] (validateWorkflow toString twins [] switchRegistrations [])
      (Specified (switchRegistrations.resolver toString twins []) {} twins []) := by
  have hanswers : (switchRegistrations.resolver toString timer []).answers timer {} =
      .ok [(⟨"t", some "timer", none⟩, some timerInput)] := rfl
  have htwins : (switchRegistrations.resolver toString twins []).answers twins {} =
      .ok [(⟨"t", some "timer", none⟩, some timerInput), (⟨"t", some "switch", none⟩, some timerInput)] := rfl
  constructor
  · refine (validateWorkflow_decides toString switchRegistrations timer [] [] (cons_ne_nil _ _)).2
      ⟨_, hanswers, ?_, fun _ => ?_⟩
    · simp only [PlainInputs, forall_mem_singleton, some.injEq, forall_eq']
      exact timerInput_plain
    · simp only [NamelessConfigured, forall_mem_singleton, some.injEq, forall_eq']
      exact fun h => absurd h timerInput_requires
  · refine (validateWorkflow_decides toString switchRegistrations twins [] [] (cons_ne_nil _ _)).2
      ⟨_, htwins, ?_, fun h => absurd h.nodup (by decide)⟩
    simp only [PlainInputs, forall_mem_cons, some.injEq, forall_eq']
    exact ⟨timerInput_plain, timerInput_plain, forall_mem_nil _⟩

/-- The `in` operator throws where the schema of a configured input is `true`. -/
theorem validateWorkflow_boolean_schema :
    ¬ ∀ (numberText : Rat → String) (registrations : Registrations Empty) (nodes : List Node) (edges : List Edge)
      (asyncNodeTypes : List String), nodes ≠ [] →
      Decides nodes edges (validateWorkflow numberText nodes edges registrations asyncNodeTypes)
        (Specified (registrations.resolver numberText nodes edges) {} nodes edges) := by
  intro h
  obtain ⟨verdict, hverdict, -⟩ := h toString switchRegistrations
    [⟨"s", some "switch", some [("enabled", .bool true)]⟩] [] [] (cons_ne_nil _ _)
  cases hverdict

end Trakrai.NodeRuntime
