import Mathlib.Tactic.IntervalCases
import Trakrai.Lib.Except
import Trakrai.Lib.JoinedNames
import Trakrai.NodeRuntime.Runtime
import Trakrai.Workflow.Chart

namespace Trakrai.WorkflowNodes
open List Lib NodeRuntime Workflow

def mergeInputsKey : String := "mergeInputs"

def mergeOutputSchemaKey : String := "mergeOutputSchema"

def mergeHandleSeparator : String := "__"

abbrev Configuration := List (String × Json)

/-- `getSchemaFromConfiguration`. -/
def schemaFromConfiguration (configuration : Configuration) (key : String) : Option Json :=
  match configuration.lookup key with
  | some (.bool value) => some (.bool value)
  | some (.arr items) => some (.arr items)
  | some (.obj fields) => some (.obj fields)
  | _ => none

/-- `toObjectSchema` of a schema that is configured. -/
def configuredObjectSchema (configuration : Configuration) (key : String) :
    Except String NodeRuntime.ResolvedObjectSchema :=
  match schemaFromConfiguration configuration key with
  | none => .ok NodeRuntime.emptyObjectSchema
  | some schema => objectShape schema

structure MergeInputDefinition where
  id : String
  label : Option String
deriving DecidableEq

/-- `isMergeInputDefinition`, and what it lets through. -/
def readMergeInput : Json → Option MergeInputDefinition
  | .obj entry =>
    match entry.lookup "id", entry.lookup "label" with
    | some (.str id), none => if id = "" then none else some ⟨id, none⟩
    | some (.str id), some (.str label) => if id = "" then none else some ⟨id, some label⟩
    | _, _ => none
  | _ => none

def getMergeInputsFromConfig (configuration : Configuration) : List MergeInputDefinition :=
  match configuration.lookup mergeInputsKey with
  | some (.arr items) => items.filterMap readMergeInput
  | _ => []

def buildMergeHandleId (inputId field : String) : String := inputId ++ mergeHandleSeparator ++ field

/-- The names that the handler reads of a schema. Where none is required explicitly, all are. -/
structure OutputFields where
  properties : List String
  required : List String

/-- A list that holds anything but names is not modelled. -/
def outputFields (schema : NodeRuntime.ResolvedObjectSchema) : Except String OutputFields :=
  let properties := propertyNames (schema.lookup "properties")
  match schema.lookup "required" with
  | none | some .null => .ok ⟨properties, properties⟩
  | some (.arr items) =>
    match items.mapM Json.string? with
    | some required => .ok ⟨properties, required⟩
    | none => .error "required is no list of names"
  | some _ => .error "outputRequired.every is not a function"

/-- `input[key]`. -/
def inputValue (input : Input) (key : String) : InputValue :=
  match input.lookup key with
  | some value => value
  | none => .inherited key

section
variable (fields : OutputFields) (input : Input)

def hasAllRequired (inputId : String) : Bool :=
  fields.required.all fun field => hasKey input (buildMergeHandleId inputId field)

def hasAnyField (inputId : String) : Bool :=
  fields.properties.any fun field => hasKey input (buildMergeHandleId inputId field)

def selectMergeInputId (inputs : List MergeInputDefinition) : Option String :=
  (inputs.find? fun entry => hasAllRequired fields input entry.id).or
    (inputs.find? fun entry => hasAnyField fields input entry.id) |>.map (·.id)

/-- The loop over the properties in `execute`. A field `__proto__` is an entry like any other here, where JavaScript
would set the prototype of the output. -/
def collectFields (activeInputId : String) : List String → Except String Input
  | [] => .ok []
  | field :: rest => do
    let handleId := buildMergeHandleId activeInputId field
    if hasKey input handleId then
      let output ← collectFields activeInputId rest
      .ok ((field, inputValue input handleId) :: output)
    else if field ∈ fields.required then
      .error ("Merge input '" ++ activeInputId ++ "' is missing required field '" ++ field ++ "'")
    else collectFields activeInputId rest

end

/-- `MergeAnyNodeHandler.execute`. -/
def executeMerge (configuration : Configuration) (input : Input) : Except String Input := do
  let inputs := getMergeInputsFromConfig configuration
  if inputs.isEmpty then throw "Merge node has no inputs configured"
  let fields ← outputFields (← configuredObjectSchema configuration mergeOutputSchemaKey)
  match selectMergeInputId fields input inputs with
  | none => throw "Merge node did not receive input values from any predecessor"
  | some activeInputId => collectFields fields input activeInputId fields.properties

/-- The output is one branch, whole. A value is supplied where its handle is `in` the input. -/
structure OneBranch (configuration : Configuration) (fields : OutputFields) (input : Input) : Prop where
  apart : ∀ i ∈ getMergeInputsFromConfig configuration, ∀ j ∈ getMergeInputsFromConfig configuration,
    ∀ field ∈ fields.properties, ∀ field' ∈ fields.properties,
      buildMergeHandleId i.id field = buildMergeHandleId j.id field' → i.id = j.id ∧ field = field'
  complete : (∃ i ∈ getMergeInputsFromConfig configuration, hasAllRequired fields input i.id) →
    ∃ inputId, selectMergeInputId fields input (getMergeInputsFromConfig configuration) = some inputId ∧
      hasAllRequired fields input inputId
  supplied : (∃ i ∈ getMergeInputsFromConfig configuration, hasAnyField fields input i.id) →
    ∃ inputId, selectMergeInputId fields input (getMergeInputsFromConfig configuration) = some inputId ∧
      hasAnyField fields input inputId
  returned : ∀ {output}, executeMerge configuration input = .ok output →
    ∃ i ∈ getMergeInputsFromConfig configuration,
      selectMergeInputId fields input (getMergeInputsFromConfig configuration) = some i.id ∧
      (∀ entry ∈ output, entry.1 ∈ fields.properties ∧ hasKey input (buildMergeHandleId i.id entry.1) ∧
        entry.2 = inputValue input (buildMergeHandleId i.id entry.1)) ∧
      ∀ field ∈ fields.required, field ∈ output.map Prod.fst

/-- No input id goes on where another one ends and a field goes on with the separator, or with its second half. -/
structure HandlesApart (ids properties : List String) : Prop where
  separator : ∀ id ∈ ids, ∀ id' ∈ ids, ∀ field ∈ properties, ∀ field' ∈ properties, ∀ between,
    ¬ (id' = id ++ "__" ++ between ∧ field = between ++ "__" ++ field')
  half : ∀ id ∈ ids, ∀ id' ∈ ids, ∀ field ∈ properties, ∀ field' ∈ properties,
    ¬ (id' = id ++ "_" ∧ field = "_" ++ field')

section
variable {a b c d : String}

theorem runsOn_underscores : RunsOn "__".toList a.toList b.toList c.toList d.toList ↔
    (∃ y : String, c = a ++ "__" ++ y ∧ b = y ++ "__" ++ d) ∨ (c = a ++ "_" ∧ b = "_" ++ d) := by
  rw [runsOn_iff (by decide), exists_ofList]
  simp only [← String.toList_inj, String.toList_append, append_assoc]
  apply or_congr_right
  constructor
  · rintro ⟨k, hpos, hlt, -, hc, hb⟩
    have hlen : "__".toList.length = 2 := rfl
    rw [hlen] at hlt
    interval_cases k
    exact ⟨hc, hb⟩
  · rintro ⟨hc, hb⟩
    exact ⟨1, by decide, by decide, by decide, hc, hb⟩

variable {ids properties : List String}

theorem handlesApart_iff : HandlesApart ids properties ↔
    ∀ id ∈ ids, ∀ id' ∈ ids, ∀ field ∈ properties, ∀ field' ∈ properties,
      buildMergeHandleId id field = buildMergeHandleId id' field' → id = id' ∧ field = field' := by
  constructor
  · intro h id hid id' hid' field hfield field' hfield' heq
    rcases (joinedText_eq_iff mergeHandleSeparator).1 heq with hsame | hruns | hruns
    · exact hsame
    · rcases runsOn_underscores.1 hruns with ⟨y, hy⟩ | hhalf
      · exact absurd hy (h.separator id hid id' hid' field hfield field' hfield' y)
      · exact absurd hhalf (h.half id hid id' hid' field hfield field' hfield')
    · rcases runsOn_underscores.1 hruns with ⟨y, hy⟩ | hhalf
      · exact absurd hy (h.separator id' hid' id hid field' hfield' field hfield y)
      · exact absurd hhalf (h.half id' hid' id hid field' hfield' field hfield)
  · intro h
    constructor
    · intro id hid id' hid' field hfield field' hfield' between ⟨hid'eq, hfieldeq⟩
      have heq : buildMergeHandleId id field = buildMergeHandleId id' field' := by
        simp only [buildMergeHandleId, mergeHandleSeparator, hid'eq, hfieldeq, String.append_assoc]
      have hlength := congrArg String.length (h id hid id' hid' field hfield field' hfield' heq).1
      rw [hid'eq, String.length_append, String.length_append] at hlength
      have hmark : "__".length = 2 := rfl
      omega
    · intro id hid id' hid' field hfield field' hfield' ⟨hid'eq, hfieldeq⟩
      have hmark : "__" = "_" ++ "_" := rfl
      have heq : buildMergeHandleId id field = buildMergeHandleId id' field' := by
        simp only [buildMergeHandleId, mergeHandleSeparator, hid'eq, hfieldeq, hmark, String.append_assoc]
      have hlength := congrArg String.length (h id hid id' hid' field hfield field' hfield' heq).1
      rw [hid'eq, String.length_append] at hlength
      have hmark : "_".length = 1 := rfl
      omega

end

section
variable {fields : OutputFields} {input output : Input} {inputs : List MergeInputDefinition} {inputId : String}
  {properties : List String}

theorem collectFields_ok (h : collectFields fields input inputId properties = .ok output) :
    (∀ entry ∈ output, entry.1 ∈ properties ∧ hasKey input (buildMergeHandleId inputId entry.1) ∧
      entry.2 = inputValue input (buildMergeHandleId inputId entry.1)) ∧
    ∀ field ∈ properties, field ∈ fields.required → field ∈ output.map Prod.fst := by
  induction properties generalizing output with
  | nil =>
    cases h
    exact ⟨forall_mem_nil _, forall_mem_nil _⟩
  | cons field rest ih =>
    rw [collectFields] at h
    split at h
    · rename_i hkey
      obtain ⟨tail, htail, h⟩ := bind_ok h
      cases h
      obtain ⟨hentries, hrequired⟩ := ih htail
      constructor
      · intro entry hentry
        rcases mem_cons.1 hentry with rfl | hentry
        · exact ⟨mem_cons_self .., hkey, rfl⟩
        · obtain ⟨hmem, hrest⟩ := hentries entry hentry
          exact ⟨mem_cons_of_mem _ hmem, hrest⟩
      · intro other hother hreq
        rcases mem_cons.1 hother with rfl | hother
        · exact mem_cons_self ..
        · exact mem_cons_of_mem _ (hrequired other hother hreq)
    · split at h
      · cases h
      · rename_i hoptional
        obtain ⟨hentries, hrequired⟩ := ih h
        constructor
        · intro entry hentry
          obtain ⟨hmem, hrest⟩ := hentries entry hentry
          exact ⟨mem_cons_of_mem _ hmem, hrest⟩
        · intro other hother hreq
          rcases mem_cons.1 hother with rfl | hother
          · exact absurd hreq hoptional
          · exact hrequired other hother hreq

theorem hasAllRequired_of_find?
    (h : (inputs.find? fun entry => hasAllRequired fields input entry.id) = some i) :
    i ∈ inputs ∧ hasAllRequired fields input i.id := by
  have hi := List.find?_some h
  exact ⟨List.mem_of_find?_eq_some h, hi⟩

theorem hasAnyField_of_find?
    (h : (inputs.find? fun entry => hasAnyField fields input entry.id) = some i) :
    i ∈ inputs ∧ hasAnyField fields input i.id := by
  have hi := List.find?_some h
  exact ⟨List.mem_of_find?_eq_some h, hi⟩

theorem mem_of_select (h : selectMergeInputId fields input inputs = some inputId) :
    ∃ i ∈ inputs, i.id = inputId ∧ (hasAllRequired fields input inputId ∨ hasAnyField fields input inputId) := by
  obtain ⟨i, hi, rfl⟩ := Option.map_eq_some_iff.1 h
  rcases Option.or_eq_some_iff.1 hi with hi | ⟨-, hi⟩
  · obtain ⟨hmem, hcomplete⟩ := hasAllRequired_of_find? hi
    exact ⟨i, hmem, rfl, .inl hcomplete⟩
  · obtain ⟨hmem, hsome⟩ := hasAnyField_of_find? hi
    exact ⟨i, hmem, rfl, .inr hsome⟩

theorem select_complete (h : ∃ i ∈ inputs, hasAllRequired fields input i.id) :
    ∃ inputId, selectMergeInputId fields input inputs = some inputId ∧ hasAllRequired fields input inputId := by
  cases hfind : inputs.find? fun entry => hasAllRequired fields input entry.id with
  | none =>
    obtain ⟨i, hi, hcomplete⟩ := h
    exact absurd hcomplete (List.find?_eq_none.1 hfind i hi)
  | some i =>
    refine ⟨i.id, ?_, (hasAllRequired_of_find? hfind).2⟩
    rw [selectMergeInputId, hfind]
    rfl

theorem hasAnyField_of_hasAllRequired (hrequired : ∀ field ∈ fields.required, field ∈ fields.properties)
    (hne : fields.required ≠ []) (h : hasAllRequired fields input inputId) : hasAnyField fields input inputId := by
  obtain ⟨field, hfield⟩ := exists_mem_of_ne_nil _ hne
  exact any_eq_true.2 ⟨field, hrequired field hfield, all_eq_true.1 h field hfield⟩

theorem select_of_required_nil (h : fields.required = []) :
    selectMergeInputId fields input inputs = inputs.head?.map (·.id) := by
  cases inputs with
  | nil => rfl
  | cons first rest =>
    have hfirst : hasAllRequired fields input first.id = true := by
      rw [hasAllRequired, h, all_nil]
    rw [selectMergeInputId, List.find?_cons, hfirst]
    rfl

/-- An input with a value is chosen where there is one, unless nothing is required: then it is the first that is
chosen. -/
theorem select_supplied_iff (hrequired : ∀ field ∈ fields.required, field ∈ fields.properties) :
    ((∃ i ∈ inputs, hasAnyField fields input i.id) →
      ∃ inputId, selectMergeInputId fields input inputs = some inputId ∧ hasAnyField fields input inputId) ↔
    (fields.required = [] → (∃ i ∈ inputs, hasAnyField fields input i.id) →
      ∃ first ∈ inputs.head?, hasAnyField fields input first.id) := by
  by_cases hnil : fields.required = []
  · simp only [select_of_required_nil hnil, hnil, forall_const, Option.map_eq_some_iff]
    apply imp_congr_right
    intro _
    constructor
    · rintro ⟨_, ⟨first, hfirst, rfl⟩, hany⟩
      exact ⟨first, hfirst, hany⟩
    · rintro ⟨first, hfirst, hany⟩
      exact ⟨first.id, ⟨first, hfirst, rfl⟩, hany⟩
  · apply iff_of_true
    · rintro ⟨i, hi, hany⟩
      cases hselect : selectMergeInputId fields input inputs with
      | none =>
        rw [selectMergeInputId, Option.map_eq_none_iff, Option.or_eq_none_iff] at hselect
        exact absurd hany (List.find?_eq_none.1 hselect.2 i hi)
      | some inputId =>
        obtain ⟨-, -, -, hchosen⟩ := mem_of_select hselect
        refine ⟨inputId, rfl, ?_⟩
        rcases hchosen with hcomplete | hsome
        · exact hasAnyField_of_hasAllRequired hrequired hnil hcomplete
        · exact hsome
    · intro h
      exact absurd h hnil

theorem executeMerge_returned
    (hschema : configuredObjectSchema configuration mergeOutputSchemaKey = .ok schema)
    (hfields : outputFields schema = .ok fields)
    (hrequired : ∀ field ∈ fields.required, field ∈ fields.properties)
    (h : executeMerge configuration input = .ok output) :
    ∃ i ∈ getMergeInputsFromConfig configuration,
      selectMergeInputId fields input (getMergeInputsFromConfig configuration) = some i.id ∧
      (∀ entry ∈ output, entry.1 ∈ fields.properties ∧ hasKey input (buildMergeHandleId i.id entry.1) ∧
        entry.2 = inputValue input (buildMergeHandleId i.id entry.1)) ∧
      ∀ field ∈ fields.required, field ∈ output.map Prod.fst := by
  rw [executeMerge] at h
  simp only [hschema, hfields, bind, Except.bind] at h
  split at h
  · cases h
  · cases hselect : selectMergeInputId fields input (getMergeInputsFromConfig configuration) with
    | none =>
      rw [hselect] at h
      cases h
    | some inputId =>
      rw [hselect] at h
      obtain ⟨i, hi, rfl, -⟩ := mem_of_select hselect
      obtain ⟨hentries, hall⟩ := collectFields_ok h
      exact ⟨i, hi, rfl, hentries, fun field hfield => hall field (hrequired field hfield) hfield⟩

/-- The merge node returns one branch exactly when the handles are apart, and either something is required, or the
first input has supplied something, or none has. -/
theorem oneBranch_iff {configuration : Configuration} {schema : NodeRuntime.ResolvedObjectSchema} (input : Input)
    (hschema : configuredObjectSchema configuration mergeOutputSchemaKey = .ok schema)
    (hfields : outputFields schema = .ok fields)
    (hrequired : ∀ field ∈ fields.required, field ∈ fields.properties) :
    OneBranch configuration fields input ↔
      HandlesApart ((getMergeInputsFromConfig configuration).map (·.id)) fields.properties ∧
      (fields.required = [] → (∃ i ∈ getMergeInputsFromConfig configuration, hasAnyField fields input i.id) →
        ∃ first ∈ (getMergeInputsFromConfig configuration).head?, hasAnyField fields input first.id) := by
  rw [← select_supplied_iff hrequired, handlesApart_iff]
  simp only [forall_mem_map]
  constructor
  · intro h
    exact ⟨h.apart, h.supplied⟩
  · intro ⟨hapart, hsupplied⟩
    exact ⟨hapart, select_complete, hsupplied, executeMerge_returned hschema hfields hrequired⟩

end

def frameConfiguration (required : List String) : Configuration :=
  [(mergeInputsKey, .arr [.obj [("id", .str "camera")], .obj [("id", .str "archive"), ("label", .str "Archive")]]),
    (mergeOutputSchemaKey, .obj [ ("type", .str "object"),
      ("properties", .obj [("frame", .obj [("type", .str "string")]), ("note", .obj [("type", .str "string")])]),
      ("required", .arr (required.map .str))])]

def archiveInput : Input := [("archive__frame", .json (.str "frame-7"))]

theorem oneBranch_iff_archive :
    OneBranch (frameConfiguration ["frame"]) ⟨["frame", "note"], ["frame"]⟩ archiveInput := by
  have hids : (getMergeInputsFromConfig (frameConfiguration ["frame"])).map (·.id) = ["camera", "archive"] := rfl
  apply (oneBranch_iff archiveInput rfl rfl ?_).2
  · rw [hids, handlesApart_iff]
    exact ⟨by decide, fun hnil => by cases hnil⟩
  · decide

/-- With nothing required the camera is chosen though only the archive has supplied a frame, and the frame is lost. -/
theorem supplied_frame_lost :
    ¬ OneBranch (frameConfiguration []) ⟨["frame", "note"], []⟩ archiveInput ∧
    hasAnyField ⟨["frame", "note"], []⟩ archiveInput "archive" = true ∧
    hasAnyField ⟨["frame", "note"], []⟩ archiveInput "camera" = false ∧
    selectMergeInputId ⟨["frame", "note"], []⟩ archiveInput (getMergeInputsFromConfig (frameConfiguration [])) =
      some "camera" ∧
    executeMerge (frameConfiguration []) archiveInput = .ok [] := by
  have hselect : selectMergeInputId ⟨["frame", "note"], []⟩ archiveInput
      (getMergeInputsFromConfig (frameConfiguration [])) = some "camera" := rfl
  refine ⟨?_, by decide, by decide, hselect, rfl⟩
  intro h
  obtain ⟨inputId, hchosen, hany⟩ := h.supplied ⟨⟨"archive", some "Archive"⟩, by decide, by decide⟩
  rw [hselect, Option.some.injEq] at hchosen
  rw [← hchosen] at hany
  exact absurd hany (by decide)

/-- Two handles of one name: a field with the separator in it. -/
example : buildMergeHandleId "camera" "frame__note" = buildMergeHandleId "camera__frame" "note" := by
  decide

end Trakrai.WorkflowNodes
