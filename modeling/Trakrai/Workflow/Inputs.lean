import Trakrai.Workflow.SchemaMatching
import Trakrai.Workflow.Views

namespace Trakrai.Workflow
open List Lib

section
variable {f : String → Option ExecutionResult} {dep : DependencyInfo} {input : Input}
  {field : String}

def Carries (f : String → Option ExecutionResult) (dep : DependencyInfo) : Prop :=
  ∃ id fields, f dep.resultKey.1 = some (.success id (.obj fields)) ∧
    hasKey fields dep.resultKey.2 = true

def Feeds (f : String → Option ExecutionResult) (dep : DependencyInfo) (field : String) : Prop :=
  dep.targetHandle = field ∧ dep.targetHandle ≠ triggerHandle ∧ Carries f dep

theorem lookup_addInput : ((addInput f input dep).lookup field).isSome ↔
    (input.lookup field).isSome ∨ Feeds f dep field := by
  rw [addInput]
  split
  · rename_i htrigger
    constructor
    · exact .inl
    · rintro (h | ⟨-, hne, -⟩)
      · exact h
      · exact absurd htrigger hne
  · rename_i htrigger
    split
    · rename_i id fields hresult
      split
      · rename_i hkey
        rw [lookup_setKey]
        by_cases hfield : field = dep.targetHandle
        · simp only [hfield, if_true, Option.isSome_some, true_iff]
          exact .inr ⟨rfl, htrigger, id, fields, hresult, hkey⟩
        · simp only [hfield, if_false]
          constructor
          · exact .inl
          · rintro (h | ⟨heq, -⟩)
            · exact h
            · exact absurd heq.symm hfield
      · rename_i hkey
        constructor
        · exact .inl
        · rintro (h | ⟨-, -, id', fields', hresult', hkey'⟩)
          · exact h
          · rw [hresult] at hresult'
            cases hresult'
            exact absurd hkey' hkey
    · rename_i hresult
      constructor
      · exact .inl
      · rintro (h | ⟨-, -, id', fields', hresult', -⟩)
        · exact h
        · exact absurd hresult' (hresult id' fields')

theorem lookup_foldl_addInput (dependencies : List DependencyInfo) :
    ((dependencies.foldl (addInput f) input).lookup field).isSome ↔
      (input.lookup field).isSome ∨ ∃ dep ∈ dependencies, Feeds f dep field := by
  induction dependencies generalizing input with
  | nil => simp
  | cons dep dependencies ih =>
    rw [foldl_cons, ih, lookup_addInput, or_assoc]
    simp

theorem lookup_map_snd (fields : List (String × α)) (g : α → β) :
    (fields.map fun field => (field.1, g field.2)).lookup key = (fields.lookup key).map g := by
  induction fields with
  | nil => rfl
  | cons entry fields ih =>
    rw [map_cons, lookup_cons, lookup_cons]
    split
    · rfl
    · exact ih

theorem lookup_buildNodeInput (node : Node) (dependencies : List DependencyInfo) :
    ((buildNodeInput f node dependencies).lookup field).isSome ↔
      ((node.configuration.getD []).lookup field).isSome ∨
        ∃ dep ∈ dependencies, Feeds f dep field := by
  rw [buildNodeInput, lookup_foldl_addInput, lookup_map_snd, Option.isSome_map]

end

theorem hasKey_of_accepts (href : keywords.ref = none)
    (hopts : (JsonSchema.object keywords).options = none) (hall : keywords.allOf = none)
    (hitems : keywords.items = none) (hpre : keywords.prefixItems = none)
    (h : OutputSchema.Accepts ⟨.object keywords, defs⟩ (.obj fields)) :
    ∀ key ∈ keywords.required.getD [], hasKey fields key = true := by
  obtain ⟨depth, haccepts⟩ := h
  obtain ⟨-, hshape⟩ := (validate_eq_none href hopts hall).1 (Option.isNone_iff_eq_none.1 haccepts)
  rw [shapeError, if_neg (by simp [hitems, hpre]), validateObjectShape, orElse_eq_none] at hshape
  intro key hkey
  simpa using List.findSome?_eq_none_iff.1 hshape.1 key hkey

namespace Automation
variable (w : Automation)

def Requires (node : Node) (field : String) : Prop :=
  ∃ schema required, w.registry.resolveNodeSchema node = some schema ∧
    getRequiredInputFields schema.input = .ok required ∧ field ∈ required

def AcceptsOutput (node : Node) (output : List (String × Json)) : Prop :=
  ∃ schema, w.registry.resolveNodeSchema node = some schema ∧ schema.output.Accepts (.obj output)

/-- A value that the schemas allow under a key: an output of the node, or the data of an event
that a dependency waits for. -/
def Possible (key : String) (data : Json) : Prop :=
  (∃ node ∈ w.nodes, node.id = key ∧ ∃ output, data = .obj output ∧ w.AcceptsOutput node output) ∨
  ∃ target ∈ w.nodes, ∃ wait ∈ eventDependencies (w.dependencies target),
    buildNodeEventId wait.1.sourceNodeId wait.2 = key ∧
      ∃ eventData id, w.processEventDependencyData (some eventData) wait.1 wait.2 = .success id data

/-- Every success holds a value that the schemas allow. -/
def Conforming (f : String → Option ExecutionResult) : Prop :=
  ∀ key id data, f key = some (.success id data) → w.Possible key data

/-- The field is configured, or whatever the schemas allow the results to be with which the node
passes its check, some edge finds its property there. -/
def Provided (node : Node) (field : String) : Prop :=
  ((node.configuration.getD []).lookup field).isSome ∨
  ∀ f, w.Conforming f → hasDependencyFailure f (w.dependencies node) = .ok false →
    ∃ dep ∈ w.dependencies node, Feeds f dep field

def OutputsAccepted (s : State) : Prop :=
  ∀ node ∈ w.nodes, ∀ output, s.tasks node.id = .ran (.returned output) →
    w.AcceptsOutput node output

/-- No step lets the check of a node fail that has passed it and is about to be executed. -/
def KeepsChecks (s : State) (action : Action) : Prop :=
  ∀ t, w.system.step s action t → ∀ node ∈ w.nodes, w.getDependencyModeForNode node = .all →
    s.tasks node.id = .ready (w.dependencies node) →
    hasDependencyFailure s.get (w.dependencies node) = .ok false →
    hasDependencyFailure t.get (w.dependencies node) = .ok false

def Holds (s : State) (node : Node) : Task → Prop
  | .events pending => pending ⊆ eventDependencies (w.dependencies node)
  | .racedEvents _ _ pending =>
    w.getDependencyModeForNode node = .any ∧ pending ⊆ eventDependencies (w.dependencies node)
  | .racing .. => w.getDependencyModeForNode node = .any
  | .merging _ => w.getDependencyModeForNode node = .any
  | .ready dependencies =>
    w.getDependencyModeForNode node = .all → dependencies = w.dependencies node ∧
      hasDependencyFailure s.get dependencies = .ok false
  | _ => True

structure Sound (s : State) : Prop where
  conforming : w.Conforming s.get
  tasks : ∀ node ∈ w.nodes, w.Holds s node (s.tasks node.id)
  calls : ∀ node ∈ w.nodes, w.getDependencyModeForNode node = .all →
    ∀ input, (node.id, input) ∈ s.calls → ∀ field, w.Requires node field →
      (input.lookup field).isSome

variable {w} {node other : Node} {s t : State} {m : Move} {action : Action}

theorem Sound.start : w.Sound initial where
  conforming _ _ _ h := by cases h
  tasks _ _ := trivial
  calls _ _ _ _ h := by cases h

theorem Conforming.fail (h : w.Conforming s.get)
    (hget : ∀ id, t.get id = if id = key then some (.failure key dependencyFailureReason) else s.get id) :
    w.Conforming t.get := by
  intro id result data hresult
  rw [hget] at hresult
  split at hresult
  · cases hresult
  · exact h id result data hresult

theorem Moved.conforming (hm : Moved w node s m t) (h : w.Sound s) (hnode : node ∈ w.nodes)
    (houtputs : w.OutputsAccepted s) : w.Conforming t.get := by
  have hsame (heq : t.get = s.get) : w.Conforming t.get := heq ▸ h.conforming
  cases hm with
  | skip _ _ => exact h.conforming.fail fun _ => State.get_skip
  | lose _ => exact h.conforming.fail fun _ => State.get_skip
  | exhaust _ _ _ => exact h.conforming.fail fun _ => State.get_skip
  | @event pending task index signal dep event data hwaits hdep _ =>
    intro id result value hresult
    rw [State.get_setTask, State.get_setResult] at hresult
    split at hresult
    · rename_i hid
      have hpending : pending ⊆ eventDependencies (w.dependencies node) := by
        have hholds := h.tasks node hnode
        cases htask : s.tasks node.id with
        | events _ =>
          rw [htask] at hwaits hholds
          cases hwaits
          exact hholds
        | racedEvents _ _ _ =>
          rw [htask] at hwaits hholds
          cases hwaits
          exact hholds.2
        | _ =>
          rw [htask] at hwaits
          cases hwaits
      exact .inr ⟨node, hnode, (dep, event), hpending (List.mem_of_getElem? hdep), hid.symm, data,
        result, Option.some.inj hresult⟩
    · exact h.conforming id result value hresult
  | @record outcome htask =>
    intro id result value hresult
    rw [State.get_setTask, State.get_setResult] at hresult
    split at hresult
    · rename_i hid
      cases outcome with
      | returned output =>
        cases hresult
        exact .inl ⟨node, hnode, hid.symm, output, rfl, houtputs node hnode output htask⟩
      | threw message => cases hresult
    · exact h.conforming id result value hresult
  | _ => exact hsame rfl

theorem eventDependencies_dependenciesOn :
    eventDependencies (w.dependenciesOn node source) ⊆ eventDependencies (w.dependencies node) := by
  intro wait hwait
  obtain ⟨dep, hdep, heq⟩ := mem_filterMap.1 hwait
  exact mem_filterMap.2 ⟨dep, mem_of_mem_filter hdep, heq⟩

theorem Moved.holds (hm : Moved w node s m t) (h : w.Holds s node (s.tasks node.id)) :
    w.Holds t node (t.tasks node.id) := by
  cases hm with
  | begin _ =>
    rw [State.tasks_setTask, Automation.begin]
    split
    · rename_i hempty
      intro _
      exact ⟨hempty.symm, rfl⟩
    · split
      · rename_i hany
        exact hany
      · trivial
  | resume _ =>
    rw [State.tasks_setTask]
    exact List.Subset.refl _
  | pass _ hcheck =>
    rw [State.tasks_setTask]
    exact fun _ => ⟨rfl, hcheck⟩
  | event hwaits _ _ =>
    rw [State.tasks_setTask]
    cases htask : s.tasks node.id with
    | events _ =>
      rw [htask] at hwaits h
      cases hwaits
      exact List.Subset.trans (eraseIdx_subset ..) h
    | racedEvents _ _ _ =>
      rw [htask] at hwaits h
      cases hwaits
      exact ⟨h.1, List.Subset.trans (eraseIdx_subset ..) h.2⟩
    | _ =>
      rw [htask] at hwaits
      cases hwaits
  | settle htask _ _ _ | settleRaced htask _ _ _ =>
    rw [htask] at h
    rw [State.tasks_setTask]
    exact h
  | take htask =>
    rw [htask] at h
    rw [State.tasks_setTask]
    exact ⟨h, eventDependencies_dependenciesOn⟩
  | next htask _ _ | choose htask _ =>
    rw [htask] at h
    rw [State.tasks_setTask]
    exact h.1
  | merge htask =>
    rw [htask] at h
    rw [State.tasks_setTask]
    intro hall
    exact absurd (hall.symm.trans h) (by decide)
  | _ =>
    first
    | rw [State.tasks_setTask]; trivial
    | rw [State.tasks_skip]; trivial

theorem Holds.frame (h : w.Holds s other (s.tasks other.id)) (htask : t.tasks other.id = s.tasks other.id)
    (hchecks : w.getDependencyModeForNode other = .all →
      s.tasks other.id = .ready (w.dependencies other) →
      hasDependencyFailure s.get (w.dependencies other) = .ok false →
      hasDependencyFailure t.get (w.dependencies other) = .ok false) :
    w.Holds t other (t.tasks other.id) := by
  rw [htask]
  cases heq : s.tasks other.id with
  | ready dependencies =>
    rw [heq] at h
    intro hall
    obtain ⟨rfl, hcheck⟩ := h hall
    exact ⟨rfl, hchecks hall heq hcheck⟩
  | _ =>
    rw [heq] at h
    exact h

theorem Sound.execute {dependencies : List DependencyInfo} {field : String} (h : w.Sound s)
    (hnode : node ∈ w.nodes) (hprovided : w.Requires node field → w.Provided node field)
    (hall : w.getDependencyModeForNode node = .all) (htask : s.tasks node.id = .ready dependencies)
    (hrequires : w.Requires node field) :
    ((buildNodeInput s.get node dependencies).lookup field).isSome := by
  have hholds := h.tasks node hnode
  rw [htask] at hholds
  obtain ⟨rfl, hcheck⟩ := hholds hall
  apply (lookup_buildNodeInput node _).2
  rcases hprovided hrequires with hconfigured | hfed
  · exact .inl hconfigured
  · exact .inr (hfed s.get h.conforming hcheck)

theorem Moved.calls (hm : Moved w node s m t) : t.calls = s.calls ∨
    ∃ dependencies, s.tasks node.id = .ready dependencies ∧ t.calls = s.calls ++
        ((executeNode s.get w.registry node dependencies).1.map fun input => (node.id, input)).toList := by
  cases hm with
  | execute htask => exact .inr ⟨_, htask, rfl⟩
  | _ => exact .inl rfl

theorem Sound.step (h : w.Sound s) (hnodup : (w.nodes.map Node.id).Nodup)
    (hresolves : ∀ node ∈ w.nodes, (w.registry.resolveNodeSchema node).isSome)
    (hprovided : ∀ node ∈ w.nodes, w.getDependencyModeForNode node = .all →
      ∀ field, w.Requires node field → w.Provided node field)
    (houtputs : w.OutputsAccepted s) (hkeeps : w.KeepsChecks s action)
    (hstep : w.system.step s action t) : w.Sound t := by
  cases action with
  | emit node event data =>
    obtain ⟨_, _, _, rfl⟩ := hstep
    exact ⟨h.conforming, h.tasks, h.calls⟩
  | task node m =>
    obtain ⟨hnode, hmove⟩ := hstep
    have hm := moved_of_move hmove
    constructor
    · exact hm.conforming h hnode houtputs
    · intro other hother
      by_cases hid : other.id = node.id
      · obtain rfl := inj_on_of_nodup_map hnodup hother hnode hid
        exact hm.holds (h.tasks other hother)
      · exact (h.tasks other hother).frame (hm.tasks_of_ne hid)
          fun hall htask hcheck => hkeeps t ⟨hnode, hmove⟩ other hother hall htask hcheck
    · intro other hother hall input hcall field hrequires
      rcases hm.calls with hcalls | ⟨dependencies, htask, hcalls⟩
      · rw [hcalls] at hcall
        exact h.calls other hother hall input hcall field hrequires
      · rw [hcalls, executeNode_input (hresolves node hnode)] at hcall
        rcases mem_append.1 hcall with hcall | hcall
        · exact h.calls other hother hall input hcall field hrequires
        · simp only [Option.map_some, Option.toList_some, mem_singleton, Prod.mk.injEq] at hcall
          obtain ⟨hid, rfl⟩ := hcall
          obtain rfl := inj_on_of_nodup_map hnodup hother hnode hid
          exact h.execute hnode (hprovided other hother hall field) hall htask hrequires

/-- The handlers of an accepted workflow get all the inputs that their schemas require, if every
such input is provided and no check is undone before the execution. -/
theorem required_inputs {asyncNodeTypes : List String}
    {asyncDependencyMap : List (String × List String)} {tr : List (State × Action)}
    (h : validateWorkflow w.nodes w.edges w.registry asyncNodeTypes =
      .ok (.valid w.dependencyMap asyncDependencyMap))
    (hprovided : ∀ node ∈ w.nodes, w.getDependencyModeForNode node = .all →
      ∀ field, w.Requires node field → w.Provided node field)
    (hrun : w.system.Run initial tr s) (houtputs : ∀ p ∈ tr, w.OutputsAccepted p.1)
    (hkeeps : ∀ p ∈ tr, w.KeepsChecks p.1 p.2) :
    ∀ node ∈ w.nodes, w.getDependencyModeForNode node = .all →
      ∀ input, (node.id, input) ∈ s.calls → ∀ field, w.Requires node field →
        (input.lookup field).isSome := by
  have haccepted := validateWorkflow_accepted h
  have hsound := hrun.forall_states Sound.start fun p hp hI u hstep =>
    hI.step haccepted.nodup haccepted.resolves hprovided (houtputs p hp) (hkeeps p hp) hstep
  exact (hsound s (end_mem_states tr s)).calls

theorem provided_iff : w.Provided node field ↔
    ∀ f, w.Conforming f → hasDependencyFailure f (w.dependencies node) = .ok false →
      ((buildNodeInput f node (w.dependencies node)).lookup field).isSome := by
  constructor
  · intro h f hconforming hcheck
    apply (lookup_buildNodeInput node _).2
    exact h.imp_right fun hfed => hfed f hconforming hcheck
  · intro h
    by_cases hconfigured : ((node.configuration.getD []).lookup field).isSome
    · exact .inl hconfigured
    · right
      intro f hconforming hcheck
      exact ((lookup_buildNodeInput node _).1 (h f hconforming hcheck)).resolve_left hconfigured

theorem succeeded_of_check
    (hconditional : dep.conditional = none) (h : checkDependencyFailure f dep = .ok false) :
    ∃ id data, f dep.resultKey.1 = some (.success id data) := by
  rw [checkDependencyFailure, hconditional] at h
  split at h
  · rename_i hhandle
    have hkey : dep.resultKey.1 = dep.sourceNodeId := by
      rw [resultKey_of_plain (hhandle ▸ executionSuccessHandle_plain)]
    cases hresult : f dep.sourceNodeId with
    | none =>
      simp only [hresult] at h
      cases h
    | some status =>
      cases status with
      | success id data => exact ⟨id, data, hkey ▸ hresult⟩
      | failure id error =>
        simp only [hresult] at h
        cases h
  · split at h
    · rename_i hresult hnone
      cases hnone
    · rename_i hresult _
      exact ⟨_, _, hresult⟩
    · cases h

theorem provided_of_dependency (hdep : dep ∈ w.dependencies node)
    (htarget : dep.targetHandle ≠ triggerHandle) (hconditional : dep.conditional = none)
    (hpossible : ∀ data, w.Possible dep.resultKey.1 data →
      ∃ fields, data = .obj fields ∧ hasKey fields dep.resultKey.2 = true) :
    w.Provided node dep.targetHandle := by
  right
  intro f hconforming hcheck
  obtain ⟨id, data, hresult⟩ :=
    succeeded_of_check hconditional (hasDependencyFailure_eq_false_iff.1 hcheck dep hdep)
  obtain ⟨fields, rfl, hkey⟩ := hpossible data (hconforming _ _ _ hresult)
  exact ⟨dep, hdep, rfl, htarget, id, fields, hresult, hkey⟩

theorem outputsAccepted_of_handlers (hrun : w.system.Run initial tr s)
    (h : ∀ node ∈ w.nodes, ∀ f dependencies output,
      (executeNode f w.registry node dependencies).2 = .returned output → w.AcceptsOutput node output)
    (hnodup : (w.nodes.map Node.id).Nodup) : ∀ p ∈ tr, w.OutputsAccepted p.1 := by
  have hall := hrun.forall_states (I := w.OutputsAccepted) (fun _ _ _ hran => nomatch hran) ?_
  · exact fun p hp => hall p.1 (mem_states_of_mem hp)
  · intro p _ hI t hstep other hother output hran
    obtain ⟨u, action⟩ := p
    cases action with
    | emit node event data =>
      obtain ⟨_, _, _, rfl⟩ := hstep
      exact hI other hother output hran
    | task node m =>
      obtain ⟨hnode, hmove⟩ := hstep
      have hm := moved_of_move hmove
      by_cases hid : other.id = node.id
      · obtain rfl := inj_on_of_nodup_map hnodup hother hnode hid
        cases hm with
        | execute htask =>
          rw [State.tasks_setTask] at hran
          exact h other hother _ _ output (Task.ran.inj hran)
        | begin _ =>
          rw [State.tasks_setTask, Automation.begin] at hran
          split at hran
          · cases hran
          · split at hran <;> cases hran
        | event hwaits _ _ =>
          rw [State.tasks_setTask] at hran
          cases htask : u.tasks other.id with
          | events _ | racedEvents _ _ _ =>
            rw [htask] at hwaits
            cases hwaits
            cases hran
          | _ =>
            rw [htask] at hwaits
            cases hwaits
        | skip _ _ | lose _ | exhaust _ _ _ =>
          rw [State.tasks_skip] at hran
          cases hran
        | _ =>
          rw [State.tasks_setTask] at hran
          cases hran
      · rw [hm.tasks_of_ne hid] at hran
        exact hI other hother output hran

theorem keepsChecks_of_next (h : ∀ node ∈ w.nodes, ∀ dependencies,
    s.tasks node.id = .ready dependencies → w.dependencies node = [] ∨
      ∃ next : Node, next.id = node.id ∧ action = .task next .advance) : w.KeepsChecks s action := by
  intro t hstep node hnode _ htask hcheck
  rcases h node hnode _ htask with hempty | ⟨next, hid, rfl⟩
  · rw [hempty]
    rfl
  · rw [← hid] at htask
    cases moved_of_move hstep.2 with
    | execute _ => exact hcheck
    | begin heq | resume heq | reject heq _ | skip heq _ | pass heq _ | lose heq | take heq
    | rejectRaced heq _ | exhaust heq _ _ | next heq _ _ | choose heq _ | merge heq | record heq
    | announce heq => cases htask.symm.trans heq

def sourceSchema : NodeSchema where
  input := {}
  output := ⟨.object {
    type := some (.one .object)
    properties := some [("value", .object { type := some (.one .string) })]
    required := some ["value"]
    additionalProperties := some (.bool false) }, []⟩
  parseInput input := .ok input
  parseOutput output := .ok output

def sinkSchema : NodeSchema where
  input := { properties := [("value", .object none)], required := some ["value"] }
  parseInput input := if (input.lookup "value").isSome then .ok input else .error "value: Required"
  parseOutput output := .ok output

def sourceNode : Node := { id := "source", type := some "source" }

def sinkNode : Node := { id := "sink", type := some "sink" }

def valueEdge (sourceHandle : String) : Edge where
  id := "source-sink"
  source := "source"
  target := "sink"
  sourceHandle := some sourceHandle
  targetHandle := some "value"

def valueChart (sourceHandle : String) : Automation where
  nodes := [sourceNode, sinkNode]
  edges := [valueEdge sourceHandle]
  registry :=
    { nodeSchemas := [("source", sourceSchema), ("sink", sinkSchema)]
      nodeFunctions :=
        [("source", fun _ _ => .returned [("value", .str "x")]), ("sink", fun _ _ => .returned [])] }
  dependencyMap := buildDependencyMap [sourceNode, sinkNode] [valueEdge sourceHandle]
  eventId := "event-1"

theorem valueChart_valid (sourceHandle : String) :
    validateWorkflow (valueChart sourceHandle).nodes (valueChart sourceHandle).edges
      (valueChart sourceHandle).registry [] =
        .ok (.valid (valueChart sourceHandle).dependencyMap [("source", []), ("sink", [])]) := rfl

def valueActions : List Action :=
  [.task sinkNode .advance, .task sourceNode .advance, .task sourceNode .advance,
    .task sourceNode .advance, .task sourceNode .advance, .task sinkNode (.completion 0),
    .task sinkNode .advance, .task sinkNode .advance, .task sinkNode .advance]

theorem sourceSchema_accepts : sourceSchema.output.Accepts (.obj [("value", .str "x")]) := by
  refine ⟨0, ?_⟩
  rw [schemaAccepts, Option.isNone_iff_eq_none, sourceSchema, validate_properties]
  refine ⟨_, rfl, by simp [hasKey], ?_⟩
  intro field hfield
  obtain rfl := mem_singleton.1 hfield
  exact ⟨_, rfl, (validate_typed .string).2 rfl⟩

theorem emptyOutputSchema_accepts : emptyOutputSchema.Accepts (.obj []) := by
  refine ⟨0, ?_⟩
  rw [schemaAccepts, Option.isNone_iff_eq_none, emptyOutputSchema, validate_properties]
  exact ⟨_, rfl, by simp, by simp⟩

section
variable {sourceHandle : String}

theorem valueChart_outputs (node : Node) (hnode : node ∈ (valueChart sourceHandle).nodes)
    (f : String → Option ExecutionResult) (dependencies : List DependencyInfo)
    (output : List (String × Json))
    (h : (executeNode f (valueChart sourceHandle).registry node dependencies).2 = .returned output) :
    (valueChart sourceHandle).AcceptsOutput node output := by
  simp only [valueChart, mem_cons, not_mem_nil, or_false] at hnode
  rcases hnode with rfl | rfl
  · cases h
    exact ⟨_, rfl, sourceSchema_accepts⟩
  · have hrun : NodeSchema.execute sinkSchema (some fun _ _ => .returned []) sinkNode
        (buildNodeInput f sinkNode dependencies) = .returned output := h
    simp only [NodeSchema.execute, sinkSchema] at hrun
    split at hrun
    · cases hrun
    · cases hrun
      exact ⟨_, rfl, emptyOutputSchema_accepts⟩

theorem valueChart_nodup : ((valueChart sourceHandle).nodes.map Node.id).Nodup := by
  simp [valueChart, sourceNode, sinkNode]

theorem sinkNode_requires : (valueChart sourceHandle).Requires sinkNode "value" :=
  ⟨_, ["value"], rfl, rfl, mem_singleton_self _⟩

theorem valueChart_requires (hnode : node ∈ (valueChart sourceHandle).nodes)
    (h : (valueChart sourceHandle).Requires node field) : node = sinkNode ∧ field = "value" := by
  obtain ⟨schema, required, hschema, hrequired, hfield⟩ := h
  simp only [valueChart, mem_cons, not_mem_nil, or_false] at hnode
  rcases hnode with rfl | rfl
  · cases hschema
    cases hrequired
    cases hfield
  · cases hschema
    cases hrequired
    exact ⟨rfl, mem_singleton.1 hfield⟩

end

theorem valueChart_provided : (valueChart "value").Provided sinkNode "value" := by
  have hdep : (valueEdge "value").dependency ∈ (valueChart "value").dependencies sinkNode :=
    mem_singleton_self _
  have hkey : (valueEdge "value").dependency.resultKey = ("source", "value") := by decide +kernel
  apply provided_of_dependency hdep (by decide) rfl
  rw [hkey]
  rintro data (⟨node, hnode, hid, output, rfl, schema, hschema, haccepts⟩ | ⟨target, htarget, wait, hwait, _⟩)
  · refine ⟨output, rfl, ?_⟩
    simp only [valueChart, mem_cons, not_mem_nil, or_false] at hnode
    rcases hnode with rfl | rfl
    · cases hschema
      exact hasKey_of_accepts rfl rfl rfl rfl rfl haccepts "value" (mem_singleton_self _)
    · exact absurd hid (by decide)
  · have hnone : ∀ target ∈ (valueChart "value").nodes,
        eventDependencies ((valueChart "value").dependencies target) = [] := by
      intro target htarget
      simp only [valueChart, mem_cons, not_mem_nil, or_false] at htarget
      rcases htarget with rfl | rfl
      · rfl
      · rfl
    rw [hnone target htarget] at hwait
    cases hwait

def sinkAdvances (s : State) (action : Action) : Bool :=
  match s.tasks "sink", action with
  | .ready _, .task node .advance => node.id == "sink"
  | .ready _, _ => false
  | _, _ => true

theorem required_inputs_value : ∃ tr s, (valueChart "value").system.Run initial tr s ∧
      ∃ input, ("sink", input) ∈ s.calls ∧ (input.lookup "value").isSome := by
  obtain ⟨tr, s, hplay, hemits, hnext, hcall⟩ : ∃ tr s,
      play (valueChart "value").perform initial valueActions = some (tr, s) ∧
        (tr.all fun p => (valueChart "value").mayEmit p.1 p.2) = true ∧
        (tr.all fun p => sinkAdvances p.1 p.2) = true ∧
        ∃ input, ("sink", input) ∈ s.calls :=
    ⟨_, _, rfl, rfl, rfl, _, mem_cons_of_mem _ (mem_singleton_self _)⟩
  have hrun : (valueChart "value").system.Run initial tr s :=
    run_of_play hplay (by simp [valueActions, valueChart, Action.owner]) hemits
  obtain ⟨input, hinput⟩ := hcall
  have hkeeps : ∀ p ∈ tr, (valueChart "value").KeepsChecks p.1 p.2 := by
    intro p hp
    apply keepsChecks_of_next
    intro node hnode dependencies hready
    simp only [valueChart, mem_cons, not_mem_nil, or_false] at hnode
    rcases hnode with rfl | rfl
    · exact .inl rfl
    · have hsink : p.1.tasks "sink" = .ready dependencies := hready
      have hexecuted := all_eq_true.1 hnext p hp
      rw [sinkAdvances.eq_def, hsink] at hexecuted
      split at hexecuted
      · rename_i next _ hnextAction
        exact .inr ⟨next, beq_iff_eq.1 hexecuted, hnextAction⟩
      · cases hexecuted
      · rename_i hready' _
        exact (hready' dependencies rfl).elim
  have hsink := required_inputs (valueChart_valid "value")
    (fun node hnode _ field hrequires => by
      obtain ⟨rfl, rfl⟩ := valueChart_requires hnode hrequires
      exact valueChart_provided)
    hrun (outputsAccepted_of_handlers hrun valueChart_outputs valueChart_nodup) hkeeps
  exact ⟨tr, s, hrun, input, hinput,
    hsink sinkNode (by simp [valueChart]) rfl input hinput "value" sinkNode_requires⟩

/-- An edge that reads a property that the source does not return is accepted, and the handler is
called without the input. -/
theorem missing_input : validateWorkflow (valueChart "other").nodes (valueChart "other").edges
      (valueChart "other").registry [] =
        .ok (.valid (valueChart "other").dependencyMap [("source", []), ("sink", [])]) ∧
    sinkNode ∈ (valueChart "other").nodes ∧
    (valueChart "other").getDependencyModeForNode sinkNode = .all ∧
    (valueChart "other").Requires sinkNode "value" ∧
    ∃ tr s, (valueChart "other").system.Run initial tr s ∧
      (∀ p ∈ tr, (valueChart "other").OutputsAccepted p.1) ∧
      (sinkNode.id, []) ∈ s.calls ∧ (([] : Input).lookup "value").isSome = false := by
  refine ⟨valueChart_valid "other", by simp [valueChart], rfl, sinkNode_requires, ?_⟩
  obtain ⟨tr, s, hplay, hemits, hcall⟩ : ∃ tr s,
      play (valueChart "other").perform initial valueActions = some (tr, s) ∧
        (tr.all fun p => (valueChart "other").mayEmit p.1 p.2) = true ∧
        (sinkNode.id, []) ∈ s.calls :=
    ⟨_, _, rfl, rfl, mem_cons_of_mem _ (mem_singleton_self _)⟩
  have hrun : (valueChart "other").system.Run initial tr s :=
    run_of_play hplay (by simp [valueActions, valueChart, Action.owner]) hemits
  exact ⟨tr, s, hrun, outputsAccepted_of_handlers hrun valueChart_outputs valueChart_nodup, hcall, rfl⟩

end Automation

end Trakrai.Workflow
