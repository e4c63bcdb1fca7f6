import Trakrai.Workflow.Barriers

namespace Trakrai.Workflow
open List Lib

def ObjectSchema.HasDefault (schema : ObjectSchema) (field : String) : Prop :=
  ∃ value, schema.properties.lookup field = some (.object (some value))

/-- The input has to be there, and nothing stands in for it. -/
def ObjectSchema.Requires (schema : ObjectSchema) (field : String) : Prop :=
  field ∈ schema.required.getD (schema.properties.map Prod.fst) ∧ ¬ schema.HasDefault field

/-- No input that the validation looks at has a schema that is no object. -/
def ObjectSchema.Plain (schema : ObjectSchema) : Prop :=
  ∀ field ∈ schema.required.getD (schema.properties.map Prod.fst) ++ schema.unnamed, ∀ text,
    schema.properties.lookup field ≠ some (.primitive text)

def Node.Configures (node : Node) (field : String) : Prop :=
  field ∈ (node.configuration.getD []).map Prod.fst

def Targets (edges : List Edge) (node : Node) (field : String) : Prop :=
  ∃ edge ∈ edges, edge.target = node.id ∧ edge.targetHandle = some field

/-- The required inputs of a node are there. What is no string is neither configured nor a target handle. -/
structure Supplied (edges : List Edge) (node : Node) (input : ObjectSchema) : Prop where
  named : ∀ field, input.Requires field → node.Configures field ∨ Targets edges node field
  unnamed : ∀ key ∈ input.unnamed, input.HasDefault key

section
variable {σ : Type} (resolver : SchemaResolver σ)

def SchemaResolver.knows (node : Node) : Bool := node.type.any (resolver.knownNodeTypes.contains ·)

/-- What the runtime answers for the nodes of registered types, one call after another. -/
def SchemaResolver.answers : List Node → σ → Except String (List (Node × Option ObjectSchema))
  | [], _ => .ok []
  | node :: nodes, s =>
    if resolver.knows node then do
      let resolved := resolver.resolveInput node s
      let schema ← resolved.1
      let answers ← SchemaResolver.answers nodes resolved.2
      .ok ((node, schema) :: answers)
    else SchemaResolver.answers nodes s

/-- What makes a workflow valid. -/
structure Specified (s : σ) (nodes : List Node) (edges : List Edge) : Prop where
  nodup : (nodes.map Node.id).Nodup
  ends : ∀ edge ∈ edges, edge.source ∈ nodes.map Node.id ∧ edge.target ∈ nodes.map Node.id
  acyclic : ∀ nodeId, ¬ Relation.TransGen (Leads edges) nodeId nodeId
  known : ∀ node ∈ nodes, resolver.knows node
  supplied : ∃ answers, resolver.answers nodes s = .ok answers ∧
    ∀ answer ∈ answers, ∃ input, answer.2 = some input ∧ Supplied edges answer.1 input

end

/-- The validation comes to an end with the verdict of the specification, and for a valid workflow with the
incoming edges of each node. -/
def Decides (nodes : List Node) (edges : List Edge) (result : Except String Validation) (specified : Prop) : Prop :=
  ∃ verdict, result = .ok verdict ∧
    ((∃ dependencyMap barriers, verdict = .valid dependencyMap barriers) ↔ specified) ∧
    ∀ dependencyMap barriers, verdict = .valid dependencyMap barriers → ∀ node ∈ nodes,
      dependencyMap.lookup node.id = some ((edges.filter (·.target == node.id)).map Edge.dependency)

def PlainInputs (answers : List (Node × Option ObjectSchema)) : Prop :=
  ∀ answer ∈ answers, ∀ input, answer.2 = some input → input.Plain

def NamelessConfigured (answers : List (Node × Option ObjectSchema)) : Prop :=
  ∀ answer ∈ answers, ∀ input, answer.2 = some input → input.Requires "" → answer.1.Configures ""

section
variable {nodes : List Node} {edges : List Edge} {node : Node} {schema : ObjectSchema} {field : String}

theorem isRequiredInput_ok (h : ∀ text, schema.properties.lookup field ≠ some (.primitive text)) :
    ∃ required, isRequiredInput schema field = .ok required ∧
      (required = true ↔ ¬ schema.HasDefault field) := by
  rw [isRequiredInput, ObjectSchema.HasDefault]
  cases hlookup : schema.properties.lookup field with
  | none => exact ⟨true, rfl, by simp⟩
  | some property =>
    cases property with
    | primitive text => exact absurd hlookup (h text)
    | object default =>
      refine ⟨default.isNone, rfl, ?_⟩
      cases default with
      | none => simp
      | some value => simp

theorem filterM_isRequiredInput {fields : List String}
    (h : ∀ field ∈ fields, ∀ text, schema.properties.lookup field ≠ some (.primitive text)) :
    ∃ required, fields.filterM (isRequiredInput schema) = .ok required ∧
      ∀ field, field ∈ required ↔ field ∈ fields ∧ ¬ schema.HasDefault field :=
  filterM_ok_of_forall fun field hfield => isRequiredInput_ok (h field hfield)

theorem plain_of_filterM {fields : List String} (h : fields.filterM (isRequiredInput schema) = .ok required) :
    ∀ field ∈ fields, ∀ text, schema.properties.lookup field ≠ some (.primitive text) := by
  intro field hfield text hlookup
  obtain ⟨required, hrequired⟩ := filterM_ok h field hfield
  rw [isRequiredInput, hlookup] at hrequired
  cases hrequired

theorem mem_edgeInputs : field ∈ ((edges.filter (·.target == node.id)).map (·.targetHandle.getD "")).filter
    (· != "") ↔ field ≠ "" ∧ Targets edges node field := by
  simp only [mem_filter, mem_map, beq_iff_eq, bne_iff_ne, Targets]
  constructor
  · rintro ⟨⟨edge, ⟨hedge, htarget⟩, hhandle⟩, hne⟩
    refine ⟨hne, edge, hedge, htarget, ?_⟩
    cases h : edge.targetHandle with
    | none =>
      rw [h] at hhandle
      exact absurd hhandle.symm hne
    | some handle =>
      rw [h] at hhandle
      exact congrArg some hhandle
  · rintro ⟨hne, edge, hedge, htarget, hhandle⟩
    exact ⟨⟨edge, ⟨hedge, htarget⟩, by rw [hhandle]; rfl⟩, hne⟩

/-- What the validation asks for: it does not see the edges to a handle without a name. -/
structure SeenSupplied (edges : List Edge) (node : Node) (input : ObjectSchema) : Prop where
  named : ∀ field, input.Requires field → node.Configures field ∨ field ≠ "" ∧ Targets edges node field
  unnamed : ∀ key ∈ input.unnamed, input.HasDefault key

theorem validateNodeInputs_ok (node : Node) (edges : List Edge) (h : schema.Plain) :
    ∃ missing, validateNodeInputs node edges schema = .ok missing ∧
      (missing = [] ↔ SeenSupplied edges node schema) := by
  obtain ⟨hfields, hkeys⟩ := forall_mem_append.1 h
  obtain ⟨fields, hrequired, hmem⟩ := filterM_isRequiredInput hfields
  obtain ⟨unnamed, hunnamed, hmem'⟩ := filterM_isRequiredInput hkeys
  refine ⟨_, by rw [validateNodeInputs, getRequiredInputFields, hrequired, ok_bind, hunnamed]; rfl, ?_⟩
  rw [append_eq_nil_iff, filter_eq_nil_iff, eq_nil_iff_forall_not_mem]
  have hnamed (field : String) : (field ∈ fields → ¬ (!((node.configuration.getD []).map Prod.fst).contains field &&
      !(((edges.filter (·.target == node.id)).map (·.targetHandle.getD "")).filter (· != "")).contains field) = true) ↔
      (schema.Requires field → node.Configures field ∨ field ≠ "" ∧ Targets edges node field) := by
    rw [hmem]
    apply imp_congr_right
    intro _
    rw [Bool.and_eq_true, Bool.not_eq_true', Bool.not_eq_true', contains_eq_mem, contains_eq_mem,
      decide_eq_false_iff_not, decide_eq_false_iff_not, mem_edgeInputs, not_and_or, not_not, not_not,
      Node.Configures]
  have hkey (key : String) : key ∉ unnamed ↔ (key ∈ schema.unnamed → schema.HasDefault key) := by
    rw [hmem', not_and, not_not]
  constructor
  · rintro ⟨hall, hnone⟩
    exact ⟨fun field => (hnamed field).1 (hall field), fun key => (hkey key).1 (hnone key)⟩
  · rintro ⟨hall, hnone⟩
    exact ⟨fun field => (hnamed field).2 (hall field), fun key => (hkey key).2 (hnone key)⟩

theorem plain_of_validateNodeInputs (h : validateNodeInputs node edges schema = .ok missing) : schema.Plain := by
  obtain ⟨fields, hfields, h⟩ := bind_ok h
  obtain ⟨unnamed, hunnamed, -⟩ := bind_ok h
  exact forall_mem_append.2 ⟨plain_of_filterM hfields, plain_of_filterM hunnamed⟩

theorem definitionErrors_ok {answer : Option ObjectSchema} (node : Node) (edges : List Edge) (nodeType : String)
    (h : ∀ input, answer = some input → input.Plain) :
    ∃ errors, definitionErrors edges node nodeType answer = .ok errors ∧
      (errors = [] ↔ ∃ input, answer = some input ∧ SeenSupplied edges node input) := by
  cases answer with
  | none => exact ⟨_, rfl, by simp⟩
  | some input =>
    obtain ⟨missing, hmissing, hnone⟩ := validateNodeInputs_ok node edges (h input rfl)
    refine ⟨_, by rw [definitionErrors, hmissing]; rfl, ?_⟩
    rw [ite_eq_left_iff, length_eq_zero_iff]
    have hiff : (¬missing = [] → ["Node '" ++ node.id ++ "' is missing required inputs: " ++
        ", ".intercalate missing] = []) ↔ missing = [] := by simp
    rw [hiff, hnone]
    simp

theorem plain_of_definitionErrors {answer : Option ObjectSchema}
    (h : definitionErrors edges node nodeType answer = .ok errors) : ∀ input, answer = some input → input.Plain := by
  rintro input rfl
  obtain ⟨missing, hmissing, -⟩ := bind_ok h
  exact plain_of_validateNodeInputs hmissing

variable {σ : Type} {resolver : SchemaResolver σ} {s : σ}

theorem knows_iff : resolver.knows node ↔ ∃ nodeType ∈ resolver.knownNodeTypes, node.type = some nodeType := by
  rw [SchemaResolver.knows, Option.any_eq_true]
  simp only [contains_eq_mem, decide_eq_true_eq]
  exact exists_congr fun nodeType => and_comm

/-- What the validation asks of the nodes, by the answers of the runtime. -/
def NodesSpecified (resolver : SchemaResolver σ) (nodes : List Node) (edges : List Edge)
    (answers : List (Node × Option ObjectSchema)) : Prop :=
  (∀ node ∈ nodes, resolver.knows node) ∧
    ∀ answer ∈ answers, ∃ input, answer.2 = some input ∧ SeenSupplied edges answer.1 input

theorem nodeErrors_unknown (edges : List Edge) (nodes : List Node) (s : σ) (h : ¬ resolver.knows node) :
    ∃ error, nodeErrors resolver edges (node :: nodes) s = (error :: ·) <$> nodeErrors resolver edges nodes s := by
  rw [nodeErrors]
  cases htype : node.type with
  | none => exact ⟨_, rfl⟩
  | some nodeType =>
    have hknown : resolver.knownNodeTypes.contains nodeType = false := by
      simpa [SchemaResolver.knows, htype] using h
    simp only [hknown, Bool.not_false, if_true]
    exact ⟨_, rfl⟩

theorem nodeErrors_known (edges : List Edge) (nodes : List Node) (s : σ) (h : resolver.knows node) :
    ∃ nodeType, nodeErrors resolver edges (node :: nodes) s = (do
      let schema ← (resolver.resolveInput node s).1
      let errorsOfNode ← definitionErrors edges node nodeType schema
      let errors ← nodeErrors resolver edges nodes (resolver.resolveInput node s).2
      .ok (errorsOfNode ++ errors)) := by
  obtain ⟨nodeType, hmem, htype⟩ := knows_iff.1 h
  refine ⟨nodeType, ?_⟩
  rw [nodeErrors]
  simp only [htype, contains_eq_mem, hmem, decide_true, Bool.not_true, Bool.false_eq_true, if_false]

section
variable {answers : List (Node × Option ObjectSchema)}

theorem nodeErrors_ok (edges : List Edge)
    (h : resolver.answers nodes s = .ok answers) (hplain : PlainInputs answers) :
    ∃ errors, nodeErrors resolver edges nodes s = .ok errors ∧
      (errors = [] ↔ NodesSpecified resolver nodes edges answers) := by
  induction nodes generalizing s answers with
  | nil =>
    cases h
    exact ⟨[], rfl, by simp [NodesSpecified]⟩
  | cons node nodes ih =>
    rw [SchemaResolver.answers] at h
    split at h
    · rename_i hknows
      obtain ⟨schema, hschema, h⟩ := bind_ok h
      obtain ⟨rest, hrest, h⟩ := bind_ok h
      cases h
      obtain ⟨hfirst, hothers⟩ := forall_mem_cons.1 hplain
      obtain ⟨nodeType, herrors⟩ := nodeErrors_known edges nodes s hknows
      obtain ⟨errorsOfNode, hnode, hnone⟩ := definitionErrors_ok node edges nodeType hfirst
      obtain ⟨errors, hall, hnone'⟩ := ih hrest hothers
      refine ⟨errorsOfNode ++ errors, ?_, ?_⟩
      · rw [herrors, hschema, ok_bind, hnode, ok_bind, hall]
        rfl
      · rw [append_eq_nil_iff, hnone, hnone', NodesSpecified, NodesSpecified, forall_mem_cons,
          forall_mem_cons]
        exact ⟨fun ⟨hs, hk, hr⟩ => ⟨⟨hknows, hk⟩, hs, hr⟩, fun ⟨⟨_, hk⟩, hs, hr⟩ => ⟨hs, hk, hr⟩⟩
    · rename_i hunknown
      obtain ⟨error, herrors⟩ := nodeErrors_unknown edges nodes s hunknown
      obtain ⟨errors, hall, -⟩ := ih h hplain
      refine ⟨error :: errors, by rw [herrors, hall]; rfl, ?_⟩
      refine iff_of_false (cons_ne_nil _ _) fun hs => hunknown ?_
      exact hs.1 node (mem_cons_self ..)

theorem answers_of_nodeErrors (h : nodeErrors resolver edges nodes s = .ok errors) :
    ∃ answers, resolver.answers nodes s = .ok answers ∧ PlainInputs answers := by
  induction nodes generalizing s errors with
  | nil => exact ⟨[], rfl, forall_mem_nil _⟩
  | cons node nodes ih =>
    rw [SchemaResolver.answers]
    split
    · rename_i hknows
      obtain ⟨nodeType, herrors⟩ := nodeErrors_known edges nodes s hknows
      rw [herrors] at h
      obtain ⟨schema, hschema, h⟩ := bind_ok h
      obtain ⟨errorsOfNode, hnode, h⟩ := bind_ok h
      obtain ⟨rest, hrest, -⟩ := bind_ok h
      obtain ⟨answers, hanswers, hplain⟩ := ih hrest
      refine ⟨(node, schema) :: answers, by simp only [hschema, ok_bind, hanswers], ?_⟩
      exact forall_mem_cons.2 ⟨plain_of_definitionErrors hnode, hplain⟩
    · rename_i hunknown
      obtain ⟨error, herrors⟩ := nodeErrors_unknown edges nodes s hunknown
      rw [herrors] at h
      obtain ⟨rest, hrest, -⟩ := bind_ok h
      exact ih hrest

theorem duplicateErrors_eq_nil : duplicateErrors nodes = [] ↔ (nodes.map Node.id).Nodup := by
  have hnone : duplicateErrors nodes = [] ↔ duplicates (nodes.map Node.id) = [] := by
    rw [duplicateErrors, ite_eq_right_iff, gt_iff_lt, length_pos_iff]
    simp
  rw [hnone]
  constructor
  · exact nodup_of_duplicates
  · intro hnodup
    rw [duplicates, map_eq_nil_iff, filter_eq_nil_iff]
    rintro ⟨nodeId, i⟩ hentry
    obtain ⟨hi, rfl⟩ := List.getElem?_eq_some_iff.1 (List.mk_mem_zipIdx_iff_getElem?.1 hentry)
    rw [bne_iff_ne, not_not, hnodup.idxOf_getElem i hi]

theorem edgeErrors_eq_nil :
    edgeErrors nodeIds edge = [] ↔ edge.source ∈ nodeIds ∧ edge.target ∈ nodeIds := by
  constructor
  · exact ends_of_edgeErrors
  · rintro ⟨hsource, htarget⟩
    simp [edgeErrors, hsource, htarget]

theorem topologicalSort_ok_iff
    (hends : ∀ edge ∈ edges, edge.source ∈ nodes.map Node.id ∧ edge.target ∈ nodes.map Node.id) :
    topologicalSort nodes edges = .ok (buildDependencyMap nodes edges) ↔
      ∀ nodeId, ¬ Relation.TransGen (Leads edges) nodeId nodeId := by
  have hleads : (fun m n => m ∈ (buildDependencyMap nodes edges).sources n) = Leads edges :=
    funext₂ fun m n => propext mem_sources_buildDependencyMap
  constructor
  · intro hsort nodeId
    obtain ⟨-, order, hordered, horder⟩ := topologicalSort_ordered hsort
    have hfounded := acyclic_of_ordered hends hordered horder
    rw [hleads] at hfounded
    exact hfounded.transGen.irrefl.irrefl nodeId
  · intro hacyclic
    cases hsort : topologicalSort nodes edges with
    | ok sorted => rw [(topologicalSort_ordered hsort).1]
    | error message =>
      obtain ⟨nodeId, -, hcyclic⟩ := topologicalSort_error hsort
      rw [DependencyMap.Cyclic, hleads] at hcyclic
      exact absurd hcyclic (hacyclic nodeId)

theorem specified_and_nameless_iff (h : resolver.answers nodes s = .ok answers) :
    Specified resolver s nodes edges ∧ NamelessConfigured answers ↔ (nodes.map Node.id).Nodup ∧
      (∀ edge ∈ edges, edge.source ∈ nodes.map Node.id ∧ edge.target ∈ nodes.map Node.id) ∧
      (∀ nodeId, ¬ Relation.TransGen (Leads edges) nodeId nodeId) ∧
      NodesSpecified resolver nodes edges answers := by
  constructor
  · rintro ⟨hs, hnameless⟩
    obtain ⟨answers', h', hsupplied⟩ := hs.supplied
    obtain rfl := Except.ok.inj (h.symm.trans h')
    refine ⟨hs.nodup, hs.ends, hs.acyclic, hs.known, fun answer hanswer => ?_⟩
    obtain ⟨input, hinput, hgiven⟩ := hsupplied answer hanswer
    refine ⟨input, hinput, fun field hrequires => ?_, hgiven.unnamed⟩
    rcases hgiven.named field hrequires with hconfigures | htargets
    · exact .inl hconfigures
    · by_cases hname : field = ""
      · subst hname
        exact .inl (hnameless answer hanswer input hinput hrequires)
      · exact .inr ⟨hname, htargets⟩
  · rintro ⟨hnodup, hends, hacyclic, hknown, hnodes⟩
    refine ⟨⟨hnodup, hends, hacyclic, hknown, answers, h, fun answer hanswer => ?_⟩, ?_⟩
    · obtain ⟨input, hinput, hgiven⟩ := hnodes answer hanswer
      exact ⟨input, hinput, fun field hrequires => (hgiven.named field hrequires).imp_right And.right,
        hgiven.unnamed⟩
    · intro answer hanswer input hinput hrequires
      obtain ⟨input', hinput', hgiven⟩ := hnodes answer hanswer
      obtain rfl := Option.some.inj (hinput.symm.trans hinput')
      rcases hgiven.named "" hrequires with hconfigures | ⟨hname, -⟩
      · exact hconfigures
      · exact absurd rfl hname

theorem verdict_valid_iff :
    (∃ dependencyMap barriers, (if errors.length > 0 then Validation.invalid errors
      else .valid sorted barriersOfNodes) = .valid dependencyMap barriers) ↔ errors = [] := by
  cases errors <;> simp

/-- Where the runtime answers with plain schemas the validation ends, and it asks for the configuration of
nameless inputs besides. -/
theorem validate_answered (edges : List Edge)
    (asyncNodeTypes : List String) (hne : nodes ≠ []) (h : resolver.answers nodes s = .ok answers)
    (hplain : PlainInputs answers) :
    ∃ verdict, resolver.validate s nodes edges asyncNodeTypes = .ok verdict ∧
      ((∃ dependencyMap barriers, verdict = .valid dependencyMap barriers) ↔
        Specified resolver s nodes edges ∧ NamelessConfigured answers) ∧
      ∀ dependencyMap barriers, verdict = .valid dependencyMap barriers →
        dependencyMap = buildDependencyMap nodes edges := by
  obtain ⟨errorsOfNodes, hnodes, hnone⟩ := nodeErrors_ok edges h hplain
  have hlength : nodes.length ≠ 0 := fun h => hne (length_eq_zero_iff.1 h)
  rw [specified_and_nameless_iff h]
  cases hsort : topologicalSort nodes edges with
  | error message =>
    obtain ⟨barriers, hbarriers, -⟩ := buildAsyncDependencyMap_total nodes [] asyncNodeTypes
    refine ⟨_, by simp only [SchemaResolver.validate, hlength, if_false, hsort, hnodes, ok_bind, hbarriers]; rfl,
      ?_, ?_⟩
    · apply iff_of_false
      · rintro ⟨dependencyMap, barriers, h⟩
        simp at h
      · rintro ⟨-, hends, hacyclic, -⟩
        rw [(topologicalSort_ok_iff hends).2 hacyclic] at hsort
        cases hsort
    · intro dependencyMap barriers h
      simp at h
  | ok sorted =>
    obtain rfl := (topologicalSort_ordered hsort).1
    obtain ⟨barriers, hbarriers, -⟩ :=
      buildAsyncDependencyMap_total nodes (buildDependencyMap nodes edges) asyncNodeTypes
    refine ⟨_, by simp only [SchemaResolver.validate, hlength, if_false, hsort, hnodes, ok_bind, hbarriers]; rfl,
      ?_, ?_⟩
    · have herrors : [] ++ duplicateErrors nodes ++ edges.flatMap (edgeErrors (nodes.map Node.id)) ++
          errorsOfNodes = [] ↔ (nodes.map Node.id).Nodup ∧
          (∀ edge ∈ edges, edge.source ∈ nodes.map Node.id ∧ edge.target ∈ nodes.map Node.id) ∧
          (∀ nodeId, ¬ Relation.TransGen (Leads edges) nodeId nodeId) ∧
          NodesSpecified resolver nodes edges answers := by
        rw [nil_append, append_eq_nil_iff, append_eq_nil_iff, duplicateErrors_eq_nil, hnone,
          flatMap_eq_nil_iff]
        simp only [edgeErrors_eq_nil]
        constructor
        · rintro ⟨⟨hnodup, hends⟩, hspecified⟩
          exact ⟨hnodup, hends, (topologicalSort_ok_iff hends).1 hsort, hspecified⟩
        · rintro ⟨hnodup, hends, -, hspecified⟩
          exact ⟨⟨hnodup, hends⟩, hspecified⟩
      rw [← herrors]
      exact verdict_valid_iff
    · intro dependencyMap barriers h
      split at h
      · cases h
      · cases h
        rfl

end

theorem decides_iff (hne : nodes ≠ []) :
    Decides nodes edges (resolver.validate s nodes edges asyncNodeTypes) (Specified resolver s nodes edges) ↔
    ∃ answers, resolver.answers nodes s = .ok answers ∧ PlainInputs answers ∧
      (Specified resolver s nodes edges → NamelessConfigured answers) := by
  constructor
  · rintro ⟨verdict, hverdict, hvalid, -⟩
    obtain ⟨answers, hanswers, hplain⟩ : ∃ answers, resolver.answers nodes s = .ok answers ∧
        PlainInputs answers := by
      rw [SchemaResolver.validate, if_neg fun h => hne (length_eq_zero_iff.1 h)] at hverdict
      obtain ⟨errorsOfNodes, hnodes, -⟩ := bind_ok hverdict
      exact answers_of_nodeErrors hnodes
    refine ⟨answers, hanswers, hplain, fun hspecified => ?_⟩
    obtain ⟨verdict', hverdict', hvalid', -⟩ := validate_answered edges asyncNodeTypes hne hanswers hplain
    obtain rfl := Except.ok.inj (hverdict.symm.trans hverdict')
    exact (hvalid'.1 (hvalid.2 hspecified)).2
  · rintro ⟨answers, hanswers, hplain, hnameless⟩
    obtain ⟨verdict, hverdict, hvalid, hmap⟩ := validate_answered edges asyncNodeTypes hne hanswers hplain
    refine ⟨verdict, hverdict, hvalid.trans ⟨And.left, fun hs => ⟨hs, hnameless hs⟩⟩, ?_⟩
    intro dependencyMap barriers h node hnode
    rw [hmap dependencyMap barriers h]
    exact lookup_buildDependencyMap edges hnode

end

end Trakrai.Workflow
