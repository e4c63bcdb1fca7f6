import Mathlib.Logic.Relation
import Mathlib.Order.FixedPoints
import Trakrai.Lib.Except
import Trakrai.NodeRuntime.Consistency

namespace Trakrai.NodeRuntime
open Option List Lib
open Workflow (Node Edge)

abbrev Results (Zod : Type) := Node → Except String (Option (ResolvedNodeSchemaSource Zod)) → Prop

def SchemaQuestion.nodeId : SchemaQuestion → String
  | .resolveNodeSchema nodeId => nodeId
  | .resolveNodeSchemaSource nodeId => nodeId

section
variable {args : CreateNodeRuntimeArgs Zod} {node : Node} {s s' : Runtime Zod} {nodeId : String}

def DependsOn (args : CreateNodeRuntimeArgs Zod) (nodeId nodeId' : String) : Prop :=
  ∃ node d question, nodeById args nodeId = some node ∧ Handled args node d ∧ d.Asks question ∧
    question.nodeId = nodeId'

def AcyclicHandlers (args : CreateNodeRuntimeArgs Zod) : Prop :=
  ∀ nodeId, ¬ Relation.TransGen (DependsOn args) nodeId nodeId

variable [ZodTypes Zod] {R R' : Results Zod} {source : Option (ResolvedNodeSchemaSource Zod)}
  {schema : Option ResolvedNodeSchema}

def AnswerFrom (args : CreateNodeRuntimeArgs Zod) (R : Results Zod) :
    (question : SchemaQuestion) → SchemaAnswer Zod question → Prop
  | .resolveNodeSchema nodeId, a =>
    match nodeById args nodeId with
    | none => a = .ok none
    | some node => ∃ source, R node source ∧ a = source.bind normalise
  | .resolveNodeSchemaSource nodeId, a =>
    match nodeById args nodeId with
    | none => a = .ok none
    | some node => R node a

inductive ResolvesFrom (args : CreateNodeRuntimeArgs Zod) (R : Results Zod) (node : Node) :
    Except String (Option (ResolvedNodeSchemaSource Zod)) → Prop
  | untyped : node.type = none → ResolvesFrom args R node (.ok none)
  | unhandled : node.type = some nodeType → getNodeHandler args nodeType = none →
      ResolvesFrom args R node (.ok none)
  | handled : Handled args node d → d.Gives (AnswerFrom args R) resolved →
      ResolvesFrom args R node (resolved.map some)

theorem AnswerFrom.mono (h : R ≤ R') (question : SchemaQuestion) (a : SchemaAnswer Zod question)
    (ha : AnswerFrom args R question a) : AnswerFrom args R' question a := by
  cases question with
  | resolveNodeSchema nodeId =>
    rw [AnswerFrom] at ha ⊢
    cases hnode : nodeById args nodeId with
    | none => rwa [hnode] at ha
    | some node =>
      rw [hnode] at ha
      obtain ⟨source, hsource, he⟩ := ha
      exact ⟨source, h node source hsource, he⟩
  | resolveNodeSchemaSource nodeId =>
    rw [AnswerFrom] at ha ⊢
    cases hnode : nodeById args nodeId with
    | none => rwa [hnode] at ha
    | some node =>
      rw [hnode] at ha
      exact h node a ha

theorem AnswerFrom.unique (h : ∀ node source source', R node source → R' node source' → source = source')
    (question : SchemaQuestion) (a a' : SchemaAnswer Zod question) (ha : AnswerFrom args R question a)
    (ha' : AnswerFrom args R' question a') : a = a' := by
  cases question with
  | resolveNodeSchema nodeId =>
    rw [AnswerFrom] at ha ha'
    cases hnode : nodeById args nodeId with
    | none =>
      rw [hnode] at ha ha'
      exact ha.trans ha'.symm
    | some node =>
      rw [hnode] at ha ha'
      obtain ⟨source, hsource, rfl⟩ := ha
      obtain ⟨source', hsource', rfl⟩ := ha'
      rw [h node source source' hsource hsource']
  | resolveNodeSchemaSource nodeId =>
    rw [AnswerFrom] at ha ha'
    cases hnode : nodeById args nodeId with
    | none =>
      rw [hnode] at ha ha'
      exact ha.trans ha'.symm
    | some node =>
      rw [hnode] at ha ha'
      exact h node a a' ha ha'

theorem ResolvesFrom.unique (h : ∀ node source source', R node source → R' node source' → source = source')
    (hr : ResolvesFrom args R node result) (hr' : ResolvesFrom args R' node result') : result = result' := by
  cases hr with
  | untyped htype =>
    cases hr' with
    | untyped _ => rfl
    | unhandled _ _ => rfl
    | handled hhandled _ =>
      cases hhandled with
      | mk htype' _ => cases htype.symm.trans htype'
  | unhandled htype hnone =>
    cases hr' with
    | untyped _ => rfl
    | unhandled _ _ => rfl
    | handled hhandled _ =>
      cases hhandled with
      | mk htype' hhandler =>
        cases htype.symm.trans htype'
        cases hnone.symm.trans hhandler
  | handled hhandled hgives =>
    cases hr' with
    | untyped htype =>
      cases hhandled with
      | mk htype' _ => cases htype.symm.trans htype'
    | unhandled htype hnone =>
      cases hhandled with
      | mk htype' hhandler =>
        cases htype.symm.trans htype'
        cases hnone.symm.trans hhandler
    | handled hhandled' hgives' =>
      cases hhandled.unique hhandled'
      rw [hgives.unique (AnswerFrom.unique h) hgives']

def resolvesFrom (args : CreateNodeRuntimeArgs Zod) : Results Zod →o Results Zod where
  toFun := ResolvesFrom args
  monotone' R R' h node result hr := by
    cases hr with
    | untyped htype => exact .untyped htype
    | unhandled htype hnone => exact .unhandled htype hnone
    | handled hhandled hgives => exact .handled hhandled (hgives.mono (AnswerFrom.mono h))

/-- The source of a node where no handler comes back to its own node. -/
def Resolves (args : CreateNodeRuntimeArgs Zod) : Results Zod := (resolvesFrom args).lfp

theorem resolves_iff : Resolves args node result ↔ ResolvesFrom args (Resolves args) node result := by
  have h : ResolvesFrom args (Resolves args) = Resolves args := (resolvesFrom args).map_lfp
  rw [h]

theorem Resolves.unique (h : Resolves args node result) (h' : Resolves args node result') : result = result' := by
  have hle : Resolves args ≤ fun node result => ∀ result', Resolves args node result' → result = result' := by
    refine (resolvesFrom args).lfp_le fun node result hr result' hr' => ?_
    exact ResolvesFrom.unique (fun node source source' hsource hsource' => hsource source' hsource') hr
      (resolves_iff.1 hr')
  exact hle node result h result' h'

/-- The caches hold what the nodes of the graph resolve to. -/
structure Right (args : CreateNodeRuntimeArgs Zod) (s : Runtime Zod) : Prop where
  source : ∀ nodeId source, s.schemaSourceCache nodeId = some source → ∀ node,
    nodeById args nodeId = some node → Resolves args node (.ok source)
  schema : ∀ nodeId schema, s.schemaCache nodeId = some schema → ∀ node,
    nodeById args nodeId = some node → ∃ source, Resolves args node (.ok source) ∧ normalise source = .ok schema

theorem Right.cacheSource (hs : Right args s) (hnode : nodeById args node.id = some node)
    (h : Resolves args node (.ok source)) : Right args (s.cacheSource node.id source) where
  source other source' hcached node' hnode' := by
    by_cases hid : other = node.id
    · subst hid
      rw [Runtime.cacheSource_schemaSourceCache_self] at hcached
      cases hcached
      cases hnode.symm.trans hnode'
      exact h
    · rw [Runtime.cacheSource_schemaSourceCache_ne hid] at hcached
      exact hs.source other source' hcached node' hnode'
  schema := hs.schema

theorem Right.cacheSchema (hs : Right args s) (hnode : nodeById args node.id = some node)
    (h : Resolves args node (.ok source)) (hnormal : normalise source = .ok schema) :
    Right args (s.cacheSchema node.id schema) where
  source := hs.source
  schema other schema' hcached node' hnode' := by
    by_cases hid : other = node.id
    · subst hid
      rw [Runtime.cacheSchema_schemaCache_self] at hcached
      cases hcached
      cases hnode.symm.trans hnode'
      exact ⟨source, h, hnormal⟩
    · rw [Runtime.cacheSchema_schemaCache_ne hid] at hcached
      exact hs.schema other schema' hcached node' hnode'

/-- What a resolver must do for the nodes that no running handler waits for. -/
def ResolvesRight (args : CreateNodeRuntimeArgs Zod) (resolve : SourceResolver Zod) (frames : List Frame) : Prop :=
  ∀ forSchema node s result s', nodeById args node.id = some node → s.resolving = frames → Right args s →
    (∀ frame ∈ frames, Relation.TransGen (DependsOn args) frame.nodeId node.id) →
    resolve forSchema node s = some (result, s') →
    s'.resolving = frames ∧ Right args s' ∧ Resolves args node result

theorem resolveNodeSchema_right (hresolve : ResolvesRight args resolve s.resolving)
    (hnode : nodeById args node.id = some node) (hs : Right args s)
    (hframes : ∀ frame ∈ s.resolving, Relation.TransGen (DependsOn args) frame.nodeId node.id)
    (h : resolveNodeSchema resolve node s = some (result, s')) :
    s'.resolving = s.resolving ∧ Right args s' ∧ ∃ source, Resolves args node source ∧ result = source.bind normalise := by
  have hrequest : Right args (s.request node.id) := ⟨hs.source, hs.schema⟩
  rw [resolveNodeSchema, Runtime.request_schemaCache] at h
  cases hschema : s.schemaCache node.id with
  | some schema =>
    simp only [hschema] at h
    cases h
    obtain ⟨source, hsource, hnormal⟩ := hs.schema _ _ hschema node hnode
    exact ⟨rfl, hrequest, _, hsource, hnormal.symm⟩
  | none =>
    simp only [hschema] at h
    cases hcall : resolve true node (s.request node.id) with
    | none => simp only [hcall] at h; cases h
    | some reply =>
      obtain ⟨source, t⟩ := reply
      obtain ⟨ht, hright, hsource⟩ := hresolve true node _ source t hnode
        (rfl : (s.request node.id).resolving = s.resolving) hrequest hframes hcall
      simp only [hcall] at h
      cases source with
      | error error =>
        cases h
        exact ⟨ht, hright, _, hsource, rfl⟩
      | ok source =>
        cases hnormal : normalise source with
        | error error =>
          simp only [hnormal] at h
          cases h
          exact ⟨ht, hright, _, hsource, hnormal.symm⟩
        | ok schema =>
          simp only [hnormal] at h
          cases h
          exact ⟨ht, hright.cacheSchema hnode hsource hnormal, _, hsource, hnormal.symm⟩

theorem replies_right {resolve : SourceResolver Zod} {frames : List Frame} (question : SchemaQuestion)
    {a : SchemaAnswer Zod question} (hresolve : ResolvesRight args resolve frames) (hs : s.resolving = frames)
    (hright : Right args s)
    (hframes : ∀ frame ∈ frames, Relation.TransGen (DependsOn args) frame.nodeId question.nodeId)
    (h : replies args resolve question s = some (a, s')) :
    s'.resolving = frames ∧ Right args s' ∧ AnswerFrom args (Resolves args) question a := by
  cases question with
  | resolveNodeSchema nodeId =>
    rw [replies, resolveNodeSchemaById] at h
    rw [AnswerFrom]
    cases hnode : nodeById args nodeId with
    | none =>
      rw [hnode] at h
      cases h
      exact ⟨hs, hright, rfl⟩
    | some node =>
      rw [hnode] at h
      have hself := nodeById_self hnode
      cases hs
      refine resolveNodeSchema_right hresolve hself hright (fun frame hframe => ?_) h
      rw [(nodeById_mem hnode).2]
      exact hframes frame hframe
  | resolveNodeSchemaSource nodeId =>
    rw [replies, resolveNodeSchemaSourceById] at h
    rw [AnswerFrom]
    cases hnode : nodeById args nodeId with
    | none =>
      rw [hnode] at h
      cases h
      exact ⟨hs, hright, rfl⟩
    | some node =>
      rw [hnode] at h
      refine hresolve false node s a s' (nodeById_self hnode) hs hright (fun frame hframe => ?_) h
      rw [(nodeById_mem hnode).2]
      exact hframes frame hframe

theorem Given.right (h : Given args node s source s') (hacyclic : AcyclicHandlers args)
    (hnode : nodeById args node.id = some node) (hs : Right args s)
    (hframes : ∀ frame ∈ s.resolving, Relation.TransGen (DependsOn args) frame.nodeId node.id) :
    Right args s' ∧ Resolves args node (.ok source) := by
  cases h with
  | cached hcache => exact ⟨hs, hs.source _ _ hcache node hnode⟩
  | direct hcache hdirect =>
    have hresolves : Resolves args node (.ok source) := by
      cases hdirect with
      | untyped htype => exact resolves_iff.2 (.untyped htype)
      | circular _ hresolving =>
        obtain ⟨frame, hframe, hid⟩ := Runtime.isResolving_iff.1 hresolving
        exact absurd (hid ▸ hframes frame hframe) (hacyclic node.id)
      | unhandled htype _ hnone => exact resolves_iff.2 (.unhandled htype hnone)
    exact ⟨hs.cacheSource hnode hresolves, hresolves⟩

theorem resolveNodeSchemaSource_right (hacyclic : AcyclicHandlers args) (fuel : Nat) (frames : List Frame) :
    ResolvesRight args (resolveNodeSchemaSource args fuel) frames := by
  induction fuel generalizing frames with
  | zero =>
    rintro b node s result s' hnode rfl hs hframes h
    cases start args node s with
    | given hgiven =>
      rw [resolveNodeSchemaSource_given hgiven] at h
      cases h
      exact ⟨hgiven.resolving, hgiven.right hacyclic hnode hs hframes⟩
    | handled hcache hresolving hhandled =>
      rw [resolveNodeSchemaSource_zero hcache hresolving hhandled] at h
      cases h
  | succ fuel ih =>
    rintro b node s result s' hnode rfl hs hframes h
    cases start args node s with
    | given hgiven =>
      rw [resolveNodeSchemaSource_given hgiven] at h
      cases h
      exact ⟨hgiven.resolving, hgiven.right hacyclic hnode hs hframes⟩
    | @handled d hcache hresolving hhandled =>
      rw [resolveNodeSchemaSource_handled hcache hresolving hhandled] at h
      obtain ⟨⟨resolved, t⟩, hrun, hfinish⟩ := map_eq_some_iff.1 h
      have hreplies : ∀ question, d.Asks question → ∀ (s₁ : Runtime Zod) a s₂,
          s₁.resolving = ⟨node.id, b⟩ :: s.resolving ∧ Right args s₁ →
          replies args (resolveNodeSchemaSource args fuel) question s₁ = some (a, s₂) →
          (s₂.resolving = ⟨node.id, b⟩ :: s.resolving ∧ Right args s₂) ∧
            AnswerFrom args (Resolves args) question a := by
        rintro question hasks s₁ a s₂ ⟨hs₁, hright⟩ h
        have hdepends : DependsOn args node.id question.nodeId := ⟨node, d, question, hnode, hhandled, hasks, rfl⟩
        obtain ⟨hs₂, hright₂, ha⟩ := replies_right question (ih _) hs₁ hright
          (forall_mem_cons.2 ⟨.single hdepends, fun frame hframe => (hframes frame hframe).tail hdepends⟩) h
        exact ⟨⟨hs₂, hright₂⟩, ha⟩
      obtain ⟨⟨ht, hright⟩, hgives⟩ := Dialogue.run_keeps hreplies (s := s.enter ⟨node.id, b⟩)
        ⟨rfl, hs.source, hs.schema⟩ hrun
      have hresolves : Resolves args node (resolved.map some) := resolves_iff.2 (.handled hhandled hgives)
      cases resolved with
      | error error =>
        cases hfinish
        exact ⟨Runtime.leave_resolving hresolving ht, ⟨hright.source, hright.schema⟩, hresolves⟩
      | ok resolved =>
        cases hfinish
        have hcached := hright.cacheSource hnode hresolves
        exact ⟨Runtime.leave_resolving hresolving (ht : (t.cacheSource node.id _).resolving = _),
          ⟨hcached.source, hcached.schema⟩, hresolves⟩

omit [ZodTypes Zod] in
def Call.OfGraph (args : CreateNodeRuntimeArgs Zod) : Call → Prop
  | .resolveNodeSchema node | .resolveNodeSchemaSource node => nodeById args node.id = some node
  | _ => True

def Correct (args : CreateNodeRuntimeArgs Zod) : Call → Answer Zod → Prop
  | .resolveNodeSchema node, .schema result => ∃ source, Resolves args node source ∧ result = source.bind normalise
  | .resolveNodeSchemaById nodeId, .schema result =>
    AnswerFrom args (Resolves args) (.resolveNodeSchema nodeId) result
  | .resolveNodeSchemaSource node, .source result => Resolves args node result
  | .resolveNodeSchemaSourceById nodeId, .source result =>
    AnswerFrom args (Resolves args) (.resolveNodeSchemaSource nodeId) result
  | _, _ => False

theorem Correct.unique (h : Correct args call answer) (h' : Correct args call answer'): answer = answer' := by
  have hanswer (question : SchemaQuestion) (a a' : SchemaAnswer Zod question) :
      AnswerFrom args (Resolves args) question a → AnswerFrom args (Resolves args) question a' → a = a' :=
    AnswerFrom.unique (fun _ _ _ h h' => h.unique h') question a a'
  cases answer with
  | schema result =>
    cases answer' with
    | schema result' =>
      cases call with
      | resolveNodeSchema node =>
        obtain ⟨source, hsource, rfl⟩ := h
        obtain ⟨source', hsource', rfl⟩ := h'
        rw [hsource.unique hsource']
      | resolveNodeSchemaById nodeId => exact congrArg Answer.schema (hanswer (.resolveNodeSchema nodeId) _ _ h h')
      | resolveNodeSchemaSource => exact False.elim h
      | resolveNodeSchemaSourceById => exact False.elim h
    | source => cases call <;> first | exact False.elim h' | exact False.elim h
  | source result =>
    cases answer' with
    | schema => cases call <;> first | exact False.elim h' | exact False.elim h
    | source result' =>
      cases call with
      | resolveNodeSchema => exact False.elim h
      | resolveNodeSchemaById => exact False.elim h
      | resolveNodeSchemaSource node => exact congrArg Answer.source (Resolves.unique h h')
      | resolveNodeSchemaSourceById nodeId =>
        exact congrArg Answer.source (hanswer (.resolveNodeSchemaSource nodeId) _ _ h h')

theorem perform_right {call : Call} (hacyclic : AcyclicHandlers args) (hcall : call.OfGraph args)
    (hs : s.resolving = [] ∧ Right args s) (h : perform args fuel s call = some (answer, s')) :
    (s'.resolving = [] ∧ Right args s') ∧ Correct args call answer := by
  obtain ⟨hframes, hs⟩ := hs
  have hresolve := resolveNodeSchemaSource_right hacyclic fuel s.resolving
  have hidle {nodeId : String} : ∀ frame ∈ s.resolving, Relation.TransGen (DependsOn args) frame.nodeId nodeId := by
    rw [hframes]
    exact forall_mem_nil _
  rw [← hframes]
  cases call with
  | resolveNodeSchema node =>
    obtain ⟨⟨result, t⟩, hperform, he⟩ := map_eq_some_iff.1 h
    cases he
    obtain ⟨ht, hright, hresult⟩ := resolveNodeSchema_right hresolve hcall hs hidle hperform
    exact ⟨⟨ht, hright⟩, hresult⟩
  | resolveNodeSchemaById nodeId =>
    obtain ⟨⟨result, t⟩, hperform, he⟩ := map_eq_some_iff.1 h
    cases he
    obtain ⟨ht, hright, hresult⟩ := replies_right (.resolveNodeSchema nodeId) hresolve rfl hs hidle hperform
    exact ⟨⟨ht, hright⟩, hresult⟩
  | resolveNodeSchemaSource node =>
    obtain ⟨⟨result, t⟩, hperform, he⟩ := map_eq_some_iff.1 h
    cases he
    obtain ⟨ht, hright, hresult⟩ := hresolve false node s result t hcall rfl hs hidle hperform
    exact ⟨⟨ht, hright⟩, hresult⟩
  | resolveNodeSchemaSourceById nodeId =>
    obtain ⟨⟨result, t⟩, hperform, he⟩ := map_eq_some_iff.1 h
    cases he
    obtain ⟨ht, hright, hresult⟩ := replies_right (.resolveNodeSchemaSource nodeId) hresolve rfl hs hidle hperform
    exact ⟨⟨ht, hright⟩, hresult⟩

theorem performAll_right (hacyclic : AcyclicHandlers args)
    (hcalls : ∀ call ∈ calls, call.OfGraph args) (hs : s.resolving = [] ∧ Right args s)
    (h : performAll args fuel calls s = some (answers, s')) :
    (s'.resolving = [] ∧ Right args s') ∧ List.Forall₂ (Correct args) calls answers := by
  induction calls generalizing s answers with
  | nil =>
    cases h
    exact ⟨hs, .nil⟩
  | cons call calls ih =>
    obtain ⟨hfirst, hrest⟩ := forall_mem_cons.1 hcalls
    rw [performAll] at h
    cases hcall : perform args fuel s call with
    | none => rw [hcall] at h; cases h
    | some reply =>
      rw [hcall] at h
      obtain ⟨⟨rest, t⟩, hperform, he⟩ := map_eq_some_iff.1 h
      cases he
      obtain ⟨hs₁, hcorrect⟩ := perform_right hacyclic hfirst hs hcall
      obtain ⟨hs', hall⟩ := ih hrest hs₁ hperform
      exact ⟨hs', .cons hcorrect hall⟩

theorem right_empty : Right args {} := ⟨nofun, nofun⟩

end

/-- Calls in a row on one runtime: each returns; the schema of a node is that of its source, unless a handler asked
for it early and to its harm; and where no handler comes back to its own node, each call gets what it would get on a
runtime of its own. -/
theorem resolution_consistent_iff [ZodTypes Zod] (args : CreateNodeRuntimeArgs Zod) (calls : List Call)
    (hfuel : args.nodes.length < fuel) :
    ∃ answers s, performAll args fuel calls {} = some (answers, s) ∧
      (∀ node, Consistent args fuel s node ↔
        ∀ forSchema, Early s node.id forSchema → Harmless args s node.id forSchema) ∧
      (AcyclicHandlers args → (∀ call ∈ calls, call.OfGraph args) →
        (∀ node, nodeById args node.id = some node → Consistent args fuel s node) ∧
        calls.mapM (fun call => (perform args fuel {} call).map Prod.fst) = some answers) := by
  obtain ⟨answers, s, hperform, hframes⟩ := performAll_total (s := ({} : Runtime Zod)) rfl hfuel calls
  obtain ⟨-, hvalid⟩ := performAll_keeps ⟨rfl, valid_empty⟩ hperform
  refine ⟨answers, s, hperform, fun node => consistent_iff hvalid hframes, fun hacyclic hcalls => ?_⟩
  obtain ⟨hs, hall⟩ := performAll_right hacyclic hcalls ⟨rfl, right_empty⟩ hperform
  constructor
  · intro node hnode schema s₁ source s₂ h₁ h₂
    have hcall : (Call.resolveNodeSchema node).OfGraph args := hnode
    have hcall' : (Call.resolveNodeSchemaSource node).OfGraph args := hnode
    obtain ⟨hs₁, resolved, hresolved, hschema⟩ := perform_right hacyclic hcall hs h₁
    obtain ⟨-, hsource⟩ := perform_right hacyclic hcall' hs₁ h₂
    cases hresolved.unique hsource
    exact hschema.symm
  · clear hperform hframes hvalid hs
    induction hall with
    | nil => rfl
    | @cons call answer calls answers hcorrect _ ih =>
      obtain ⟨hcall, hrest⟩ := forall_mem_cons.1 hcalls
      obtain ⟨fresh, t, hfresh, -⟩ := perform_total (s := ({} : Runtime Zod)) rfl hfuel call
      cases (perform_right hacyclic hcall ⟨rfl, right_empty⟩ hfresh).2.unique hcorrect
      rw [mapM_cons, hfresh, ih hrest]
      rfl

/-- Plain JSON Schemas only. -/
def relayHandler : WorkflowNodeHandler Empty where
  getInputSchema context :=
    match context.edges.find? (·.target == context.node.id) with
    | none => pure none
    | some edge => do
      let schema ← context.resolveNodeSchema edge.source
      return schema.map fun schema => .json (.obj schema.output)
  getOutputSchema _ := pure (some (.json (.obj [("type", .str "object"), ("properties", .obj [])])))
  getDescription _ := pure (some "Passes its input on")

def relayChain : CreateNodeRuntimeArgs Empty where
  nodes := [⟨"first", some "relay", none⟩, ⟨"second", some "relay", none⟩]
  edges := [⟨"e", "first", "second", none, none, none⟩]
  nodeSchemas _ := none
  nodeHandlers nodeType := if nodeType == "relay" then some relayHandler else none

theorem dependsOn_relayChain (h : DependsOn relayChain nodeId nodeId') :
    nodeId = "second" ∧ nodeId' = "first" := by
  obtain ⟨node, d, question, hnode, ⟨htype, hhandler⟩, hasks, rfl⟩ := h
  have hid := List.find?_some hnode
  rw [beq_iff_eq] at hid
  have hmem : node = ⟨"second", some "relay", none⟩ ∨ node = ⟨"first", some "relay", none⟩ := by
    simpa [relayChain] using List.mem_of_find?_eq_some hnode
  obtain rfl | rfl := hmem
  all_goals
    cases htype
    cases hhandler
  case inl =>
    cases hasks with
    | here => exact ⟨hid.symm, rfl⟩
    | later a hasks =>
      cases a <;> cases hasks
  case inr => cases hasks

theorem acyclicHandlers_relayChain : AcyclicHandlers relayChain := by
  intro nodeId hpath
  obtain ⟨_, hfirst, -⟩ := Relation.TransGen.head'_iff.1 hpath
  obtain ⟨_, -, hlast⟩ := Relation.TransGen.tail'_iff.1 hpath
  have hid := (dependsOn_relayChain hfirst).1.symm.trans (dependsOn_relayChain hlast).2
  revert hid
  decide

theorem resolution_consistent_iff_relayChain : ∃ answers s, performAll relayChain 3
      [.resolveNodeSchemaSourceById "second", .resolveNodeSchema ⟨"first", some "relay", none⟩] {} =
        some (answers, s) ∧
    (∀ node, Consistent relayChain 3 s node ↔
      ∀ forSchema, Early s node.id forSchema → Harmless relayChain s node.id forSchema) ∧
    (∀ node, nodeById relayChain node.id = some node → Consistent relayChain 3 s node) ∧
    [.resolveNodeSchemaSourceById "second", .resolveNodeSchema ⟨"first", some "relay", none⟩].mapM
      (fun call => (perform relayChain 3 {} call).map Prod.fst) = some answers := by
  obtain ⟨answers, s, hperform, hconsistent, hright⟩ := resolution_consistent_iff relayChain
    [.resolveNodeSchemaSourceById "second", .resolveNodeSchema ⟨"first", some "relay", none⟩]
    (by decide : 2 < 3)
  have hcalls : ∀ call ∈ ([.resolveNodeSchemaSourceById "second",
      .resolveNodeSchema ⟨"first", some "relay", none⟩] : List Call), call.OfGraph relayChain :=
    forall_mem_cons.2 ⟨trivial, forall_mem_singleton.2 rfl⟩
  obtain ⟨hall, hanswers⟩ := hright acyclicHandlers_relayChain hcalls
  exact ⟨answers, s, hperform, hconsistent, hall, hanswers⟩

def relayLoop : CreateNodeRuntimeArgs Empty where
  nodes := [⟨"first", some "relay", none⟩, ⟨"second", some "relay", none⟩]
  edges := [⟨"e1", "first", "second", none, none, none⟩, ⟨"e2", "second", "first", none, none, none⟩]
  nodeSchemas _ := none
  nodeHandlers nodeType := if nodeType == "relay" then some relayHandler else none

/-- The source of the first node is asked for. Its handler waits for the schema of the second, and that handler for
the schema of the first: `undefined`, for there is no static one. The source comes, but the schema stays. -/
theorem relayLoop_inconsistent : ¬ ∀ (args : CreateNodeRuntimeArgs Empty) (fuel : Nat) (calls : List Call)
    (answers : List (Answer Empty)) (s : Runtime Empty) (node : Node),
    performAll args fuel calls {} = some (answers, s) → Consistent args fuel s node := by
  intro h
  have hcalls := h relayLoop 3 [.resolveNodeSchemaSourceById "first"] _ _ ⟨"first", some "relay", none⟩ rfl
  have hnormal := hcalls none _ _ _ rfl rfl
  cases hnormal

end Trakrai.NodeRuntime
