import Mathlib.Data.List.Perm.Subperm
import Trakrai.NodeRuntime.Runtime

namespace Trakrai.NodeRuntime
open Function List Lib
open Workflow (Node Edge)

namespace Runtime
variable (s : Runtime Zod) (nodeId : String)

@[simp] theorem cacheSource_schemaCache : (s.cacheSource nodeId source).schemaCache = s.schemaCache := rfl
@[simp] theorem enter_resolving : (s.enter frame).resolving = frame :: s.resolving := rfl
@[simp] theorem request_schemaCache : (s.request nodeId).schemaCache = s.schemaCache := rfl
variable {s s' : Runtime Zod} {nodeId other : String}

@[simp] theorem cacheSource_schemaSourceCache_self :
    (s.cacheSource nodeId source).schemaSourceCache nodeId = some source :=
  update_self ..

theorem cacheSource_schemaSourceCache_ne (h : other ≠ nodeId) :
    (s.cacheSource nodeId source).schemaSourceCache other = s.schemaSourceCache other :=
  update_of_ne h ..

@[simp] theorem cacheSchema_schemaCache_self : (s.cacheSchema nodeId schema).schemaCache nodeId = some schema :=
  update_self ..

theorem cacheSchema_schemaCache_ne (h : other ≠ nodeId) :
    (s.cacheSchema nodeId schema).schemaCache other = s.schemaCache other :=
  update_of_ne h ..

theorem isResolving_iff : s.isResolving nodeId ↔ ∃ frame ∈ s.resolving, frame.nodeId = nodeId := by
  simp [isResolving]

theorem isResolving_congr (h : s'.resolving = s.resolving) :
    s'.isResolving nodeId = s.isResolving nodeId := by
  rw [isResolving, isResolving, h]

theorem leave_resolving (hstart : s.isResolving nodeId = false)
    (h : s'.resolving = ⟨nodeId, forSchema⟩ :: s.resolving) : (s'.leave nodeId).resolving = s.resolving := by
  rw [leave, h, filter_cons_of_neg (by simp), filter_eq_self]
  intro frame hframe
  rw [isResolving, any_eq_false] at hstart
  simpa using hstart frame hframe

/-- What becomes of the runtime when the handler of a node has run. -/
def finish (nodeId : String) : Except String (ResolvedNodeSchemaSource Zod) × Runtime Zod →
      Except String (Option (ResolvedNodeSchemaSource Zod)) × Runtime Zod
  | (.error error, s) => (.error error, s.leave nodeId)
  | (.ok resolved, s) => (.ok (some resolved), (s.cacheSource nodeId (some resolved)).leave nodeId)

end Runtime

section
variable {args : CreateNodeRuntimeArgs Zod} {node : Node} {s : Runtime Zod}

inductive Direct (args : CreateNodeRuntimeArgs Zod) (node : Node) (s : Runtime Zod) :
    Option (ResolvedNodeSchemaSource Zod) → Prop
  | untyped : node.type = none → Direct args node s none
  | circular : node.type = some nodeType → s.isResolving node.id →
      Direct args node s ((args.nodeSchemas nodeType).map getStaticSchemaSource)
  | unhandled : node.type = some nodeType → s.isResolving node.id = false → getNodeHandler args nodeType = none →
      Direct args node s none

inductive Handled (args : CreateNodeRuntimeArgs Zod) (node : Node) :
    Dialogue SchemaQuestion (SchemaAnswer Zod) (Except String (ResolvedNodeSchemaSource Zod)) → Prop
  | mk : node.type = some nodeType → getNodeHandler args nodeType = some handler → Handled args node
        (resolveWithHandler args node handler ((args.nodeSchemas nodeType).map getStaticSchemaSource)).run

inductive Given (args : CreateNodeRuntimeArgs Zod) (node : Node) (s : Runtime Zod) :
    Option (ResolvedNodeSchemaSource Zod) → Runtime Zod → Prop
  | cached : s.schemaSourceCache node.id = some source → Given args node s source s
  | direct : s.schemaSourceCache node.id = none → Direct args node s source →
      Given args node s source (s.cacheSource node.id source)

/-- How `resolveNodeSchemaSource` begins. -/
inductive Start (args : CreateNodeRuntimeArgs Zod) (node : Node) (s : Runtime Zod) : Prop
  | given : Given args node s source s' → Start args node s
  | handled : s.schemaSourceCache node.id = none → s.isResolving node.id = false → Handled args node d →
      Start args node s

theorem start (args : CreateNodeRuntimeArgs Zod) (node : Node) (s : Runtime Zod) : Start args node s := by
  cases hcache : s.schemaSourceCache node.id with
  | some source => exact .given (.cached hcache)
  | none =>
    cases htype : node.type with
    | none => exact .given (.direct hcache (.untyped htype))
    | some nodeType =>
      cases hresolving : s.isResolving node.id with
      | true => exact .given (.direct hcache (.circular htype hresolving))
      | false =>
        cases hhandler : getNodeHandler args nodeType with
        | none => exact .given (.direct hcache (.unhandled htype hresolving hhandler))
        | some handler => exact .handled hcache hresolving (.mk htype hhandler)

theorem Given.resolving (h : Given args node s source s') : s'.resolving = s.resolving := by
  cases h with
  | cached => rfl
  | direct => rfl

theorem Handled.unique (h : Handled args node d) (h' : Handled args node d') : d = d' := by
  cases h with
  | mk htype hhandler =>
    cases h' with
    | mk htype' hhandler' =>
      cases htype.symm.trans htype'
      cases hhandler.symm.trans hhandler'
      rfl

variable [ZodTypes Zod] {forSchema : Bool}

theorem resolveNodeSchemaSource_given (h : Given args node s source s') :
    resolveNodeSchemaSource args fuel forSchema node s = some (.ok source, s') := by
  cases h with
  | cached hcache => rw [resolveNodeSchemaSource, hcache]
  | direct hcache hdirect =>
    cases hdirect with
    | untyped htype => simp only [resolveNodeSchemaSource, hcache, htype]
    | circular htype hresolving => simp only [resolveNodeSchemaSource, hcache, htype, hresolving, if_true]
    | unhandled htype hresolving hhandler =>
      simp only [resolveNodeSchemaSource, hcache, htype, hresolving, hhandler, Bool.false_eq_true, if_false]

theorem resolveNodeSchemaSource_zero (hcache : s.schemaSourceCache node.id = none)
    (hresolving : s.isResolving node.id = false) (h : Handled args node d) :
    resolveNodeSchemaSource args 0 forSchema node s = none := by
  cases h with
  | mk htype hhandler =>
    simp only [resolveNodeSchemaSource, hcache, htype, hresolving, hhandler, Bool.false_eq_true, if_false]

theorem resolveNodeSchemaSource_handled (hcache : s.schemaSourceCache node.id = none)
    (hresolving : s.isResolving node.id = false) (h : Handled args node d) :
    resolveNodeSchemaSource args (fuel + 1) forSchema node s =
      (d.run (replies args (resolveNodeSchemaSource args fuel)) (s.enter ⟨node.id, forSchema⟩)).map
        (Runtime.finish node.id) := by
  cases h with
  | mk htype hhandler =>
    simp only [resolveNodeSchemaSource, hcache, htype, hresolving, hhandler, Bool.false_eq_true, if_false]
    split
    · rename_i hrun
      rw [hrun]
      rfl
    · rename_i hrun
      rw [hrun]
      rfl
    · rename_i hrun
      rw [hrun]
      rfl

/-- The handlers that run are of different nodes, and all but the outermost of nodes of the graph. -/
structure Nested (args : CreateNodeRuntimeArgs Zod) (resolving : List Frame) : Prop where
  nodup : (resolving.map Frame.nodeId).Nodup
  known : ∀ frame ∈ resolving.dropLast, frame.nodeId ∈ args.nodes.map Node.id

omit [ZodTypes Zod] in
theorem nodeById_mem (h : nodeById args nodeId = some node) :
    node ∈ args.nodes ∧ node.id = nodeId := by
  obtain ⟨hmem, hid⟩ := mem_of_find?_key h
  exact ⟨List.mem_reverse.1 hmem, hid⟩

omit [ZodTypes Zod] in
theorem nodeById_self (h : nodeById args nodeId = some node) :
    nodeById args node.id = some node := by
  rw [(nodeById_mem h).2, h]

omit [ZodTypes Zod] in
theorem Nested.enter (h : Nested args s.resolving) (forSchema : Bool) (hresolving : s.isResolving node.id = false)
    (hnode : nodeById args node.id = some node ∨ s.resolving = []) :
    Nested args (⟨node.id, forSchema⟩ :: s.resolving) where
  nodup := by
    rw [map_cons, nodup_cons]
    refine ⟨fun hmem => ?_, h.nodup⟩
    obtain ⟨frame, hframe, hid⟩ := mem_map.1 hmem
    rw [Runtime.isResolving_iff.2 ⟨frame, hframe, hid⟩] at hresolving
    cases hresolving
  known := by
    cases hframes : s.resolving with
    | nil => exact forall_mem_nil _
    | cons first frames =>
      rw [hframes] at hnode
      have hin : nodeById args node.id = some node := hnode.resolve_right (cons_ne_nil _ _)
      have hknown := h.known
      rw [hframes] at hknown
      rw [dropLast_cons_of_ne_nil (cons_ne_nil _ _), forall_mem_cons]
      exact ⟨mem_map_of_mem (nodeById_mem hin).1, hknown⟩

omit [ZodTypes Zod] in
/-- At most one handler more than the graph has nodes runs at a time. -/
theorem Nested.length_le (h : Nested args resolving) : resolving.length ≤ args.nodes.length + 1 := by
  have hsub : (resolving.dropLast.map Frame.nodeId) ⊆ args.nodes.map Node.id := by
    intro nodeId hmem
    obtain ⟨frame, hframe, rfl⟩ := mem_map.1 hmem
    exact h.known frame hframe
  have hnodup : (resolving.dropLast.map Frame.nodeId).Nodup :=
    h.nodup.sublist ((dropLast_sublist resolving).map _)
  have hle := (subperm_of_subset hnodup hsub).length_le
  rw [length_map, length_map, length_dropLast] at hle
  omega

theorem resolveNodeSchema_total
    (h : ∃ result s', resolve true node (s.request node.id) = some (result, s') ∧ s'.resolving = frames)
    (hs : s.resolving = frames) :
    ∃ result s', resolveNodeSchema resolve node s = some (result, s') ∧ s'.resolving = frames := by
  rw [resolveNodeSchema]
  cases hcache : (s.request node.id).schemaCache node.id with
  | some schema => exact ⟨_, _, rfl, hs⟩
  | none =>
    obtain ⟨result, s', hresolve, hs'⟩ := h
    simp only [hresolve]
    cases result with
    | error error => exact ⟨_, _, rfl, hs'⟩
    | ok source =>
      cases hschema : normalise source with
      | error error => simp only [hschema]; exact ⟨_, _, rfl, hs'⟩
      | ok schema => simp only [hschema]; exact ⟨_, _, rfl, hs'⟩

/-- A question of a handler is answered, if every call of `resolve` for a node of the graph returns. -/
theorem replies_total
    (h : ∀ forSchema node s, nodeById args node.id = some node → s.resolving = frames →
      ∃ result s', resolve forSchema node s = some (result, s') ∧ s'.resolving = frames)
    (question : SchemaQuestion) (s : Runtime Zod) (hs : s.resolving = frames) :
    ∃ a s', replies args resolve question s = some (a, s') ∧ s'.resolving = frames := by
  cases question with
  | resolveNodeSchema nodeId =>
    rw [replies, resolveNodeSchemaById]
    cases hnode : nodeById args nodeId with
    | none => exact ⟨_, _, rfl, hs⟩
    | some node => exact resolveNodeSchema_total (h true node _ (nodeById_self hnode) hs) hs
  | resolveNodeSchemaSource nodeId =>
    rw [replies, resolveNodeSchemaSourceById]
    cases hnode : nodeById args nodeId with
    | none => exact ⟨_, _, rfl, hs⟩
    | some node => exact h false node s (nodeById_self hnode) hs

theorem resolveNodeSchemaSource_total (forSchema : Bool) (hs : Nested args s.resolving)
    (hnode : nodeById args node.id = some node ∨ s.resolving = [])
    (fuel : Nat) (hfuel : args.nodes.length < s.resolving.length + fuel) :
    ∃ result s', resolveNodeSchemaSource args fuel forSchema node s = some (result, s') ∧
      s'.resolving = s.resolving := by
  induction fuel generalizing node s forSchema with
  | zero =>
    cases start args node s with
    | given h => exact ⟨_, _, resolveNodeSchemaSource_given h, h.resolving⟩
    | handled hcache hresolving hhandled =>
      -- one more handler would be one too many
      have hle := (hs.enter forSchema hresolving hnode).length_le
      rw [length_cons] at hle
      omega
  | succ fuel ih =>
    cases start args node s with
    | given h => exact ⟨_, _, resolveNodeSchemaSource_given h, h.resolving⟩
    | handled hcache hresolving hhandled =>
      rename_i d
      have hnested := hs.enter forSchema hresolving hnode
      have hreplies : ∀ question s', s'.resolving = ⟨node.id, forSchema⟩ :: s.resolving →
          ∃ a s'', replies args (resolveNodeSchemaSource args fuel) question s' = some (a, s'') ∧
            s''.resolving = ⟨node.id, forSchema⟩ :: s.resolving := by
        refine replies_total fun b node' s' hnode' hs' => ?_
        rw [← hs'] at hnested ⊢
        refine ih b hnested (.inl hnode') ?_
        rw [hs', length_cons]
        omega
      obtain ⟨resolved, s', hrun, hs'⟩ := d.run_total hreplies (s := s.enter ⟨node.id, forSchema⟩) rfl
      rw [resolveNodeSchemaSource_handled hcache hresolving hhandled, hrun]
      refine ⟨_, _, rfl, ?_⟩
      cases resolved with
      | error error => exact Runtime.leave_resolving hresolving hs'
      | ok resolved => exact Runtime.leave_resolving hresolving (hs' : (s'.cacheSource node.id _).resolving = _)

theorem resolveNodeSchemaSource_idle (hs : s.resolving = []) (hfuel : args.nodes.length < fuel) (forSchema : Bool)
    (node : Node) : ∃ result s', resolveNodeSchemaSource args fuel forSchema node s = some (result, s') ∧
      s'.resolving = [] := by
  have hnested : Nested args s.resolving := by
    rw [hs]
    exact ⟨nodup_nil, forall_mem_nil _⟩
  obtain ⟨result, s', h, hs'⟩ := resolveNodeSchemaSource_total forSchema hnested
    (.inr hs : nodeById args node.id = some node ∨ s.resolving = []) fuel (by omega)
  exact ⟨result, s', h, hs'.trans hs⟩

/-- A call of `resolveNodeSchema` returns where no handler runs, and then none runs. -/
theorem resolveNodeSchema_idle (hs : s.resolving = []) (hfuel : args.nodes.length < fuel) (node : Node) :
    ∃ result s', resolveNodeSchema (resolveNodeSchemaSource args fuel) node s = some (result, s') ∧
      s'.resolving = [] := by
  have hrequest : (s.request node.id).resolving = [] := hs
  exact resolveNodeSchema_total (resolveNodeSchemaSource_idle hrequest hfuel true node) hs

theorem perform_total (hs : s.resolving = []) (hfuel : args.nodes.length < fuel) (call : Call) :
    ∃ answer s', perform args fuel s call = some (answer, s') ∧ s'.resolving = [] := by
  have hresolve : ∀ forSchema (node : Node) (s : Runtime Zod), s.resolving = [] → ∃ result s',
      resolveNodeSchemaSource args fuel forSchema node s = some (result, s') ∧ s'.resolving = [] :=
    fun forSchema node _ hs => resolveNodeSchemaSource_idle hs hfuel forSchema node
  cases call with
  | resolveNodeSchema node =>
    obtain ⟨result, s', h, hs'⟩ := resolveNodeSchema_idle hs hfuel node
    exact ⟨_, s', by rw [perform, h]; rfl, hs'⟩
  | resolveNodeSchemaById nodeId =>
    obtain ⟨a, s', h, hs'⟩ := replies_total (fun b n s (_ : nodeById args n.id = some n) => hresolve b n s)
      (.resolveNodeSchema nodeId) s hs
    rw [replies] at h
    exact ⟨_, s', by rw [perform, h]; rfl, hs'⟩
  | resolveNodeSchemaSource node =>
    obtain ⟨result, s', h, hs'⟩ := hresolve false node s hs
    exact ⟨_, s', by rw [perform, h]; rfl, hs'⟩
  | resolveNodeSchemaSourceById nodeId =>
    obtain ⟨a, s', h, hs'⟩ := replies_total (fun b n s (_ : nodeById args n.id = some n) => hresolve b n s)
      (.resolveNodeSchemaSource nodeId) s hs
    rw [replies] at h
    exact ⟨_, s', by rw [perform, h]; rfl, hs'⟩

theorem performAll_total (hs : s.resolving = []) (hfuel : args.nodes.length < fuel) (calls : List Call) :
    ∃ answers s', performAll args fuel calls s = some (answers, s') ∧ s'.resolving = [] := by
  induction calls generalizing s with
  | nil => exact ⟨[], s, rfl, hs⟩
  | cons call calls ih =>
    obtain ⟨answer, s₁, hcall, hs₁⟩ := perform_total hs hfuel call
    obtain ⟨answers, s₂, hcalls, hs₂⟩ := ih hs₁
    refine ⟨answer :: answers, s₂, ?_, hs₂⟩
    rw [performAll, hcall]
    simp only [hcalls]
    rfl

end

end Trakrai.NodeRuntime
