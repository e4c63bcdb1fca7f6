import Trakrai.NodeRuntime.Caches

namespace Trakrai.NodeRuntime
open List Lib
open Workflow (Node Edge)

section
variable [ZodTypes Zod] {args : CreateNodeRuntimeArgs Zod} {node : Node} {s s' : Runtime Zod} {nodeId : String}
  {forSchema : Bool} {source : Option (ResolvedNodeSchemaSource Zod)} {schema : Option ResolvedNodeSchema}

omit [ZodTypes Zod] in
theorem cacheSource_of_cached (h : s.schemaSourceCache nodeId = some source) : s.cacheSource nodeId source = s := by
  rw [Runtime.cacheSource, ← h, Function.update_eq_self]

omit [ZodTypes Zod] in
theorem Direct.eq_fallback (h : Direct args node s source) (hnode : nodeById args node.id = some node)
    (hresolving : s.isResolving node.id) : source = fallback args node.id := by
  rw [fallback, hnode, Option.bind_some]
  cases h with
  | untyped htype => rw [htype]; rfl
  | circular htype _ => rw [htype]; rfl
  | unhandled _ hnot _ =>
    rw [hresolving] at hnot
    cases hnot

theorem resolveNodeSchemaSource_circular (hnode : nodeById args node.id = some node)
    (hresolving : s.isResolving node.id)
    (hsource : ∀ source, s.schemaSourceCache node.id = some source → source = fallback args node.id) :
    resolveNodeSchemaSource args fuel forSchema node s =
      some (.ok (fallback args node.id), s.cacheSource node.id (fallback args node.id)) := by
  cases start args node s with
  | given h =>
    rw [resolveNodeSchemaSource_given h]
    cases h with
    | cached hcache =>
      cases hsource _ hcache
      rw [cacheSource_of_cached hcache]
    | direct hcache hdirect => rw [hdirect.eq_fallback hnode hresolving]
  | handled _ hnot _ =>
    rw [hresolving] at hnot
    cases hnot

omit [ZodTypes Zod] in
theorem frame_unique (hnodup : (s.resolving.map Frame.nodeId).Nodup) (h : ⟨nodeId, b⟩ ∈ s.resolving)
    (h' : ⟨nodeId, b'⟩ ∈ s.resolving) : b = b' :=
  congrArg Frame.forSchema (inj_on_of_nodup_map hnodup h h' rfl)

theorem InProgress.request (h : InProgress args s nodeId forSchema) (hnodup : (s.resolving.map Frame.nodeId).Nodup)
    (hframe : ⟨nodeId, forSchema⟩ ∈ s.resolving) (hsource : s'.schemaSourceCache nodeId = some (fallback args nodeId))
    (hrequests : s'.requests = (s.request nodeId).requests)
    (hschema : ∀ schema, s'.schemaCache nodeId = some schema ↔ normalise (fallback args nodeId) = .ok schema) :
    InProgress args s' nodeId forSchema := by
  have hearly : ∀ b, Early s' nodeId b ↔ Early (s.request nodeId) nodeId b := fun b => by
    rw [Early, hrequests, Early]
  refine ⟨fun source hcached => ?_, fun schema hcached => ⟨(hschema schema).1 hcached, ?_⟩, fun b hb => ?_⟩
  · rw [hsource] at hcached
    exact (Option.some.inj hcached).symm
  · rw [hearly, early_request]
    exact .inl ⟨rfl, hframe⟩
  · rw [hearly, early_request] at hb
    refine ⟨?_, hsource, fun schema hnormal => (hschema schema).2 hnormal⟩
    rcases hb with ⟨-, hmem⟩ | hb
    · exact frame_unique hnodup hmem hframe
    · exact (h.early b hb).1

theorem Valid.request (h : Valid args s none) (hresolving : s.isResolving nodeId = false) :
    Valid args (s.request nodeId) none := by
  have hnot : ∀ b, ⟨nodeId, b⟩ ∉ s.resolving := by
    intro b hmem
    rw [Runtime.isResolving_iff.2 ⟨_, hmem, rfl⟩] at hresolving
    cases hresolving
  refine h.change (sameBut_request s nodeId) nofun h.nodup (fun b hmem => absurd hmem (hnot b)) fun _ _ => ?_
  refine (h.finished nodeId hresolving nofun).congr rfl rfl fun b => ?_
  rw [early_request]
  exact or_iff_right fun he => hnot b he.2

theorem Valid.cacheSource (h : Valid args s none) (hcache : s.schemaSourceCache nodeId = none)
    (hsource : s.isResolving nodeId → source = fallback args nodeId) :
    Valid args (s.cacheSource nodeId source) none := by
  refine h.change (sameBut_cacheSource s nodeId source) nofun h.nodup (fun b hmem => ?_) fun hresolving _ => ?_
  · have hin := h.inProgress _ hmem
    cases hsource (Runtime.isResolving_iff.2 ⟨_, hmem, rfl⟩)
    refine ⟨fun source hcached => ?_, hin.schema, fun b' hearly => ?_⟩
    · rw [Runtime.cacheSource_schemaSourceCache_self] at hcached
      exact (Option.some.inj hcached).symm
    · obtain ⟨hb, -, hschema⟩ := hin.early b' hearly
      exact ⟨hb, Runtime.cacheSource_schemaSourceCache_self, hschema⟩
  · exact ((h.finished nodeId hresolving nofun).inProgress hcache).finished_cacheSource

theorem Valid.early (hs : Valid args s none) (hresolving : s.isResolving nodeId) (hsame : SameBut nodeId s s')
    (hframes : s'.resolving = s.resolving) (hsource : s'.schemaSourceCache nodeId = some (fallback args nodeId))
    (hrequests : s'.requests = (s.request nodeId).requests)
    (hschema : ∀ schema, s'.schemaCache nodeId = some schema ↔ normalise (fallback args nodeId) = .ok schema) :
    Valid args s' none := by
  refine hs.change hsame nofun (hframes ▸ hs.nodup) (fun b hmem => ?_) fun hnot => ?_
  · rw [hframes] at hmem
    exact (hs.inProgress _ hmem).request hs.nodup hmem hsource hrequests hschema
  · rw [Runtime.isResolving_congr hframes, hresolving] at hnot
    cases hnot

/-- What `resolveNodeSchema` keeps, given what the resolution of a source does. -/
theorem resolveNodeSchema_keeps (hs : Valid args s none)
    (hcircular : s.isResolving node.id → resolve true node (s.request node.id) =
      some (.ok (fallback args node.id), (s.request node.id).cacheSource node.id (fallback args node.id)))
    (hresolve : s.isResolving node.id = false → s.schemaCache node.id = none → ∀ result s',
      resolve true node (s.request node.id) = some (result, s') →
        s'.resolving = s.resolving ∧ After args node.id s' true result)
    (h : resolveNodeSchema resolve node s = some (result, s')) :
    s'.resolving = s.resolving ∧ Valid args s' none := by
  rw [resolveNodeSchema, Runtime.request_schemaCache] at h
  have hrequest := sameBut_request s node.id
  cases hresolving : s.isResolving node.id with
  | true =>
    rw [hcircular hresolving] at h
    cases hschema : s.schemaCache node.id with
    | some schema =>
      obtain ⟨frame, hframe, hid⟩ := Runtime.isResolving_iff.1 hresolving
      have hin := hs.inProgress frame hframe
      rw [hid] at hin
      obtain ⟨hnormal, hearly⟩ := hin.schema schema hschema
      rw [hschema] at h
      cases h
      refine ⟨rfl, hs.early hresolving hrequest rfl (hin.early _ hearly).2.1 rfl fun schema' => ?_⟩
      rw [Runtime.request_schemaCache, hschema, hnormal, Option.some.injEq, Except.ok.injEq]
    | none =>
      have hsource := hrequest.trans (sameBut_cacheSource _ node.id (fallback args node.id))
      simp only [hschema] at h
      cases hnormal : normalise (fallback args node.id) with
      | error error =>
        simp only [hnormal] at h
        cases h
        refine ⟨rfl, hs.early hresolving hsource rfl Runtime.cacheSource_schemaSourceCache_self rfl fun schema => ?_⟩
        rw [Runtime.cacheSource_schemaCache, Runtime.request_schemaCache, hschema, hnormal]
        exact ⟨by rintro ⟨⟩, by rintro ⟨⟩⟩
      | ok schema =>
        simp only [hnormal] at h
        cases h
        refine ⟨rfl, hs.early hresolving (hsource.trans (sameBut_cacheSchema _ node.id schema)) rfl
          Runtime.cacheSource_schemaSourceCache_self rfl fun schema' => ?_⟩
        rw [Runtime.cacheSchema_schemaCache_self, hnormal, Option.some.injEq, Except.ok.injEq]
  | false =>
    cases hschema : s.schemaCache node.id with
    | some schema =>
      simp only [hschema] at h
      cases h
      exact ⟨rfl, hs.request hresolving⟩
    | none =>
      simp only [hschema] at h
      cases hsource : resolve true node (s.request node.id) with
      | none => simp only [hsource] at h; cases h
      | some reply =>
        obtain ⟨source, t⟩ := reply
        obtain ⟨hframes, hafter⟩ := hresolve hresolving hschema source t hsource
        simp only [hsource] at h
        cases source with
        | error error =>
          cases h
          exact ⟨hframes, hafter⟩
        | ok source =>
          obtain ⟨hvalid, hpending⟩ := hafter
          have hnot : ∀ b, ⟨node.id, b⟩ ∉ t.resolving := by
            intro b hmem
            rw [← Runtime.isResolving_congr hframes, Runtime.isResolving_iff.2 ⟨_, hmem, rfl⟩] at hresolving
            cases hresolving
          have hexempt : ∀ other, some node.id = some other → other = node.id := fun _ he => (Option.some.inj he).symm
          cases hnormal : normalise source with
          | error error =>
            simp only [hnormal] at h
            cases h
            exact ⟨hframes, hvalid.change ⟨fun _ _ => .rfl, fun _ _ => rfl, fun _ _ => rfl, fun _ _ _ => .rfl⟩ hexempt
              hvalid.nodup (fun b hmem => absurd hmem (hnot b)) fun _ _ => hpending.finished hnormal⟩
          | ok schema =>
            simp only [hnormal] at h
            cases h
            exact ⟨hframes, hvalid.change (sameBut_cacheSchema t node.id schema) hexempt hvalid.nodup
              (fun b hmem => absurd hmem (hnot b)) fun _ _ => hpending.finished_cacheSchema hnormal⟩

theorem replies_keeps
    (hcircular : ∀ node (s : Runtime Zod), nodeById args node.id = some node → s.isResolving node.id →
      (∀ source, s.schemaSourceCache node.id = some source → source = fallback args node.id) →
      resolve true node s = some (.ok (fallback args node.id), s.cacheSource node.id (fallback args node.id)))
    (hresolve : ∀ forSchema node s result s', nodeById args node.id = some node → Valid args s none →
      s.resolving = frames → (forSchema = true → s.isResolving node.id = false ∧ s.schemaCache node.id = none) →
      resolve forSchema node s = some (result, s') →
        s'.resolving = frames ∧ After args node.id s' forSchema result)
    (question : SchemaQuestion) (s : Runtime Zod) (a : SchemaAnswer Zod question) (s' : Runtime Zod)
    (hs : s.resolving = frames ∧ Valid args s none) (h : replies args resolve question s = some (a, s')) :
    s'.resolving = frames ∧ Valid args s' none := by
  obtain ⟨hframes, hs⟩ := hs
  cases question with
  | resolveNodeSchema nodeId =>
    rw [replies, resolveNodeSchemaById] at h
    cases hnode : nodeById args nodeId with
    | none =>
      rw [hnode] at h
      cases h
      exact ⟨hframes, hs⟩
    | some node =>
      rw [hnode] at h
      have hself := nodeById_self hnode
      rw [← hframes]
      refine resolveNodeSchema_keeps hs (fun hresolving => ?_) (fun hresolving hschema result t ht => ?_) h
      · refine hcircular node _ hself hresolving fun source hcached => ?_
        obtain ⟨frame, hframe, hid⟩ := Runtime.isResolving_iff.1 hresolving
        have hin := hs.inProgress frame hframe
        rw [hid] at hin
        exact hin.source source hcached
      · rw [hframes]
        exact hresolve true node _ result t hself (hs.request hresolving) hframes (fun _ => ⟨hresolving, hschema⟩) ht
  | resolveNodeSchemaSource nodeId =>
    rw [replies, resolveNodeSchemaSourceById] at h
    cases hnode : nodeById args nodeId with
    | none =>
      rw [hnode] at h
      cases h
      exact ⟨hframes, hs⟩
    | some node =>
      rw [hnode] at h
      obtain ⟨hframes', hafter⟩ := hresolve false node s _ s' (nodeById_self hnode) hs hframes (by rintro ⟨⟩) h
      exact ⟨hframes', hafter⟩

theorem Valid.exempting (h : Valid args s none) (exempt : Option String) : Valid args s exempt :=
  ⟨h.nodup, h.inProgress, fun nodeId hresolving _ => h.finished nodeId hresolving nofun⟩

theorem Valid.after (hs : Valid args s none) (hcache : s.schemaSourceCache nodeId = some source)
    (h : forSchema = true → s.isResolving nodeId = false ∧ s.schemaCache nodeId = none) :
    After args nodeId s forSchema (.ok source) := by
  cases forSchema with
  | false => exact hs
  | true =>
    obtain ⟨hresolving, hschema⟩ := h rfl
    refine ⟨hs.exempting _, hcache, fun schema hcached => ?_, fun b schema hearly hfallback => ?_⟩
    · rw [hschema] at hcached
      cases hcached
    · obtain ⟨source', -, hcached⟩ := (hs.finished nodeId hresolving nofun).early b hearly
      rw [hschema] at hcached
      rcases hcached schema hfallback with hcached | ⟨-, schema', -, hcached⟩ <;> cases hcached

theorem Valid.finish {t : Runtime Zod} (hs : Valid args s none) (hstart : t.isResolving nodeId = false)
    (hframes : s.resolving = ⟨nodeId, forSchema⟩ :: t.resolving)
    (h : Runtime.finish nodeId (resolved, s) = (result, s')) :
    s'.resolving = t.resolving ∧ After args nodeId s' forSchema result := by
  have hnodup : (t.resolving.map Frame.nodeId).Nodup := by
    have hnodup := hs.nodup
    rw [hframes, map_cons] at hnodup
    exact hnodup.of_cons
  have hnot : ∀ b, ⟨nodeId, b⟩ ∉ t.resolving := by
    intro b hmem
    rw [Runtime.isResolving_iff.2 ⟨_, hmem, rfl⟩] at hstart
    cases hstart
  have hin : InProgress args s nodeId forSchema := hs.inProgress _ (hframes ▸ mem_cons_self ..)
  cases resolved with
  | error error =>
    cases h
    have hleave := Runtime.leave_resolving hstart hframes
    have hvalid : Valid args (s.leave nodeId) none := by
      refine hs.change (sameBut_leave s nodeId) nofun (by rwa [hleave]) (fun b hmem => ?_) fun _ _ => ?_
      · rw [hleave] at hmem
        exact absurd hmem (hnot b)
      · exact hin.finished.congr rfl rfl fun _ => .rfl
    refine ⟨hleave, ?_⟩
    cases forSchema <;> exact hvalid
  | ok resolved =>
    cases h
    have hleave : ((s.cacheSource nodeId (some resolved)).leave nodeId).resolving = t.resolving :=
      Runtime.leave_resolving hstart hframes
    have hchange {exempt : Option String} (hfinished : exempt ≠ some nodeId →
        Finished args ((s.cacheSource nodeId (some resolved)).leave nodeId) nodeId) :
        Valid args ((s.cacheSource nodeId (some resolved)).leave nodeId) exempt := by
      refine hs.change ((sameBut_cacheSource s nodeId _).trans (sameBut_leave _ nodeId)) nofun (by rwa [hleave])
        (fun b hmem => ?_) fun _ => hfinished
      rw [hleave] at hmem
      exact absurd hmem (hnot b)
    refine ⟨hleave, ?_⟩
    cases forSchema with
    | false => exact hchange fun _ => hin.finished_cacheSource.congr rfl rfl fun _ => .rfl
    | true =>
      obtain ⟨hsource, hschema, hearly⟩ : Pending args _ nodeId (some resolved) := hin.pending_cacheSource
      exact ⟨hchange fun hne => absurd rfl hne, hsource, hschema, hearly⟩

theorem Given.keeps (h : Given args node s source s') (hs : Valid args s none)
    (hnode : nodeById args node.id = some node ∨ s.resolving = [])
    (hschema : forSchema = true → s.isResolving node.id = false ∧ s.schemaCache node.id = none) :
    After args node.id s' forSchema (.ok source) := by
  cases h with
  | cached hcache => exact hs.after hcache hschema
  | direct hcache hdirect =>
    refine (hs.cacheSource hcache fun hresolving => ?_).after Runtime.cacheSource_schemaSourceCache_self hschema
    refine hdirect.eq_fallback (hnode.resolve_right fun hframes => ?_) hresolving
    rw [Runtime.isResolving, hframes] at hresolving
    cases hresolving

theorem Valid.enter (hs : Valid args s none) (hcache : s.schemaSourceCache nodeId = none)
    (hresolving : s.isResolving nodeId = false) : Valid args (s.enter ⟨nodeId, forSchema⟩) none := by
  have hprogress (b : Bool) : InProgress args s nodeId b := (hs.finished nodeId hresolving nofun).inProgress hcache
  refine hs.change (sameBut_enter s nodeId forSchema) nofun ?_ (fun b _ => ?_) fun hnot _ => ?_
  · rw [Runtime.enter_resolving, map_cons, nodup_cons]
    refine ⟨fun hmem => ?_, hs.nodup⟩
    obtain ⟨frame, hframe, hid⟩ := mem_map.1 hmem
    rw [Runtime.isResolving_iff.2 ⟨frame, hframe, hid⟩] at hresolving
    cases hresolving
  · exact (hprogress b).congr rfl rfl fun _ => .rfl
  · have hin : (s.enter ⟨nodeId, forSchema⟩).isResolving nodeId :=
      Runtime.isResolving_iff.2 ⟨_, mem_cons_self .., rfl⟩
    rw [hin] at hnot
    cases hnot

theorem resolveNodeSchemaSource_keeps (hnode : nodeById args node.id = some node ∨ s.resolving = [])
    (hs : Valid args s none)
    (hschema : forSchema = true → s.isResolving node.id = false ∧ s.schemaCache node.id = none)
    (h : resolveNodeSchemaSource args fuel forSchema node s = some (result, s')) :
    s'.resolving = s.resolving ∧ After args node.id s' forSchema result := by
  induction fuel generalizing forSchema node s result s' with
  | zero =>
    cases start args node s with
    | given hgiven =>
      rw [resolveNodeSchemaSource_given hgiven] at h
      cases h
      exact ⟨hgiven.resolving, hgiven.keeps hs hnode hschema⟩
    | handled hcache hresolving hhandled =>
      rw [resolveNodeSchemaSource_zero hcache hresolving hhandled] at h
      cases h
  | succ fuel ih =>
    cases start args node s with
    | given hgiven =>
      rw [resolveNodeSchemaSource_given hgiven] at h
      cases h
      exact ⟨hgiven.resolving, hgiven.keeps hs hnode hschema⟩
    | handled hcache hresolving hhandled =>
      rw [resolveNodeSchemaSource_handled hcache hresolving hhandled] at h
      obtain ⟨⟨resolved, t⟩, hrun, hfinish⟩ := Option.map_eq_some_iff.1 h
      have hreplies : ∀ question (s₁ : Runtime Zod) a s₂,
          s₁.resolving = ⟨node.id, forSchema⟩ :: s.resolving ∧ Valid args s₁ none →
          replies args (resolveNodeSchemaSource args fuel) question s₁ = some (a, s₂) →
          s₂.resolving = ⟨node.id, forSchema⟩ :: s.resolving ∧ Valid args s₂ none := by
        refine replies_keeps (fun node s hself hresolving hsource => ?_)
          fun b node s result s' hself hs hframes hschema h => ?_
        · exact resolveNodeSchemaSource_circular hself hresolving hsource
        · rw [← hframes]
          exact ih (.inl hself) hs hschema h
      obtain ⟨⟨hframes, ht⟩, -⟩ := Dialogue.run_keeps
        (fun question _ s a s' hs h => (⟨hreplies question s a s' hs h, trivial⟩ : _ ∧ (fun _ _ => True) question a))
        ⟨rfl, hs.enter hcache hresolving⟩ hrun
      exact ht.finish hresolving hframes hfinish

theorem perform_keeps (hs : s.resolving = [] ∧ Valid args s none)
    (h : perform args fuel s call = some (answer, s')) : s'.resolving = [] ∧ Valid args s' none := by
  obtain ⟨hframes, hs⟩ := hs
  have hresolve : ∀ forSchema (node : Node) (s : Runtime Zod) result s', Valid args s none → s.resolving = [] →
      (forSchema = true → s.isResolving node.id = false ∧ s.schemaCache node.id = none) →
      resolveNodeSchemaSource args fuel forSchema node s = some (result, s') →
      s'.resolving = [] ∧ After args node.id s' forSchema result := by
    intro b node s result s' hs hframes hschema h
    rw [← hframes]
    exact resolveNodeSchemaSource_keeps (.inr hframes) hs hschema h
  have hreplies : ∀ question (a : SchemaAnswer Zod question),
      replies args (resolveNodeSchemaSource args fuel) question s = some (a, s') →
      s'.resolving = [] ∧ Valid args s' none := by
    refine fun question a h => replies_keeps (fun node s hself hresolving hsource => ?_)
      (fun b node s result s' _ => hresolve b node s result s') question s a s' ⟨hframes, hs⟩ h
    exact resolveNodeSchemaSource_circular hself hresolving hsource
  have hidle (id : String) : s.isResolving id = false := by rw [Runtime.isResolving, hframes]; rfl
  cases call with
  | resolveNodeSchema node =>
    obtain ⟨⟨result, t⟩, hcall, he⟩ := Option.map_eq_some_iff.1 h
    cases he
    rw [← hframes]
    refine resolveNodeSchema_keeps hs (fun hresolving => ?_) (fun hresolving hschema result t ht => ?_) hcall
    · rw [hidle] at hresolving
      cases hresolving
    · rw [hframes]
      exact hresolve true node _ result t (hs.request hresolving) hframes (fun _ => ⟨hresolving, hschema⟩) ht
  | resolveNodeSchemaById nodeId =>
    obtain ⟨⟨result, t⟩, hcall, he⟩ := Option.map_eq_some_iff.1 h
    cases he
    exact hreplies (.resolveNodeSchema nodeId) result hcall
  | resolveNodeSchemaSource node =>
    obtain ⟨⟨result, t⟩, hcall, he⟩ := Option.map_eq_some_iff.1 h
    cases he
    exact hresolve false node s result t hs hframes (by rintro ⟨⟩) hcall
  | resolveNodeSchemaSourceById nodeId =>
    obtain ⟨⟨result, t⟩, hcall, he⟩ := Option.map_eq_some_iff.1 h
    cases he
    exact hreplies (.resolveNodeSchemaSource nodeId) result hcall

theorem performAll_keeps (hs : s.resolving = [] ∧ Valid args s none)
    (h : performAll args fuel calls s = some (answers, s')) : s'.resolving = [] ∧ Valid args s' none := by
  induction calls generalizing s answers with
  | nil =>
    cases h
    exact hs
  | cons call calls ih =>
    rw [performAll] at h
    cases hcall : perform args fuel s call with
    | none => rw [hcall] at h; cases h
    | some reply =>
      rw [hcall] at h
      obtain ⟨⟨rest, t⟩, hcalls, he⟩ := Option.map_eq_some_iff.1 h
      cases he
      exact ih (perform_keeps hs hcall) hcalls

theorem valid_empty : Valid args {} none where
  nodup := nodup_nil
  inProgress := forall_mem_nil _
  finished _ _ _ := ⟨nofun, fun _ ⟨_, hrequest, _⟩ => absurd hrequest (not_mem_nil)⟩

/-- `resolveNodeSchema` of a node, and `resolveNodeSchemaSource` after it: if both return, the one gives the
normalisation of the other. -/
def Consistent (args : CreateNodeRuntimeArgs Zod) (fuel : Nat) (s : Runtime Zod) (node : Node) : Prop :=
  ∀ schema s₁ source s₂, perform args fuel s (.resolveNodeSchema node) = some (.schema (.ok schema), s₁) →
    perform args fuel s₁ (.resolveNodeSchemaSource node) = some (.source (.ok source), s₂) →
    normalise source = .ok schema

/-- An early request does no harm if the fallback has the schema of the source that came in the end, or if
`resolveNodeSchema` waited for that source and could convert it. -/
def Harmless (args : CreateNodeRuntimeArgs Zod) (s : Runtime Zod) (nodeId : String) (forSchema : Bool) : Prop :=
  ∀ schema, normalise (fallback args nodeId) = .ok schema → ∃ source, s.schemaSourceCache nodeId = some source ∧
    (normalise source = .ok schema ∨ forSchema = true ∧ ∃ schema', normalise source = .ok schema')

theorem perform_resolveNodeSchema_cached (h : s.schemaCache node.id = some schema) :
    perform args fuel s (.resolveNodeSchema node) = some (.schema (.ok schema), s.request node.id) := by
  have hcache : (s.request node.id).schemaCache node.id = some schema := h
  simp only [perform, resolveNodeSchema, hcache]
  rfl

theorem perform_resolveNodeSchemaSource_cached (h : s.schemaSourceCache node.id = some source) :
    perform args fuel s (.resolveNodeSchemaSource node) = some (.source (.ok source), s) := by
  rw [perform, resolveNodeSchemaSource_given (.cached h)]
  rfl

theorem consistent_iff (hs : Valid args s none) (hframes : s.resolving = []) :
    Consistent args fuel s node ↔ ∀ forSchema, Early s node.id forSchema → Harmless args s node.id forSchema := by
  have hresolving : s.isResolving node.id = false := by rw [Runtime.isResolving, hframes]; rfl
  have hfinished := hs.finished node.id hresolving (by rintro ⟨⟩)
  constructor
  · intro h b hearly schema hfallback
    obtain ⟨source, hsource, hschema⟩ := hfinished.early b hearly
    refine ⟨source, hsource, ?_⟩
    rcases hschema schema hfallback with hschema | ⟨hb, schema', hnormal, -⟩
    · have hsource' : (s.request node.id).schemaSourceCache node.id = some source := hsource
      exact .inl (h _ _ _ _ (perform_resolveNodeSchema_cached hschema)
        (perform_resolveNodeSchemaSource_cached hsource'))
    · exact .inr ⟨hb, schema', hnormal⟩
  · intro h schema s₁ source s₂ h₁ h₂
    cases hschema : s.schemaCache node.id with
    | some cached =>
      obtain ⟨resolved, hsource, hcached⟩ := hfinished.schema cached hschema
      rw [perform_resolveNodeSchema_cached hschema] at h₁
      cases h₁
      have hsource' : (s.request node.id).schemaSourceCache node.id = some resolved := hsource
      rw [perform_resolveNodeSchemaSource_cached hsource'] at h₂
      cases h₂
      rcases hcached with hnormal | ⟨hfallback, b, hearly, hwaited⟩
      · exact hnormal
      · obtain ⟨source', hsource', hor⟩ := h b hearly _ hfallback
        cases hsource.symm.trans hsource'
        rcases hor with hnormal | ⟨hb, schema', hnormal⟩
        · exact hnormal
        · exact absurd hnormal (hwaited hb schema')
    | none =>
      obtain ⟨⟨result, t⟩, hcall, he⟩ := Option.map_eq_some_iff.1 h₁
      cases he
      rw [resolveNodeSchema] at hcall
      simp only [Runtime.request_schemaCache, hschema] at hcall
      cases hresolve : resolveNodeSchemaSource args fuel true node (s.request node.id) with
      | none => simp only [hresolve] at hcall; cases hcall
      | some reply =>
        obtain ⟨resolved, t⟩ := reply
        have hidle : (s.request node.id).resolving = [] := hframes
        obtain ⟨-, hafter⟩ := resolveNodeSchemaSource_keeps (.inr hidle) (hs.request hresolving)
          (fun _ => ⟨hresolving, hschema⟩) hresolve
        simp only [hresolve] at hcall
        cases resolved with
        | error error => cases hcall
        | ok resolved =>
          cases hnormal : normalise resolved with
          | error error => simp only [hnormal] at hcall; cases hcall
          | ok schema' =>
            simp only [hnormal] at hcall
            cases hcall
            have hsource : (t.cacheSchema node.id schema).schemaSourceCache node.id = some resolved := hafter.2.source
            rw [id_eq, perform_resolveNodeSchemaSource_cached hsource] at h₂
            cases h₂
            exact hnormal

end

end Trakrai.NodeRuntime
