import Trakrai.NodeRuntime.Resolution

namespace Trakrai.NodeRuntime
open Lib
open Workflow (Node Edge)

/-- The source that a node of the graph gets while its own handler is running. -/
def fallback (args : CreateNodeRuntimeArgs Zod) (nodeId : String) : Option (ResolvedNodeSchemaSource Zod) :=
  (nodeById args nodeId).bind fun node => node.type.bind fun nodeType =>
    (args.nodeSchemas nodeType).map getStaticSchemaSource

/-- The schema of a node was asked for while its own handler was running. -/
def Early (s : Runtime Zod) (nodeId : String) (forSchema : Bool) : Prop :=
  ∃ request ∈ s.requests, request.nodeId = nodeId ∧ ⟨nodeId, forSchema⟩ ∈ request.resolving

theorem early_request : Early (s.request other) nodeId forSchema ↔
    nodeId = other ∧ ⟨nodeId, forSchema⟩ ∈ s.resolving ∨ Early s nodeId forSchema := by
  constructor
  · rintro ⟨request, hrequest, hid, hmem⟩
    rcases List.mem_cons.1 hrequest with rfl | hrequest
    · exact .inl ⟨hid.symm, hmem⟩
    · exact .inr ⟨request, hrequest, hid, hmem⟩
  · rintro (⟨rfl, hmem⟩ | ⟨request, hrequest, hid, hmem⟩)
    · exact ⟨_, List.mem_cons_self .., rfl, hmem⟩
    · exact ⟨request, List.mem_cons_of_mem _ hrequest, hid, hmem⟩

section
variable [ZodTypes Zod] {args : CreateNodeRuntimeArgs Zod} {node : Node} {s s' : Runtime Zod} {nodeId : String}
  {exempt : Option String}

/-- The caches at a node whose handler is running: what they have comes from the fallback. -/
structure InProgress (args : CreateNodeRuntimeArgs Zod) (s : Runtime Zod) (nodeId : String) (forSchema : Bool) :
    Prop where
  source : ∀ source, s.schemaSourceCache nodeId = some source → source = fallback args nodeId
  schema : ∀ schema, s.schemaCache nodeId = some schema →
    normalise (fallback args nodeId) = .ok schema ∧ Early s nodeId forSchema
  early : ∀ forSchema', Early s nodeId forSchema' → forSchema' = forSchema ∧
    s.schemaSourceCache nodeId = some (fallback args nodeId) ∧
    ∀ schema, normalise (fallback args nodeId) = .ok schema → s.schemaCache nodeId = some schema

/-- The caches at another node. Its schema is that of its source, but for one that was asked for early. -/
structure Finished (args : CreateNodeRuntimeArgs Zod) (s : Runtime Zod) (nodeId : String) : Prop where
  schema : ∀ schema, s.schemaCache nodeId = some schema → ∃ source, s.schemaSourceCache nodeId = some source ∧
    (normalise source = .ok schema ∨ normalise (fallback args nodeId) = .ok schema ∧
      ∃ forSchema, Early s nodeId forSchema ∧ (forSchema = true → ∀ schema', normalise source ≠ .ok schema'))
  early : ∀ forSchema, Early s nodeId forSchema → ∃ source, s.schemaSourceCache nodeId = some source ∧
    ∀ schema, normalise (fallback args nodeId) = .ok schema → s.schemaCache nodeId = some schema ∨
      forSchema = true ∧ ∃ schema', normalise source = .ok schema' ∧ s.schemaCache nodeId = some schema'

/-- The caches at a node whose source has come, but not yet the schema for which it was asked. -/
structure Pending (args : CreateNodeRuntimeArgs Zod) (s : Runtime Zod) (nodeId : String)
    (source : Option (ResolvedNodeSchemaSource Zod)) : Prop where
  source : s.schemaSourceCache nodeId = some source
  schema : ∀ schema, s.schemaCache nodeId = some schema →
    normalise (fallback args nodeId) = .ok schema ∧ Early s nodeId true
  early : ∀ forSchema schema, Early s nodeId forSchema → normalise (fallback args nodeId) = .ok schema →
    forSchema = true ∧ s.schemaCache nodeId = some schema

structure Valid (args : CreateNodeRuntimeArgs Zod) (s : Runtime Zod) (exempt : Option String) : Prop where
  nodup : (s.resolving.map Frame.nodeId).Nodup
  inProgress : ∀ frame ∈ s.resolving, InProgress args s frame.nodeId frame.forSchema
  finished : ∀ nodeId, s.isResolving nodeId = false → exempt ≠ some nodeId → Finished args s nodeId

def After (args : CreateNodeRuntimeArgs Zod) (nodeId : String) (s : Runtime Zod) :
    Bool → Except String (Option (ResolvedNodeSchemaSource Zod)) → Prop
  | true, .ok source => Valid args s (some nodeId) ∧ Pending args s nodeId source
  | _, _ => Valid args s none

variable {source : Option (ResolvedNodeSchemaSource Zod)} {schema : Option ResolvedNodeSchema}

theorem InProgress.congr (h : InProgress args s nodeId forSchema)
    (hsource : s'.schemaSourceCache nodeId = s.schemaSourceCache nodeId)
    (hschema : s'.schemaCache nodeId = s.schemaCache nodeId)
    (hearly : ∀ forSchema, Early s' nodeId forSchema ↔ Early s nodeId forSchema) :
    InProgress args s' nodeId forSchema := by
  obtain ⟨h₁, h₂, h₃⟩ := h
  constructor <;> simp only [hsource, hschema, hearly] <;> assumption

theorem Finished.congr (h : Finished args s nodeId)
    (hsource : s'.schemaSourceCache nodeId = s.schemaSourceCache nodeId)
    (hschema : s'.schemaCache nodeId = s.schemaCache nodeId)
    (hearly : ∀ forSchema, Early s' nodeId forSchema ↔ Early s nodeId forSchema) :
    Finished args s' nodeId := by
  obtain ⟨h₁, h₂⟩ := h
  constructor <;> simp only [hsource, hschema, hearly] <;> assumption

theorem Finished.inProgress (h : Finished args s nodeId) (hsource : s.schemaSourceCache nodeId = none) :
    InProgress args s nodeId forSchema where
  source source hcached := by
    rw [hsource] at hcached
    cases hcached
  schema schema hcached := by
    obtain ⟨source, hcached, _⟩ := h.schema schema hcached
    rw [hsource] at hcached
    cases hcached
  early b hearly := by
    obtain ⟨source, hcached, _⟩ := h.early b hearly
    rw [hsource] at hcached
    cases hcached

theorem InProgress.finished (h : InProgress args s nodeId forSchema) : Finished args s nodeId where
  schema schema hcached := by
    obtain ⟨hnormal, hearly⟩ := h.schema schema hcached
    exact ⟨_, (h.early _ hearly).2.1, .inl hnormal⟩
  early b hearly := by
    obtain ⟨-, hsource, hschema⟩ := h.early b hearly
    exact ⟨_, hsource, fun schema hnormal => .inl (hschema schema hnormal)⟩

theorem InProgress.finished_cacheSource (h : InProgress args s nodeId false) :
    Finished args (s.cacheSource nodeId source) nodeId where
  schema schema hcached := by
    obtain ⟨hnormal, hearly⟩ := h.schema schema hcached
    exact ⟨source, Runtime.cacheSource_schemaSourceCache_self, .inr ⟨hnormal, false, hearly, nofun⟩⟩
  early b hearly := by
    obtain ⟨-, -, hschema⟩ := h.early b hearly
    exact ⟨source, Runtime.cacheSource_schemaSourceCache_self, fun schema hnormal => .inl (hschema schema hnormal)⟩

theorem InProgress.pending_cacheSource (h : InProgress args s nodeId true) :
    Pending args (s.cacheSource nodeId source) nodeId source where
  source := Runtime.cacheSource_schemaSourceCache_self
  schema := h.schema
  early b schema hearly hnormal := by
    obtain ⟨hb, -, hschema⟩ := h.early b hearly
    exact ⟨hb, hschema schema hnormal⟩

theorem Pending.finished_cacheSchema (h : Pending args s nodeId source) (hnormal : normalise source = .ok schema) :
    Finished args (s.cacheSchema nodeId schema) nodeId where
  schema schema' hcached := by
    rw [Runtime.cacheSchema_schemaCache_self] at hcached
    cases hcached
    exact ⟨source, h.source, .inl hnormal⟩
  early b hearly := by
    refine ⟨source, h.source, fun schema' hfallback => .inr ?_⟩
    exact ⟨(h.early b schema' hearly hfallback).1, schema, hnormal, Runtime.cacheSchema_schemaCache_self⟩

theorem Pending.finished (h : Pending args s nodeId source) (hnormal : normalise source = .error error) :
    Finished args s nodeId where
  schema schema hcached := by
    obtain ⟨hfallback, hearly⟩ := h.schema schema hcached
    refine ⟨source, h.source, .inr ⟨hfallback, true, hearly, fun _ schema' hok => ?_⟩⟩
    rw [hnormal] at hok
    cases hok
  early b hearly :=
    ⟨source, h.source, fun schema hfallback => .inl (h.early b schema hearly hfallback).2⟩

/-- A step that changes nothing but what concerns one node. -/
structure SameBut (nodeId : String) (s s' : Runtime Zod) : Prop where
  frames : ∀ frame, frame.nodeId ≠ nodeId → (frame ∈ s'.resolving ↔ frame ∈ s.resolving)
  source : ∀ other, other ≠ nodeId → s'.schemaSourceCache other = s.schemaSourceCache other
  schema : ∀ other, other ≠ nodeId → s'.schemaCache other = s.schemaCache other
  early : ∀ other, other ≠ nodeId → ∀ forSchema, Early s' other forSchema ↔ Early s other forSchema

theorem Valid.change (h : Valid args s exempt) (hsame : SameBut nodeId s s')
    (hexempt : ∀ other, exempt = some other → other = nodeId) (hnodup : (s'.resolving.map Frame.nodeId).Nodup)
    (hprogress : ∀ forSchema, ⟨nodeId, forSchema⟩ ∈ s'.resolving → InProgress args s' nodeId forSchema)
    (hfinished : s'.isResolving nodeId = false → exempt' ≠ some nodeId → Finished args s' nodeId) :
    Valid args s' exempt' where
  nodup := hnodup
  inProgress frame hframe := by
    by_cases hid : frame.nodeId = nodeId
    · subst hid
      exact hprogress _ hframe
    · refine (h.inProgress frame ((hsame.frames frame hid).1 hframe)).congr ?_ ?_ ?_
      · exact hsame.source _ hid
      · exact hsame.schema _ hid
      · exact hsame.early _ hid
  finished other hresolving hother := by
    by_cases hid : other = nodeId
    · subst hid
      exact hfinished hresolving hother
    · have hbefore : s.isResolving other = false := by
        rw [← Bool.not_eq_true, Runtime.isResolving_iff] at hresolving ⊢
        rintro ⟨frame, hframe, rfl⟩
        exact hresolving ⟨frame, (hsame.frames frame hid).2 hframe, rfl⟩
      refine (h.finished other hbefore fun he => hid (hexempt other he)).congr ?_ ?_ ?_
      · exact hsame.source _ hid
      · exact hsame.schema _ hid
      · exact hsame.early _ hid

omit [ZodTypes Zod] in
theorem SameBut.trans (h : SameBut nodeId s s') (h' : SameBut nodeId s' s'') :
    SameBut nodeId s s'' where
  frames frame hid := (h'.frames frame hid).trans (h.frames frame hid)
  source other hid := (h'.source other hid).trans (h.source other hid)
  schema other hid := (h'.schema other hid).trans (h.schema other hid)
  early other hid b := (h'.early other hid b).trans (h.early other hid b)

omit [ZodTypes Zod] in
theorem sameBut_cacheSource (s : Runtime Zod) (nodeId : String) (source : Option (ResolvedNodeSchemaSource Zod)) :
    SameBut nodeId s (s.cacheSource nodeId source) where
  frames _ _ := .rfl
  source _ hid := Runtime.cacheSource_schemaSourceCache_ne hid
  schema _ _ := rfl
  early _ _ _ := .rfl

omit [ZodTypes Zod] in
theorem sameBut_cacheSchema (s : Runtime Zod) (nodeId : String) (schema : Option ResolvedNodeSchema) :
    SameBut nodeId s (s.cacheSchema nodeId schema) where
  frames _ _ := .rfl
  source _ _ := rfl
  schema _ hid := Runtime.cacheSchema_schemaCache_ne hid
  early _ _ _ := .rfl

omit [ZodTypes Zod] in
theorem sameBut_request (s : Runtime Zod) (nodeId : String) : SameBut nodeId s (s.request nodeId) where
  frames _ _ := .rfl
  source _ _ := rfl
  schema _ _ := rfl
  early other hid b := by
    rw [early_request]
    exact or_iff_right fun h => hid h.1

omit [ZodTypes Zod] in
theorem sameBut_enter (s : Runtime Zod) (nodeId : String) (forSchema : Bool) :
    SameBut nodeId s (s.enter ⟨nodeId, forSchema⟩) where
  frames frame hid := by
    rw [Runtime.enter_resolving, List.mem_cons]
    exact or_iff_right fun h => hid (congrArg Frame.nodeId h)
  source _ _ := rfl
  schema _ _ := rfl
  early _ _ _ := .rfl

omit [ZodTypes Zod] in
theorem sameBut_leave (s : Runtime Zod) (nodeId : String) : SameBut nodeId s (s.leave nodeId) where
  frames frame hid := by
    rw [Runtime.leave, List.mem_filter]
    simp [hid]
  source _ _ := rfl
  schema _ _ := rfl
  early _ _ _ := .rfl

end

end Trakrai.NodeRuntime
