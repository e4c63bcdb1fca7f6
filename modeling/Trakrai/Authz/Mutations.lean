import Trakrai.Authz.Slices

namespace Trakrai.Authz
open List Lib Backend

@[simp] theorem exec_query (f : World → α) (w : World) : (query f).exec w = (.ok (f w), w) :=
  Prog.exec_atomic _ _

theorem exec_clientWrite (w : World) (h : ∀ t ∈ writes, isAllowed t):
    (clientWrite deletes writes).exec w =
      (.ok (), { w with tuples := writeTuples w.tuples deletes writes }) := by
  simp only [clientWrite, statement, Prog.exec_atomic, all_eq_true.2 h, if_true]

def parentTuples (o : AuthzObject) (w : World) : List TupleKey :=
  (w.tuples.filter (·.object == o)).filter (·.relation == .parent)

theorem mem_parentTuples :
    t ∈ parentTuples o w ↔ ∃ q, ⟨o, .parent, q⟩ ∈ w.tuples ∧ t = ⟨o, .parent, q⟩ := by
  simp only [parentTuples, mem_filter, beq_iff_eq]
  constructor
  · rintro ⟨⟨ht, rfl⟩, hr⟩
    obtain ⟨o, r, q⟩ := t
    cases hr
    exact ⟨q, ht, rfl⟩
  · rintro ⟨q, ht, rfl⟩
    exact ⟨⟨ht, rfl⟩, rfl⟩

section
variable {o p : AuthzObject} {existing deletes writes : List TupleKey}

theorem parentChanges_none (he : ∀ t ∈ existing, ∃ q, t = ⟨o, .parent, q⟩)
    (h : parentChanges ⟨o, .parent, p⟩ ⟨p, .child, o⟩ existing = none) :
    ∀ q, ⟨o, .parent, q⟩ ∈ existing ↔ q = p := by
  unfold parentChanges at h
  simp only at h
  split at h
  · rename_i hc
    simp only [Bool.and_eq_true, List.isEmpty_iff, filter_eq_nil_iff, any_eq_true,
      beq_iff_eq, Bool.or_eq_true, bne_iff_ne, not_or, not_not] at hc
    obtain ⟨⟨⟨hd, _⟩, t, ht, hu⟩, _⟩ := hc
    intro q
    constructor
    · exact fun hq => (hd _ hq).1
    · rintro rfl
      obtain ⟨q', rfl⟩ := he t ht
      cases hu
      exact ht
  · cases h

theorem parentChanges_some (he : ∀ t ∈ existing, ∃ q, t = ⟨o, .parent, q⟩)
    (h : parentChanges ⟨o, .parent, p⟩ ⟨p, .child, o⟩ existing = some (deletes, writes)) :
    (∀ t, t ∈ deletes ↔ ∃ q, q ≠ p ∧ ⟨o, .parent, q⟩ ∈ existing ∧
      (t = ⟨o, .parent, q⟩ ∨ t = ⟨q, .child, o⟩)) ∧
    (∀ t, t ∈ writes ↔ ⟨o, .parent, p⟩ ∉ existing ∧
      (t = ⟨o, .parent, p⟩ ∨ t = ⟨p, .child, o⟩)) := by
  have hany (f : TupleKey → Bool) :
      existing.any f ↔ ∃ q, ⟨o, .parent, q⟩ ∈ existing ∧ f ⟨o, .parent, q⟩ := by
    rw [any_eq_true]
    constructor
    · rintro ⟨t, ht, hf⟩
      obtain ⟨q, rfl⟩ := he t ht
      exact ⟨q, ht, hf⟩
    · rintro ⟨q, ht, hf⟩
      exact ⟨_, ht, hf⟩
  unfold parentChanges at h
  simp only at h
  split at h
  · cases h
  · cases h
    constructor
    · intro t
      simp only [mem_append, mem_filter, mem_map, Bool.or_eq_true, bne_iff_ne]
      constructor
      · rintro (⟨ht, hne⟩ | ⟨⟨s, hs, rfl⟩, hne⟩)
        · obtain ⟨q, rfl⟩ := he t ht
          exact ⟨q, by simpa using hne, ht, .inl rfl⟩
        · obtain ⟨q, rfl⟩ := he s hs
          exact ⟨q, by simpa using hne, hs, .inr rfl⟩
      · rintro ⟨q, hne, hq, rfl | rfl⟩
        · exact .inl ⟨hq, .inl hne⟩
        · exact .inr ⟨⟨_, hq, rfl⟩, .inl hne⟩
    · intro t
      have hparent : existing.any (fun t => t.user == p) ↔ ⟨o, .parent, p⟩ ∈ existing := by
        rw [hany]
        simp only [beq_iff_eq]
        exact ⟨fun ⟨q, hq, hp⟩ => hp ▸ hq, fun hq => ⟨p, hq, rfl⟩⟩
      have hchild : (existing.map fun t => (⟨t.user, .child, o⟩ : TupleKey)).any
          (fun t => t.object == p && t.user == o) ↔ ⟨o, .parent, p⟩ ∈ existing := by
        rw [any_map, hany]
        simp only [Function.comp, beq_self_eq_true, Bool.and_true, beq_iff_eq]
        exact ⟨fun ⟨q, hq, hp⟩ => hp ▸ hq, fun hq => ⟨p, hq, rfl⟩⟩
      simp only [hparent, hchild, mem_append]
      by_cases hmem : ⟨o, .parent, p⟩ ∈ existing
      · simp [hmem]
      · simp [hmem]

theorem isLink_iff : isLink o t ↔ ∃ q, t = ⟨o, .parent, q⟩ ∨ t = ⟨q, .child, o⟩ := by
  obtain ⟨o', r, u⟩ := t
  simp only [isLink, Bool.or_eq_true, Bool.and_eq_true, beq_iff_eq, Tuple.mk.injEq]
  constructor
  · rintro (⟨rfl, rfl⟩ | ⟨rfl, rfl⟩)
    · exact ⟨u, .inl ⟨rfl, rfl, rfl⟩⟩
    · exact ⟨o', .inr ⟨rfl, rfl, rfl⟩⟩
  · rintro ⟨q, ⟨rfl, rfl, _⟩ | ⟨_, rfl, rfl⟩⟩
    · exact .inl ⟨rfl, rfl⟩
    · exact .inr ⟨rfl, rfl⟩

/-- Parent and child tuples of `o` mirror each other. -/
def Mirrored (o : AuthzObject) (w : World) : Prop :=
  ∀ q, ⟨o, .parent, q⟩ ∈ w.tuples ↔ ⟨q, .child, o⟩ ∈ w.tuples

theorem Fine.mirrored (h : Fine strict o w) : Mirrored o w := by
  intro q
  rw [h.links _ (isLink_iff.2 ⟨q, .inl rfl⟩), h.links _ (isLink_iff.2 ⟨q, .inr rfl⟩)]
  simp

end

theorem setObjectParentRelation_eq (objectType : AuthzType) (objectId : String)
    (parentType : AuthzType) (parentId : String) :
    setObjectParentRelation objectType objectId parentType parentId =
      (query (parentTuples ⟨objectType, objectId⟩) >>= fun existing =>
        match parentChanges ⟨⟨objectType, objectId⟩, .parent, ⟨parentType, parentId⟩⟩
          ⟨⟨parentType, parentId⟩, .child, ⟨objectType, objectId⟩⟩ existing with
        | none => pure ()
        | some (deletes, writes) => clientWrite deletes writes) := rfl

/-- Afterwards `o` has the expected parent and nothing else has changed. -/
theorem exec_setObjectParentRelation
    (ha : isAllowed ⟨⟨objectType, objectId⟩, .parent, ⟨parentType, parentId⟩⟩)
    (ha' : isAllowed ⟨⟨parentType, parentId⟩, .child, ⟨objectType, objectId⟩⟩)
    (hm : Mirrored ⟨objectType, objectId⟩ w) :
    ∃ tuples, (setObjectParentRelation objectType objectId parentType parentId).exec w =
        (.ok (), { w with tuples := tuples }) ∧
      ∀ t, t ∈ tuples ↔ t ∈ w.tuples ∧ ¬ isLink ⟨objectType, objectId⟩ t ∨
        t = ⟨⟨objectType, objectId⟩, .parent, ⟨parentType, parentId⟩⟩ ∨
        t = ⟨⟨parentType, parentId⟩, .child, ⟨objectType, objectId⟩⟩ := by
  generalize ho : (⟨objectType, objectId⟩ : AuthzObject) = o at *
  generalize hp : (⟨parentType, parentId⟩ : AuthzObject) = p at *
  have hold (t : TupleKey) (ht : t ∈ parentTuples o w) : ∃ q, t = ⟨o, .parent, q⟩ := by
    obtain ⟨q, _, he⟩ := mem_parentTuples.1 ht
    exact ⟨q, he⟩
  have hread (q : AuthzObject) : ⟨o, .parent, q⟩ ∈ parentTuples o w ↔
      ⟨o, .parent, q⟩ ∈ w.tuples := by
    rw [mem_parentTuples]
    simp
  rw [setObjectParentRelation_eq, Prog.exec_bind, exec_query, ho, hp]
  simp only
  cases hc : parentChanges ⟨o, .parent, p⟩ ⟨p, .child, o⟩ (parentTuples o w) with
  | none =>
    have hlinks := parentChanges_none hold hc
    refine ⟨w.tuples, rfl, fun t => ?_⟩
    by_cases hl : isLink o t
    · simp only [hl, not_true, and_false, false_or]
      obtain ⟨q, rfl | rfl⟩ := isLink_iff.1 hl
      · rw [← hread, hlinks]
        simp
      · rw [← hm q, ← hread, hlinks]
        simp
    · simp only [hl, Bool.false_eq_true, not_false_iff, and_true]
      refine ⟨.inl, ?_⟩
      rintro (ht | rfl | rfl)
      · exact ht
      · exact (hl (isLink_iff.2 ⟨p, .inl rfl⟩)).elim
      · exact (hl (isLink_iff.2 ⟨p, .inr rfl⟩)).elim
  | some changes =>
    obtain ⟨deletes, writes⟩ := changes
    obtain ⟨hdel, hwr⟩ := parentChanges_some hold hc
    refine ⟨writeTuples w.tuples deletes writes, exec_clientWrite w ?_, fun t => ?_⟩
    · intro t ht
      rcases ((hwr t).1 ht).2 with rfl | rfl
      · exact ha
      · exact ha'
    · simp only [mem_writeTuples, hdel, hwr, hread]
      by_cases hl : isLink o t
      · simp only [hl, not_true, and_false, false_or]
        obtain ⟨q, rfl | rfl⟩ := isLink_iff.1 hl
        · by_cases hq : q = p
          · subst hq
            by_cases hin : ⟨o, .parent, q⟩ ∈ w.tuples <;> simp [hin]
          · by_cases hin : ⟨o, .parent, q⟩ ∈ w.tuples <;> simp [hin, hq]
        · rw [← hm q]
          by_cases hq : q = p
          · subst hq
            by_cases hin : ⟨o, .parent, q⟩ ∈ w.tuples <;> simp [hin]
          · by_cases hin : ⟨o, .parent, q⟩ ∈ w.tuples <;> simp [hin, hq]
      · have hne (q : AuthzObject) : t ≠ ⟨o, .parent, q⟩ ∧ t ≠ ⟨q, .child, o⟩ :=
          ⟨fun he => hl (isLink_iff.2 ⟨q, .inl he⟩), fun he => hl (isLink_iff.2 ⟨q, .inr he⟩)⟩
        simp [hl, (hne _).1, (hne _).2]

theorem owned_parent (ho : o ∈ F) (q : AuthzObject) : Owned F ⟨o, .parent, q⟩ :=
  owned_iff.2 ⟨ho, fun _ => ho⟩

theorem owned_child (ho : o ∈ F) (hq : q.type = .device → q ∈ F): Owned F ⟨q, .child, o⟩ :=
  owned_iff.2 ⟨ho, hq⟩

theorem SameAt.filter_eq (h : SameAt o w w') (hp : ∀ t, p t → touches o t): w'.tuples.filter p = w.tuples.filter p := by
  have hsub (tuples : List TupleKey) : tuples.filter p = (tuples.filter (touches o)).filter p := by
    rw [filter_filter]
    apply filter_congr
    intro t _
    cases hpt : p t with
    | false => rfl
    | true => simp [hp t hpt]
  rw [hsub, hsub w.tuples, h.tuples]

theorem SameAt.parentTuples_eq (h : SameAt o w w') : parentTuples o w' = parentTuples o w := by
  simp only [parentTuples, filter_filter]
  apply h.filter_eq
  intro t ht
  simp only [Bool.and_eq_true, beq_iff_eq] at ht
  exact touches_of_isLink (by simp [isLink, ht.1, ht.2])

theorem local_setObjectParentRelation (hw : Consistent w)
    (ho : ⟨objectType, objectId⟩ ∈ F) (hdev : objectType ≠ .deviceComponent)
    (hpar : parentType ≠ .device) :
    slicing.Local loose F (setObjectParentRelation objectType objectId parentType parentId) w := by
  rw [setObjectParentRelation_eq]
  refine Slicing.Local.bind (local_query ?_) hw ?_
  · intro _ t ht _
    exact (ht.1 _ ho).parentTuples_eq
  · intro existing t hex _
    rw [exec_query] at hex
    cases hex
    have hold (t : TupleKey) (ht : t ∈ parentTuples ⟨objectType, objectId⟩ w) :
        ∃ q, t = ⟨⟨objectType, objectId⟩, .parent, q⟩ := by
      obtain ⟨q, _, he⟩ := mem_parentTuples.1 ht
      exact ⟨q, he⟩
    split
    · trivial
    · rename_i deletes writes hc
      obtain ⟨hdel, hwr⟩ := parentChanges_some hold hc
      apply local_clientWrite
      · intro t ht
        obtain ⟨q, _, hq, rfl | rfl⟩ := (hdel t).1 ht
        · exact owned_parent ho q
        · refine owned_child ho fun hqd => ?_
          obtain ⟨q', hmem, he⟩ := mem_parentTuples.1 hq
          cases he
          rcases parentType_cases _ _ (hw.allowed _ hmem) with ⟨_, ht⟩ | ⟨_, ht⟩ | ⟨ht, _⟩
          · cases ht.symm.trans hqd
          · cases ht.symm.trans hqd
          · exact (hdev ht).elim
      · intro t ht
        rcases ((hwr t).1 ht).2 with rfl | rfl
        · exact owned_parent ho _
        · exact owned_child ho fun hpd => (hpar hpd).elim
      · intro t ht
        rcases ((hwr t).1 ht).2 with rfl | rfl
        · exact .inl rfl
        · exact .inr rfl

/-- The deletes of `deleteObjectAuthzRelations` for the tuples that it found. -/
def objectDeletes (o : AuthzObject) (existing : List TupleKey) : List TupleKey :=
  existing ++ (existing.filter (·.relation == .parent)).map fun t => ⟨t.user, .child, o⟩

theorem mem_objectDeletes {o : AuthzObject} {w : World} :
    t ∈ objectDeletes o (w.tuples.filter (·.object == o)) ↔
      t ∈ w.tuples ∧ t.object = o ∨ ∃ q, ⟨o, .parent, q⟩ ∈ w.tuples ∧ t = ⟨q, .child, o⟩ := by
  rw [objectDeletes, mem_append, mem_filter, beq_iff_eq, mem_map]
  apply or_congr_right
  constructor
  · rintro ⟨s, hs, rfl⟩
    obtain ⟨q, hq, rfl⟩ := mem_parentTuples.1 hs
    exact ⟨q, hq, rfl⟩
  · rintro ⟨q, hq, rfl⟩
    exact ⟨_, mem_parentTuples.2 ⟨q, hq, rfl⟩, rfl⟩

theorem deleteObjectAuthzRelations_eq (objectType : AuthzType) (objectId : String) :
    deleteObjectAuthzRelations objectType objectId =
      (readTuplesForObject ⟨objectType, objectId⟩ >>= fun existing =>
        if existing.isEmpty then pure ()
        else clientWrite (objectDeletes ⟨objectType, objectId⟩ existing) []) := rfl

/-- Afterwards nothing is left on `o`, nor the tuple that makes it a child. -/
theorem exec_deleteObjectAuthzRelations (hm : Mirrored ⟨objectType, objectId⟩ w):
    ∃ tuples, (deleteObjectAuthzRelations objectType objectId).exec w =
        (.ok (), { w with tuples := tuples }) ∧
      ∀ t, t ∈ tuples ↔ t ∈ w.tuples ∧ t.object ≠ ⟨objectType, objectId⟩ ∧
        ¬ isLink ⟨objectType, objectId⟩ t := by
  generalize ho : (⟨objectType, objectId⟩ : AuthzObject) = o at *
  rw [deleteObjectAuthzRelations_eq, readTuplesForObject, Prog.exec_bind, exec_query, ho]
  simp only
  by_cases he : (w.tuples.filter (·.object == o)).isEmpty
  · rw [if_pos he]
    simp only [List.isEmpty_iff, filter_eq_nil_iff, beq_iff_eq] at he
    refine ⟨w.tuples, rfl, fun t => ⟨fun ht => ⟨ht, he t ht, ?_⟩, fun ht => ht.1⟩⟩
    rw [isLink_iff]
    rintro ⟨q, rfl | rfl⟩
    · exact he _ ht rfl
    · exact he _ ((hm q).2 ht) rfl
  · rw [if_neg he]
    refine ⟨_, exec_clientWrite w (by simp), fun t => ?_⟩
    rw [mem_writeTuples, mem_objectDeletes, isLink_iff]
    simp only [not_mem_nil, or_false]
    constructor
    · rintro ⟨ht, hn⟩
      rw [not_or] at hn
      refine ⟨ht, fun hobj => hn.1 ⟨ht, hobj⟩, ?_⟩
      rintro ⟨q, rfl | rfl⟩
      · exact hn.1 ⟨ht, rfl⟩
      · exact hn.2 ⟨q, (hm q).2 ht, rfl⟩
    · rintro ⟨ht, hobj, hlink⟩
      refine ⟨ht, ?_⟩
      rintro (⟨_, hc⟩ | ⟨q, _, rfl⟩)
      · exact hobj hc
      · exact hlink ⟨q, .inr rfl⟩

theorem directTypes_component_child : directTypes .deviceComponent .child = [] := rfl

theorem SameAt.objectTuples_eq (h : SameAt o w w') (hw : Consistent w)
    (hw' : Consistent w') (ho : o.type = .device ∨ o.type = .deviceComponent) :
    w'.tuples.filter (·.object == o) = w.tuples.filter (·.object == o) := by
  rcases ho with ho | ho
  · apply h.filter_eq
    intro t ht
    simp [touches, ho, beq_iff_eq.1 ht]
  · have hrel {v : World} (hv : Consistent v) : v.tuples.filter (·.object == o) =
        v.tuples.filter fun t => t.object == o && t.relation != .child := by
      apply filter_congr
      intro t ht
      cases hobj : t.object == o with
      | false => rfl
      | true =>
        have ha := hv.allowed t ht
        have hne : t.relation ≠ .child := by
          intro hr
          rw [isAllowed, beq_iff_eq.1 hobj, ho, hr, directTypes_component_child] at ha
          cases ha
        simpa using hne
    rw [hrel hw, hrel hw']
    apply h.filter_eq
    intro t ht
    simp only [Bool.and_eq_true, beq_iff_eq, bne_iff_ne] at ht
    simp [touches, tupleTarget, ht.1, ht.2]

theorem local_deleteObjectAuthzRelations (hw : Consistent w) (ho : ⟨objectType, objectId⟩ ∈ F)
    (htype : objectType = .device ∨ objectType = .deviceComponent)
    (hown : ∀ t ∈ w.tuples, t.object = ⟨objectType, objectId⟩ → Owned F t)
    (hpar : ∀ q, ⟨⟨objectType, objectId⟩, .parent, q⟩ ∈ w.tuples → q.type = .device → q ∈ F) :
    slicing.Local loose F (deleteObjectAuthzRelations objectType objectId) w := by
  rw [deleteObjectAuthzRelations_eq]
  refine Slicing.Local.bind (local_query ?_) hw ?_
  · intro _ t ht hinv
    exact (ht.1 _ ho).objectTuples_eq hw hinv htype
  · intro existing t hex _
    rw [readTuplesForObject, exec_query] at hex
    cases hex
    split
    · trivial
    · apply local_clientWrite
      · intro t ht
        rcases mem_objectDeletes.1 ht with ⟨ht, hobj⟩ | ⟨q, hq, rfl⟩
        · exact hown t ht hobj
        · exact owned_child ho (hpar q hq)
      · simp
      · simp

theorem exec_forEach_cons (value : α) (values : List α) (body : α → Task Unit) (w : World) :
    (forEach (value :: values) body).exec w = match (body value).exec w with
      | (.ok _, w') => (forEach values body).exec w'
      | (.error e, w') => (.error e, w') := by
  rw [show forEach (value :: values) body = (body value >>= fun _ => forEach values body) from rfl,
    Prog.exec_bind]
  rcases (body value).exec w with ⟨_ | _, _⟩ <;> rfl

theorem flatten_chunkArray (hs : 0 < size) (values : List α) (hf : values.length ≤ fuel): (chunkArray size fuel values).flatten = values := by
  induction fuel generalizing values with
  | zero => rw [length_eq_zero_iff.1 (Nat.le_zero.1 hf)]; rfl
  | succ fuel ih =>
    cases values with
    | nil => rfl
    | cons v values =>
      rw [chunkArray, flatten_cons, ih, take_append_drop]
      · rw [length_drop]
        simp only [length_cons] at hf ⊢
        omega
      · exact cons_ne_nil _ _

theorem exec_forEach_write (chunks : List (List TupleKey)) (w : World)
    (ha : ∀ chunk ∈ chunks, ∀ t ∈ chunk, isAllowed t) :
    ∃ tuples, (forEach chunks fun writes => clientWrite [] writes).exec w =
        (.ok (), { w with tuples := tuples }) ∧
      ∀ t, t ∈ tuples ↔ t ∈ w.tuples ∨ t ∈ chunks.flatten := by
  induction chunks generalizing w with
  | nil => exact ⟨w.tuples, rfl, by simp⟩
  | cons chunk chunks ih =>
    obtain ⟨tuples, hexec, hmem⟩ := ih { w with tuples := writeTuples w.tuples [] chunk }
      fun c hc => ha c (mem_cons_of_mem _ hc)
    refine ⟨tuples, ?_, fun t => ?_⟩
    · rw [exec_forEach_cons, exec_clientWrite w (ha chunk (mem_cons_self ..))]
      exact hexec
    · rw [hmem, mem_writeTuples, flatten_cons, mem_append]
      simp [or_assoc]

theorem exec_writeAuthzTuples (keys : List TupleKey) (w : World) (ha : ∀ t ∈ keys, isAllowed t) :
    ∃ tuples, (writeAuthzTuples keys).exec w = (.ok (), { w with tuples := tuples }) ∧
      ∀ t, t ∈ tuples ↔ t ∈ w.tuples ∨ t ∈ keys := by
  have hflat : (chunkArray maxTuplesPerWrite keys.length keys).flatten = keys :=
    flatten_chunkArray (by decide) keys le_rfl
  have hchunk (chunk) (hc : chunk ∈ chunkArray maxTuplesPerWrite keys.length keys) (t) (ht : t ∈ chunk) :
      t ∈ keys := by
    rw [← hflat]
    exact mem_flatten.2 ⟨chunk, hc, ht⟩
  obtain ⟨tuples, hexec, hmem⟩ := exec_forEach_write _ w
    fun chunk hc t ht => ha t (hchunk chunk hc t ht)
  exact ⟨tuples, hexec, fun t => by rw [hmem, hflat]⟩

theorem local_forEach (P : World → Prop) (hw : Consistent w) (hP : P w)
    (h : ∀ v ∈ values, ∀ w, Consistent w → P w → slicing.Local false F (body v) w)
    (hbody : ∀ v w, P w → P ((body v).exec w).2) :
    slicing.Local false F (forEach values body) w := by
  induction values generalizing w with
  | nil => trivial
  | cons v values ih =>
    refine Slicing.Local.bind (h v (mem_cons_self ..) w hw hP) hw ?_
    intro _ w' hexec hw'
    have hP' := hbody v w hP
    rw [hexec] at hP'
    exact ih hw' hP' fun v hv => h v (mem_cons_of_mem _ hv)

theorem local_writeAuthzTuples {keys} (hw : Consistent w) (hown : ∀ t ∈ keys, Owned F t)
    (hr : ∀ t ∈ keys, t.relation = .parent ∨ t.relation = .child) :
    slicing.Local false F (writeAuthzTuples keys) w := by
  have hflat : (chunkArray maxTuplesPerWrite keys.length keys).flatten = keys :=
    flatten_chunkArray (by decide) keys le_rfl
  apply local_forEach (fun _ => True) hw trivial _ fun _ _ _ => trivial
  intro chunk hc w' _ _
  have hchunk (t) (ht : t ∈ chunk) : t ∈ keys := hflat ▸ mem_flatten.2 ⟨chunk, hc, ht⟩
  exact local_clientWrite (by simp) (fun t ht => hown t (hchunk t ht))
    (fun t ht => hr t (hchunk t ht))

end Trakrai.Authz
