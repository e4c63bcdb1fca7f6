import Mathlib.Data.Finset.Image
import Mathlib.Logic.Relation
import Trakrai.Authz.Model
import Trakrai.Lib.Userset

namespace Trakrai.Authz
open List Lib

section
variable {store : TupleKey → Prop} {o p user : AuthzObject} {relation : AuthzRelation}

/-- `o` is `p` or lies below it. -/
def Descendant (store : TupleKey → Prop) (o p : AuthzObject) : Prop :=
  Relation.ReflTransGen (fun o p => store ⟨o, .parent, p⟩) o p

theorem check_iff : check store user relation o ↔
    expand rewriteOf store (fun o r s => check store s r o) o relation user :=
  related_iff

def AuthzType.isContainer : AuthzType → Bool
  | .factory | .department | .device => true
  | .user | .deviceComponent => false

theorem parentType_cases (type parentType : AuthzType)
    (h : (directTypes type .parent).contains parentType) :
    type = .department ∧ parentType = .factory ∨ type = .device ∧ parentType = .department ∨
      type = .deviceComponent ∧ parentType = .device := by
  revert h
  cases type <;> cases parentType <;> decide

theorem Hierarchy.types (h : Hierarchy store) (hp : store ⟨o, .parent, p⟩) :
    o.type = .department ∧ p.type = .factory ∨ o.type = .device ∧ p.type = .department ∨
      o.type = .deviceComponent ∧ p.type = .device :=
  parentType_cases _ _ (h.allowed hp)

theorem Hierarchy.isContainer (h : Hierarchy store) (hp : store ⟨o, .parent, p⟩) :
    p.type.isContainer := by
  rcases h.types hp with ⟨_, ht⟩ | ⟨_, ht⟩ | ⟨_, ht⟩ <;> rw [ht] <;> rfl

theorem canRead_iff_viewer (h : o.type.isContainer) :
    check store user .canRead o ↔ check store user .viewer o := by
  obtain ⟨type, id⟩ := o
  cases type with
  | user | deviceComponent => cases h
  | factory | department | device => exact check_iff

theorem canRead_iff_reader (h : o.type = .deviceComponent) :
    check store user .canRead o ↔ check store user .reader o := by
  obtain ⟨type, id⟩ := o
  cases h
  exact check_iff

theorem canManageUsers_iff_admin (h : o.type.isContainer) :
    check store user .canManageUsers o ↔ check store user .admin o := by
  obtain ⟨type, id⟩ := o
  cases type with
  | user | deviceComponent => cases h
  | factory | department | device => exact check_iff

theorem viewer_of_admin (h : o.type.isContainer) (ha : check store user .admin o) :
    check store user .viewer o := by
  obtain ⟨type, id⟩ := o
  cases type with
  | user | deviceComponent => cases h
  | factory | department | device => exact check_iff.2 (Or.inr (.inl ha))

theorem canRead_of_canWrite (h : check store user .canWrite o) : check store user .canRead o := by
  obtain ⟨type, id⟩ := o
  cases type with
  | user | factory | department | device =>
    exact (check_iff.1 h).elim
  | deviceComponent =>
    have hw : check store user .writer ⟨.deviceComponent, id⟩ := check_iff.1 h
    exact (canRead_iff_reader rfl).2 (check_iff.2 (Or.inr (.inl hw)))

def ParentTypes (type parentType : AuthzType) : Prop :=
  type = .department ∧ parentType = .factory ∨ type = .device ∧ parentType = .department ∨
    type = .deviceComponent ∧ parentType = .device

theorem canRead_of_parent (ht : ParentTypes o.type p.type) (hp : store ⟨o, .parent, p⟩)
    (hr : check store user .canRead p) : check store user .canRead o := by
  obtain ⟨type, id⟩ := o
  obtain ⟨parentType, parentId⟩ := p
  rcases ht with ⟨ht, ht'⟩ | ⟨ht, ht'⟩ | ⟨ht, ht'⟩ <;> cases ht <;> cases ht' <;>
    have hv := (canRead_iff_viewer rfl).1 hr
  · exact (canRead_iff_viewer rfl).2 (check_iff.2 (.inr (Or.inr (.inl ⟨_, hp, hv⟩))))
  · exact (canRead_iff_viewer rfl).2 (check_iff.2 (.inr (Or.inr (.inl ⟨_, hp, hv⟩))))
  · exact (canRead_iff_reader rfl).2 (check_iff.2 (.inr (Or.inr (.inl ⟨_, hp, hv⟩))))

theorem canRead_child (h : Hierarchy store) (hp : store ⟨o, .parent, p⟩)
    (hr : check store user .canRead p) : check store user .canRead o :=
  canRead_of_parent (h.types hp) hp hr

theorem canRead_descendant (h : Hierarchy store) (hd : Descendant store o p)
    (hr : check store user .canRead p) : check store user .canRead o := by
  induction hd using Relation.ReflTransGen.head_induction_on with
  | refl => exact hr
  | head hp _ ih => exact canRead_child h hp ih

theorem canRead_of_canManageUsers (h : Hierarchy store)
    (hm : check store user .canManageUsers o) : check store user .canRead o := by
  by_cases hc : o.type.isContainer
  · exact (canRead_iff_viewer hc).2 (viewer_of_admin hc ((canManageUsers_iff_admin hc).1 hm))
  · obtain ⟨type, id⟩ := o
    cases type with
    | user =>
      exact (check_iff.1 hm).elim
    | factory | department | device => exact (hc rfl).elim
    | deviceComponent =>
      obtain ⟨p, hp, ha⟩ : ∃ p, store ⟨⟨.deviceComponent, id⟩, .parent, p⟩ ∧
        check store user .admin p := check_iff.1 hm
      have ht := h.isContainer hp
      exact canRead_child h hp ((canRead_iff_viewer ht).2 (viewer_of_admin ht ha))

theorem canNavigate_of_canRead (hr : check store user .canRead o) :
    check store user .canNavigate o := by
  obtain ⟨type, id⟩ := o
  cases type with
  | user =>
    exact (check_iff.1 hr).elim
  | factory | department | device => exact check_iff.2 (Or.inl hr)
  | deviceComponent => exact check_iff.2 hr

theorem canNavigate_of_child (ht : ParentTypes o.type p.type) (hc : store ⟨p, .child, o⟩)
    (hn : check store user .canNavigate o) : check store user .canNavigate p := by
  obtain ⟨type, id⟩ := p
  rcases ht with ⟨_, ht⟩ | ⟨_, ht⟩ | ⟨_, ht⟩ <;> cases ht <;>
    exact check_iff.2 (Or.inr (.inl ⟨o, hc, hn⟩))

theorem canNavigate_parent (h : Hierarchy store) (hp : store ⟨o, .parent, p⟩)
    (hn : check store user .canNavigate o) : check store user .canNavigate p :=
  canNavigate_of_child (h.types hp) ((h.mirrored o p).1 hp) hn

theorem canNavigate_ancestor (h : Hierarchy store) (hd : Descendant store o p)
    (hn : check store user .canNavigate o) : check store user .canNavigate p := by
  induction hd with
  | refl => exact hn
  | tail _ hp ih => exact canNavigate_parent h hp ih

/-- By induction on the derivation: navigation starts at something readable. -/
theorem canRead_below_of_canNavigate (h : Hierarchy store)
    (hn : check store user .canNavigate o) :
    ∃ d, Descendant store d o ∧ check store user .canRead d := by
  have hall : ∀ {o r s}, Related rewriteOf store o r s → r = .canNavigate →
      ∃ d, Descendant store d o ∧ check store s .canRead d := by
    intro o r s hrel
    refine hrel.induction (P := fun o r s => r = .canNavigate →
      ∃ d, Descendant store d o ∧ check store s .canRead d) ?_
    rintro ⟨type, id⟩ r s he rfl
    have hup {c : AuthzObject} (hc : store ⟨⟨type, id⟩, .child, c⟩)
        (hd : ∃ d, Descendant store d c ∧ check store s .canRead d) :
        ∃ d, Descendant store d ⟨type, id⟩ ∧ check store s .canRead d := by
      obtain ⟨d, hd, hr⟩ := hd
      exact ⟨d, hd.tail ((h.mirrored _ _).2 hc), hr⟩
    cases type with
    | user => exact he.elim
    | deviceComponent =>
      exact ⟨_, .refl, he.1⟩
    | factory | department | device =>
      rcases he with hr | ⟨c, hc, _, hd⟩ | hf
      · exact ⟨_, .refl, hr.1⟩
      · exact hup hc (hd rfl)
      · exact hf.elim
  exact hall hn rfl

/-- Writing implies reading; managing users implies reading everything below; reading
implies navigating everything above; and navigation always leads to something readable. -/
theorem authorization_laws (h : Hierarchy store) (user : AuthzObject) :
    (∀ o, check store user .canWrite o → check store user .canRead o) ∧
    (∀ o d, check store user .canManageUsers o → Descendant store d o →
      check store user .canRead d) ∧
    (∀ o p, check store user .canRead o → Descendant store o p → check store user .canNavigate p) ∧
    (∀ o, check store user .canNavigate o →
      ∃ d, Descendant store d o ∧ check store user .canRead d) := by
  refine ⟨fun o => canRead_of_canWrite, ?_, ?_, fun o => canRead_below_of_canNavigate h⟩
  · intro o d hm hd
    exact canRead_descendant h hd (canRead_of_canManageUsers h hm)
  · intro o p hr hd
    exact canNavigate_ancestor h hd (canNavigate_of_canRead hr)

end

def sampleTuples : List TupleKey :=
  [⟨⟨.department, "d"⟩, .parent, ⟨.factory, "f"⟩⟩, ⟨⟨.factory, "f"⟩, .child, ⟨.department, "d"⟩⟩,
   ⟨⟨.device, "v"⟩, .parent, ⟨.department, "d"⟩⟩, ⟨⟨.department, "d"⟩, .child, ⟨.device, "v"⟩⟩,
   ⟨⟨.deviceComponent, "c"⟩, .parent, ⟨.device, "v"⟩⟩,
   ⟨⟨.device, "v"⟩, .child, ⟨.deviceComponent, "c"⟩⟩,
   ⟨⟨.factory, "f"⟩, .admin, ⟨.user, "u"⟩⟩]

theorem hierarchy_sampleTuples : Hierarchy (· ∈ sampleTuples) where
  allowed := by decide
  mirrored := by
    intro o p
    simp only [sampleTuples, mem_cons, Tuple.mk.injEq, reduceCtorEq, not_mem_nil]
    grind
  parent_unique := by
    intro o p p' hp hp'
    simp only [sampleTuples, mem_cons, Tuple.mk.injEq, reduceCtorEq, not_mem_nil]
      at hp hp'
    grind

theorem admin_sampleTuples :
    check (· ∈ sampleTuples) (createAuthzUser "u") .canManageUsers ⟨.factory, "f"⟩ :=
  check_iff.2 (check_iff.2 (show (⟨⟨.factory, "f"⟩, .admin, createAuthzUser "u"⟩ : TupleKey) ∈
    sampleTuples by decide))

theorem authorization_laws_sample : Hierarchy (· ∈ sampleTuples) ∧
      check (· ∈ sampleTuples) ⟨.user, "u"⟩ .canRead ⟨.deviceComponent, "c"⟩ ∧
      check (· ∈ sampleTuples) ⟨.user, "u"⟩ .canNavigate ⟨.department, "d"⟩ := by
  have hdevice : Descendant (· ∈ sampleTuples) ⟨.deviceComponent, "c"⟩ ⟨.department, "d"⟩ :=
    .head (b := ⟨.device, "v"⟩) (by decide) (.single (by decide))
  obtain ⟨_, hmanage, hread, _⟩ := authorization_laws hierarchy_sampleTuples ⟨.user, "u"⟩
  have hc := hmanage _ _ admin_sampleTuples (hdevice.tail (by decide))
  exact ⟨hierarchy_sampleTuples, hc, hread _ _ hc hdevice⟩

section
variable {store store' : TupleKey → Prop} {o p user x : AuthzObject} {relation : AuthzRelation}

theorem arrows_cases (h : rewriteOf o relation = some rule) (ha : a ∈ rule.arrows):
    a = (.parent, .admin) ∨ a = (.parent, .viewer) ∨ a = (.child, .canNavigate) := by
  have hall : ∀ type relation, ∀ rule, rewriteOf ⟨type, o.id⟩ relation = some rule →
      ∀ a ∈ rule.arrows, a = (.parent, .admin) ∨ a = (.parent, .viewer) ∨ a = (.child, .canNavigate) := by
    intro type relation rule hrule
    cases type <;> cases relation <;> cases hrule <;> decide
  exact hall o.type relation rule h a ha

theorem exists_tuple_of_check (h : check store user relation o) : ∃ t, store t ∧ t.object = o :=
  Related.exists_tuple h

def linked (store : TupleKey → Prop) (o p : AuthzObject) (t : TupleKey) : Prop :=
  store t ∨ t = ⟨o, .parent, p⟩ ∨ t = ⟨p, .child, o⟩

/-- A new link gives nothing to a user who cannot read its parent nor navigate to its child. -/
theorem check_linked_iff (huser : user.type = .user) (ho : o.type ≠ .user)
    (hp : p.type.isContainer) (hr : ¬ check store user .canRead p)
    (hn : ¬ check store user .canNavigate o) :
    check (linked store o p) user relation x ↔ check store user relation x := by
  have hviewer : ¬ check store user .viewer p := fun hv => hr ((canRead_iff_viewer hp).2 hv)
  have hadmin : ¬ check store user .admin p := fun ha => hviewer (viewer_of_admin hp ha)
  have hne : user ≠ p := by
    rintro rfl
    rw [huser] at hp
    cases hp
  constructor
  · refine Related.of_more ?_ ?_
    · rintro x r (hs | he | he)
      · exact hs
      · exact (hne (Tuple.mk.inj he).2.2).elim
      · exact (ho ((Tuple.mk.inj he).2.2 ▸ huser)).elim
    · intro x r rule hrule a ha x'
      rcases arrows_cases hrule ha with rfl | rfl | rfl
      · rintro (hs | he | he)
        · exact .inl hs
        · exact .inr ((Tuple.mk.inj he).2.2 ▸ hadmin)
        · exact nomatch (Tuple.mk.inj he).2.1
      · rintro (hs | he | he)
        · exact .inl hs
        · exact .inr ((Tuple.mk.inj he).2.2 ▸ hviewer)
        · exact nomatch (Tuple.mk.inj he).2.1
      · rintro (hs | he | he)
        · exact .inl hs
        · exact nomatch (Tuple.mk.inj he).2.1
        · exact .inr ((Tuple.mk.inj he).2.2 ▸ hn)
  · exact Related.mono_store fun t => .inl

theorem exists_child_of_canNavigate (hp : p.type.isContainer) (hn : check store user .canNavigate p)
    (hr : ¬ check store user .canRead p) :
    ∃ c, store ⟨p, .child, c⟩ ∧ check store user .canNavigate c := by
  obtain ⟨type, id⟩ := p
  cases type with
  | user | deviceComponent => cases hp
  | factory | department | device =>
    rcases check_iff.1 hn with hr' | ⟨c, hc, hnc⟩ | hf
    · exact (hr hr').elim
    · exact ⟨c, hc, hnc⟩
    · exact hf.elim

theorem not_check_user (hx : x.type = .user) : ¬ check store user relation x := by
  intro h
  have he := related_iff.1 h
  have hnone : rewriteOf x relation = none := by rw [rewriteOf, hx]; rfl
  rw [expand, hnone] at he
  exact he

theorem check_of_own (h : ∀ t, t.user = user ∨ t.user.type ≠ .user → store t → store' t)
    (hc : check store user relation x) : check store' user relation x := by
  refine Related.of_more ?_ ?_ hc
  · exact fun o r => h _ (.inl rfl)
  · intro o r rule _ a _ o' hs
    by_cases ho : o'.type = .user
    · exact .inr (not_check_user ho)
    · exact .inl (h _ (.inr ho) hs)

/-- What a user may do depends on the roles of no other user. -/
theorem check_own_iff (h : ∀ t, t.user = user ∨ t.user.type ≠ .user → (store t ↔ store' t)) :
    check store user relation x ↔ check store' user relation x :=
  ⟨check_of_own fun t ht => (h t ht).1, check_of_own fun t ht => (h t ht).2⟩

end

/-- With a second administrator of the factory, the first one reads the device as before. -/
theorem check_own_iff_sample :
    (check (fun t => t ∈ sampleTuples ∨ t = ⟨⟨.factory, "f"⟩, .admin, createAuthzUser "new"⟩)
      (createAuthzUser "u") .canRead ⟨.device, "v"⟩ ↔
        check (· ∈ sampleTuples) (createAuthzUser "u") .canRead ⟨.device, "v"⟩) ∧
      check (· ∈ sampleTuples) (createAuthzUser "u") .canRead ⟨.device, "v"⟩ := by
  constructor
  case left =>
    apply check_own_iff
    rintro t ht
    refine or_iff_left ?_
    rintro rfl
    revert ht
    decide
  case right =>
    have hdevice : Descendant (· ∈ sampleTuples) ⟨.device, "v"⟩ ⟨.factory, "f"⟩ :=
      .head (b := ⟨.department, "d"⟩) (by decide) (.single (by decide))
    exact canRead_descendant hierarchy_sampleTuples hdevice
      (canRead_of_canManageUsers hierarchy_sampleTuples admin_sampleTuples)

def relationRank : AuthzType → AuthzRelation → Nat
  | .factory, .admin => 1
  | .factory, .viewer => 2
  | .department, .admin => 2
  | .department, .viewer => 3
  | .device, .admin => 3
  | .device, .viewer => 4
  | .deviceComponent, .writer => 1
  | .deviceComponent, .reader => 5
  | .deviceComponent, .canNavigate => 7
  | .device, .canNavigate => 8
  | .department, .canNavigate => 9
  | .factory, .canNavigate => 10
  | _, .canRead => 6
  | _, .canManageUsers => 4
  | _, .canWrite => 2
  | _, _ => 0

def maxDepth : Nat := 11

theorem relationRank_lt (type : AuthzType) (relation : AuthzRelation) :
    relationRank type relation < maxDepth := by
  cases type <;> cases relation <;> decide

def evaluateCheck (tuples : List TupleKey) (t : TupleKey) : Bool :=
  evaluate rewriteOf tuples t.user maxDepth t.object t.relation

def evaluateObjectIds (tuples : List TupleKey) (userId : String) (relation : AuthzRelation)
    (objectType : AuthzType) : Finset String :=
  ((tuples.filter fun t => t.object.type == objectType &&
    evaluateCheck tuples ⟨t.object, relation, createAuthzUser userId⟩).map (·.object.id)).toFinset

section
variable {tuples : List TupleKey} (hall : ∀ t ∈ tuples, isAllowed t)
include hall

theorem rewriteOf_rank (o : AuthzObject) (relation : AuthzRelation) (rule : Userset AuthzRelation)
    (h : rewriteOf o relation = some rule) : rule.All (· ∈ tuples)
      (fun o' relation' => relationRank o'.type relation' < relationRank o.type relation) o := by
  have htype {o o' : AuthzObject} {relation : AuthzRelation} (ht : ⟨o, relation, o'⟩ ∈ tuples) :
      o'.type ∈ directTypes o.type relation := by
    simpa [isAllowed] using hall _ ht
  have hlink (type : AuthzType) (id : String) (tupleset relation : AuthzRelation) (rank : Nat)
      (hr : ∀ type' ∈ directTypes type tupleset, relationRank type' relation < rank) :
      ∀ o', ⟨⟨type, id⟩, tupleset, o'⟩ ∈ tuples → relationRank o'.type relation < rank :=
    fun o' ht => hr o'.type (htype ht)
  obtain ⟨type, id⟩ := o
  cases type <;> cases relation <;> cases h <;>
    simp only [createDirectUserset, createComputedUserset, createParentUserset, createChildUserset,
      createUnionUserset, Userset.All, Userset.AllAny, relationRank, true_and, and_true,
      Nat.lt_add_one, Nat.reduceLT] <;>
    exact hlink _ id _ _ _ (by decide)

theorem evaluateCheck_iff (t : TupleKey) :
    evaluateCheck tuples t = true ↔ check (· ∈ tuples) t.user t.relation t.object :=
  evaluate_iff (fun o relation => relationRank o.type relation) (rewriteOf_rank hall)
    (relationRank_lt _ _)

theorem mem_evaluateObjectIds_iff (userId : String) (relation : AuthzRelation)
    (objectType : AuthzType) (objectId : String) :
    objectId ∈ evaluateObjectIds tuples userId relation objectType ↔
      check (· ∈ tuples) (createAuthzUser userId) relation ⟨objectType, objectId⟩ := by
  simp only [evaluateObjectIds, mem_toFinset, mem_map, mem_filter, Bool.and_eq_true, beq_iff_eq]
  constructor
  · rintro ⟨⟨⟨type, id⟩, r, u⟩, ⟨-, rfl, hc⟩, rfl⟩
    exact (evaluateCheck_iff hall _).1 hc
  · intro h
    obtain ⟨t, ht, hobject⟩ := Related.exists_tuple h
    refine ⟨t, ⟨ht, ?_, ?_⟩, ?_⟩
    · rw [hobject]
    · rw [hobject]
      exact (evaluateCheck_iff hall _).2 h
    · rw [hobject]

end

end Trakrai.Authz
