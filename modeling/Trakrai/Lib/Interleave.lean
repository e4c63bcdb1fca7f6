import Mathlib.Data.List.Basic
import Trakrai.Lib.Transition

namespace Trakrai.Lib
open List

/-- A request as a sequence of atomic steps on a shared state. How it goes on depends on
the state that a step finds. -/
inductive Prog (σ ε α : Type) where
  | ret (a : α)
  | fail (e : ε)
  | act (effect : σ → σ) (next : σ → Prog σ ε α)

namespace Prog

def bind : Prog σ ε α → (α → Prog σ ε β) → Prog σ ε β
  | .ret a, f => f a
  | .fail e, _ => .fail e
  | .act effect next, f => .act effect fun s => (next s).bind f

instance : Monad (Prog σ ε) where
  pure := .ret
  bind := .bind

def ofExcept : Except ε α → Prog σ ε α
  | .ok a => .ret a
  | .error e => .fail e

/-- A single step that returns a value or fails. -/
def atomic (f : σ → Except ε α × σ) : Prog σ ε α :=
  .act (fun s => (f s).2) fun s => ofExcept (f s).1

def isDone : Prog σ ε α → Bool
  | .act _ _ => false
  | _ => true

def exec : Prog σ ε α → σ → Except ε α × σ
  | .ret a, s => (.ok a, s)
  | .fail e, s => (.error e, s)
  | .act effect next, s => (next s).exec (effect s)

theorem exec_bind (p : Prog σ ε α) (f : α → Prog σ ε β) (s : σ) : (p >>= f).exec s =
      match p.exec s with
      | (.ok a, t) => (f a).exec t
      | (.error e, t) => (.error e, t) := by
  induction p generalizing s with
  | ret a => rfl
  | fail e => rfl
  | act effect next ih => exact ih s (effect s)

theorem bind_assoc (p : Prog σ ε α) (f : α → Prog σ ε β) (g : β → Prog σ ε γ) :
    (p >>= f >>= g) = (p >>= fun a => f a >>= g) := by
  induction p with
  | ret a => rfl
  | fail e => rfl
  | act effect next ih => exact congrArg (Prog.act effect) (funext ih)

theorem exec_map (f : α → β) (p : Prog σ ε α) (s : σ) :
    (f <$> p).exec s = ((p.exec s).1.map f, (p.exec s).2) := by
  induction p generalizing s with
  | ret a => rfl
  | fail e => rfl
  | act effect next ih => exact ih s (effect s)

theorem isDone_map (f : α → β) (p : Prog σ ε α) : (f <$> p).isDone = p.isDone := by
  cases p with
  | ret a => rfl
  | fail e => rfl
  | act effect next => rfl

@[simp] theorem exec_atomic (f : σ → Except ε α × σ) (s : σ) : (atomic f).exec s = f s := by
  simp only [atomic, exec]
  cases h : (f s).1 with
  | ok a => exact Prod.ext h.symm rfl
  | error e => exact Prod.ext h.symm rfl

theorem exec_of_isDone {p : Prog σ ε α} (h : p.isDone) (s : σ) : (p.exec s).2 = s := by
  cases p with
  | ret a => rfl
  | fail e => rfl
  | act effect next => cases h

/-- Run alone, the program leads from states with `I` to states with `I`. -/
def Preserves (I : σ → Prop) (p : Prog σ ε α) : Prop := ∀ s, I s → I (p.exec s).2

theorem Preserves.of_isDone {I : σ → Prop} {p : Prog σ ε α} (h : p.isDone) : Preserves I p := by
  intro s hs
  rwa [exec_of_isDone h]

theorem Preserves.bind (hp : Preserves I p) (hf : ∀ a, Preserves I (f a)): Preserves I (p >>= f) := by
  intro s hs
  have hps := hp s hs
  rw [exec_bind]
  generalize p.exec s = r at hps ⊢
  obtain ⟨result, t⟩ := r
  cases result with
  | error e => exact hps
  | ok a => exact hf a t hps

theorem Preserves.bind_done {I : σ → Prop} {p : Prog σ ε α} {q : α → Prog σ ε β}
    {k : α → β → Prog σ ε γ} (h : Preserves I (p >>= q)) (hk : ∀ a b, (k a b).isDone) :
    Preserves I (p >>= fun a => q a >>= k a) := by
  intro s hs
  have hpq := h s hs
  rw [exec_bind] at hpq ⊢
  generalize p.exec s = r at hpq ⊢
  obtain ⟨result, t⟩ := r
  cases result with
  | error e => exact hpq
  | ok a =>
    simp only [exec_bind] at hpq ⊢
    generalize (q a).exec t = r at hpq ⊢
    obtain ⟨result, u⟩ := r
    cases result with
    | error e => exact hpq
    | ok b => simpa only [exec_of_isDone (hk a b)] using hpq

theorem Preserves.ofExcept {I : σ → Prop} (x : Except ε α) :
    Preserves I (Prog.ofExcept x : Prog σ ε α) := by
  apply Preserves.of_isDone
  cases x with
  | ok a => rfl
  | error e => rfl

theorem Preserves.map (f : α → β) (hp : Preserves I p) : Preserves I (f <$> p) := by
  intro s hs
  rw [exec_map]
  exact hp s hs

end Prog

/-- A state seen at places of a type. `same` says that a place looks the same in two states,
`env` what every step respects, and `inv` what every state satisfies. -/
structure Slicing (ι σ : Type) where
  same : ι → σ → σ → Prop
  env : σ → σ → Prop
  inv : σ → Prop
  same_refl : ∀ i s, same i s s
  same_trans : ∀ {i s t u}, same i s t → same i t u → same i s u
  env_refl : ∀ s, env s s
  env_trans : ∀ {s t u}, env s t → env t u → env s u

namespace Slicing
variable {ι σ ε α ρ : Type} {sl : Slicing ι σ} {F : List ι} {post : σ → Prop}

/-- What the owner of some places may observe of the other requests. -/
def Rely (sl : Slicing ι σ) (F : List ι) (s t : σ) : Prop := (∀ i ∈ F, sl.same i s t) ∧ sl.env s t

/-- What the owner of some places may do. -/
def Guar (sl : Slicing ι σ) (F : List ι) (s t : σ) : Prop := (∀ i ∉ F, sl.same i s t) ∧ sl.env s t

theorem Rely.refl (s : σ) : sl.Rely F s s := ⟨fun i _ => sl.same_refl i s, sl.env_refl s⟩

theorem Rely.trans (h : sl.Rely F s t) (h' : sl.Rely F t u) : sl.Rely F s u :=
  ⟨fun i hi => sl.same_trans (h.1 i hi) (h'.1 i hi), sl.env_trans h.2 h'.2⟩

theorem Guar.refl (s : σ) : sl.Guar F s s := ⟨fun i _ => sl.same_refl i s, sl.env_refl s⟩

theorem Guar.trans (h : sl.Guar F s t) (h' : sl.Guar F t u) : sl.Guar F s u :=
  ⟨fun i hi => sl.same_trans (h.1 i hi) (h'.1 i hi), sl.env_trans h.2 h'.2⟩

theorem Guar.rely (h : sl.Guar F s t) (hd : F.Disjoint F') : sl.Rely F' s t :=
  ⟨fun i hi => h.1 i fun hF => hd hF hi, h.2⟩

/-- However the other requests interfere outside `F`, the request changes nothing else
and ends in a state with `post`. -/
def Safe (sl : Slicing ι σ) (F : List ι) (post : σ → Prop) : Prog σ ε α → σ → Prop
  | .ret _, s => post s
  | .fail _, s => post s
  | .act effect next, s => ∀ t, sl.Rely F s t → sl.inv t →
    sl.Guar F t (effect t) ∧ sl.inv (effect t) ∧ sl.Safe F post (next t) (effect t)

/-- Every step reads and writes only the places in `F`: interference elsewhere does not
change how the request goes on, except at its end if `loose`. -/
def Local (sl : Slicing ι σ) (loose : Bool) (F : List ι) : Prog σ ε α → σ → Prop
  | .ret _, _ => True
  | .fail _, _ => True
  | .act effect next, s =>
    (∀ t, sl.Rely F s t → sl.inv t → sl.Guar F t (effect t) ∧ sl.inv (effect t) ∧
      sl.Rely F (effect s) (effect t) ∧
      (next t = next s ∨ loose ∧ (next t).isDone ∧ (next s).isDone)) ∧
    sl.Local loose F (next s) (effect s)

/-- After its first step, which may depend on everything, the request is local, and run
without interference it ends with `post`. -/
def Isolated (sl : Slicing ι σ) (F : List ι) (post : σ → Prop) : Prog σ ε α → σ → Prop
  | .ret _, s => post s
  | .fail _, s => post s
  | .act effect next, s => sl.Guar F s (effect s) ∧ sl.inv (effect s) ∧
    sl.Local true F (next s) (effect s) ∧ post ((next s).exec (effect s)).2

theorem Safe.of_isDone (h : p.isDone) (hp : post s) : sl.Safe F post p s := by
  cases p with
  | ret a => exact hp
  | fail e => exact hp
  | act effect next => cases h

theorem Safe.post_of_isDone (h : p.isDone) (hs : sl.Safe F post p s) : post s := by
  cases p with
  | ret a => exact hs
  | fail e => exact hs
  | act effect next => cases h

theorem Safe.stable (hpost : ∀ {s t}, sl.Rely F s t → post s → post t)
    (h : sl.Safe F post p s) (hr : sl.Rely F s t) : sl.Safe F post p t := by
  cases p with
  | ret a => exact hpost hr h
  | fail e => exact hpost hr h
  | act effect next => exact fun u hu => h u (hr.trans hu)

theorem Local.of_isDone (h : p.isDone) : sl.Local loose F p s := by
  cases p with
  | ret a => trivial
  | fail e => trivial
  | act effect next => cases h

theorem Local.safe (hpost : ∀ {s t}, sl.Rely F s t → post s → post t)
    (h : sl.Local loose F p s) (hp : post (p.exec s).2) (hr : sl.Rely F s t) :
    sl.Safe F post p t := by
  induction p generalizing s t with
  | ret a => exact hpost hr hp
  | fail e => exact hpost hr hp
  | act effect next ih =>
    intro u hu hinv
    obtain ⟨hg, hi, hsame, hnext⟩ := h.1 u (hr.trans hu) hinv
    refine ⟨hg, hi, ?_⟩
    rcases hnext with he | ⟨_, hd, hd'⟩
    · rw [he]
      exact ih s h.2 hp hsame
    · apply Safe.of_isDone hd
      have hs : post (effect s) := by
        have := hp
        rwa [Prog.exec, Prog.exec_of_isDone hd'] at this
      exact hpost hsame hs

theorem Local.exec (h : sl.Local loose F p s) (hi : sl.inv s) :
    sl.Guar F s (p.exec s).2 ∧ sl.inv (p.exec s).2 := by
  induction p generalizing s with
  | ret a => exact ⟨Guar.refl s, hi⟩
  | fail e => exact ⟨Guar.refl s, hi⟩
  | act effect next ih =>
    obtain ⟨hg, hi', _⟩ := h.1 s (Rely.refl s) hi
    obtain ⟨hg', hi''⟩ := ih s h.2 hi'
    exact ⟨hg.trans hg', hi''⟩

theorem Local.bind (h : sl.Local false F p s) (hi : sl.inv s)
    (hf : ∀ {a t}, p.exec s = (.ok a, t) → sl.inv t → sl.Local loose F (f a) t) :
    sl.Local loose F (p >>= f) s := by
  induction p generalizing s with
  | ret a => exact hf rfl hi
  | fail e => trivial
  | act effect next ih =>
    refine ⟨fun t ht hinv => ?_, ?_⟩
    · obtain ⟨hg, hi', hsame, hnext⟩ := h.1 t ht hinv
      refine ⟨hg, hi', hsame, .inl ?_⟩
      rcases hnext with he | ⟨hc, _⟩
      · simp only [he]
      · cases hc
    · exact ih s h.2 (h.1 s (Rely.refl s) hi).2.1 hf

theorem Local.atomic {f : σ → Except ε α × σ}
    (h : ∀ t, sl.Rely F s t → sl.inv t → sl.Guar F t (f t).2 ∧ sl.inv (f t).2 ∧
      sl.Rely F (f s).2 (f t).2 ∧ (loose = false → (f t).1 = (f s).1)) :
    sl.Local loose F (Prog.atomic f) s := by
  have hdone (t : σ) : (Prog.ofExcept (f t).1 : Prog σ ε α).isDone := by
    cases (f t).1 <;> rfl
  refine ⟨fun t ht hinv => ?_, ?_⟩
  · obtain ⟨hg, hi, hsame, hres⟩ := h t ht hinv
    refine ⟨hg, hi, hsame, ?_⟩
    cases loose with
    | false => exact .inl (congrArg Prog.ofExcept (hres rfl))
    | true => exact .inr ⟨rfl, hdone t, hdone s⟩
  · exact Local.of_isDone (hdone s)

theorem Local.map (f : α → β) (h : sl.Local loose F p s) : sl.Local loose F (f <$> p) s := by
  induction p generalizing s with
  | ret a => trivial
  | fail e => trivial
  | act effect next ih =>
    refine ⟨fun t ht hinv => ?_, ih s h.2⟩
    obtain ⟨hg, hi, hsame, hnext⟩ := h.1 t ht hinv
    refine ⟨hg, hi, hsame, ?_⟩
    rcases hnext with he | ⟨hl, hd, hd'⟩
    · exact .inl (congrArg (f <$> ·) he)
    · exact .inr ⟨hl, (Prog.isDone_map f _).trans hd, (Prog.isDone_map f _).trans hd'⟩

theorem Local.atomic_bind_done {f : σ → Except ε α × σ} {k : α → Prog σ ε β}
    (h : ∀ t, sl.Rely F s t → sl.inv t → sl.Guar F t (f t).2 ∧ sl.inv (f t).2 ∧
      sl.Rely F (f s).2 (f t).2) (hk : ∀ a, (k a).isDone) :
    sl.Local true F (Prog.atomic f >>= k) s := by
  have hdone (t : σ) : ((Prog.ofExcept (f t).1 : Prog σ ε α) >>= k).isDone := by
    cases (f t).1 with
    | ok a => exact hk a
    | error e => rfl
  refine ⟨fun t ht hinv => ?_, Local.of_isDone (hdone s)⟩
  obtain ⟨hg, hi, hsame⟩ := h t ht hinv
  exact ⟨hg, hi, hsame, .inr ⟨rfl, hdone t, hdone s⟩⟩

theorem Isolated.map (f : α → β) (h : sl.Isolated F post p s) : sl.Isolated F post (f <$> p) s := by
  cases p with
  | ret a => exact h
  | fail e => exact h
  | act effect next =>
    obtain ⟨hg, hi, hl, hp⟩ := h
    refine ⟨hg, hi, hl.map f, ?_⟩
    rwa [← congrArg Prod.snd (Prog.exec_map f (next s) (effect s))] at hp

theorem Isolated.atomic_bind {f : σ → Except ε α × σ} {k : α → Prog σ ε β}
    (hg : sl.Guar F s (f s).2) (hi : sl.inv (f s).2)
    (hok : ∀ a, (f s).1 = .ok a → sl.Local true F (k a) (f s).2 ∧ post ((k a).exec (f s).2).2)
    (herr : ∀ e, (f s).1 = .error e → post (f s).2) :
    sl.Isolated F post (Prog.atomic f >>= k) s := by
  refine ⟨hg, hi, ?_⟩
  simp only
  cases hr : (f s).1 with
  | ok a => exact hok a hr
  | error e => exact ⟨trivial, herr e hr⟩

theorem Isolated.ofExcept_bind {x : Except ε α} {k : α → Prog σ ε β} (hp : post s)
    (hok : ∀ a, x = .ok a → sl.Isolated F post (k a) s) :
    sl.Isolated F post (Prog.ofExcept x >>= k) s := by
  cases x with
  | ok a => exact hok a rfl
  | error e => exact hp

theorem Isolated.exec (h : sl.Isolated F post p s) (hi : sl.inv s) :
    sl.Guar F s (p.exec s).2 ∧ sl.inv (p.exec s).2 ∧ post (p.exec s).2 := by
  cases p with
  | ret a => exact ⟨Guar.refl s, hi, h⟩
  | fail e => exact ⟨Guar.refl s, hi, h⟩
  | act effect next =>
    obtain ⟨hg, hi', hl, hp⟩ := h
    obtain ⟨hg', hi''⟩ := hl.exec hi'
    exact ⟨hg.trans hg', hi'', hp⟩

theorem Isolated.safe (hpost : ∀ {s t}, sl.Rely F s t → post s → post t)
    (hi : sl.inv s) (h : ∀ t, sl.Rely F s t → sl.inv t → sl.Isolated F post p t) :
    sl.Safe F post p s := by
  cases p with
  | ret a => exact h s (Rely.refl s) hi
  | fail e => exact h s (Rely.refl s) hi
  | act effect next =>
    intro t ht hinv
    obtain ⟨hg, hi', hl, hp⟩ := h t ht hinv
    exact ⟨hg, hi', hl.safe hpost hp (Rely.refl _)⟩

-- the rules above say all of it; unfolding it would run the program
attribute [irreducible] Isolated

end Slicing

/-- The requests in flight, each with the places that it owns. -/
structure Pool (ι σ ε α : Type) where
  state : σ
  active : List (List ι × Prog σ ε α)

inductive Event (ρ : Type) where
  | start (request : ρ)
  | step (n : Nat)

/-- A request starts when the guard allows it beside those in flight, and any request in
flight may take the next step. -/
def Pool.step (spawn : ρ → σ → List ι × Prog σ ε α) (guard : List (List ι) → List ι → Bool)
    (pool : Pool ι σ ε α) : Event ρ → Option (Pool ι σ ε α)
  | .start request =>
    let thread := spawn request pool.state
    if guard (pool.active.map Prod.fst) thread.1 then
      some ⟨pool.state, (pool.active ++ [thread]).filter fun t => !t.2.isDone⟩
    else none
  | .step n =>
    match pool.active[n]? with
    | some (F, .act effect next) =>
      some ⟨effect pool.state, (pool.active.set n (F, next pool.state)).filter fun t => !t.2.isDone⟩
    | _ => none

def poolSystem (spawn : ρ → σ → List ι × Prog σ ε α) (guard : List (List ι) → List ι → Bool)
    (init : σ → Prop) : System (Pool ι σ ε α) (Event ρ) where
  init pool := init pool.state ∧ pool.active = []
  step pool event pool' := pool.step spawn guard event = some pool'

def Pool.exec (spawn : ρ → σ → List ι × Prog σ ε α) (guard : List (List ι) → List ι → Bool)
    (pool : Pool ι σ ε α) : List (Event ρ) → Option (Pool ι σ ε α)
  | [] => some pool
  | event :: events =>
    match pool.step spawn guard event with
    | none => none
    | some pool' => pool'.exec spawn guard events

theorem Pool.run_of_exec {spawn : ρ → σ → List ι × Prog σ ε α}
    {guard : List (List ι) → List ι → Bool} (init : σ → Prop) {pool pool' : Pool ι σ ε α}
    {events : List (Event ρ)} (h : pool.exec spawn guard events = some pool') :
    ∃ tr, (poolSystem spawn guard init).Run pool tr pool' := by
  induction events generalizing pool with
  | nil =>
    cases h
    exact ⟨[], .nil _⟩
  | cons event events ih =>
    simp only [Pool.exec] at h
    split at h
    · cases h
    · rename_i pool₁ hs
      obtain ⟨tr, hr⟩ := ih h
      exact ⟨_, .cons hs hr⟩

def anyTime (_ : List (List ι)) (_ : List ι) : Bool := true

/-- The request owns nothing that a request in flight owns. -/
def apart [DecidableEq ι] (Fs : List (List ι)) (F : List ι) : Bool :=
  Fs.all fun F' => F'.all (· ∉ F)

theorem disjoint_of_apart [DecidableEq ι] {Fs : List (List ι)} {F F' : List ι} (h : apart Fs F)
    (hF : F' ∈ Fs) : F'.Disjoint F := by
  intro i hi
  have := all_eq_true.1 (all_eq_true.1 h F' hF) i hi
  simpa using this

section
variable {ι σ ε α ρ : Type} {sl : Slicing ι σ} {ok : ι → σ → Prop}

/-- The requests in flight own disjoint places and are safe, and all other places are fine. -/
structure PoolInv (sl : Slicing ι σ) (ok : ι → σ → Prop) (pool : Pool ι σ ε α) : Prop where
  inv : sl.inv pool.state
  running : ∀ t ∈ pool.active, ¬ t.2.isDone
  disjoint : (pool.active.map Prod.fst).Pairwise List.Disjoint
  safe : ∀ t ∈ pool.active, sl.Safe t.1 (fun s => ∀ i ∈ t.1, ok i s) t.2 pool.state
  rest : ∀ i, (∀ t ∈ pool.active, i ∉ t.1) → ok i pool.state

theorem PoolInv.start [DecidableEq ι] {spawn : ρ → σ → List ι × Prog σ ε α} {pool : Pool ι σ ε α}
    (h : PoolInv sl ok pool) {request : ρ}
    (hg : apart (pool.active.map Prod.fst) (spawn request pool.state).1)
    (hs : (∀ i ∈ (spawn request pool.state).1, ok i pool.state) →
      sl.Safe (spawn request pool.state).1
        (fun s => ∀ i ∈ (spawn request pool.state).1, ok i s) (spawn request pool.state).2
        pool.state) :
    PoolInv sl ok
      ⟨pool.state, (pool.active ++ [spawn request pool.state]).filter fun t => !t.2.isDone⟩ := by
  generalize hthread : spawn request pool.state = thread at hg hs ⊢
  have hok : ∀ i ∈ thread.1, ok i pool.state := by
    intro i hi
    apply h.rest
    intro t ht hit
    exact disjoint_of_apart hg (mem_map_of_mem ht) hit hi
  have hmem {t} (ht : t ∈ (pool.active ++ [thread]).filter fun t => !t.2.isDone) :
      (t ∈ pool.active ∨ t = thread) ∧ ¬ t.2.isDone := by
    rw [mem_filter, mem_append, mem_singleton, Bool.not_eq_true'] at ht
    exact ⟨ht.1, Bool.eq_false_iff.1 ht.2⟩
  refine { inv := h.inv, running := fun t ht => (hmem ht).2, disjoint := ?_, safe := ?_, rest := ?_ }
  · apply List.Pairwise.sublist (filter_sublist.map Prod.fst)
    rw [map_append, pairwise_append]
    refine ⟨h.disjoint, pairwise_singleton _ _, ?_⟩
    intro F hF F' hF'
    rw [map_singleton, mem_singleton] at hF'
    exact hF' ▸ disjoint_of_apart hg hF
  · intro t ht
    rcases (hmem ht).1 with ht | rfl
    · exact h.safe t ht
    · exact hs hok
  · intro i hi
    by_cases hit : i ∈ thread.1
    · exact hok i hit
    · apply h.rest
      intro t ht
      exact hi t (mem_filter.2 ⟨mem_append_left _ ht, by simpa using h.running t ht⟩)

theorem PoolInv.act {next} (h : PoolInv sl ok pool)
    (hstable : ∀ {i s t}, sl.same i s t → sl.env s t → ok i s → ok i t)
    (hn : pool.active[n]? = some (F, .act effect next)) :
    PoolInv sl ok ⟨effect pool.state,
      (pool.active.set n (F, next pool.state)).filter fun t => !t.2.isDone⟩ := by
  obtain ⟨hlt, hget⟩ := List.getElem?_eq_some_iff.1 hn
  have hown : (F, Prog.act effect next) ∈ pool.active := List.mem_of_getElem? hn
  obtain ⟨hg, hi, hsafe⟩ := h.safe _ hown pool.state (Slicing.Rely.refl _) h.inv
  have hother {m : Nat} (hm : m < pool.active.length) (hne : m ≠ n) :
      F.Disjoint pool.active[m].1 := by
    have hp := pairwise_iff_getElem.1 h.disjoint
    rcases Nat.lt_or_gt_of_ne hne with hlt' | hgt
    · have := hp m n (by simpa using hm) (by simpa using hlt) hlt'
      rw [getElem_map, getElem_map, hget] at this
      exact fun i hF hm => this hm hF
    · have := hp n m (by simpa using hlt) (by simpa using hm) hgt
      rw [getElem_map, getElem_map, hget] at this
      exact this
  have hcases {t} (ht : t ∈ pool.active.set n (F, next pool.state)) :
      t = (F, next pool.state) ∨ t ∈ pool.active ∧ F.Disjoint t.1 := by
    obtain ⟨m, hm, rfl⟩ := getElem_of_mem ht
    rw [length_set] at hm
    rw [getElem_set]
    split
    · exact .inl rfl
    · rename_i hne
      exact .inr ⟨getElem_mem hm, hother hm (Ne.symm hne)⟩
  refine { inv := hi, running := ?_, disjoint := ?_, safe := ?_, rest := ?_ }
  · intro t ht
    simpa using (mem_filter.1 ht).2
  · apply List.Pairwise.sublist (filter_sublist.map Prod.fst)
    rw [map_set]
    have hsame : (pool.active.map Prod.fst).set n F = pool.active.map Prod.fst := by
      have hlen : n < (pool.active.map Prod.fst).length := by simpa using hlt
      have := set_getElem_self hlen
      rwa [getElem_map, hget] at this
    rw [hsame]
    exact h.disjoint
  · intro t ht
    rcases hcases (mem_filter.1 ht).1 with rfl | ⟨ht, hd⟩
    · exact hsafe
    · apply (h.safe t ht).stable
      · exact fun hr hok i hi => hstable (hr.1 i hi) hr.2 (hok i hi)
      · exact hg.rely hd
  · intro i hrest
    by_cases hiF : i ∈ F
    · -- its owner has just finished
      have hdone : (next pool.state).isDone := by
        by_contra hnd
        refine hrest (F, next pool.state) (mem_filter.2 ⟨?_, by simpa using hnd⟩) hiF
        exact mem_set hlt _
      exact hsafe.post_of_isDone hdone i hiF
    · apply hstable (hg.1 i hiF) hg.2
      apply h.rest
      intro t ht hit
      obtain ⟨m, hm, rfl⟩ := getElem_of_mem ht
      by_cases hmn : m = n
      · subst m
        rw [hget] at hit
        exact hiF hit
      · refine hrest pool.active[m] (mem_filter.2 ⟨?_, ?_⟩) hit
        · have hlen : m < (pool.active.set n (F, next pool.state)).length := by
            rwa [length_set]
          have hm' := getElem_mem hlen
          rwa [getElem_set_ne (Ne.symm hmn)] at hm'
        · simpa using h.running _ ht

/-- The rule for requests that own what they touch. From a state where all places are fine,
every run of the pool keeps those fine that no request in flight owns. -/
theorem PoolInv.of_run [DecidableEq ι] {spawn : ρ → σ → List ι × Prog σ ε α} {init : σ → Prop}
    (hinit : ∀ {s}, init s → sl.inv s ∧ ∀ i, ok i s)
    (hstable : ∀ {i s t}, sl.same i s t → sl.env s t → ok i s → ok i t)
    (hspawn : ∀ {s request}, sl.inv s → (∀ i ∈ (spawn request s).1, ok i s) →
      sl.Safe (spawn request s).1 (fun t => ∀ i ∈ (spawn request s).1, ok i t)
        (spawn request s).2 s)
    {pool₀ pool : Pool ι σ ε α} {tr : List (Pool ι σ ε α × Event ρ)}
    (hi : (poolSystem spawn apart init).init pool₀)
    (hr : (poolSystem spawn apart init).Run pool₀ tr pool) : PoolInv sl ok pool := by
  refine hr.invariant ?_ ?_
  · intro s event t h hstep
    change s.step spawn apart event = some t at hstep
    cases event with
    | start request =>
      simp only [Pool.step] at hstep
      split at hstep
      · rename_i hg
        cases hstep
        exact h.start hg (hspawn h.inv)
      · cases hstep
    | step n =>
      simp only [Pool.step] at hstep
      split at hstep
      · rename_i F effect next hn
        cases hstep
        exact h.act hstable hn
      · cases hstep
  · obtain ⟨hstate, hactive⟩ := hi
    obtain ⟨hinv, hok⟩ := hinit hstate
    exact {
      inv := hinv
      running := by simp [hactive]
      disjoint := by simp [hactive]
      safe := by simp [hactive]
      rest := fun i _ => hok i }

end

end Trakrai.Lib
