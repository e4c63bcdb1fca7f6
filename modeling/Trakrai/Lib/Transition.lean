import Mathlib.Data.List.Basic

namespace Trakrai.Lib
open List

/-- A labelled transition system: its initial states and its atomic steps. -/
structure System (σ ℓ : Type) where
  init : σ → Prop
  step : σ → ℓ → σ → Prop

/-- A finite run. The trace lists every step as the state it was taken in and its label. -/
inductive System.Run (sys : System σ ℓ) : σ → List (σ × ℓ) → σ → Prop where
  | nil (s : σ) : sys.Run s [] s
  | cons : sys.step s a t → sys.Run t tr u → sys.Run s ((s, a) :: tr) u

def System.Reachable (sys : System σ ℓ) (s : σ) : Prop :=
  ∃ s₀ tr, sys.init s₀ ∧ sys.Run s₀ tr s

/-- The states a run goes through, in order and with its end. -/
def states (tr : List (σ × ℓ)) (s : σ) : List σ := tr.map Prod.fst ++ [s]

section
variable {sys : System σ ℓ}

theorem System.Run.append (h : sys.Run s tr t) (h' : sys.Run t tr' u) :
    sys.Run s (tr ++ tr') u := by
  induction h with
  | nil => exact h'
  | cons hs hr ih => exact .cons hs (ih h')

theorem System.Run.of_append (h : sys.Run s (tr ++ tr') u) :
    ∃ t, sys.Run s tr t ∧ sys.Run t tr' u := by
  induction tr generalizing s with
  | nil => exact ⟨s, .nil s, h⟩
  | cons p tr ih =>
    cases h with
    | cons hs hr =>
      obtain ⟨t, hr₁, hr₂⟩ := ih hr
      exact ⟨t, .cons hs hr₁, hr₂⟩

theorem System.Reachable.run (h : sys.Reachable s) (hr : sys.Run s tr t) : sys.Reachable t := by
  obtain ⟨s₀, tr₀, hi, hr₀⟩ := h
  exact ⟨s₀, tr₀ ++ tr, hi, hr₀.append hr⟩

theorem System.Run.trace_invariant {I : List (σ × ℓ) → σ → Prop}
    (hstep : ∀ {tr s a t}, I tr s → sys.step s a t → I (tr ++ [(s, a)]) t)
    (h : sys.Run s tr t) : ∀ {pre}, I pre s → I (pre ++ tr) t := by
  induction h with
  | nil => intro pre hI; simpa only [append_nil] using hI
  | cons hs hr ih =>
    intro pre hI
    simpa only [append_assoc, singleton_append] using ih (hstep hI hs)

theorem System.Run.invariant {I : σ → Prop}
    (hstep : ∀ {s a t}, I s → sys.step s a t → I t) (h : sys.Run s tr t) (hI : I s) : I t := by
  induction h with
  | nil => exact hI
  | cons hs hr ih => exact ih (hstep hI hs)

theorem System.Reachable.invariant {I : σ → Prop}
    (hinit : ∀ {s}, sys.init s → I s) (hstep : ∀ {s a t}, I s → sys.step s a t → I t)
    (h : sys.Reachable s) : I s := by
  obtain ⟨s₀, tr, hi, hr⟩ := h
  exact hr.invariant hstep (hinit hi)

theorem System.Run.mem_states (h : sys.Run s tr t) : s ∈ states tr t := by
  cases h with
  | nil => simp [states]
  | cons hs hr => simp [states]

theorem System.Run.forall_states {I : σ → Prop} (h : sys.Run s tr t) (hI : I s)
    (hstep : ∀ p ∈ tr, I p.1 → ∀ u, sys.step p.1 p.2 u → I u) : ∀ u ∈ states tr t, I u := by
  induction h with
  | nil s =>
    intro u hu
    simp only [states, map_nil, nil_append, mem_singleton] at hu
    subst u
    exact hI
  | @cons s a m tr u hs hr ih =>
    intro v hv
    rcases mem_cons.1 hv with rfl | hv
    · exact hI
    · have hm : I m := hstep (s, a) (mem_cons_self ..) hI m hs
      exact ih hm (fun p hp => hstep p (mem_cons_of_mem _ hp)) v hv

theorem mem_states_of_mem (h : p ∈ tr) : p.1 ∈ states tr t :=
  mem_append_left _ (mem_map_of_mem h)

theorem end_mem_states (tr : List (σ × ℓ)) (t : σ) : t ∈ states tr t :=
  mem_append_right _ (mem_singleton_self t)

theorem System.Run.exists_mem_states (h : sys.Run s tr t) (hp : p ∈ tr) :
    ∃ u, sys.step p.1 p.2 u ∧ u ∈ states tr t := by
  induction h with
  | nil => cases hp
  | @cons s a m tr u hs hr ih =>
    rcases mem_cons.1 hp with rfl | hp
    · exact ⟨m, hs, mem_cons_of_mem _ hr.mem_states⟩
    · obtain ⟨v, hstep, hv⟩ := ih hp
      exact ⟨v, hstep, mem_cons_of_mem _ hv⟩

theorem System.Run.pairwise {I : σ → Prop} {R : σ → σ → Prop}
    (hrefl : ∀ s, R s s) (htrans : ∀ {s t u}, R s t → R t u → R s u)
    (hI : ∀ {s a t}, I s → sys.step s a t → I t)
    (h : sys.Run s tr t) (hs : I s)
    (hR : ∀ p ∈ tr, I p.1 → ∀ u, sys.step p.1 p.2 u → R p.1 u) :
    (states tr t).Pairwise R ∧ ∀ u ∈ states tr t, R s u := by
  induction h with
  | nil s =>
    refine ⟨pairwise_singleton _ _, ?_⟩
    intro u hu
    simp only [states, map_nil, nil_append, mem_singleton] at hu
    subst u
    exact hrefl s
  | @cons s a m tr u hstep hr ih =>
    have hm : R s m := hR (s, a) (mem_cons_self ..) hs m hstep
    obtain ⟨hp, hall⟩ := ih (hI hs hstep) (fun p hp => hR p (mem_cons_of_mem _ hp))
    refine ⟨pairwise_cons.2 ⟨fun v hv => htrans hm (hall v hv), hp⟩, ?_⟩
    intro v hv
    rcases mem_cons.1 hv with rfl | hv
    · exact hrefl v
    · exact htrans hm (hall v hv)

theorem System.Run.step_of_pairwise {R : σ → σ → Prop}
    (h : sys.Run s tr t) (hp : (states tr t).Pairwise R) {p : σ × ℓ} (hm : p ∈ tr) :
    ∃ u, sys.step p.1 p.2 u ∧ R p.1 u := by
  induction h with
  | nil => cases hm
  | @cons s a m tr u hstep hr ih =>
    obtain ⟨hall, hp⟩ := pairwise_cons.1 hp
    rcases mem_cons.1 hm with rfl | hm
    · exact ⟨m, hstep, hall m hr.mem_states⟩
    · exact ih hp hm

end

def System.guarded (init : σ → Prop) (guard : σ → ℓ → Prop) (after : σ → ℓ → σ) : System σ ℓ where
  init := init
  step s a t := guard s a ∧ t = after s a

theorem System.Run.enabled {init : σ → Prop} {guard : σ → ℓ → Prop} {after : σ → ℓ → σ}
    (h : (System.guarded init guard after).Run s tr t) : ∀ p ∈ tr, guard p.1 p.2 := by
  induction h with
  | nil => exact nofun
  | cons hs hr ih => exact forall_mem_cons.2 ⟨hs.1, ih⟩

/-- Once `P` holds on a run, it does until a step that is one of `ends`. -/
def System.Unless (sys : System σ ℓ) (tr : List (σ × ℓ)) (P : σ → Prop) (ends : σ × ℓ → Prop) :
    Prop :=
  ∀ pre mid post u v, tr = pre ++ mid ++ post → sys.Run u mid v → P u → (∀ p ∈ mid, ¬ ends p) →
    ∀ w ∈ states mid v, P w

theorem System.Run.unless_iff {init : σ → Prop} {guard : σ → ℓ → Prop} {after : σ → ℓ → σ}
    {P : σ → Prop} {ends : σ × ℓ → Prop} (h : (System.guarded init guard after).Run s tr t) :
    (System.guarded init guard after).Unless tr P ends ↔
      ∀ p ∈ tr, P p.1 → ¬ ends p → P (after p.1 p.2) := by
  refine ⟨?_, ?_⟩
  · intro hun p hp hP hne
    obtain ⟨pre, post, hsplit⟩ := append_of_mem hp
    have hrun : (System.guarded init guard after).Run p.1 [p] (after p.1 p.2) :=
      .cons ⟨h.enabled p hp, rfl⟩ (.nil _)
    refine hun pre [p] post _ _ (by rw [hsplit]; simp) hrun hP ?_ _ (end_mem_states _ _)
    intro q hq
    rwa [mem_singleton.1 hq]
  · intro hstep pre mid post u v hsplit hrun hP hne
    refine hrun.forall_states hP ?_
    rintro p hp hp1 w ⟨-, rfl⟩
    have hmem : p ∈ tr := by
      rw [hsplit]
      exact mem_append_left _ (mem_append_right _ hp)
    exact hstep p hmem hp1 (hne p hp)

/-- The trace of a list of labels and the state at its end. -/
def replay (after : σ → ℓ → σ) (s : σ) : List ℓ → List (σ × ℓ) × σ
  | [] => ([], s)
  | a :: as => ((s, a) :: (replay after (after s a) as).1, (replay after (after s a) as).2)

theorem replay_labels (after : σ → ℓ → σ) (s : σ) (as : List ℓ) :
    (replay after s as).1.map Prod.snd = as := by
  induction as generalizing s with
  | nil => rfl
  | cons a as ih => exact congrArg (a :: ·) (ih _)

theorem System.run_replay {init : σ → Prop} {guard : σ → ℓ → Prop} {after : σ → ℓ → σ}
    (as : List ℓ) (h : ∀ p ∈ (replay after s as).1, guard p.1 p.2) :
    (System.guarded init guard after).Run s (replay after s as).1 (replay after s as).2 := by
  induction as generalizing s with
  | nil => exact .nil s
  | cons a as ih =>
    obtain ⟨ha, has⟩ := forall_mem_cons.1 h
    exact .cons ⟨ha, rfl⟩ (ih has)

def System.ofMoves (init : σ → Prop) (allowed : σ → ℓ → Prop) (move : σ → ℓ → Option σ) :
    System σ ℓ where
  init := init
  step s a t := allowed s a ∧ move s a = some t

def play (move : σ → ℓ → Option σ) (s : σ) : List ℓ → Option (List (σ × ℓ) × σ)
  | [] => some ([], s)
  | a :: as =>
    match move s a with
    | none => none
    | some t => (play move t as).map fun rest => ((s, a) :: rest.1, rest.2)

theorem play_labels (h : play move s as = some (tr, t)): tr.map Prod.snd = as := by
  induction as generalizing s tr with
  | nil =>
    cases h
    rfl
  | cons a as ih =>
    rw [play] at h
    split at h
    · cases h
    · obtain ⟨rest, hrest, heq⟩ := Option.map_eq_some_iff.1 h
      cases heq
      exact congrArg (a :: ·) (ih hrest)

theorem play_eq_getD (h : (play move s as).isSome = true) :
    play move s as = some ((play move s as).getD ([], s)) := by
  obtain ⟨result, hresult⟩ := Option.isSome_iff_exists.1 h
  rw [hresult]
  rfl

theorem System.run_play {init : σ → Prop} {allowed : σ → ℓ → Prop} {move : σ → ℓ → Option σ}
    {as : List ℓ} {s t : σ} {tr : List (σ × ℓ)} (h : play move s as = some (tr, t))
    (hall : ∀ p ∈ tr, allowed p.1 p.2) : (System.ofMoves init allowed move).Run s tr t := by
  induction as generalizing s tr with
  | nil =>
    cases h
    exact .nil _
  | cons a as ih =>
    rw [play] at h
    split at h
    · cases h
    · rename_i m hm
      obtain ⟨rest, hrest, heq⟩ := Option.map_eq_some_iff.1 h
      cases heq
      obtain ⟨ha, hall⟩ := forall_mem_cons.1 hall
      exact .cons ⟨ha, hm⟩ (ih hrest hall)

end Trakrai.Lib
