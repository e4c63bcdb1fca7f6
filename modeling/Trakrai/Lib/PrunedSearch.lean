import Mathlib.Data.List.Chain
import Mathlib.Data.List.Nodup
import Mathlib.Data.List.Perm.Subperm

namespace Trakrai.Lib
open List

/-- A depth-first search that notes the nodes where it stops and does not go past them. The state is what it has
visited and what it has noted. `none` where the calls get deeper than the number. -/
def prunedSearch [DecidableEq ι] (next : ι → List ι) (stop : ι → Bool) :
    Nat → List ι × List ι → ι → Option (List ι × List ι)
  | 0, _, _ => none
  | fuel + 1, state, n =>
    if n ∈ state.1 then some state
    else
      (next n).foldlM
        (fun state m => if stop m then some (state.1, state.2.insert m) else prunedSearch next stop fuel state m)
        (state.1.insert n, state.2)

/-- A path of at least one step whose inner nodes are no stops. -/
inductive Passes (next : ι → List ι) (stop : ι → Bool) : ι → ι → Prop
  | step : m ∈ next n → Passes next stop m n
  | through : Passes next stop m k → stop k = false → k ∈ next n → Passes next stop m n

theorem passes_iff {next : ι → List ι} : Passes next stop m n ↔
    ∃ between, (m :: (between ++ [n])).IsChain (fun a b => a ∈ next b) ∧ ∀ k ∈ between, stop k = false := by
  constructor
  · intro h
    induction h with
    | step hm => exact ⟨[], by simpa using hm, forall_mem_nil _⟩
    | @through m k n _ hstop hk ih =>
      obtain ⟨between, hchain, hstops⟩ := ih
      refine ⟨between ++ [k], ?_, ?_⟩
      · rw [append_assoc, singleton_append, isChain_cons_append_cons_cons]
        exact ⟨hchain, hk, .singleton n⟩
      · rw [forall_mem_append]
        exact ⟨hstops, forall_mem_singleton.2 hstop⟩
  · rintro ⟨between, hchain, hstops⟩
    induction between using List.reverseRecOn generalizing n with
    | nil => exact .step (by simpa using hchain)
    | append_singleton between k ih =>
      rw [append_assoc, singleton_append, isChain_cons_append_cons_cons] at hchain
      rw [forall_mem_append, forall_mem_singleton] at hstops
      exact .through (ih hchain.1 hstops.1) hstops.2 hchain.2.1

section
variable {next : ι → List ι} {stop : ι → Bool} {ids : List ι} {fuel : Nat}
  {before middle after state : List ι × List ι} {P Q : ι → Prop}

/-- Some id is left to visit for every call that may still be made. -/
structure Room (ids : List ι) (fuel : Nat) (state : List ι × List ι) : Prop where
  nodup : state.1.Nodup
  within : state.1 ⊆ ids
  deep : ids.length < fuel + state.1.length

def Covered (stop : ι → Bool) (state : List ι × List ι) (m : ι) : Prop :=
  if stop m then m ∈ state.2 else m ∈ state.1

/-- What a part of the search does to the state, where it only notes what `P` allows. -/
structure Extends (next : ι → List ι) (stop : ι → Bool) (ids : List ι) (P : ι → Prop)
    (before after : List ι × List ι) : Prop where
  nodup : before.1.Nodup → after.1.Nodup
  within : before.1 ⊆ ids → after.1 ⊆ ids
  nodupNoted : before.2.Nodup → after.2.Nodup
  keeps : before.1 ⊆ after.1
  keepsNoted : before.2 ⊆ after.2
  closed : ∀ n ∈ after.1, n ∈ before.1 ∨ ∀ m ∈ next n, Covered stop after m
  sound : ∀ m ∈ after.2, m ∈ before.2 ∨ stop m = true ∧ P m

theorem Covered.mono (h : Covered stop before m) (hkeeps : before.1 ⊆ after.1) (hnoted : before.2 ⊆ after.2) :
    Covered stop after m := by
  cases hstop : stop m with
  | true =>
    rw [Covered, if_pos hstop] at *
    exact hnoted h
  | false =>
    rw [Covered, if_neg (Bool.eq_false_iff.1 hstop)] at *
    exact hkeeps h

theorem Extends.refl (state : List ι × List ι) : Extends next stop ids P state state :=
  ⟨id, id, id, List.Subset.refl _, List.Subset.refl _, fun _ h => .inl h, fun _ h => .inl h⟩

theorem Extends.weaken (h : Extends next stop ids P before after) (hPQ : ∀ m, P m → Q m) :
    Extends next stop ids Q before after :=
  { h with sound := fun m hm => (h.sound m hm).imp_right fun hP => ⟨hP.1, hPQ m hP.2⟩ }

theorem Extends.trans (hfirst : Extends next stop ids P before middle)
    (hsecond : Extends next stop ids P middle after) : Extends next stop ids P before after where
  nodup := hsecond.nodup ∘ hfirst.nodup
  within := hsecond.within ∘ hfirst.within
  nodupNoted := hsecond.nodupNoted ∘ hfirst.nodupNoted
  keeps := List.Subset.trans hfirst.keeps hsecond.keeps
  keepsNoted := List.Subset.trans hfirst.keepsNoted hsecond.keepsNoted
  closed n hn := by
    rcases hsecond.closed n hn with hmiddle | hclosed
    · refine (hfirst.closed n hmiddle).imp_right fun hclosed m hm => ?_
      exact (hclosed m hm).mono hsecond.keeps hsecond.keepsNoted
    · exact .inr hclosed
  sound m hm := by
    rcases hsecond.sound m hm with hmiddle | hP
    · exact hfirst.sound m hmiddle
    · exact .inr hP

theorem Room.extend (hroom : Room ids fuel before) (h : Extends next stop ids P before after) :
    Room ids fuel after where
  nodup := h.nodup hroom.nodup
  within := h.within hroom.within
  deep := by
    have hle := (subperm_of_subset hroom.nodup h.keeps).length_le
    have hdeep := hroom.deep
    omega

theorem Room.lt_fuel (hroom : Room ids fuel state) : 0 < fuel := by
  have hle := (subperm_of_subset hroom.nodup hroom.within).length_le
  have hdeep := hroom.deep
  omega

variable [DecidableEq ι]

theorem Room.insert (hroom : Room ids (fuel + 1) state) (hn : n ∈ ids) (hnew : n ∉ state.1) :
    Room ids fuel (state.1.insert n, state.2) where
  nodup := List.Nodup.insert hroom.nodup
  within := by
    intro k hk
    rcases mem_insert_iff.1 hk with rfl | hk
    · exact hn
    · exact hroom.within hk
  deep := by
    have hdeep := hroom.deep
    rw [length_insert_of_not_mem hnew]
    omega

theorem Extends.note (hstop : stop m = true) (hP : P m) :
    Extends next stop ids P state (state.1, state.2.insert m) where
  nodup := id
  within := id
  nodupNoted h := List.Nodup.insert h
  keeps := List.Subset.refl _
  keepsNoted _ h := mem_insert_of_mem h
  closed _ h := .inl h
  sound k hk := by
    rcases mem_insert_iff.1 hk with rfl | hk
    · exact .inr ⟨hstop, hP⟩
    · exact .inl hk

theorem foldlM_extends {search : List ι × List ι → ι → Option (List ι × List ι)} {n : ι} (hids : next n ⊆ ids)
    (hsearch : ∀ {state m}, Room ids fuel state → m ∈ ids →
      ∃ after, search state m = some after ∧ Extends next stop ids (Passes next stop · m) state after ∧ m ∈ after.1)
    (ms : List ι) (hms : ms ⊆ next n) (hroom : Room ids fuel state) :
    ∃ after, ms.foldlM (fun state m => if stop m then some (state.1, state.2.insert m) else search state m) state =
        some after ∧
      Extends next stop ids (Passes next stop · n) state after ∧ ∀ m ∈ ms, Covered stop after m := by
  induction ms generalizing state with
  | nil => exact ⟨state, rfl, .refl state, forall_mem_nil _⟩
  | cons m ms ih =>
    obtain ⟨hm, hrest⟩ := cons_subset.1 hms
    obtain ⟨middle, hmiddle, hextends, hcovered⟩ : ∃ middle,
        (if stop m then some (state.1, state.2.insert m) else search state m) = some middle ∧
        Extends next stop ids (Passes next stop · n) state middle ∧ Covered stop middle m := by
      cases hstop : stop m with
      | true =>
        rw [if_pos rfl]
        refine ⟨_, rfl, .note hstop (.step hm), ?_⟩
        rw [Covered, if_pos hstop]
        exact mem_insert_self ..
      | false =>
        rw [if_neg Bool.false_ne_true]
        obtain ⟨middle, hmiddle, hextends, hvisited⟩ := hsearch hroom (hids hm)
        refine ⟨middle, hmiddle, hextends.weaken fun k hk => .through hk hstop hm, ?_⟩
        rwa [Covered, if_neg (Bool.eq_false_iff.1 hstop)]
    obtain ⟨after, hafter, hextends', hcovered'⟩ := ih hrest (hroom.extend hextends)
    refine ⟨after, ?_, hextends.trans hextends', forall_mem_cons.2 ⟨?_, hcovered'⟩⟩
    · rw [foldlM_cons, hmiddle]
      exact hafter
    · exact hcovered.mono hextends'.keeps hextends'.keepsNoted

/-- The search ends where there is room for it. -/
theorem prunedSearch_extends (stop : ι → Bool) (hids : ∀ n ∈ ids, next n ⊆ ids)
    (hroom : Room ids fuel state) (hn : n ∈ ids) :
    ∃ after, prunedSearch next stop fuel state n = some after ∧
      Extends next stop ids (Passes next stop · n) state after ∧ n ∈ after.1 := by
  induction fuel generalizing state n with
  | zero => exact absurd hroom.lt_fuel (Nat.lt_irrefl 0)
  | succ fuel ih =>
    rw [prunedSearch]
    split
    · rename_i hvisited
      exact ⟨state, rfl, .refl state, hvisited⟩
    · rename_i hnew
      obtain ⟨after, hafter, hextends, hcovered⟩ := foldlM_extends (hids n hn) ih (next n)
        (List.Subset.refl _) (hroom.insert hn hnew)
      refine ⟨after, hafter, ⟨fun hnodup => hextends.nodup (List.Nodup.insert hnodup), ?_,
        hextends.nodupNoted, ?_, hextends.keepsNoted, ?_, hextends.sound⟩,
        hextends.keeps (mem_insert_self ..)⟩
      · exact fun _ => hextends.within (hroom.insert hn hnew).within
      · exact fun k hk => hextends.keeps (mem_insert_of_mem hk)
      · intro k hk
        rcases hextends.closed k hk with hbefore | hclosed
        · rcases mem_insert_iff.1 hbefore with rfl | hbefore
          · exact .inr hcovered
          · exact .inl hbefore
        · exact .inr hclosed

theorem prunedSearch_exact (stop : ι → Bool) (hids : ∀ n ∈ ids, next n ⊆ ids)
    (hfuel : ids.length < fuel) (hn : n ∈ ids) :
    ∃ after, prunedSearch next stop fuel ([], []) n = some after ∧ after.2.Nodup ∧
      ∀ m, m ∈ after.2 ↔ stop m = true ∧ Passes next stop m n := by
  have hroom : Room ids fuel ([], []) := ⟨nodup_nil, nil_subset _, by simpa using hfuel⟩
  obtain ⟨after, hafter, hextends, hvisited⟩ := prunedSearch_extends stop hids hroom hn
  refine ⟨after, hafter, hextends.nodupNoted nodup_nil, fun m => ⟨fun hm => ?_, ?_⟩⟩
  · exact (hextends.sound m hm).resolve_left (not_mem_nil)
  · rintro ⟨hstop, hpasses⟩
    -- every node on the path before the stop was visited
    have hcovered {k : ι} (hk : k ∈ after.1) : ∀ j ∈ next k, Covered stop after j :=
      (hextends.closed k hk).resolve_left (not_mem_nil)
    clear hextends hn hroom hafter
    induction hpasses with
    | step hm =>
      have h := hcovered hvisited _ hm
      rwa [Covered, if_pos hstop] at h
    | through _ hthrough hk ih =>
      refine ih ?_ hstop
      have h := hcovered hvisited _ hk
      rwa [Covered, if_neg (Bool.eq_false_iff.1 hthrough)] at h

theorem foldlM_mono {f g : σ → α → Option σ} (hfg : ∀ s a t, f s a = some t → g s a = some t)
    {items : List α} {s t : σ} (h : items.foldlM f s = some t) : items.foldlM g s = some t := by
  induction items generalizing s with
  | nil => exact h
  | cons item items ih =>
    rw [foldlM_cons, Option.bind_eq_bind, Option.bind_eq_some_iff] at h ⊢
    obtain ⟨u, hu, hrest⟩ := h
    exact ⟨u, hfg s item u hu, ih hrest⟩

theorem prunedSearch_succ (h : prunedSearch next stop fuel state n = some after) :
    prunedSearch next stop (fuel + 1) state n = some after := by
  induction fuel generalizing state n after with
  | zero => cases h
  | succ fuel ih =>
    rw [prunedSearch] at h ⊢
    split
    · rename_i hvisited
      rwa [if_pos hvisited] at h
    · rename_i hnew
      rw [if_neg hnew] at h
      refine foldlM_mono (fun s m t hst => ?_) h
      split
      · rename_i hstop
        rwa [if_pos hstop] at hst
      · rename_i hstop
        rw [if_neg hstop] at hst
        exact ih hst

theorem prunedSearch_deeper (h : prunedSearch next stop fuel state n = some after) (extra : Nat) :
    prunedSearch next stop (fuel + extra) state n = some after := by
  induction extra with
  | zero => exact h
  | succ extra ih => exact prunedSearch_succ ih

end

end Trakrai.Lib
