import Mathlib.Logic.Function.Basic
import Trakrai.Lib.Transition
import Trakrai.Scheduler.Reconciler

namespace Trakrai.Scheduler
open Function List Lib

/-- Where a run of `reconcileCronTriggers` is: what it has fetched, and then what it has still to do. -/
inductive ReconcileRun where
  | idle
  | fetching (active : Option (List CronFlowTrigger)) (scheduledTriggerIds : Option (List String))
  | writing (stale : List String) (upserts : List CronFlowTrigger)
  | completed
  | failed

inductive Action where
  | start
  | fetchActive
  | listScheduled
  | fetched
  | remove
  | upsert
  | finish
  | fail

/-- The triggers active in the web app, the schedule, and the runs by their numbers. -/
structure State where
  active : List CronFlowTrigger
  schedulers : Schedulers
  runs : Nat → ReconcileRun

def State.advanced (s : State) (run : Nat) (next : ReconcileRun × Schedulers) : State :=
  { s with schedulers := next.2, runs := update s.runs run next.1 }

@[simp] theorem runs_advanced (s : State) (r : Nat) (next : ReconcileRun × Schedulers) :
    (s.advanced r next).runs r = next.1 := update_self ..

@[simp] theorem runs_advanced_of_ne (s : State) (next : ReconcileRun × Schedulers) (h : q ≠ r) :
    (s.advanced r next).runs q = s.runs q := update_of_ne h ..

inductive Step where
  | change (active : List CronFlowTrigger)
  | upsertCronTrigger (input : CronFlowTrigger)
  | deleteCronTrigger (cronTriggerId : String)
  | reconcile (run : Nat) (action : Action)

/-- The scheduler that an active trigger is due; of two with one id, the last is upserted last. -/
def target (active : List CronFlowTrigger) (id : String) : Option JobScheduler :=
  (active.reverse.find? (·.cronTriggerId == id)).map CronFlowTrigger.scheduler

def State.Converged (s : State) : Prop := ∀ id, s.schedulers.get id = target s.active id

def ReconcileRun.StillWrites (active : List CronFlowTrigger) (id : String) : ReconcileRun → Prop
  | .idle => True
  | .fetching _ none => True
  | .fetching _ (some scheduledTriggerIds) =>
    id ∈ scheduledTriggerIds ∨ id ∈ active.map (·.cronTriggerId)
  | .writing stale upserts => id ∈ stale ∨ id ∈ upserts.map (·.cronTriggerId)
  | .completed => False
  | .failed => False

instance (active : List CronFlowTrigger) (id : String) :
    (run : ReconcileRun) → Decidable (run.StillWrites active id)
  | .idle => isTrue trivial
  | .fetching _ none => isTrue trivial
  | .fetching _ (some scheduledTriggerIds) =>
    inferInstanceAs (Decidable (id ∈ scheduledTriggerIds ∨ id ∈ active.map (·.cronTriggerId)))
  | .writing stale upserts =>
    inferInstanceAs (Decidable (id ∈ stale ∨ id ∈ upserts.map (·.cronTriggerId)))
  | .completed => isFalse not_false
  | .failed => isFalse not_false

def ReconcileRun.Over : ReconcileRun → Prop
  | .fetching _ _ => False
  | .writing _ _ => False
  | _ => True

section
variable (formats : Formats)

/-- A run takes a step of its own. The two fetches of `Promise.all` come in any order. -/
def advance (active : List CronFlowTrigger) (schedulers : Schedulers) :
    ReconcileRun → Action → Option (ReconcileRun × Schedulers)
  | .idle, .start => some (.fetching none none, schedulers)
  | .fetching none scheduledTriggerIds, .fetchActive =>
    match listActiveCronTriggersFromWebApp formats active with
    | none => some (.failed, schedulers)
    | some response => some (.fetching (some response) scheduledTriggerIds, schedulers)
  | .fetching response none, .listScheduled =>
    some (.fetching response (some (listScheduledCronTriggerIds schedulers)), schedulers)
  | .fetching (some response) (some scheduledTriggerIds), .fetched =>
    some (.writing (staleIds response scheduledTriggerIds) response, schedulers)
  | .writing (id :: stale) upserts, .remove =>
    some (.writing stale upserts, removeScheduledCronTrigger schedulers id)
  | .writing [] (trigger :: upserts), .upsert =>
    if schedulable formats trigger then
      some (.writing [] upserts, upsertScheduledCronTrigger schedulers trigger)
    else some (.failed, schedulers)
  | .writing [] [], .finish => some (.completed, schedulers)
  | .fetching _ _, .fail => some (.failed, schedulers)
  | .writing _ _, .fail => some (.failed, schedulers)
  | _, _ => none

/-- A call that its input schema refuses, or whose pattern does, changes nothing. -/
def move (s : State) : Step → Option State
  | .change active => some { s with active }
  | .upsertCronTrigger input =>
    if matchesSchema formats input && schedulable formats input then
      some { s with schedulers := upsertScheduledCronTrigger s.schedulers input }
    else some s
  | .deleteCronTrigger id =>
    if id = "" then some s
    else some { s with schedulers := removeScheduledCronTrigger s.schedulers id }
  | .reconcile run action =>
    (advance formats s.active s.schedulers (s.runs run) action).map (s.advanced run)

/-- No run has been started, and no scheduler is without id. -/
def init (s : State) : Prop := s.schedulers.get "" = none ∧ ∀ run, s.runs run = .idle

def system : System State Step := .ofMoves init (fun _ _ => True) (move formats)

/-- The id that the next write of a run is to, with what it leaves there. -/
def ReconcileRun.writes (run : ReconcileRun) : Action → Option (String × Option JobScheduler)
  | .remove =>
    match run with
    | .writing (id :: _) _ => some (id, none)
    | _ => none
  | .upsert =>
    match run with
    | .writing [] (trigger :: _) =>
      if schedulable formats trigger then some (trigger.cronTriggerId, some trigger.scheduler) else none
    | _ => none
  | _ => none

def writes (s : State) : Step → Option (String × Option JobScheduler)
  | .change _ => none
  | .upsertCronTrigger input =>
    if matchesSchema formats input && schedulable formats input then
      some (input.cronTriggerId, some input.scheduler)
    else none
  | .deleteCronTrigger id => if id = "" then none else some (id, none)
  | .reconcile run action => (s.runs run).writes formats action

def Harmless (run : Nat) (s : State) (step : Step) : Prop :=
  ∀ write ∈ writes formats s step,
    write.2 = target s.active write.1 ∨ (s.runs run).StillWrites s.active write.1

instance (run : Nat) (s : State) (step : Step) : Decidable (Harmless formats run s step) :=
  inferInstanceAs (Decidable (∀ write ∈ writes formats s step,
    write.2 = target s.active write.1 ∨ (s.runs run).StillWrites s.active write.1))

end

inductive Advances (formats : Formats) (active : List CronFlowTrigger) (schedulers : Schedulers) :
    ReconcileRun → Action → ReconcileRun → Schedulers → Prop where
  | start : Advances formats active schedulers .idle .start (.fetching none none) schedulers
  | fetchActive (h : active.all (matchesSchema formats) = true) :
    Advances formats active schedulers (.fetching none ids) .fetchActive (.fetching (some active) ids)
      schedulers
  | listScheduled : Advances formats active schedulers (.fetching response none) .listScheduled
      (.fetching response (some (listScheduledCronTriggerIds schedulers))) schedulers
  | fetched : Advances formats active schedulers (.fetching (some response) (some ids)) .fetched
      (.writing (staleIds response ids) response) schedulers
  | remove : Advances formats active schedulers (.writing (key :: stale) upserts) .remove
      (.writing stale upserts) (removeScheduledCronTrigger schedulers key)
  | upsert (h : schedulable formats trigger = true) :
    Advances formats active schedulers (.writing [] (trigger :: upserts)) .upsert (.writing [] upserts)
      (upsertScheduledCronTrigger schedulers trigger)
  | finish : Advances formats active schedulers (.writing [] []) .finish .completed schedulers
  | fail (hopen : run ≠ .completed) (haction : action ∈ [.fetchActive, .upsert, .fail])
    (hwrites : run.writes formats action = none) :
    Advances formats active schedulers run action .failed schedulers

inductive Moves (formats : Formats) (s : State) : Step → State → Prop where
  | change : Moves formats s (.change active) { s with active }
  | call (hstep : ∀ active, step ≠ .change active)
    (hget : ∀ id, schedulers.get id = s.schedulers.get id ∨
      writes formats s step = some (id, schedulers.get id)) : Moves formats s step { s with schedulers }
  | reconcile (h : Advances formats s.active s.schedulers (s.runs r) action run' schedulers') :
    Moves formats s (.reconcile r action) (s.advanced r (run', schedulers'))

section
variable {formats : Formats} {active : List CronFlowTrigger} {schedulers schedulers' : Schedulers}
  {run run' : ReconcileRun} {s t : State} {r : Nat}

theorem advances_of (h : advance formats active schedulers run action = some (run', schedulers')) :
    Advances formats active schedulers run action run' schedulers' := by
  unfold advance at h
  split at h
  · cases h
    exact .start
  · split at h
    · cases h
      exact .fail (by rintro ⟨⟩) (by simp) rfl
    · rename_i response hfetch
      rw [listActiveCronTriggersFromWebApp] at hfetch
      split at hfetch
      · cases hfetch
        cases h
        exact .fetchActive ‹_›
      · cases hfetch
  · cases h
    exact .listScheduled
  · cases h
    exact .fetched
  · cases h
    exact .remove
  · split at h
    · cases h
      exact .upsert ‹_›
    · cases h
      refine .fail (by rintro ⟨⟩) (by simp) ?_
      rw [ReconcileRun.writes, if_neg ‹_›]
  · cases h
    exact .finish
  · cases h
    exact .fail (by rintro ⟨⟩) (by simp) rfl
  · cases h
    exact .fail (by rintro ⟨⟩) (by simp) rfl
  · cases h

theorem kept_or_written {id key : String} {value old new : Option JobScheduler}
    (h : new = if id = key then value else old) :
    new = old ∨ some (key, value) = some (id, new) := by
  by_cases hid : id = key
  · right
    rw [h, if_pos hid, hid]
  · left
    rw [h, if_neg hid]

theorem Advances.get (h : Advances formats active schedulers run action run' schedulers') (id : String) :
    schedulers'.get id = schedulers.get id ∨
      run.writes formats action = some (id, schedulers'.get id) := by
  cases h with
  | start => exact .inl rfl
  | fetchActive => exact .inl rfl
  | listScheduled => exact .inl rfl
  | fetched => exact .inl rfl
  | remove => exact kept_or_written (Schedulers.get_remove ..)
  | upsert h =>
    rw [ReconcileRun.writes, if_pos h]
    exact kept_or_written (Schedulers.get_set ..)
  | finish => exact .inl rfl
  | fail => exact .inl rfl

theorem move_reconcile (h : move formats s (.reconcile r action) = some t) :
    ∃ run' schedulers', Advances formats s.active s.schedulers (s.runs r) action run' schedulers' ∧
      t = s.advanced r (run', schedulers') := by
  obtain ⟨next, hnext, rfl⟩ := Option.map_eq_some_iff.1 h
  exact ⟨next.1, next.2, advances_of hnext, rfl⟩

theorem moves_of (h : move formats s step = some t) : Moves formats s step t := by
  cases step with
  | change =>
    cases h
    exact .change
  | upsertCronTrigger input =>
    rw [move] at h
    split at h
    · rename_i hvalid
      cases h
      refine .call nofun fun id => ?_
      rw [writes, if_pos hvalid]
      exact kept_or_written (Schedulers.get_set ..)
    · cases h
      exact .call nofun fun _ => .inl rfl
  | deleteCronTrigger key =>
    rw [move] at h
    split at h
    · cases h
      exact .call nofun fun _ => .inl rfl
    · rename_i hkey
      cases h
      refine .call nofun fun id => ?_
      rw [writes, if_neg hkey]
      exact kept_or_written (Schedulers.get_remove ..)
  | reconcile r action =>
    obtain ⟨run', schedulers', hadv, rfl⟩ := move_reconcile h
    exact .reconcile hadv

theorem get_of_move (h : move formats s step = some t) (id : String) :
    t.schedulers.get id = s.schedulers.get id ∨
      writes formats s step = some (id, t.schedulers.get id) := by
  cases moves_of h with
  | change => exact .inl rfl
  | call _ hget => exact hget id
  | reconcile hadv => exact hadv.get id

theorem active_of_move (h : move formats s step = some t) (hstep : ∀ active, step ≠ .change active) :
    t.active = s.active := by
  cases moves_of h with
  | change => exact absurd rfl (hstep _)
  | call => rfl
  | reconcile => rfl

theorem runs_of_move (h : move formats s step = some t) (r : Nat) :
    t.runs r = s.runs r ∨ ∃ action, step = .reconcile r action ∧
      Advances formats s.active s.schedulers (s.runs r) action (t.runs r) t.schedulers := by
  cases moves_of h with
  | change => exact .inl rfl
  | call => exact .inl rfl
  | @reconcile q action run' schedulers' hadv =>
    by_cases hq : r = q
    · subst q
      right
      rw [runs_advanced]
      exact ⟨action, rfl, hadv⟩
    · left
      exact runs_advanced_of_ne s _ hq

def ReconcileRun.upserts : ReconcileRun → List CronFlowTrigger
  | .fetching (some response) _ => response
  | .writing _ upserts => upserts
  | _ => []

structure State.Named (s : State) : Prop where
  scheduled : s.schedulers.get "" = none
  fetched : ∀ r, ∀ trigger ∈ (s.runs r).upserts, trigger.cronTriggerId ≠ ""

theorem named_of_matchesSchema (h : matchesSchema formats trigger = true) :
    trigger.cronTriggerId ≠ "" := by
  intro heq
  rw [matchesSchema, heq] at h
  simp at h

theorem Advances.named (h : Advances formats active schedulers run action run' schedulers')
    (hrun : ∀ trigger ∈ run.upserts, trigger.cronTriggerId ≠ "") :
    ∀ trigger ∈ run'.upserts, trigger.cronTriggerId ≠ "" := by
  cases h with
  | start => exact nofun
  | fetchActive hall => exact fun trigger ht => named_of_matchesSchema (all_eq_true.1 hall trigger ht)
  | @listScheduled response =>
    cases response with
    | none => exact nofun
    | some response => exact hrun
  | fetched => exact hrun
  | remove => exact hrun
  | upsert => exact fun trigger ht => hrun trigger (mem_cons_of_mem _ ht)
  | finish => exact nofun
  | fail => exact nofun

theorem writes_named (hs : s.Named) (h : writes formats s step = some ("", scheduler)) : scheduler = none := by
  cases step with
  | change => cases h
  | upsertCronTrigger input =>
    rw [writes] at h
    split at h
    · rename_i hvalid
      have hid : input.cronTriggerId = "" := congrArg Prod.fst (Option.some.inj h)
      exact absurd hid (named_of_matchesSchema (Bool.and_eq_true_iff.1 hvalid).1)
    · cases h
  | deleteCronTrigger id =>
    rw [writes] at h
    split at h
    · cases h
    · exact (congrArg Prod.snd (Option.some.inj h)).symm
  | reconcile r action =>
    have hnamed := hs.fetched r
    rw [writes] at h
    unfold ReconcileRun.writes at h
    split at h
    · split at h
      · exact (congrArg Prod.snd (Option.some.inj h)).symm
      · cases h
    · split at h
      · rename_i trigger upserts heq
        split at h
        · rw [heq] at hnamed
          have hid : trigger.cronTriggerId = "" := congrArg Prod.fst (Option.some.inj h)
          exact absurd hid (hnamed trigger (mem_cons_self ..))
        · cases h
      · cases h
    · cases h

theorem State.Named.move (hs : s.Named) (h : move formats s step = some t) : t.Named := by
  constructor
  · rcases get_of_move h "" with hget | hwrites
    · rw [hget]
      exact hs.scheduled
    · exact writes_named hs hwrites
  · intro r
    rcases runs_of_move h r with hrun | ⟨action, -, hadv⟩
    · rw [hrun]
      exact hs.fetched r
    · exact hadv.named (hs.fetched r)

theorem init_named (h : init s) : s.Named := by
  constructor
  · exact h.1
  · intro r
    rw [h.2 r]
    exact nofun

def ReconcileRun.Current (active : List CronFlowTrigger) : ReconcileRun → Prop
  | .fetching (some response) _ => response = active
  | .writing stale upserts => (∀ id ∈ stale, id ∉ active.map (·.cronTriggerId)) ∧ upserts <:+ active
  | _ => True

/-- Where a run has nothing to write any more, the schedule is that of the active triggers. -/
def ReconcileRun.Settles (active : List CronFlowTrigger) (schedulers : Schedulers) (run : ReconcileRun) : Prop :=
  ∀ id, run = .failed ∨ run.StillWrites active id ∨ schedulers.get id = target active id

theorem target_of_not_mem {id : String} (h : id ∉ active.map (·.cronTriggerId)) : target active id = none := by
  rw [target, Option.map_eq_none_iff, List.find?_eq_none]
  intro trigger ht heq
  exact h (mem_map.2 ⟨trigger, List.mem_reverse.1 ht, by simpa using heq⟩)

theorem target_of_suffix {trigger : CronFlowTrigger} {upserts : List CronFlowTrigger}
    (hsuffix : trigger :: upserts <:+ active) (hlast : trigger.cronTriggerId ∉ upserts.map (·.cronTriggerId)) :
    target active trigger.cronTriggerId = some trigger.scheduler := by
  obtain ⟨earlier, rfl⟩ := hsuffix
  have hnone : upserts.reverse.find? (·.cronTriggerId == trigger.cronTriggerId) = none := by
    rw [List.find?_eq_none]
    intro other ho heq
    exact hlast (mem_map.2 ⟨other, List.mem_reverse.1 ho, by simpa using heq⟩)
  rw [target, reverse_append, reverse_cons, append_assoc, List.find?_append, hnone,
    Option.none_or, singleton_append, List.find?_cons_of_pos (by simp)]
  rfl

theorem Advances.current (h : Advances formats active schedulers run action run' schedulers')
    (hrun : run.Current active) : run'.Current active := by
  cases h with
  | start => trivial
  | fetchActive => rfl
  | @listScheduled response =>
    cases response with
    | none => trivial
    | some response => exact hrun
  | @fetched response ids =>
    obtain rfl : response = active := hrun
    constructor
    · intro id hid
      simpa using (mem_filter.1 hid).2
    · exact suffix_refl _
  | remove => exact ⟨fun id hid => hrun.1 id (mem_cons_of_mem _ hid), hrun.2⟩
  | upsert => exact ⟨nofun, (suffix_cons _ _).trans hrun.2⟩
  | finish => trivial
  | fail => trivial

theorem Advances.settles (h : Advances formats active schedulers run action run' schedulers')
    (hunnamed : schedulers.get "" = none) (hcurrent : run.Current active)
    (hrun : run.Settles active schedulers) : run'.Settles active schedulers' := by
  intro id
  cases h with
  | start => exact .inr (.inl trivial)
  | @fetchActive ids =>
    rcases hrun id with hfailed | hrun
    · cases hfailed
    · right
      cases ids with
      | none => exact .inl trivial
      | some ids => exact hrun
  | @listScheduled response =>
    by_cases hactive : id ∈ active.map (·.cronTriggerId)
    · exact .inr (.inl (.inr hactive))
    · rw [ReconcileRun.StillWrites, mem_listScheduledCronTriggerIds, target_of_not_mem hactive]
      by_cases hid : id = ""
      · exact .inr (.inr (hid ▸ hunnamed))
      · cases hget : schedulers.get id with
        | none => exact .inr (.inr rfl)
        | some scheduler => exact .inr (.inl (.inl ⟨hid, rfl⟩))
  | @fetched response ids =>
    obtain rfl : response = active := hcurrent
    rcases hrun id with hfailed | (hlisted | hactive) | hget
    · cases hfailed
    · right
      left
      by_cases hactive : id ∈ response.map (·.cronTriggerId)
      · exact .inr hactive
      · exact .inl (mem_filter.2 ⟨hlisted, by simpa using hactive⟩)
    · exact .inr (.inl (.inr hactive))
    · exact .inr (.inr hget)
  | @remove key stale upserts =>
    rw [removeScheduledCronTrigger, Schedulers.get_remove]
    by_cases hid : id = key
    · rw [if_pos hid, hid, target_of_not_mem (hcurrent.1 key (mem_cons_self ..))]
      exact .inr (.inr rfl)
    · rw [if_neg hid]
      rcases hrun id with hfailed | (hstale | hupserts) | hget
      · cases hfailed
      · exact .inr (.inl (.inl ((mem_cons.1 hstale).resolve_left hid)))
      · exact .inr (.inl (.inr hupserts))
      · exact .inr (.inr hget)
  | @upsert trigger upserts hvalid =>
    rw [upsertScheduledCronTrigger, Schedulers.get_set]
    by_cases hlater : id ∈ upserts.map (·.cronTriggerId)
    · exact .inr (.inl (.inr hlater))
    · by_cases hid : id = trigger.cronTriggerId
      · subst id
        rw [if_pos rfl, target_of_suffix hcurrent.2 hlater]
        exact .inr (.inr rfl)
      · rw [if_neg hid]
        rcases hrun id with hfailed | (hstale | hupserts) | hget
        · cases hfailed
        · cases hstale
        · exact absurd ((mem_cons.1 hupserts).resolve_left hid) hlater
        · exact .inr (.inr hget)
  | finish =>
    rcases hrun id with hfailed | (hstale | hupserts) | hget
    · cases hfailed
    · cases hstale
    · cases hupserts
    · exact .inr (.inr hget)
  | fail => exact .inl rfl

structure Settled (r : Nat) (s : State) : Prop where
  named : s.Named
  current : (s.runs r).Current s.active
  settles : (s.runs r).Settles s.active s.schedulers

theorem settled_of_idle (hnamed : s.Named) (h : s.runs r = .idle) : Settled r s := by
  refine ⟨hnamed, ?_, fun id => .inr (.inl ?_)⟩
  · rw [h]
    trivial
  · rw [h]
    trivial

theorem Settled.move (hs : Settled r s) (h : move formats s step = some t)
    (hchange : ∀ active, step ≠ .change active) (hharmless : Harmless formats r s step) : Settled r t := by
  have hactive := active_of_move h hchange
  rcases runs_of_move h r with hrun | ⟨action, -, hadv⟩
  · constructor
    · exact hs.named.move h
    · rw [hrun, hactive]
      exact hs.current
    · intro id
      rw [hrun, hactive]
      rcases get_of_move h id with hget | hwrites
      · rw [hget]
        exact hs.settles id
      · rcases hharmless _ hwrites with hdue | hlater
        · exact .inr (.inr hdue)
        · exact .inr (.inl hlater)
  · constructor
    · exact hs.named.move h
    · rw [hactive]
      exact hadv.current hs.current
    · rw [hactive]
      exact hadv.settles hs.named.scheduled hs.current hs.settles

theorem Advances.ne_idle (h : Advances formats active schedulers run action run' schedulers') :
    run' ≠ .idle := by
  cases h <;> exact nofun

theorem Advances.ne_completed (h : Advances formats active schedulers run action run' schedulers') :
    run ≠ .completed := by
  cases h with
  | fail hopen => exact hopen
  | _ => exact nofun

theorem Advances.idle_of_start (h : Advances formats active schedulers run .start run' schedulers') :
    run = .idle := by
  cases h with
  | start => rfl
  | fail _ haction => simp at haction

theorem Advances.completed_of_finish (h : Advances formats active schedulers run .finish run' schedulers') :
    run' = .completed := by
  cases h with
  | finish => rfl
  | fail _ haction => simp at haction

theorem idle_of_start (h : (system formats).Run s tr t) (hp : p ∈ tr) (hlabel : p.2 = .reconcile r .start) :
    s.runs r = .idle := by
  by_contra hs
  have hall : ∀ u ∈ states tr t, u.runs r ≠ .idle := by
    apply h.forall_states (I := fun u => u.runs r ≠ .idle) hs
    rintro q - hq u ⟨-, hmove⟩
    rcases runs_of_move hmove r with hrun | ⟨action, -, hadv⟩
    · rwa [hrun]
    · exact hadv.ne_idle
  obtain ⟨u, ⟨-, hmove⟩, -⟩ := h.exists_mem_states hp
  rw [hlabel] at hmove
  obtain ⟨run', schedulers', hadv, -⟩ := move_reconcile hmove
  exact hall p.1 (mem_states_of_mem hp) hadv.idle_of_start

theorem completed_of_finish (h : (system formats).Run s tr t) (hp : p ∈ tr)
    (hlabel : p.2 = .reconcile r .finish) : t.runs r = .completed := by
  obtain ⟨before, after, rfl⟩ := append_of_mem hp
  obtain ⟨u, -, hrest⟩ := h.of_append
  cases hrest with
  | cons hstep hafter =>
    apply hafter.invariant (I := fun u => u.runs r = .completed)
    · rintro u step v hu ⟨-, hmove⟩
      rcases runs_of_move hmove r with hrun | ⟨action, -, hadv⟩
      · rwa [hrun]
      · exact absurd hu hadv.ne_completed
    · obtain rfl : _ = Step.reconcile r .finish := hlabel
      obtain ⟨run', schedulers', hadv, rfl⟩ := move_reconcile hstep.2
      rw [runs_advanced]
      exact hadv.completed_of_finish

/-- What `reconcileCronTriggers` still computes from where a run of it is, and whether it comes to its end. -/
def ReconcileRun.result (formats : Formats) (active : List CronFlowTrigger) (schedulers : Schedulers) :
    ReconcileRun → Schedulers × Bool
  | .idle => reconcileCronTriggers formats active schedulers
  | .fetching response ids =>
    match response.or (listActiveCronTriggersFromWebApp formats active) with
    | none => (schedulers, false)
    | some response =>
      upsertAll formats response ((staleIds response (ids.getD (listScheduledCronTriggerIds schedulers))).foldl
        removeScheduledCronTrigger schedulers)
  | .writing stale upserts => upsertAll formats upserts (stale.foldl removeScheduledCronTrigger schedulers)
  | .completed => (schedulers, true)
  | .failed => (schedulers, false)

theorem result_of_advance (h : advance formats active schedulers run action = some (run', schedulers'))
    (hfail : action ≠ .fail) :
    run'.result formats active schedulers' = run.result formats active schedulers := by
  revert h
  fun_cases advance formats active schedulers run action
  case case1 =>
    rintro ⟨⟩
    rfl
  case case2 hfetch =>
    rintro ⟨⟩
    rw [ReconcileRun.result, ReconcileRun.result, Option.none_or, hfetch]
  case case3 response hfetch =>
    rintro ⟨⟩
    rw [ReconcileRun.result, ReconcileRun.result, Option.none_or, hfetch]
    rfl
  case case4 =>
    rintro ⟨⟩
    rfl
  case case5 =>
    rintro ⟨⟩
    rfl
  case case6 =>
    rintro ⟨⟩
    rfl
  case case7 hvalid =>
    rintro ⟨⟩
    rw [ReconcileRun.result, ReconcileRun.result, foldl_nil, upsertAll, if_pos hvalid]
    rfl
  case case8 hvalid =>
    rintro ⟨⟩
    rw [ReconcileRun.result, ReconcileRun.result, foldl_nil, upsertAll, if_neg hvalid]
  case case9 =>
    rintro ⟨⟩
    rfl
  all_goals first | exact absurd rfl hfail | rintro ⟨⟩

theorem exists_advance (formats : Formats) (active : List CronFlowTrigger) (schedulers : Schedulers)
    (hcompleted : run ≠ .completed) (hfailed : run ≠ .failed) :
    ∃ action, action ≠ .fail ∧ (advance formats active schedulers run action).isSome = true := by
  cases run with
  | idle => exact ⟨.start, by rintro ⟨⟩, rfl⟩
  | fetching response ids =>
    cases response with
    | none =>
      refine ⟨.fetchActive, by rintro ⟨⟩, ?_⟩
      rw [advance]
      split <;> rfl
    | some response =>
      cases ids with
      | none => exact ⟨.listScheduled, by rintro ⟨⟩, rfl⟩
      | some ids => exact ⟨.fetched, by rintro ⟨⟩, rfl⟩
  | writing stale upserts =>
    cases stale with
    | cons id stale => exact ⟨.remove, by rintro ⟨⟩, rfl⟩
    | nil =>
      cases upserts with
      | nil => exact ⟨.finish, by rintro ⟨⟩, rfl⟩
      | cons trigger upserts =>
        refine ⟨.upsert, by rintro ⟨⟩, ?_⟩
        rw [advance]
        split <;> rfl
  | completed => exact absurd rfl hcompleted
  | failed => exact absurd rfl hfailed

/-- A run that nothing disturbs, and none of whose calls fails, does step by step what `reconcileCronTriggers`
does at once: it is never stuck before it is over, and ends where that does. -/
theorem undisturbed_reconcileCronTriggers (hidle : s.runs r = .idle) (hrun : (system formats).Run s tr t)
    (halone : ∀ p ∈ tr, ∃ action, action ≠ .fail ∧ p.2 = .reconcile r action) :
    (t.runs r = .completed → reconcileCronTriggers formats s.active s.schedulers = (t.schedulers, true)) ∧
    (t.runs r = .failed → reconcileCronTriggers formats s.active s.schedulers = (t.schedulers, false)) ∧
    (t.runs r ≠ .completed → t.runs r ≠ .failed →
      ∃ action u, action ≠ .fail ∧ (system formats).step t (.reconcile r action) u) := by
  have hresult : ∀ u ∈ states tr t, u.active = s.active ∧
        (u.runs r).result formats u.active u.schedulers = reconcileCronTriggers formats s.active s.schedulers := by
    apply hrun.forall_states (I := fun u => u.active = s.active ∧ (u.runs r).result formats u.active u.schedulers =
      reconcileCronTriggers formats s.active s.schedulers)
    · rw [hidle]
      exact ⟨rfl, rfl⟩
    · rintro p hp ⟨hactive, hresult⟩ u ⟨-, hmove⟩
      obtain ⟨action, hfail, hlabel⟩ := halone p hp
      rw [hlabel, move, Option.map_eq_some_iff] at hmove
      obtain ⟨⟨run', schedulers'⟩, hadvance, rfl⟩ := hmove
      refine ⟨hactive, ?_⟩
      rw [runs_advanced, ← hresult]
      exact result_of_advance hadvance hfail
  obtain ⟨-, hend⟩ := hresult t (end_mem_states ..)
  refine ⟨fun hcompleted => ?_, fun hfailed => ?_, fun hcompleted hfailed => ?_⟩
  · rw [← hend, hcompleted]
    rfl
  · rw [← hend, hfailed]
    rfl
  · obtain ⟨action, hfail, hsome⟩ := exists_advance formats t.active t.schedulers hcompleted hfailed
    obtain ⟨next, hnext⟩ := Option.isSome_iff_exists.1 hsome
    refine ⟨action, t.advanced r next, hfail, trivial, ?_⟩
    rw [move, hnext]
    rfl

/-- The schedule is that of the active triggers after a reconcile begun and completed since the last
change, if meanwhile nothing stale was written behind it. -/
theorem converged (formats : Formats) {pre post : List (State × Step)} (hinit : init s)
    (hrun : (system formats).Run s (pre ++ post) t)
    (hchange : ∀ p ∈ post, ∀ active, p.2 ≠ .change active)
    (hstart : ∃ p ∈ post, p.2 = .reconcile r .start) (hfinish : ∃ p ∈ post, p.2 = .reconcile r .finish)
    (hharmless : ∀ p ∈ post, Harmless formats r p.1 p.2) : t.Converged := by
  obtain ⟨m, hpre, hpost⟩ := hrun.of_append
  obtain ⟨p, hp, hpstart⟩ := hstart
  obtain ⟨q, hq, hqfinish⟩ := hfinish
  have hnamed : m.Named := by
    apply hpre.invariant (I := State.Named) _ (init_named hinit)
    rintro u step v hu ⟨-, hmove⟩
    exact hu.move hmove
  have hall : ∀ u ∈ states post t, Settled r u := by
    apply hpost.forall_states (settled_of_idle hnamed (idle_of_start hpost hp hpstart))
    rintro u hu hs v ⟨-, hmove⟩
    exact hs.move hmove (hchange u hu) (hharmless u hu)
  intro id
  have hdone := (hall t (end_mem_states ..)).settles id
  rw [completed_of_finish hpost hq hqfinish] at hdone
  rcases hdone with hfailed | hlater | hget
  · cases hfailed
  · cases hlater
  · exact hget

end

def scheduled : State where
  active := [sampleTrigger "t1" "* * * * *"]
  schedulers := upsertScheduledCronTrigger .empty (sampleTrigger "t1" "* * * * *")
  runs := fun _ => .idle

def deleted : List Step :=
  [.reconcile 1 .start, .reconcile 1 .fetchActive, .reconcile 1 .listScheduled, .reconcile 1 .fetched,
    .change []]

def overtaken : List Step :=
  [.reconcile 2 .start, .reconcile 2 .fetchActive, .reconcile 2 .listScheduled, .reconcile 2 .fetched,
    .reconcile 2 .remove, .reconcile 2 .finish, .reconcile 1 .upsert, .reconcile 1 .finish]

def inTurn : List Step :=
  [.reconcile 2 .start, .reconcile 2 .fetchActive, .reconcile 1 .upsert, .reconcile 1 .finish,
    .reconcile 2 .listScheduled, .reconcile 2 .fetched, .reconcile 2 .remove, .reconcile 2 .finish]

def played (s : State) (steps : List Step) : List (State × Step) × State :=
  (play (move sampleFormats) s steps).getD ([], s)

theorem play_played (h : (play (move sampleFormats) s steps).isSome = true) :
    play (move sampleFormats) s steps = some (played s steps) :=
  play_eq_getD h

theorem run_played (h : (play (move sampleFormats) s steps).isSome = true) :
    (system sampleFormats).Run s (played s steps).1 (played s steps).2 :=
  System.run_play (play_played h) (fun _ _ => trivial)

theorem mem_played (h : (play (move sampleFormats) s steps).isSome = true) : step ∈ steps ↔ ∃ p ∈ (played s steps).1, p.2 = step := by
  have hlabels : (played s steps).1.map Prod.snd = steps := play_labels (play_played h)
  rw [← mem_map, hlabels]

theorem labels_of_play (h : (play (move sampleFormats) s steps).isSome = true)
    (hchange : ∀ step ∈ steps, ∀ active, step ≠ .change active)
    (hstart : .reconcile r .start ∈ steps) (hfinish : .reconcile r .finish ∈ steps) :
    (∀ p ∈ (played s steps).1, ∀ active, p.2 ≠ .change active) ∧
      (∃ p ∈ (played s steps).1, p.2 = .reconcile r .start) ∧
      ∃ p ∈ (played s steps).1, p.2 = .reconcile r .finish :=
  ⟨fun p hp => hchange p.2 ((mem_played h).2 ⟨p, hp, rfl⟩), (mem_played h).1 hstart,
    (mem_played h).1 hfinish⟩

def restarted : State where
  active := [sampleTrigger "t1" "* * * * *"]
  schedulers := upsertScheduledCronTrigger .empty (sampleTrigger "t2" "* * * * *")
  runs := fun _ => .idle

def undisturbed : List Step :=
  [.reconcile 1 .start, .reconcile 1 .listScheduled, .reconcile 1 .fetchActive, .reconcile 1 .fetched,
    .reconcile 1 .remove, .reconcile 1 .upsert, .reconcile 1 .finish]

theorem undisturbed_reconcileCronTriggers_restarted :
    ((played restarted undisturbed).2.runs 1 = .completed) ∧
      reconcileCronTriggers sampleFormats restarted.active restarted.schedulers =
        ((played restarted undisturbed).2.schedulers, true) := by
  have hplay : (play (move sampleFormats) restarted undisturbed).isSome = true := by decide +kernel
  have halone : ∀ step ∈ undisturbed, ∃ action, action ≠ .fail ∧ step = .reconcile 1 action := by
    simp [undisturbed]
  have hcompleted : (played restarted undisturbed).2.runs 1 = .completed := rfl
  exact ⟨hcompleted, (undisturbed_reconcileCronTriggers rfl (run_played hplay)
    fun p hp => halone p.2 ((mem_played hplay).2 ⟨p, hp, rfl⟩)).1 hcompleted⟩

theorem init_scheduled : init scheduled := ⟨by decide, fun _ => rfl⟩

/-- Where the first run ends in time, its stale upsert is undone. -/
theorem converged_in_turn : (played (played scheduled deleted).2 inTurn).2.Converged := by
  have hdeleted : (play (move sampleFormats) scheduled deleted).isSome = true := by decide +kernel
  have hinTurn : (play (move sampleFormats) (played scheduled deleted).2 inTurn).isSome = true := by
    decide +kernel
  have hrun := (run_played hdeleted).append (run_played hinTurn)
  obtain ⟨hchange, hstart, hfinish⟩ := labels_of_play (r := 2) hinTurn (by simp [inTurn]) (by simp [inTurn])
    (by simp [inTurn])
  exact converged sampleFormats init_scheduled hrun hchange hstart hfinish (by decide +kernel)

/-- Where it ends later, the deleted trigger is scheduled again. -/
theorem deleted_trigger_resurrected :
    ¬ ∀ formats s pre post t r, init s → (system formats).Run s (pre ++ post) t →
      (∀ p ∈ pre ++ post, ∀ active, p.2 = .change active →
        ∀ trigger ∈ active, matchesSchema formats trigger = true ∧ schedulable formats trigger = true) →
      (∀ p ∈ post, ∀ active, p.2 ≠ .change active) → (∃ p ∈ post, p.2 = .reconcile r .start) →
      (∃ p ∈ post, p.2 = .reconcile r .finish) → (∀ q, (t.runs q).Over) → t.Converged := by
  intro h
  have hdeleted : (play (move sampleFormats) scheduled deleted).isSome = true := by decide +kernel
  have hovertaken : (play (move sampleFormats) (played scheduled deleted).2 overtaken).isSome = true := by
    decide +kernel
  obtain ⟨hchange, hstart, hfinish⟩ := labels_of_play (r := 2) hovertaken (by simp [overtaken])
    (by simp [overtaken]) (by simp [overtaken])
  have hvalid : ∀ p ∈ (played scheduled deleted).1 ++ (played (played scheduled deleted).2 overtaken).1,
      ∀ active, p.2 = .change active → ∀ trigger ∈ active,
        matchesSchema sampleFormats trigger = true ∧ schedulable sampleFormats trigger = true := by
    intro p hp active hp2
    rcases mem_append.1 hp with hp | hp
    · have hmem := (mem_played hdeleted).2 ⟨p, hp, hp2⟩
      obtain rfl : active = [] := by simpa [deleted] using hmem
      exact nofun
    · exact absurd hp2 (hchange p hp active)
  have hover : ∀ q, ((played (played scheduled deleted).2 overtaken).2.runs q).Over := by
    intro q
    match q with
    | 0 => trivial
    | 1 => trivial
    | 2 => trivial
    | q + 3 => trivial
  have hconverged := h sampleFormats scheduled _ _ _ 2 init_scheduled
    ((run_played hdeleted).append (run_played hovertaken)) hvalid hchange hstart hfinish hover
  exact absurd (hconverged "t1") (by decide +kernel)

end Trakrai.Scheduler
