import Mathlib.Logic.Function.Basic
import Trakrai.Lib.Transition

namespace Trakrai.RuntimeManager.Status
open Function List Lib

def statusSnapshotCacheTTL : Nat := 1000000000

/-- What a status says, by when it was read: for each of its data the number of changes made
before. -/
structure Payload where
  /-- The reading of the registry. -/
  listed : Nat := 0
  services : List (String × Nat) := []
  /-- The reading of the last action and of the system. -/
  action : Nat := 0
  generatedAt : Nat := 0
deriving DecidableEq

def Payload.readings (payload : Payload) : List Nat :=
  payload.listed :: payload.action :: payload.services.map Prod.snd

/-- The progress of `buildFreshStatusPayload`. -/
inductive Build where
  | started
  | inspecting (listed : Nat) (services : List (String × Nat)) (managedServices : List String)
  | built (payload : Payload)
  | failed (error : String)
deriving DecidableEq

def Build.readings : Build → List Nat
  | .started => []
  | .inspecting listed services _ => listed :: services.map Prod.snd
  | .built payload => payload.readings
  | .failed _ => []

/-- Where a goroutine stands in `buildStatusPayload`. -/
inductive Place where
  | outside
  /-- Before the lock at the head of the loop. -/
  | looking
  | waiting (channel : Nat)
  | building (build : Build)
  | returned (result : Except String Payload)

def Place.readings : Place → List Nat
  | .building build => build.readings
  | .returned (.ok payload) => payload.readings
  | _ => []

structure State where
  now : Nat
  /-- The number of changes of the registry and the services. -/
  changes : Nat
  managed : List String
  statusSnapshot : Payload
  statusSnapshotAt : Nat
  statusSnapshotValid : Bool
  statusSnapshotBuildCh : Option Nat
  /-- The number of channels made. -/
  channels : Nat
  callers : Nat → Place
  /-- The last change of a command that has not called `invalidateStatusSnapshot` since. -/
  commands : Nat → Option Nat
  /-- The last change after which `invalidateStatusSnapshot` has returned. -/
  invalidated : Nat
  /-- The last such change when the call started. -/
  since : Nat → Nat

def newService (managed : List String) : State where
  now := 0
  changes := 0
  managed := managed
  statusSnapshot := {}
  statusSnapshotAt := 0
  statusSnapshotValid := false
  statusSnapshotBuildCh := none
  channels := 0
  callers _ := .outside
  commands _ := none
  invalidated := 0
  since _ := 0

inductive Event where
  | call (i : Nat)
  | look (i : Nat)
  | wake (i : Nat)
  | cancelled (i : Nat) (error : String)
  | listManagedServices (i : Nat)
  | inspectManagedService (i : Nat)
  | inspectFails (i : Nat) (error : String)
  | collect (i : Nat)
  | finish (i : Nat)
  /-- A command changes a service, or the registry, which then lists these names. -/
  | change (k : Nat) (managed : List String)
  | invalidateStatusSnapshot (k : Nat)
  | pass (duration : Nat)
deriving DecidableEq

namespace State

section
variable (s : State)

def goto (i : Nat) (place : Place) : State :=
  { s with callers := update s.callers i place }

def isCurrent : Bool :=
  s.statusSnapshotValid && s.now - s.statusSnapshotAt < statusSnapshotCacheTTL

/-- The first critical section of the loop. -/
def look (i : Nat) : State :=
  if s.isCurrent then s.goto i (.returned (.ok s.statusSnapshot))
  else
    match s.statusSnapshotBuildCh with
    | some channel => s.goto i (.waiting channel)
    | none =>
      { s with statusSnapshotBuildCh := some s.channels, channels := s.channels + 1 }.goto i
        (.building .started)

/-- The critical section at the end of a build. -/
def finish (i : Nat) : State :=
  match s.callers i with
  | .building (.built payload) =>
    { s with
      statusSnapshot := payload, statusSnapshotAt := s.now, statusSnapshotValid := true
      statusSnapshotBuildCh := none }.goto i (.returned (.ok payload))
  | .building (.failed error) =>
    { s with statusSnapshotBuildCh := none }.goto i (.returned (.error error))
  | _ => s

def invalidateStatusSnapshot : State :=
  { s with statusSnapshot := {}, statusSnapshotAt := 0, statusSnapshotValid := false }

def readRegistry : Build → Build
  | .started => .inspecting s.changes [] s.managed
  | build => build

def inspectNext : Build → Build
  | .inspecting listed services (name :: rest) =>
    .inspecting listed (services ++ [(name, s.changes)]) rest
  | build => build

def collect : Build → Build
  | .inspecting listed services [] => .built ⟨listed, services, s.changes, s.now⟩
  | build => build

def onBuild (i : Nat) (f : Build → Build) : State :=
  match s.callers i with
  | .building build => s.goto i (.building (f build))
  | _ => s

end

end State

def after (s : State) : Event → State
  | .call i => { s with since := update s.since i s.invalidated }.goto i .looking
  | .look i => s.look i
  | .wake i => s.goto i .looking
  | .cancelled i error => s.goto i (.returned (.error error))
  | .listManagedServices i => s.onBuild i s.readRegistry
  | .inspectManagedService i => s.onBuild i s.inspectNext
  | .inspectFails i error => s.onBuild i fun _ => .failed error
  | .collect i => s.onBuild i s.collect
  | .finish i => s.finish i
  | .change k managed =>
    { s with
      managed, changes := s.changes + 1
      commands := update s.commands k (some (s.changes + 1)) }
  | .invalidateStatusSnapshot k =>
    { s.invalidateStatusSnapshot with
      commands := update s.commands k none
      invalidated := max s.invalidated ((s.commands k).getD 0) }
  | .pass duration => { s with now := s.now + duration }

def Enabled (s : State) : Event → Prop
  | .call i => s.callers i = .outside ∨ ∃ result, s.callers i = .returned result
  | .look i => s.callers i = .looking
  | .wake i => ∃ channel, s.callers i = .waiting channel ∧ s.statusSnapshotBuildCh ≠ some channel
  | .cancelled i _ => ∃ channel, s.callers i = .waiting channel
  | .listManagedServices i => s.callers i = .building .started
  | .inspectManagedService i | .inspectFails i _ =>
    ∃ listed services name rest, s.callers i = .building (.inspecting listed services (name :: rest))
  | .collect i => ∃ listed services, s.callers i = .building (.inspecting listed services [])
  | .finish i => (∃ payload, s.callers i = .building (.built payload)) ∨
      ∃ error, s.callers i = .building (.failed error)
  | .change _ _ => True
  | .invalidateStatusSnapshot k => s.commands k ≠ none
  | .pass _ => True

/-- The calls of `buildStatusPayload` among the commands. -/
def manager : System State Event :=
  .guarded (fun s => ∃ managed, s = newService managed) Enabled after

/-- No call has returned data that were read before a change that was settled when it started. -/
def UpToDate (s : State) : Prop :=
  ∀ i payload, s.callers i = .returned (.ok payload) → ∀ n ∈ payload.readings, s.since i ≤ n

/-- A build that succeeds has read all its data after the last change that is settled. -/
def Fresh (s : State) : Event → Prop
  | .finish i => ∀ payload, s.callers i = .building (.built payload) →
      ∀ n ∈ payload.readings, s.invalidated ≤ n
  | _ => True

structure Invariant (s : State) : Prop where
  snapshot : s.statusSnapshotValid = true → ∀ n ∈ s.statusSnapshot.readings, s.invalidated ≤ n
  since : ∀ i, s.since i ≤ s.invalidated
  invalidated : s.invalidated ≤ s.changes
  commands : ∀ k n, s.commands k = some n → n ≤ s.changes
  callers : ∀ i, ∀ n ∈ (s.callers i).readings, s.since i ≤ n

theorem invariant_newService (managed : List String) : Invariant (newService managed) where
  snapshot := nofun
  since _ := Nat.le_refl _
  invalidated := Nat.le_refl _
  commands := nofun
  callers := nofun

namespace Invariant
variable {s : State} {i : Nat}

theorem upToDate (h : Invariant s) : UpToDate s := by
  intro i payload hplace
  have hreadings := h.callers i
  rw [hplace] at hreadings
  exact hreadings

theorem goto (h : Invariant s) (hplace : ∀ n ∈ place.readings, s.since i ≤ n) :
    Invariant (s.goto i place) where
  snapshot := h.snapshot
  since := h.since
  invalidated := h.invalidated
  commands := h.commands
  callers := by
    intro j
    change ∀ n ∈ (update s.callers i place j).readings, s.since j ≤ n
    by_cases hji : j = i
    · subst j
      rw [update_self]
      exact hplace
    · rw [update_of_ne hji]
      exact h.callers j

theorem onBuild (h : Invariant s)
    (hf : ∀ build, ∀ n ∈ (f build).readings, n ∈ build.readings ∨ n = s.changes) :
    Invariant (s.onBuild i f) := by
  rw [State.onBuild]
  split
  · rename_i build hplace
    apply h.goto
    intro n hn
    rcases hf build n hn with hold | rfl
    · have hreadings := h.callers i
      rw [hplace] at hreadings
      exact hreadings n hold
    · exact Nat.le_trans (h.since i) h.invalidated
  · exact h

theorem look (h : Invariant s) : Invariant (s.look i) := by
  rw [State.look]
  split
  · rename_i hcurrent
    rw [State.isCurrent, Bool.and_eq_true] at hcurrent
    apply h.goto
    intro n hn
    exact Nat.le_trans (h.since i) (h.snapshot hcurrent.1 n hn)
  · split
    · exact h.goto nofun
    · have hchannel : Invariant { s with
          statusSnapshotBuildCh := some s.channels, channels := s.channels + 1 } :=
        ⟨h.snapshot, h.since, h.invalidated, h.commands, h.callers⟩
      exact hchannel.goto nofun

theorem finish (h : Invariant s) (hfresh : Fresh s (.finish i)) : Invariant (s.finish i) := by
  rw [State.finish]
  split
  · rename_i payload hplace
    have hsnapshot : Invariant { s with
        statusSnapshot := payload, statusSnapshotAt := s.now, statusSnapshotValid := true
        statusSnapshotBuildCh := none } :=
      ⟨fun _ => hfresh payload hplace, h.since, h.invalidated, h.commands, h.callers⟩
    apply hsnapshot.goto
    have hreadings := h.callers i
    rw [hplace] at hreadings
    exact hreadings
  · have hdone : Invariant { s with statusSnapshotBuildCh := none } :=
      ⟨h.snapshot, h.since, h.invalidated, h.commands, h.callers⟩
    exact hdone.goto nofun
  · exact h

theorem call (h : Invariant s) : Invariant (after s (.call i)) where
  snapshot := h.snapshot
  since := by
    intro j
    change update s.since i s.invalidated j ≤ s.invalidated
    by_cases hji : j = i
    · subst j
      exact Nat.le_of_eq (update_self ..)
    · rw [update_of_ne hji]
      exact h.since j
  invalidated := h.invalidated
  commands := h.commands
  callers := by
    intro j
    change ∀ n ∈ (update s.callers i .looking j).readings, update s.since i s.invalidated j ≤ n
    by_cases hji : j = i
    · subst j
      rw [update_self]
      exact nofun
    · rw [update_of_ne hji, update_of_ne hji]
      exact h.callers j

theorem change (h : Invariant s) (k : Nat) (managed : List String) :
    Invariant (after s (.change k managed)) where
  snapshot := h.snapshot
  since := h.since
  invalidated := Nat.le_succ_of_le h.invalidated
  commands := by
    intro j n hj
    change update s.commands k (some (s.changes + 1)) j = some n at hj
    by_cases hjk : j = k
    · subst j
      rw [update_self, Option.some.injEq] at hj
      exact Nat.le_of_eq hj.symm
    · rw [update_of_ne hjk] at hj
      exact Nat.le_succ_of_le (h.commands j n hj)
  callers := h.callers

theorem invalidate (h : Invariant s) (k : Nat) :
    Invariant (after s (.invalidateStatusSnapshot k)) where
  snapshot := nofun
  since j := Nat.le_trans (h.since j) (Nat.le_max_left ..)
  invalidated := by
    apply Nat.max_le.2 ⟨h.invalidated, ?_⟩
    cases hk : s.commands k with
    | none => exact Nat.zero_le _
    | some n => exact h.commands k n hk
  commands := by
    intro j n hj
    change update s.commands k none j = some n at hj
    by_cases hjk : j = k
    · subst j
      rw [update_self] at hj
      cases hj
    · rw [update_of_ne hjk] at hj
      exact h.commands j n hj
  callers := h.callers

theorem after (h : Invariant s) (hfresh : Fresh s event) : Invariant (after s event) := by
  cases event with
  | call i => exact h.call
  | look i => exact h.look
  | wake i => exact h.goto nofun
  | cancelled i error => exact h.goto nofun
  | listManagedServices i =>
    apply h.onBuild
    intro build n hn
    cases build with
    | started =>
      simp only [State.readRegistry, Build.readings, map_nil, mem_singleton] at hn
      exact .inr hn
    | inspecting listed services rest => exact .inl hn
    | built payload => exact .inl hn
    | failed error => exact .inl hn
  | inspectManagedService i =>
    apply h.onBuild
    intro build n hn
    rcases build with _ | ⟨listed, services, _ | ⟨name, rest⟩⟩ | payload | error
    · exact .inl hn
    · exact .inl hn
    · simp only [State.inspectNext, Build.readings, map_append, map_cons, map_nil,
        mem_cons, mem_append, not_mem_nil, or_false] at hn ⊢
      exact or_assoc.2 hn
    · exact .inl hn
    · exact .inl hn
  | inspectFails i error => exact h.onBuild nofun
  | collect i =>
    apply h.onBuild
    intro build n hn
    rcases build with _ | ⟨listed, services, _ | ⟨name, rest⟩⟩ | payload | error
    · exact .inl hn
    · simp only [State.collect, Build.readings, Payload.readings, mem_cons] at hn ⊢
      rcases hn with hn | hn | hn
      · exact .inl (.inl hn)
      · exact .inr hn
      · exact .inl (.inr hn)
    · exact .inl hn
    · exact .inl hn
    · exact .inl hn
  | finish i => exact h.finish hfresh
  | change k managed => exact h.change k managed
  | invalidateStatusSnapshot k => exact h.invalidate k
  | pass duration => exact ⟨h.snapshot, h.since, h.invalidated, h.commands, h.callers⟩

end Invariant

/-- Where every build that succeeds is fresh, no status is older than the last settled change. -/
theorem status_upToDate {s t : State} {tr : List (State × Event)} (hinit : manager.init s)
    (hrun : manager.Run s tr t) (hfresh : ∀ p ∈ tr, Fresh p.1 p.2) :
    ∀ u ∈ states tr t, UpToDate u := by
  obtain ⟨managed, rfl⟩ := hinit
  have hinvariant : ∀ u ∈ states tr t, Invariant u := by
    apply hrun.forall_states (invariant_newService managed)
    rintro p hp h _ ⟨-, rfl⟩
    exact h.after (hfresh p hp)
  exact fun u hu => (hinvariant u hu).upToDate

def rebuilt : List Event :=
  [.change 0 ["edge-ui"], .invalidateStatusSnapshot 0, .call 0, .look 0, .listManagedServices 0,
    .inspectManagedService 0, .collect 0, .finish 0]

theorem status_upToDate_rebuilt :
    ∃ tr t, manager.Run (newService []) tr t ∧ tr.map Prod.snd = rebuilt ∧ ∀ u ∈ states tr t, UpToDate u := by
  have hrun : manager.Run (newService []) (replay after (newService []) rebuilt).1
      (replay after (newService []) rebuilt).2 := by
    apply System.run_replay
    simp only [rebuilt, replay, forall_mem_cons]
    exact ⟨trivial, nofun, .inl rfl, rfl, rfl, ⟨_, _, _, _, rfl⟩, ⟨_, _, rfl⟩, .inl ⟨_, rfl⟩, nofun⟩
  refine ⟨_, _, hrun, replay_labels .., ?_⟩
  apply status_upToDate ⟨[], rfl⟩ hrun
  simp only [rebuilt, replay, forall_mem_cons, Fresh, true_and]
  refine ⟨?_, nofun⟩
  rintro payload ⟨⟩
  decide

def overtaken : List Event :=
  [.call 0, .look 0, .listManagedServices 0, .collect 0, .change 0 ["edge-ui"],
    .invalidateStatusSnapshot 0, .finish 0, .call 1, .look 1]

theorem overtaken_status : ¬ ∀ s t tr, manager.init s → manager.Run s tr t →
    ∀ u ∈ states tr t, UpToDate u := by
  intro h
  have hrun : manager.Run (newService []) (replay after (newService []) overtaken).1
      (replay after (newService []) overtaken).2 := by
    apply System.run_replay overtaken
    simp only [overtaken, replay, forall_mem_cons]
    exact ⟨.inl rfl, rfl, rfl, ⟨_, _, rfl⟩, trivial, nofun, .inl ⟨_, rfl⟩, .inl rfl, rfl, nofun⟩
  have hstale := h _ _ _ ⟨[], rfl⟩ hrun _ (end_mem_states _ _) 1 ⟨0, [], 0, 0⟩ rfl 0
    (mem_cons_self ..)
  exact absurd hstale (by decide)

end Trakrai.RuntimeManager.Status
