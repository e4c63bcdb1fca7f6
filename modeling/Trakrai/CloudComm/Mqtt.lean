import Trakrai.Lib.Exclusive
import Trakrai.Lib.Transition

namespace Trakrai.CloudComm
open Function List Lib

inductive Link where
  | connected
  /-- `IsConnected` is false, and the connection-lost handler has yet to run. -/
  | dropped
  | closed
deriving DecidableEq

/-- Who calls `markDisconnected`: the connection-lost handler, or an attempt of
`PublishEnvelope`. -/
inductive Reporter where
  | connectionLost
  | publish (attempt : Nat)
deriving DecidableEq

/-- The functions that call `ensureReconnectLoop`. -/
inductive Caller where
  | start
  | healthMonitor
  | waitForClient (attempt readyCh : Nat)
  | markDisconnected (reporter : Reporter)
deriving DecidableEq

inductive Place where
  /-- Outside the service, or a goroutine that is not started yet. -/
  | outside
  /-- `StartHealthMonitor` after a tick. -/
  | healthMonitor
  | ensureReconnectLoop (caller : Caller)
  /-- The flag is set, `go m.reconnectLoop()` comes next. -/
  | spawnLoop (caller : Caller)
  -- the places of `reconnectLoop`
  | isClosed
  | hasConnectedClient
  | connect
  | subscribe (client : Nat) (generation : UInt64)
  | activateClient (client : Nat) (generation : UInt64)
  /-- `activateClient` after its section, before it disconnects the old client. -/
  | replaced (oldClient : Option Nat)
  | discard (client : Nat)
  | delay
  /-- The deferred section that clears the flag. -/
  | leaving
  -- the places of `PublishEnvelope` and of `waitForClient`, with the number of the attempt
  | waitForClient (attempt : Nat)
  | readClient (attempt : Nat)
  | checkClient (attempt : Nat) (client : Option Nat) (generation : UInt64) (readyCh : Nat)
  | waitReady (attempt readyCh : Nat)
  | publish (attempt client : Nat) (generation : UInt64)
  | markDisconnected (generation : UInt64) (reporter : Reporter)
  /-- `markDisconnected` after its section, before it disconnects the client. -/
  | marked (client : Nat) (reporter : Reporter)
  /-- `Disconnect` after `close(m.closedCh)`. -/
  | disconnecting
  /-- `Disconnect` after its section. -/
  | cleared (client : Option Nat)
deriving DecidableEq

structure MQTTService where
  client : Option Nat
  clientGeneration : UInt64
  /-- The current `readyCh`; channels are numbered in the order in which they are made. -/
  readyCh : Nat
  /-- Whether a channel is closed. -/
  closed : Nat → Bool
  /-- A closed channel was closed again, which ends the process. -/
  panicked : Bool
  reconnecting : Bool
  startOnce : Bool
  closeOnce : Bool
  /-- The number of clients made so far, the next one's identity. -/
  clients : Nat
  links : Nat → Link
  /-- The generation that a client's connection-lost handler was made with. -/
  generations : Nat → UInt64
  threads : Nat → Place

namespace MQTTService

def newMQTTService : MQTTService where
  client := none
  clientGeneration := 0
  readyCh := 0
  closed _ := false
  panicked := false
  reconnecting := false
  startOnce := false
  closeOnce := false
  clients := 0
  links _ := .closed
  generations _ := 0
  threads _ := .outside

section
variable (s : MQTTService)

def moveTo (t : Nat) (place : Place) : MQTTService :=
  { s with threads := update s.threads t place }

def isConnected (client : Nat) : Bool := s.links client = .connected

/-- `m.client != nil && m.client.IsConnected()`. -/
def connectedClient : Bool := s.client.any s.isConnected

/-- `client.Disconnect`. The handler of a connection that is lost already still runs. -/
def disconnect (client : Nat) : MQTTService :=
  if s.isConnected client then { s with links := update s.links client .closed } else s

/-- `m.client = nil` and `m.readyCh = make(chan struct{})`. -/
def clearClient : MQTTService := { s with client := none, readyCh := s.readyCh + 1 }

/-- The loop of `PublishEnvelope` after a failed attempt. -/
def nextAttempt (attempt : Nat) : Place :=
  if attempt < 2 then .waitForClient (attempt + 1) else .outside

/-- Where a goroutine goes on after `ensureReconnectLoop`. -/
def returnTo : Caller → Place
  | .start | .healthMonitor | .markDisconnected .connectionLost => .outside
  | .waitForClient attempt readyCh => .waitReady attempt readyCh
  | .markDisconnected (.publish attempt) => nextAttempt attempt

/-- Where a goroutine goes on after a `markDisconnected` that finds another client. -/
def ignored : Reporter → Place
  | .connectionLost => .outside
  | .publish attempt => nextAttempt attempt

inductive Action where
  | start (t : Nat)
  | tick (t : Nat)
  | healthMonitor (t : Nat)
  | ensureReconnectLoop (t : Nat) (caller : Caller)
  | spawnLoop (t : Nat) (caller : Caller) (loop : Nat)
  | isClosed (t : Nat)
  | hasConnectedClient (t : Nat)
  /-- The generation is the time. -/
  | connect (t : Nat) (generation : UInt64) (ok : Bool)
  | subscribe (t client : Nat) (generation : UInt64) (ok : Bool)
  | activateClient (t client : Nat) (generation : UInt64)
  | replaced (t : Nat) (oldClient : Option Nat)
  | discard (t client : Nat)
  | delayed (t : Nat)
  | delayClosed (t : Nat)
  | leave (t : Nat)
  | publishEnvelope (t : Nat)
  | waitForClient (t attempt : Nat)
  | readClient (t attempt : Nat)
  | checkClient (t attempt : Nat) (client : Option Nat) (generation : UInt64) (readyCh : Nat)
  | woken (t attempt readyCh : Nat)
  /-- The timer of `waitForClient`, or `closedCh`. -/
  | waitOver (t attempt readyCh : Nat)
  | published (t attempt client : Nat) (generation : UInt64)
  | publishFailed (t attempt client : Nat) (generation : UInt64)
  | markDisconnected (t : Nat) (generation : UInt64) (reporter : Reporter)
  | marked (t client : Nat) (reporter : Reporter)
  /-- The connection of a client is lost. -/
  | drop (client : Nat)
  | connectionLost (t client : Nat)
  | close (t : Nat)
  | clear (t : Nat)
  | cleared (t : Nat) (client : Option Nat)

/-- The place from which a goroutine takes a step, and what else the step waits for. -/
def At : Action → Prop
  | .start t => s.threads t = .outside ∧ s.startOnce = false
  | .tick t => s.threads t = .outside
  | .healthMonitor t => s.threads t = .healthMonitor
  | .ensureReconnectLoop t caller => s.threads t = .ensureReconnectLoop caller
  | .spawnLoop t caller loop => s.threads t = .spawnLoop caller ∧ s.threads loop = .outside
  | .isClosed t => s.threads t = .isClosed
  | .hasConnectedClient t => s.threads t = .hasConnectedClient
  | .connect t _ _ => s.threads t = .connect
  | .subscribe t client generation _ => s.threads t = .subscribe client generation
  | .activateClient t client generation => s.threads t = .activateClient client generation
  | .replaced t oldClient => s.threads t = .replaced oldClient
  | .discard t client => s.threads t = .discard client
  | .delayed t => s.threads t = .delay
  | .delayClosed t => s.threads t = .delay ∧ s.closeOnce
  | .leave t => s.threads t = .leaving
  | .publishEnvelope t => s.threads t = .outside
  | .waitForClient t attempt => s.threads t = .waitForClient attempt
  | .readClient t attempt => s.threads t = .readClient attempt
  | .checkClient t attempt client generation readyCh =>
    s.threads t = .checkClient attempt client generation readyCh
  | .woken t attempt readyCh => s.threads t = .waitReady attempt readyCh ∧ s.closed readyCh
  | .waitOver t attempt readyCh => s.threads t = .waitReady attempt readyCh
  | .published t attempt client generation => s.threads t = .publish attempt client generation
  | .publishFailed t attempt client generation => s.threads t = .publish attempt client generation
  | .markDisconnected t generation reporter => s.threads t = .markDisconnected generation reporter
  | .marked t client reporter => s.threads t = .marked client reporter
  | .drop client => s.links client = .connected
  | .connectionLost t client => s.threads t = .outside ∧ s.links client = .dropped
  | .close t => s.threads t = .outside ∧ s.closeOnce = false
  | .clear t => s.threads t = .disconnecting
  | .cleared t client => s.threads t = .cleared client

/-- Nothing runs after a panic. -/
def Enabled (action : Action) : Prop := s.panicked = false ∧ s.At action

end

instance (s : MQTTService) (action : Action) : Decidable (s.At action) :=
  match action with
  | .start _ | .spawnLoop _ _ _ | .delayClosed _ | .woken _ _ _ | .connectionLost _ _ | .close _ =>
    inferInstanceAs (Decidable (_ ∧ _))
  | .tick _ | .healthMonitor _ | .ensureReconnectLoop _ _ | .isClosed _ | .hasConnectedClient _
  | .connect _ _ _ | .subscribe _ _ _ _ | .activateClient _ _ _ | .replaced _ _ | .discard _ _
  | .delayed _ | .leave _ | .publishEnvelope _ | .waitForClient _ _ | .readClient _ _
  | .checkClient _ _ _ _ _ | .waitOver _ _ _ | .published _ _ _ _ | .publishFailed _ _ _ _
  | .markDisconnected _ _ _ | .marked _ _ _ | .drop _ | .clear _ | .cleared _ _ =>
    inferInstanceAs (Decidable (_ = _))

instance (s : MQTTService) (action : Action) : Decidable (s.Enabled action) :=
  inferInstanceAs (Decidable (_ ∧ _))

def after (s : MQTTService) : Action → MQTTService
  | .start t => { s.moveTo t (.ensureReconnectLoop .start) with startOnce := true }
  | .tick t => s.moveTo t .healthMonitor
  | .healthMonitor t =>
    s.moveTo t (if s.connectedClient then .outside else .ensureReconnectLoop .healthMonitor)
  | .ensureReconnectLoop t caller =>
    if s.reconnecting || s.closeOnce then s.moveTo t (returnTo caller)
    else { s.moveTo t (.spawnLoop caller) with reconnecting := true }
  | .spawnLoop t caller loop => (s.moveTo t (returnTo caller)).moveTo loop .isClosed
  | .isClosed t => s.moveTo t (if s.closeOnce then .leaving else .hasConnectedClient)
  | .hasConnectedClient t => s.moveTo t (if s.connectedClient then .leaving else .connect)
  | .connect t generation ok =>
    { s.moveTo t (if ok then .subscribe s.clients generation else .discard s.clients) with
      clients := s.clients + 1
      links := update s.links s.clients (if ok then .connected else .closed)
      generations := update s.generations s.clients generation }
  | .subscribe t client generation ok =>
    s.moveTo t (if ok then .activateClient client generation else .discard client)
  | .activateClient t client generation =>
    { s.moveTo t (.replaced s.client) with
      client := some client
      clientGeneration := generation
      closed := update s.closed s.readyCh true
      panicked := s.closed s.readyCh }
  | .replaced t oldClient =>
    let s := match oldClient with
      | some client => s.disconnect client
      | none => s
    s.moveTo t .leaving
  | .discard t client => (s.disconnect client).moveTo t .delay
  | .delayed t => s.moveTo t .isClosed
  | .delayClosed t => s.moveTo t .leaving
  | .leave t => { s.moveTo t .outside with reconnecting := false }
  | .publishEnvelope t => s.moveTo t (.waitForClient 1)
  | .waitForClient t attempt =>
    s.moveTo t (if s.closeOnce then nextAttempt attempt else .readClient attempt)
  | .readClient t attempt =>
    s.moveTo t (.checkClient attempt s.client s.clientGeneration s.readyCh)
  | .checkClient t attempt client generation readyCh =>
    match client.filter s.isConnected with
    | some client => s.moveTo t (.publish attempt client generation)
    | none => s.moveTo t (.ensureReconnectLoop (.waitForClient attempt readyCh))
  | .woken t attempt _ => s.moveTo t (.waitForClient attempt)
  | .waitOver t attempt _ => s.moveTo t (nextAttempt attempt)
  | .published t _ _ _ => s.moveTo t .outside
  | .publishFailed t attempt _ generation =>
    s.moveTo t (.markDisconnected generation (.publish attempt))
  | .markDisconnected t generation reporter =>
    match s.client with
    | none => s.moveTo t (ignored reporter)
    | some client =>
      if s.clientGeneration ≠ generation then s.moveTo t (ignored reporter)
      else s.clearClient.moveTo t (.marked client reporter)
  | .marked t client reporter =>
    (s.disconnect client).moveTo t (.ensureReconnectLoop (.markDisconnected reporter))
  | .drop client => { s with links := update s.links client .dropped }
  | .connectionLost t client =>
    { s.moveTo t (.markDisconnected (s.generations client) .connectionLost) with
      links := update s.links client .closed }
  | .close t => { s.moveTo t .disconnecting with closeOnce := true }
  | .clear t => s.clearClient.moveTo t (.cleared s.client)
  | .cleared t client =>
    let s := match client with
      | some client => s.disconnect client
      | none => s
    s.moveTo t .outside

def system : System MQTTService Action := .guarded (· = newMQTTService) Enabled after

/-- The goroutine has set `reconnecting` and not cleared it yet. -/
def holdsFlag : Place → Bool
  | .spawnLoop _ | .isClosed | .hasConnectedClient | .connect | .subscribe _ _ | .activateClient _ _
  | .replaced _ | .discard _ | .delay | .leaving => true
  | _ => false

/-- The loop has found no connected client and may activate a new one. -/
def connecting : Place → Bool
  | .connect | .subscribe _ _ | .activateClient _ _ => true
  | _ => false

theorem holdsFlag_of_connecting (h : connecting place) : holdsFlag place := by
  cases place <;> first | rfl | cases h

theorem holdsFlag_nextAttempt (attempt : Nat) : holdsFlag (nextAttempt attempt) = false := by
  rw [nextAttempt]
  split <;> rfl

theorem holdsFlag_returnTo (caller : Caller) : holdsFlag (returnTo caller) = false := by
  cases caller with
  | markDisconnected reporter =>
    cases reporter with
    | connectionLost => rfl
    | publish attempt => exact holdsFlag_nextAttempt attempt
  | _ => rfl

theorem holdsFlag_ignored (reporter : Reporter) : holdsFlag (ignored reporter) = false := by
  cases reporter with
  | connectionLost => rfl
  | publish attempt => exact holdsFlag_nextAttempt attempt

/-- `reconnecting` is set exactly while one loop runs or is about to be started. -/
def Looping (s : MQTTService) : Prop := Exclusive holdsFlag s.reconnecting s.threads

theorem Looping.moveTo (h : Looping s) (ht : s.threads t = source)
    (hp : holdsFlag place = holdsFlag source) : Looping (s.moveTo t place) := h.move ht hp

section
variable {s : MQTTService}

theorem Looping.disconnect {client : Nat} (h : Looping s)
    (ht : s.threads t = source) (hp : holdsFlag place = holdsFlag source) :
    Looping ((s.disconnect client).moveTo t place) := by
  rw [MQTTService.disconnect]
  split <;> exact h.move ht hp

theorem Looping.step (h : Looping s) (he : s.At action) : Looping (s.after action) := by
  cases action with
  | start t => exact h.move he.1 rfl
  | ensureReconnectLoop t caller =>
    rw [after]
    split
    case isTrue => exact h.moveTo he (holdsFlag_returnTo caller)
    case isFalse hf =>
      have hflag : s.reconnecting = false := by
        simp only [Bool.or_eq_true, not_or, Bool.not_eq_true] at hf
        exact hf.1
      exact (hflag ▸ h : Exclusive holdsFlag false s.threads).acquire rfl
  | spawnLoop t caller loop =>
    exact h.handOver he.1 rfl (by simp [holdsFlag_returnTo]) rfl
  | healthMonitor t | isClosed t | hasConnectedClient t | subscribe t client generation ok =>
    rw [after]
    split <;> exact h.moveTo he rfl
  | connect t generation ok => cases ok <;> exact h.move he rfl
  | activateClient t client generation => exact h.move he rfl
  | replaced t oldClient =>
    cases oldClient with
    | none => exact h.moveTo he rfl
    | some client => exact h.disconnect he rfl
  | discard t client => exact h.disconnect he rfl
  | delayClosed t => exact h.moveTo he.1 rfl
  | leave t => exact h.release he rfl Bool.false_ne_true
  | waitForClient t attempt =>
    rw [after]
    split
    · exact h.moveTo he (holdsFlag_nextAttempt attempt)
    · exact h.moveTo he rfl
  | checkClient t attempt client generation readyCh =>
    rw [after]
    split <;> exact h.moveTo he rfl
  | woken t attempt readyCh => exact h.moveTo he.1 rfl
  | waitOver t attempt readyCh => exact h.moveTo he (holdsFlag_nextAttempt attempt)
  | markDisconnected t generation reporter =>
    rw [after]
    split
    · exact h.moveTo he (holdsFlag_ignored reporter)
    · split
      · exact h.moveTo he (holdsFlag_ignored reporter)
      · exact h.move he rfl
  | marked t client reporter =>
    exact h.disconnect he rfl
  | drop client => exact h
  | connectionLost t client => exact h.move he.1 rfl
  | close t => exact h.move he.1 rfl
  | cleared t client =>
    cases client with
    | none => exact h.moveTo he rfl
    | some client => exact h.disconnect he rfl
  | tick t | delayed t | publishEnvelope t | readClient t attempt
  | published t attempt client generation | publishFailed t attempt client generation | clear t =>
    exact h.move he rfl

/-- The step takes the current client away: a `markDisconnected` with its generation, or
`Disconnect`. -/
def Clears (p : MQTTService × Action) : Prop :=
  match p.2 with
  | .markDisconnected _ generation _ => p.1.client ≠ none ∧ p.1.clientGeneration = generation
  | .clear _ => True
  | _ => False

/-- The step neither sets the client nor takes it away, and its goroutine is not one that
begins to connect. -/
structure Quiet (s t : MQTTService) : Prop where
  client : t.client = s.client
  readyCh : t.readyCh = s.readyCh
  closed : t.closed = s.closed
  panicked : t.panicked = s.panicked
  threads : ∀ u, connecting (t.threads u) → connecting (s.threads u)

theorem connecting_update (ht : s.threads t = source)
    (hp : connecting place → connecting source) :
    ∀ u, connecting (update s.threads t place u) → connecting (s.threads u) :=
  fun _ hu => of_inside_update ht hp hu

theorem Quiet.moveTo (ht : s.threads t = source)
    (hp : connecting place → connecting source) : Quiet s (s.moveTo t place) :=
  ⟨rfl, rfl, rfl, rfl, connecting_update ht hp⟩

theorem Quiet.disconnect {client : Nat} (ht : s.threads t = source)
    (hp : connecting place → connecting source) : Quiet s ((s.disconnect client).moveTo t place) := by
  rw [MQTTService.disconnect]
  split
  · exact ⟨rfl, rfl, rfl, rfl, connecting_update ht hp⟩
  · exact .moveTo ht hp

theorem not_connecting_nextAttempt (attempt : Nat) : ¬ connecting (nextAttempt attempt) := by
  intro h
  have hflag := holdsFlag_of_connecting h
  rw [holdsFlag_nextAttempt] at hflag
  cases hflag

theorem not_connecting_returnTo (caller : Caller) : ¬ connecting (returnTo caller) := by
  intro h
  have hflag := holdsFlag_of_connecting h
  rw [holdsFlag_returnTo] at hflag
  cases hflag

theorem not_connecting_ignored (reporter : Reporter) : ¬ connecting (ignored reporter) := by
  intro h
  have hflag := holdsFlag_of_connecting h
  rw [holdsFlag_ignored] at hflag
  cases hflag

theorem after_cases (he : s.At action) : (Quiet s (s.after action) ∧ ¬ Clears (s, action)) ∨
    (∃ t, action = .hasConnectedClient t) ∨
    (∃ t client generation, action = .activateClient t client generation) ∨
    (Clears (s, action) ∧ ∃ t place, ¬ connecting place ∧
      s.after action = s.clearClient.moveTo t place) := by
  cases action with
  | hasConnectedClient t => exact .inr (.inl ⟨t, rfl⟩)
  | activateClient t client generation => exact .inr (.inr (.inl ⟨t, client, generation, rfl⟩))
  | clear t => exact .inr (.inr (.inr ⟨trivial, t, _, by simp [connecting], rfl⟩))
  | markDisconnected t generation reporter =>
    rw [after]
    split
    · rename_i hnone
      refine .inl ⟨.moveTo he fun h => (not_connecting_ignored reporter h).elim, ?_⟩
      exact fun hclears => hclears.1 hnone
    · rename_i client hsome
      split
      · rename_i hne
        refine .inl ⟨.moveTo he fun h => (not_connecting_ignored reporter h).elim, ?_⟩
        exact fun hclears => hne hclears.2
      · rename_i heq
        refine .inr (.inr (.inr ⟨⟨?_, not_not.1 heq⟩, t, _, by simp [connecting], rfl⟩))
        simp [hsome]
  | start t => exact .inl ⟨⟨rfl, rfl, rfl, rfl, connecting_update he.1 nofun⟩, id⟩
  | ensureReconnectLoop t caller =>
    rw [after]
    split
    · exact .inl ⟨.moveTo he fun h => (not_connecting_returnTo caller h).elim, id⟩
    · exact .inl ⟨⟨rfl, rfl, rfl, rfl, connecting_update he nofun⟩, id⟩
  | spawnLoop t caller loop =>
    have hloop : (s.moveTo t (returnTo caller)).threads loop = .outside :=
      update_at_other he.1 he.2 (by simp)
    refine .inl ⟨⟨rfl, rfl, rfl, rfl, fun u hu => ?_⟩, id⟩
    have hfirst := connecting_update hloop (by nofun) u hu
    exact connecting_update he.1 (fun h => (not_connecting_returnTo caller h).elim) u hfirst
  | healthMonitor t | isClosed t =>
    rw [after]
    split <;> exact .inl ⟨.moveTo he nofun, id⟩
  | subscribe t client generation ok =>
    rw [after]
    split <;> exact .inl ⟨.moveTo he fun _ => rfl, id⟩
  | connect t generation ok =>
    exact .inl ⟨⟨rfl, rfl, rfl, rfl, connecting_update he fun _ => rfl⟩, id⟩
  | replaced t oldClient =>
    cases oldClient with
    | none => exact .inl ⟨.moveTo he nofun, id⟩
    | some client => exact .inl ⟨.disconnect he nofun, id⟩
  | discard t client => exact .inl ⟨.disconnect he nofun, id⟩
  | delayClosed t => exact .inl ⟨.moveTo he.1 nofun, id⟩
  | leave t => exact .inl ⟨⟨rfl, rfl, rfl, rfl, connecting_update he nofun⟩, id⟩
  | waitForClient t attempt =>
    rw [after]
    split
    · exact .inl ⟨.moveTo he fun h => (not_connecting_nextAttempt attempt h).elim, id⟩
    · exact .inl ⟨.moveTo he nofun, id⟩
  | checkClient t attempt client generation readyCh =>
    rw [after]
    split <;> exact .inl ⟨.moveTo he nofun, id⟩
  | woken t attempt readyCh => exact .inl ⟨.moveTo he.1 nofun, id⟩
  | waitOver t attempt readyCh =>
    exact .inl ⟨.moveTo he fun h => (not_connecting_nextAttempt attempt h).elim, id⟩
  | marked t client reporter => exact .inl ⟨.disconnect he nofun, id⟩
  | drop client => exact .inl ⟨⟨rfl, rfl, rfl, rfl, fun _ hu => hu⟩, id⟩
  | connectionLost t client | close t =>
    exact .inl ⟨⟨rfl, rfl, rfl, rfl, connecting_update he.1 nofun⟩, id⟩
  | cleared t client =>
    cases client with
    | none => exact .inl ⟨.moveTo he nofun, id⟩
    | some client => exact .inl ⟨.disconnect he nofun, id⟩
  | tick t | delayed t | publishEnvelope t | readClient t attempt
  | published t attempt client generation | publishFailed t attempt client generation =>
    exact .inl ⟨.moveTo he nofun, id⟩

/-- The current `readyCh` is closed exactly while there is a client, and those that will be made
are open. -/
def Signalled (s : MQTTService) : Prop :=
  s.closed s.readyCh = s.client.isSome ∧ ∀ ch, s.readyCh < ch → s.closed ch = false

theorem Signalled.step (h : Signalled s) (he : s.At action) : Signalled (s.after action) := by
  obtain ⟨hcur, hnext⟩ := h
  rcases after_cases he with ⟨hq, -⟩ | ⟨t, rfl⟩ | ⟨t, client, generation, rfl⟩ | ⟨-, t, place, -, heq⟩
  · rw [Signalled, hq.client, hq.readyCh, hq.closed]
    exact ⟨hcur, hnext⟩
  · exact ⟨hcur, hnext⟩
  · refine ⟨update_self .., ?_⟩
    intro ch hlt
    have hne : ch ≠ s.readyCh := (Nat.ne_of_lt hlt).symm
    exact (update_of_ne hne _ _).trans (hnext ch hlt)
  · rw [heq]
    exact ⟨hnext _ (Nat.lt_succ_self _), fun ch hlt => hnext ch (Nat.lt_of_succ_lt hlt)⟩

theorem client_after (he : s.At action)
    (ha : ∀ t client generation, action ≠ .activateClient t client generation) :
    (s.after action).client ≠ none ↔ s.client ≠ none ∧ ¬ Clears (s, action) := by
  rcases after_cases he with ⟨hq, hc⟩ | ⟨t, rfl⟩ | ⟨t, client, generation, rfl⟩ | ⟨hc, t, place, -, heq⟩
  · rw [hq.client]
    exact ⟨fun h => ⟨h, hc⟩, fun h => h.1⟩
  · exact ⟨fun h => ⟨h, id⟩, fun h => h.1⟩
  · exact (ha t client generation rfl).elim
  · rw [heq]
    exact ⟨fun h => (h rfl).elim, fun h => (h.2 hc).elim⟩

theorem connecting_after {t : Nat} (he : s.At action)
    (h : connecting ((s.after action).threads t)) :
    connecting (s.threads t) ∨ action = .hasConnectedClient t := by
  rcases after_cases he with ⟨hq, -⟩ | ⟨u, rfl⟩ | ⟨u, client, generation, rfl⟩ | ⟨-, u, place, hp, heq⟩
  · exact .inl (hq.threads t h)
  · by_cases hut : t = u
    · exact .inr (by rw [hut])
    · exact .inl (by simpa [after, moveTo, update_of_ne hut] using h)
  · exact .inl (connecting_update he (by nofun) t h)
  · rw [heq] at h
    by_cases hut : t = u
    · subst hut
      simp only [moveTo, update_self] at h
      exact (hp h).elim
    · exact .inl (by simpa [moveTo, clearClient, update_of_ne hut] using h)

end

/-- A client that the loop has found disconnected is cleared, by its connection-lost handler, a
failed publish or `Disconnect`, before the loop activates a new one. -/
def Noticed (tr : List (MQTTService × Action)) : Prop :=
  ∀ before s t mid u client generation rest,
    tr = before ++ (s, .hasConnectedClient t) :: mid ++ (u, .activateClient t client generation) :: rest →
    (∀ p ∈ mid, p.2 ≠ .hasConnectedClient t) → s.client ≠ none → ∃ p ∈ mid, Clears p

/-- What is known of a goroutine that connects: its last check, and that a client that is still
there was there then. -/
def Checked (tr : List (MQTTService × Action)) (s : MQTTService) (t : Nat) : Prop :=
  ∃ before u mid, tr = before ++ (u, .hasConnectedClient t) :: mid ∧
    (∀ p ∈ mid, p.2 ≠ .hasConnectedClient t) ∧
    (s.client ≠ none → u.client ≠ none ∧ ∀ p ∈ mid, ¬ Clears p)

theorem Checked.step (h : Checked tr s t) (hl : Looping s) (he : s.At action)
    (ht : connecting (s.threads t)) (hafter : connecting ((s.after action).threads t)) :
    Checked (tr ++ [(s, action)]) (s.after action) t := by
  obtain ⟨before, u, mid, rfl, hmid, hclient⟩ := h
  have hcheck : action ≠ .hasConnectedClient t := by
    rintro rfl
    have hplace : s.threads t = .hasConnectedClient := he
    rw [hplace] at ht
    cases ht
  have hactivate : ∀ v client generation, action ≠ .activateClient v client generation := by
    rintro v client generation rfl
    have hplace : s.threads v = .activateClient client generation := he
    -- only one goroutine connects, and this one is done
    have hvt : v = t := hl.unique (by rw [hplace]; rfl) (holdsFlag_of_connecting ht)
    subst hvt
    simp [after, moveTo, connecting] at hafter
  refine ⟨before, u, mid ++ [(s, action)], by simp, ?_, ?_⟩
  · intro p hp
    rcases mem_append.1 hp with hp | hp
    · exact hmid p hp
    · rw [mem_singleton.1 hp]
      exact hcheck
  · intro hsome
    obtain ⟨hs, hc⟩ := (client_after he hactivate).1 hsome
    obtain ⟨hu, hall⟩ := hclient hs
    refine ⟨hu, fun p hp => ?_⟩
    rcases mem_append.1 hp with hp | hp
    · exact hall p hp
    · rw [mem_singleton.1 hp]
      exact hc

theorem Noticed.of_append (h : Noticed (tr ++ tr')) : Noticed tr := by
  intro before s t mid u client generation rest htr
  exact h before s t mid u client generation (rest ++ tr') (by rw [htr]; simp)

/-- No channel was closed twice, and every goroutine that connects has its check behind it. -/
def Unbroken (tr : List (MQTTService × Action)) (s : MQTTService) : Prop :=
  s.panicked = false ∧ ∀ t, connecting (s.threads t) → Checked tr s t

theorem Unbroken.step (h : Unbroken tr s) (hl : Looping s) (hg : Signalled s)
    (he : s.At action) (hn : Noticed (tr ++ [(s, action)])) :
    Unbroken (tr ++ [(s, action)]) (s.after action) := by
  refine ⟨?_, ?_⟩
  · rcases after_cases he with ⟨hq, -⟩ | ⟨t, rfl⟩ | ⟨t, client, generation, rfl⟩ | ⟨-, t, place, -, heq⟩
    · rw [hq.panicked]
      exact h.1
    · exact h.1
    · -- the client that the loop found disconnected has been cleared
      have hplace : s.threads t = .activateClient client generation := he
      obtain ⟨before, u, mid, rfl, hmid, hclient⟩ := h.2 t (by rw [hplace]; rfl)
      have hnone : s.client = none := by
        by_contra hsome
        obtain ⟨hu, hall⟩ := hclient hsome
        obtain ⟨p, hp, hc⟩ := hn before u t mid s client generation [] (by simp) hmid hu
        exact hall p hp hc
      have hopen : s.closed s.readyCh = false := by rw [hg.1, hnone]; rfl
      exact hopen
    · rw [heq]
      exact h.1
  · intro t ht
    rcases connecting_after he ht with hc | rfl
    · exact (h.2 t hc).step hl he hc ht
    · exact ⟨tr, s, [], rfl, forall_mem_nil _, fun hs => ⟨hs, forall_mem_nil _⟩⟩

theorem sound_newMQTTService : Looping newMQTTService ∧ Signalled newMQTTService :=
  ⟨⟨nofun, iff_of_false Bool.false_ne_true nofun⟩, rfl, fun _ _ => rfl⟩

theorem sound_of_run (h : system.Run newMQTTService tr s) :
    ∀ u ∈ states tr s, Looping u ∧ Signalled u := by
  refine h.forall_states sound_newMQTTService ?_
  rintro p - ⟨hl, hg⟩ u ⟨he, rfl⟩
  exact ⟨hl.step he.2, hg.step he.2⟩

theorem client_of_run (h : system.Run s mid u) (hc : ∀ p ∈ mid, ¬ Clears p) (hs : s.client ≠ none): u.client ≠ none := by
  induction h with
  | nil => exact hs
  | @cons s action t mid u hstep hr ih =>
    obtain ⟨he, rfl⟩ := hstep
    obtain ⟨hfirst, hc⟩ := forall_mem_cons.1 hc
    apply ih hc
    by_cases ha : ∀ t client generation, action ≠ .activateClient t client generation
    · exact (client_after he.2 ha).2 ⟨hs, hfirst⟩
    · simp only [not_forall, not_not] at ha
      obtain ⟨t, client, generation, rfl⟩ := ha
      exact Option.some_ne_none _

/-- `activateClient` never closes a closed `readyCh`, and a closed `readyCh` has its client, in
exactly the runs in which a client that was found disconnected is cleared before it is replaced. -/
theorem never_closed_twice_iff (h : system.Run newMQTTService tr s) :
    (∀ u ∈ states tr s, u.panicked = false ∧ (u.closed u.readyCh → u.client ≠ none)) ↔
      Noticed tr := by
  constructor
  · intro hsafe before s₀ t mid u client generation rest htr hmid hs₀
    by_contra hnot
    have hc : ∀ p ∈ mid, ¬ Clears p := fun p hp hclears => hnot ⟨p, hp, hclears⟩
    rw [htr] at h
    obtain ⟨_, hfirst, hlast⟩ := h.of_append
    obtain ⟨_, -, hmiddle⟩ := hfirst.of_append
    cases hmiddle with
    | cons hcheck hmiddle =>
      obtain ⟨hcheck, rfl⟩ := hcheck
      cases hlast with
      | @cons _ _ v _ _ hactivate hlast =>
        obtain ⟨-, rfl⟩ := hactivate
        have hu : u.client ≠ none := client_of_run hmiddle hc hs₀
        obtain ⟨-, hg⟩ := sound_of_run h u
          (mem_states_of_mem (mem_append_right _ (mem_cons_self ..)))
        have hclosed : u.closed u.readyCh = true := by
          rw [hg.1, Option.isSome_iff_ne_none]
          exact hu
        -- the state after the activation is one of the run
        have hmem : u.after (.activateClient t client generation) ∈ states tr s := by
          rw [htr, states, map_append, append_assoc]
          exact mem_append_right _ (mem_cons_of_mem _ hlast.mem_states)
        have hpanic := (hsafe _ hmem).1
        rw [after] at hpanic
        exact Bool.eq_false_iff.1 hpanic hclosed
  · intro hn u hu
    have hend : Noticed tr → Unbroken tr s := by
      let I (tr : List (MQTTService × Action)) (s : MQTTService) : Prop :=
        Looping s ∧ Signalled s ∧ (Noticed tr → Unbroken tr s)
      have hstep {tr s action t} (hI : I tr s) (hs : system.step s action t) :
          I (tr ++ [(s, action)]) t := by
        obtain ⟨hl, hg, hu⟩ := hI
        obtain ⟨he, rfl⟩ := hs
        exact ⟨hl.step he.2, hg.step he.2, fun hn => (hu hn.of_append).step hl hg he.2 hn⟩
      have hstart : I [] newMQTTService :=
        ⟨sound_newMQTTService.1, sound_newMQTTService.2, fun _ => ⟨rfl, by rintro _ ⟨⟩⟩⟩
      exact (h.trace_invariant hstep hstart).2.2
    obtain ⟨-, hg⟩ := sound_of_run h u hu
    refine ⟨?_, ?_⟩
    · rcases mem_append.1 hu with hu | hu
      · obtain ⟨p, hp, rfl⟩ := mem_map.1 hu
        exact (h.enabled p hp).1
      · rw [mem_singleton.1 hu]
        exact (hend hn).1
    · intro hclosed
      rw [hg.1, Option.isSome_iff_ne_none] at hclosed
      exact hclosed

def connected : List Action :=
  [.start 0, .ensureReconnectLoop 0 .start, .spawnLoop 0 .start 1, .isClosed 1,
   .hasConnectedClient 1, .connect 1 10 true, .subscribe 1 0 10 true, .activateClient 1 0 10,
   .replaced 1 none, .leave 1]

def noticed : List Action :=
  connected ++ ([.drop 0, .tick 2, .healthMonitor 2, .ensureReconnectLoop 2 .healthMonitor,
   .spawnLoop 2 .healthMonitor 1, .isClosed 1, .hasConnectedClient 1, .connect 1 20 true,
   .connectionLost 3 0, .markDisconnected 3 10 .connectionLost, .marked 3 0 .connectionLost,
   .subscribe 1 1 20 true, .activateClient 1 1 20] : List Action)

theorem never_closed_twice_iff_noticed :
    ∃ tr s, system.Run newMQTTService tr s ∧ s.client = some 1 ∧ s.panicked = false ∧ Noticed tr := by
  have hrun : system.Run newMQTTService (replay after newMQTTService noticed).1
      (replay after newMQTTService noticed).2 :=
    System.run_replay noticed (by decide +kernel)
  have hsafe : ∀ u ∈ states (replay after newMQTTService noticed).1
      (replay after newMQTTService noticed).2,
      u.panicked = false ∧ (u.closed u.readyCh → u.client ≠ none) := by
    decide +kernel
  exact ⟨_, _, hrun, by decide +kernel, by decide +kernel, (never_closed_twice_iff hrun).1 hsafe⟩

def unnoticed : List Action :=
  connected ++ ([.drop 0, .tick 2, .healthMonitor 2, .ensureReconnectLoop 2 .healthMonitor,
   .spawnLoop 2 .healthMonitor 1, .isClosed 1, .hasConnectedClient 1, .connect 1 20 true,
   .subscribe 1 1 20 true, .activateClient 1 1 20] : List Action)

theorem unnoticed_panics : ∃ tr s, system.Run newMQTTService tr s ∧ s.panicked = true :=
  ⟨_, _, System.run_replay unnoticed (by decide +kernel), by decide +kernel⟩

end MQTTService

end Trakrai.CloudComm
