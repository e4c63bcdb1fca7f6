import Trakrai.Ipc.Registry
import Trakrai.Lib.Exclusive

namespace Trakrai.Ipc
open Function Lib

/-- The functions that call `ensureReconnectLoop`. -/
inductive Caller where
  | start
  | markDisconnected
deriving DecidableEq

inductive Place where
  /-- Outside the client, or a goroutine that is not started yet. -/
  | outside
  | ensureReconnectLoop (caller : Caller)
  /-- The flag is set, `go c.reconnectLoop()` comes next. -/
  | spawnLoop (caller : Caller)
  -- the places of `reconnectLoop`
  | isClosed
  | hasConnection
  | dial
  | registerService (conn : Conn)
  | activateConnection (conn : Conn)
  | spawnReaders (conn : Conn) (generation : UInt64)
  | discard (conn : Conn)
  | delay
  /-- The deferred section that clears the flag. -/
  | leaving
  | readLoop (conn : Conn) (generation : UInt64)
  /-- `tryRequest` after `waitForConnection`. -/
  | tryRequest (conn : Conn) (generation : UInt64)
  | markDisconnected (conn : Conn) (generation : UInt64)
  /-- `markDisconnected` after its section, before it closes the connection. -/
  | marked (conn : Conn)
  /-- `Close` after `close(c.closedCh)`. -/
  | closing
  /-- `Close` after its section, before it closes the connection that it took. -/
  | cleared (conn : Option Conn)
deriving DecidableEq

/-- The progress of the function under `startOnce`. -/
inductive StartPhase where
  | unused
  | running
  | done
deriving DecidableEq

/-- The progress of the function under `closeOnce`. -/
inductive ClosePhase where
  | unused
  | closing
  | cleared
  | returned
deriving DecidableEq

structure Client where
  conn : Option Conn
  connGeneration : UInt64
  /-- Whether the current `readyCh` is closed. -/
  readyClosed : Bool
  /-- Whether a closed `readyCh` was closed again. -/
  panicked : Bool
  reconnecting : Bool
  startOnce : StartPhase
  closeOnce : ClosePhase
  /-- The number of connections dialled so far, the next one's identity. -/
  dials : Nat
  /-- The connections that are dialled and not closed. -/
  opened : Conn → Bool
  threads : Nat → Place

namespace Client

def newClient : Client where
  conn := none
  connGeneration := 0
  readyClosed := false
  panicked := false
  reconnecting := false
  startOnce := .unused
  closeOnce := .unused
  dials := 0
  opened _ := false
  threads _ := .outside

def closedCh (s : Client) : Bool := s.closeOnce ≠ .unused

def moveTo (s : Client) (t : Nat) (place : Place) : Client :=
  { s with threads := update s.threads t place }

def closeConn (s : Client) (conn : Conn) : Client :=
  { s with opened := update s.opened conn false }

/-- `ensureReconnectLoop` returns; `Start` has nothing left to do then. -/
def returnTo (s : Client) : Caller → Client
  | .start => { s with startOnce := .done }
  | .markDisconnected => s

inductive Action where
  | start (t : Nat)
  | ensureReconnectLoop (t : Nat) (caller : Caller)
  | spawnLoop (t : Nat) (caller : Caller) (loop : Nat)
  | isClosed (t : Nat)
  | hasConnection (t : Nat)
  | dial (t : Nat) (ok : Bool)
  | registerService (t : Nat) (conn : Conn) (ok : Bool)
  | activateConnection (t : Nat) (conn : Conn)
  | spawnReaders (t : Nat) (conn : Conn) (generation : UInt64) (reader : Nat)
  | discard (t : Nat) (conn : Conn)
  | delayed (t : Nat)
  | delayClosed (t : Nat)
  | leave (t : Nat)
  | readClosed (t : Nat) (conn : Conn) (generation : UInt64)
  | readEnded (t : Nat) (conn : Conn) (generation : UInt64)
  | waitForConnection (t : Nat) (conn : Conn)
  | requestDone (t : Nat) (conn : Conn) (generation : UInt64)
  | requestFailed (t : Nat) (conn : Conn) (generation : UInt64)
  | markDisconnected (t : Nat) (conn : Conn) (generation : UInt64)
  | marked (t : Nat) (conn : Conn)
  | close (t : Nat)
  | clear (t : Nat)
  | cleared (t : Nat) (conn : Option Conn)

/-- The place from which a goroutine takes a step, and what else the step waits for. -/
def Enabled (s : Client) : Action → Prop
  | .start t => s.threads t = .outside ∧ s.startOnce = .unused
  | .ensureReconnectLoop t caller => s.threads t = .ensureReconnectLoop caller
  | .spawnLoop t caller loop => s.threads t = .spawnLoop caller ∧ s.threads loop = .outside
  | .isClosed t => s.threads t = .isClosed
  | .hasConnection t => s.threads t = .hasConnection
  | .dial t _ => s.threads t = .dial
  | .registerService t conn _ => s.threads t = .registerService conn
  | .activateConnection t conn => s.threads t = .activateConnection conn
  | .spawnReaders t conn generation reader =>
    s.threads t = .spawnReaders conn generation ∧ s.threads reader = .outside
  | .discard t conn => s.threads t = .discard conn
  | .delayed t => s.threads t = .delay
  | .delayClosed t => s.threads t = .delay ∧ s.closedCh
  | .leave t => s.threads t = .leaving
  | .readClosed t conn generation => s.threads t = .readLoop conn generation ∧ s.closedCh
  | .readEnded t conn generation => s.threads t = .readLoop conn generation
  | .waitForConnection t conn => s.threads t = .outside ∧ s.conn = some conn
  | .requestDone t conn generation => s.threads t = .tryRequest conn generation
  | .requestFailed t conn generation => s.threads t = .tryRequest conn generation
  | .markDisconnected t conn generation => s.threads t = .markDisconnected conn generation
  | .marked t conn => s.threads t = .marked conn
  | .close t => s.threads t = .outside ∧ s.closeOnce = .unused
  | .clear t => s.threads t = .closing
  | .cleared t conn => s.threads t = .cleared conn

instance (s : Client) (action : Action) : Decidable (Enabled s action) :=
  match action with
  | .start _ | .spawnLoop _ _ _ | .spawnReaders _ _ _ _ | .delayClosed _ | .readClosed _ _ _
  | .waitForConnection _ _ | .close _ => inferInstanceAs (Decidable (_ ∧ _))
  | .ensureReconnectLoop _ _ | .isClosed _ | .hasConnection _ | .dial _ _
  | .registerService _ _ _ | .activateConnection _ _ | .discard _ _ | .delayed _ | .leave _
  | .readEnded _ _ _ | .requestDone _ _ _ | .requestFailed _ _ _ | .markDisconnected _ _ _
  | .marked _ _ | .clear _ | .cleared _ _ => inferInstanceAs (Decidable (_ = _))

def after (s : Client) : Action → Client
  | .start t => { s.moveTo t (.ensureReconnectLoop .start) with startOnce := .running }
  | .ensureReconnectLoop t caller =>
    if s.reconnecting || s.closedCh then (s.moveTo t .outside).returnTo caller
    else { s.moveTo t (.spawnLoop caller) with reconnecting := true }
  | .spawnLoop t caller loop => ((s.moveTo t .outside).moveTo loop .isClosed).returnTo caller
  | .isClosed t => s.moveTo t (if s.closedCh then .leaving else .hasConnection)
  | .hasConnection t => s.moveTo t (if s.conn.isSome then .leaving else .dial)
  | .dial t false => s.moveTo t .delay
  | .dial t true =>
    { s.moveTo t (.registerService s.dials) with
      dials := s.dials + 1
      opened := update s.opened s.dials true }
  | .registerService t conn ok => s.moveTo t (if ok then .activateConnection conn else .discard conn)
  | .activateConnection t conn =>
    { s.moveTo t (.spawnReaders conn (s.connGeneration + 1)) with
      conn := some conn
      connGeneration := s.connGeneration + 1
      readyClosed := true
      panicked := s.panicked || s.readyClosed }
  | .spawnReaders t conn generation reader =>
    (s.moveTo t .leaving).moveTo reader (.readLoop conn generation)
  | .discard t conn => (s.closeConn conn).moveTo t .delay
  | .delayed t => s.moveTo t .isClosed
  | .delayClosed t => s.moveTo t .leaving
  | .leave t => { s.moveTo t .outside with reconnecting := false }
  | .readClosed t _ _ => s.moveTo t .outside
  | .readEnded t conn generation => s.moveTo t (.markDisconnected conn generation)
  | .waitForConnection t conn => s.moveTo t (.tryRequest conn s.connGeneration)
  | .requestDone t _ _ => s.moveTo t .outside
  | .requestFailed t conn generation => s.moveTo t (.markDisconnected conn generation)
  | .markDisconnected t conn generation =>
    if s.conn ≠ some conn ∨ s.connGeneration ≠ generation then s.moveTo t .outside
    else { s.moveTo t (.marked conn) with conn := none, readyClosed := false }
  | .marked t conn => (s.closeConn conn).moveTo t (.ensureReconnectLoop .markDisconnected)
  | .close t => { s.moveTo t .closing with closeOnce := .closing }
  | .clear t =>
    { s.moveTo t (.cleared s.conn) with closeOnce := .cleared, conn := none, readyClosed := false }
  | .cleared t conn =>
    let s := match conn with
      | some conn => s.closeConn conn
      | none => s
    { s.moveTo t .outside with closeOnce := .returned }

def system : System Client Action := .guarded (· = newClient) Enabled after

/-- The goroutine has set `reconnecting` and not cleared it yet. -/
def holdsFlag : Place → Bool
  | .spawnLoop _ | .isClosed | .hasConnection | .dial | .registerService _ | .activateConnection _
  | .spawnReaders _ _ | .discard _ | .delay | .leaving => true
  | _ => false

/-- The goroutine has seen that there is no connection and may make one. -/
def connecting : Place → Bool
  | .dial | .registerService _ | .activateConnection _ => true
  | _ => false

def inStart : Place → Bool
  | .ensureReconnectLoop .start | .spawnLoop .start => true
  | _ => false

/-- `reconnecting` is set exactly while one loop runs or is about to be started. -/
def Looping (s : Client) : Prop := Exclusive holdsFlag s.reconnecting s.threads

theorem Looping.returnTo (h : Looping s) : Looping (s.returnTo caller) := by
  cases caller with
  | start => exact h
  | markDisconnected => exact h

theorem Looping.step (h : Looping s) (he : Enabled s action) : Looping (after s action) := by
  cases action with
  | start t => exact h.move he.1 rfl
  | ensureReconnectLoop t caller =>
    rw [after]
    split
    case isTrue => exact Looping.returnTo (h.move he rfl)
    case isFalse hf =>
      have hflag : s.reconnecting = false := by
        simp only [Bool.or_eq_true, not_or, Bool.not_eq_true] at hf
        exact hf.1
      exact (hflag ▸ h : Exclusive holdsFlag false s.threads).acquire rfl
  | spawnLoop t caller loop =>
    exact Looping.returnTo (h.handOver he.1 rfl Bool.false_ne_true rfl)
  | isClosed t | hasConnection t =>
    rw [after]
    split <;> exact h.move he rfl
  | dial t ok => cases ok <;> exact h.move he rfl
  | registerService t conn ok => cases ok <;> exact h.move he rfl
  | activateConnection t conn => exact h.move he rfl
  | spawnReaders t conn generation reader =>
    exact h.start he.1 he.2 (by simp) rfl rfl
  | discard t conn => exact h.move he rfl
  | delayed t => exact h.move he rfl
  | delayClosed t => exact h.move he.1 rfl
  | leave t => exact h.release he rfl Bool.false_ne_true
  | readClosed t conn generation => exact h.move he.1 rfl
  | readEnded t conn generation => exact h.move he rfl
  | waitForConnection t conn => exact h.move he.1 rfl
  | requestDone t conn generation => exact h.move he rfl
  | requestFailed t conn generation => exact h.move he rfl
  | markDisconnected t conn generation =>
    rw [after]
    split <;> exact h.move he rfl
  | marked t conn => exact h.move he rfl
  | close t => exact h.move he.1 rfl
  | clear t => exact h.move he rfl
  | cleared t conn => cases conn <;> exact h.move he rfl

/-- One goroutine at most is inside `Start`, while `startOnce` runs. -/
def Starting (s : Client) : Prop :=
  Exclusive inStart (decide (s.startOnce = .running)) s.threads

theorem Starting.step (h : Starting s) (he : Enabled s action) : Starting (after s action) := by
  cases action with
  | start t =>
    have hflag : decide (s.startOnce = .running) = false := by simp [he.2]
    exact (hflag ▸ h : Exclusive inStart false s.threads).acquire rfl
  | ensureReconnectLoop t caller =>
    rw [after]
    split
    · cases caller with
      | start => exact h.release he rfl Bool.false_ne_true
      | markDisconnected => exact h.move he rfl
    · cases caller <;> exact h.move he rfl
  | spawnLoop t caller loop =>
    cases caller with
    | start =>
      have hleft : Starting ((s.moveTo t .outside).returnTo .start) :=
        h.release he.1 rfl Bool.false_ne_true
      exact hleft.move (update_at_other he.1 he.2 (by simp)) rfl
    | markDisconnected => exact h.start he.1 he.2 (by simp) rfl rfl
  | isClosed t | hasConnection t =>
    rw [after]
    split <;> exact h.move he rfl
  | dial t ok => cases ok <;> exact h.move he rfl
  | registerService t conn ok => cases ok <;> exact h.move he rfl
  | activateConnection t conn => exact h.move he rfl
  | spawnReaders t conn generation reader =>
    exact h.start he.1 he.2 (by simp) rfl rfl
  | discard t conn => exact h.move he rfl
  | delayed t => exact h.move he rfl
  | delayClosed t => exact h.move he.1 rfl
  | leave t => exact h.move he rfl
  | readClosed t conn generation => exact h.move he.1 rfl
  | readEnded t conn generation => exact h.move he rfl
  | waitForConnection t conn => exact h.move he.1 rfl
  | requestDone t conn generation => exact h.move he rfl
  | requestFailed t conn generation => exact h.move he rfl
  | markDisconnected t conn generation =>
    rw [after]
    split <;> exact h.move he rfl
  | marked t conn => exact h.move he rfl
  | close t => exact h.move he.1 rfl
  | clear t => exact h.move he rfl
  | cleared t conn => cases conn <;> exact h.move he rfl

/-- The current `readyCh` is closed exactly while there is a connection, none was closed twice,
and there is no connection while a loop makes one. -/
def Ready (s : Client) : Prop :=
  s.readyClosed = s.conn.isSome ∧ s.panicked = false ∧ ∀ t, connecting (s.threads t) → s.conn = none

theorem Ready.moveTo (h : Ready s) (ht : s.threads t = source)
    (hp : connecting place → connecting source) : Ready (s.moveTo t place) :=
  ⟨h.1, h.2.1, fun u hu => h.2.2 u (of_inside_update ht hp hu)⟩

theorem Ready.start (h : Ready s) (ht : s.threads t = source)
    (hu : s.threads u = .outside) (hne : .outside ≠ source)
    (hp : connecting place → connecting source) (hp' : connecting place' → False) :
    Ready ((s.moveTo t place).moveTo u place') :=
  (h.moveTo ht hp).moveTo (update_at_other ht hu hne) fun hc => (hp' hc).elim

theorem holdsFlag_of_connecting (h : connecting place) : holdsFlag place := by
  cases place <;> first | rfl | cases h

theorem Ready.activateConnection {s : Client} {conn : Conn} (h : Ready s) (hl : Looping s)
    (ht : s.threads t = .activateConnection conn) :
    Ready (after s (.activateConnection t conn)) := by
  obtain ⟨hr, hp, hc⟩ := h
  have hnone : s.conn = none := hc t (by rw [ht]; rfl)
  have hready : s.readyClosed = false := by rw [hr, hnone]; rfl
  refine ⟨rfl, ?_, ?_⟩
  · simp [after, hp, hready]
  · intro u hu
    have hut : u ≠ t := by
      rintro rfl
      simp [after, Client.moveTo, connecting] at hu
    have hu' : connecting (s.threads u) := by
      simpa [after, Client.moveTo, update_of_ne hut] using hu
    -- the only goroutine with the flag is the one that activates its connection
    have heq : u = t := hl.unique (holdsFlag_of_connecting hu') (by rw [ht]; rfl)
    exact (hut heq).elim

theorem Ready.step (h : Ready s) (hl : Looping s) (he : Enabled s action) :
    Ready (after s action) := by
  cases action with
  | start t => exact h.moveTo he.1 nofun
  | ensureReconnectLoop t caller =>
    rw [after]
    split
    · cases caller <;> exact h.moveTo he nofun
    · exact h.moveTo he nofun
  | spawnLoop t caller loop => cases caller <;> exact h.start he.1 he.2 (by simp) nofun nofun
  | isClosed t =>
    rw [after]
    split <;> exact h.moveTo he nofun
  | hasConnection t =>
    rw [after]
    split
    case isTrue => exact h.moveTo he nofun
    case isFalse hc =>
      have hnone : s.conn = none := by simpa using hc
      exact ⟨h.1, h.2.1, fun _ _ => hnone⟩
  | dial t ok => cases ok <;> exact h.moveTo he fun _ => rfl
  | registerService t conn ok => cases ok <;> exact h.moveTo he fun _ => rfl
  | activateConnection t conn => exact h.activateConnection hl he
  | spawnReaders t conn generation reader => exact h.start he.1 he.2 (by simp) nofun nofun
  | discard t conn => exact h.moveTo he nofun
  | delayed t => exact h.moveTo he nofun
  | delayClosed t => exact h.moveTo he.1 nofun
  | leave t => exact h.moveTo he nofun
  | readClosed t conn generation => exact h.moveTo he.1 nofun
  | readEnded t conn generation => exact h.moveTo he nofun
  | waitForConnection t conn => exact h.moveTo he.1 nofun
  | requestDone t conn generation => exact h.moveTo he nofun
  | requestFailed t conn generation => exact h.moveTo he nofun
  | markDisconnected t conn generation =>
    rw [after]
    split
    · exact h.moveTo he nofun
    · exact ⟨rfl, h.2.1, fun _ _ => rfl⟩
  | marked t conn => exact h.moveTo he nofun
  | close t => exact h.moveTo he.1 nofun
  | clear t => exact ⟨rfl, h.2.1, fun _ _ => rfl⟩
  | cleared t conn => cases conn <;> exact h.moveTo he nofun

/-- The goroutine holds a connection that it either closes or makes the current one. -/
def owns (conn : Conn) : Place → Bool
  | .registerService conn' | .activateConnection conn' | .discard conn' | .marked conn' =>
    conn' == conn
  | .cleared conn' => conn' == some conn
  | _ => false

/-- Every open connection is the current one or is in the hands of a goroutine. -/
def Held (s : Client) : Prop :=
  ∀ conn, s.opened conn → s.conn = some conn ∨ ∃ t, owns conn (s.threads t)

theorem Held.moveTo (h : Held s) (ht : s.threads t = source)
    (hp : ∀ conn, owns conn source → owns conn place) : Held (s.moveTo t place) := by
  intro conn hc
  exact (h conn hc).imp_right fun hu => exists_update hu ht (hp conn)

theorem Held.start (h : Held s) (ht : s.threads t = source)
    (hu : s.threads u = .outside) (hne : .outside ≠ source)
    (hp : ∀ conn, owns conn source → owns conn place) :
    Held ((s.moveTo t place).moveTo u place') :=
  (h.moveTo ht hp).moveTo (update_at_other ht hu hne) nofun

theorem Held.close {s : Client} {conn : Conn} (h : Held s) (ht : s.threads t = source)
    (hp : ∀ conn', conn' ≠ conn → owns conn' source → owns conn' place) :
    Held ((s.closeConn conn).moveTo t place) := by
  intro conn' hc
  have hne : conn' ≠ conn := by
    rintro rfl
    simp [Client.moveTo, closeConn] at hc
  have hopen : s.opened conn' := by
    simpa [Client.moveTo, closeConn, update_of_ne hne] using hc
  exact (h conn' hopen).imp_right fun hu => exists_update hu ht (hp conn' hne)

theorem Held.dial (h : Held s) (ht : s.threads t = .dial) : Held (after s (.dial t true)) := by
  intro conn hc
  by_cases hd : conn = s.dials
  · exact .inr ⟨t, by simp [after, Client.moveTo, owns, hd]⟩
  · have hopen : s.opened conn := by
      simpa [after, Client.moveTo, update_of_ne hd] using hc
    exact (h conn hopen).imp_right fun hu => exists_update hu ht nofun

theorem Held.activateConnection {s : Client} {conn : Conn} (h : Held s) (hr : Ready s)
    (ht : s.threads t = .activateConnection conn) :
    Held (after s (.activateConnection t conn)) := by
  have hnone : s.conn = none := hr.2.2 t (by rw [ht]; rfl)
  intro conn' hc
  by_cases hcc : conn = conn'
  · exact .inl (by rw [← hcc]; rfl)
  · rcases h conn' hc with hcur | hu
    · rw [hnone] at hcur
      cases hcur
    · refine .inr (exists_update hu ht ?_)
      intro ho
      exact (hcc (by simpa [owns] using ho)).elim

theorem Held.take (h : Held s) (ht : s.threads t = source)
    (hp : ∀ conn, owns conn source → owns conn place)
    (htake : ∀ conn, s.conn = some conn → owns conn place) :
    Held { s.moveTo t place with conn := none, readyClosed := false } := by
  intro conn hc
  rcases h conn hc with hcur | hu
  · exact .inr ⟨t, by simpa [Client.moveTo] using htake conn hcur⟩
  · exact .inr (exists_update hu ht (hp conn))

theorem Held.step (h : Held s) (hr : Ready s) (he : Enabled s action) : Held (after s action) := by
  cases action with
  | start t => exact h.moveTo he.1 nofun
  | ensureReconnectLoop t caller =>
    rw [after]
    split
    · cases caller <;> exact h.moveTo he nofun
    · exact h.moveTo he nofun
  | spawnLoop t caller loop => cases caller <;> exact h.start he.1 he.2 (by simp) nofun
  | isClosed t => exact h.moveTo he nofun
  | hasConnection t => exact h.moveTo he nofun
  | dial t ok =>
    cases ok with
    | false => exact h.moveTo he nofun
    | true => exact h.dial he
  | registerService t conn ok => cases ok <;> exact h.moveTo he fun _ ho => ho
  | activateConnection t conn => exact h.activateConnection hr he
  | spawnReaders t conn generation reader => exact h.start he.1 he.2 (by simp) nofun
  | discard t conn =>
    exact h.close he fun conn' hne ho => (hne (beq_iff_eq.1 ho).symm).elim
  | delayed t => exact h.moveTo he nofun
  | delayClosed t => exact h.moveTo he.1 nofun
  | leave t => exact h.moveTo he nofun
  | readClosed t conn generation => exact h.moveTo he.1 nofun
  | readEnded t conn generation => exact h.moveTo he nofun
  | waitForConnection t conn => exact h.moveTo he.1 nofun
  | requestDone t conn generation => exact h.moveTo he nofun
  | requestFailed t conn generation => exact h.moveTo he nofun
  | markDisconnected t conn generation =>
    rw [after]
    split
    case isTrue => exact h.moveTo he nofun
    case isFalse hm =>
      simp only [ne_eq, not_or, not_not] at hm
      refine h.take he nofun ?_
      intro conn' hc
      rw [hm.1] at hc
      simpa [owns] using hc
  | marked t conn =>
    exact h.close he fun conn' hne ho => (hne (beq_iff_eq.1 ho).symm).elim
  | close t => exact h.moveTo he.1 nofun
  | clear t => exact h.take he nofun fun conn hc => by simp [owns, hc]
  | cleared t conn =>
    cases conn with
    | none => exact h.moveTo he nofun
    | some conn =>
      exact h.close he fun conn' hne ho => (hne (Option.some.inj (beq_iff_eq.1 ho)).symm).elim

/-- `Close` has been through its section. -/
def ClosePhase.over : ClosePhase → Bool
  | .cleared | .returned => true
  | _ => false

def atCleared : Place → Bool
  | .cleared _ => true
  | _ => false

def atActivate : Place → Bool
  | .activateConnection _ => true
  | _ => false

/-- No registration succeeds once `Close` has been through its section, and `Close` does not go
through it between a registration and the activation of its connection. -/
def Timely (s : Client) : Action → Prop
  | .registerService _ _ ok => ok = true → ClosePhase.over s.closeOnce = false
  | .clear _ => ∀ t, atActivate (s.threads t) = false
  | _ => True

/-- `Close` leaves neither a connection nor a goroutine that would activate one. -/
def Settled (s : Client) : Prop :=
  (∀ t, atCleared (s.threads t) → ClosePhase.over s.closeOnce) ∧
  (ClosePhase.over s.closeOnce → s.conn = none ∧ ∀ t, ¬ atActivate (s.threads t))

theorem Settled.moveTo (h : Settled s) (ht : s.threads t = source)
    (hp : atCleared place → atCleared source) (hp' : atActivate place → atActivate source) :
    Settled (s.moveTo t place) := by
  refine ⟨fun u hu => h.1 u (of_inside_update ht hp hu), ?_⟩
  intro hover
  obtain ⟨hc, ha⟩ := h.2 hover
  exact ⟨hc, fun u hu => ha u (of_inside_update ht hp' hu)⟩

theorem Settled.start (h : Settled s) (ht : s.threads t = source)
    (hu : s.threads u = .outside) (hne : .outside ≠ source)
    (hp : atCleared place → atCleared source) (hp' : atActivate place → atActivate source)
    (hq : atCleared place' → False) (hq' : atActivate place' → False) :
    Settled ((s.moveTo t place).moveTo u place') :=
  (h.moveTo ht hp hp').moveTo (update_at_other ht hu hne) (fun hc => (hq hc).elim)
    fun hc => (hq' hc).elim

theorem Settled.step (h : Settled s) (hto : Timely s action) (he : Enabled s action): Settled (after s action) := by
  cases action with
  | start t => exact h.moveTo he.1 nofun nofun
  | ensureReconnectLoop t caller =>
    rw [after]
    split
    · cases caller <;> exact h.moveTo he nofun nofun
    · exact h.moveTo he nofun nofun
  | spawnLoop t caller loop =>
    cases caller <;> exact h.start he.1 he.2 (by simp) nofun nofun nofun nofun
  | isClosed t | hasConnection t =>
    rw [after]
    split <;> exact h.moveTo he nofun nofun
  | dial t ok => cases ok <;> exact h.moveTo he nofun nofun
  | registerService t conn ok =>
    cases ok with
    | false => exact h.moveTo he nofun nofun
    | true =>
      have hover : ClosePhase.over s.closeOnce = false := hto rfl
      refine ⟨fun u hu => h.1 u (of_inside_update he (by nofun) hu), ?_⟩
      intro hover'
      exact (Bool.eq_false_iff.1 hover hover').elim
  | activateConnection t conn =>
    have hover : ¬ ClosePhase.over s.closeOnce := by
      intro hover
      exact (h.2 hover).2 t (by rw [he]; rfl)
    exact ⟨fun u hu => h.1 u (of_inside_update he (by nofun) hu), fun hover' => (hover hover').elim⟩
  | spawnReaders t conn generation reader =>
    exact h.start he.1 he.2 (by simp) nofun nofun nofun nofun
  | discard t conn => exact h.moveTo he nofun nofun
  | delayed t => exact h.moveTo he nofun nofun
  | delayClosed t => exact h.moveTo he.1 nofun nofun
  | leave t => exact h.moveTo he nofun nofun
  | readClosed t conn generation => exact h.moveTo he.1 nofun nofun
  | readEnded t conn generation => exact h.moveTo he nofun nofun
  | waitForConnection t conn => exact h.moveTo he.1 nofun nofun
  | requestDone t conn generation => exact h.moveTo he nofun nofun
  | requestFailed t conn generation => exact h.moveTo he nofun nofun
  | markDisconnected t conn generation =>
    rw [after]
    split
    · exact h.moveTo he nofun nofun
    · have hm : Settled (s.moveTo t (.marked conn)) := h.moveTo he nofun nofun
      obtain ⟨hcl, hset⟩ := hm
      exact ⟨hcl, fun hover => ⟨rfl, (hset hover).2⟩⟩
  | marked t conn => exact h.moveTo he nofun nofun
  | close t =>
    refine ⟨?_, nofun⟩
    intro u hu
    have hover := h.1 u (of_inside_update he.1 (by nofun) hu)
    rw [he.2] at hover
    cases hover
  | clear t =>
    refine ⟨fun _ _ => rfl, fun _ => ⟨rfl, fun u hu => ?_⟩⟩
    have hu' : atActivate (s.threads u) := of_inside_update he (by nofun) hu
    rw [hto u] at hu'
    cases hu'
  | cleared t conn =>
    obtain ⟨hc, ha⟩ := h.2 (h.1 t (by rw [he]; rfl))
    refine ⟨fun _ _ => rfl, fun _ => ⟨by cases conn <;> exact hc, fun u hu => ?_⟩⟩
    have hu' : atActivate (update s.threads t .outside u) := by cases conn <;> exact hu
    exact ha u (of_inside_update he (by nofun) hu')

/-- The loop will attempt another connection, unless it is closed or finds one. -/
def attempts : Place → Bool
  | .isClosed | .hasConnection | .dial | .registerService _ | .activateConnection _ | .discard _
  | .delay => true
  | _ => false

/-- The goroutine is inside `markDisconnected` and about to start a loop. -/
def restarts : Place → Bool
  | .marked _ | .ensureReconnectLoop .markDisconnected | .spawnLoop .markDisconnected => true
  | _ => false

def supplies (place : Place) : Bool := attempts place || restarts place

/-- The loop has activated a connection or found one and has yet to clear the flag. -/
def exiting : Place → Bool
  | .spawnReaders _ _ | .leaving => true
  | _ => false

/-- A client that is started, not closed and has no connection is about to make one. -/
def Supplied (s : Client) : Prop :=
  s.startOnce = .done → s.closedCh = false → s.conn = none →
    ∃ t, attempts (s.threads t) ∨ restarts (s.threads t)

/-- No goroutine asks for a loop while the one that has the flag is on its way out. -/
def Unhurried (s : Client) : Action → Prop
  | .ensureReconnectLoop _ _ => s.closedCh = false → ∀ t, exiting (s.threads t) = false
  | _ => True

theorem supplied_iff : Supplied s ↔ (s.startOnce = .done → s.closedCh = false → s.conn = none →
      ∃ t, supplies (s.threads t)) := by
  simp only [Supplied, supplies, Bool.or_eq_true]

theorem Supplied.moveTo (h : Supplied s) (ht : s.threads t = source)
    (hp : supplies source → supplies place) : Supplied (s.moveTo t place) := by
  rw [supplied_iff] at h ⊢
  intro hs hc hn
  exact exists_update (h hs hc hn) ht hp

theorem Supplied.start (h : Supplied s) (ht : s.threads t = source)
    (hu : s.threads u = .outside) (hne : .outside ≠ source) (hp : supplies source → supplies place):
    Supplied ((s.moveTo t place).moveTo u place') :=
  (h.moveTo ht hp).moveTo (update_at_other ht hu hne) nofun

theorem supplied_of_thread (h : supplies (s.threads t)) : Supplied s :=
  supplied_iff.2 fun _ _ _ => ⟨t, h⟩

theorem supplies_of_holdsFlag (h : holdsFlag place) (hx : exiting place = false)
    (hs : inStart place = false) : supplies place := by
  cases place with
  | spawnLoop caller => cases caller <;> first | rfl | cases hs
  | spawnReaders conn generation => cases hx
  | leaving => cases hx
  | _ => first | rfl | cases h

theorem Supplied.ensureReconnectLoop (hl : Looping s) (hst : Starting s)
    (hu : Unhurried s (.ensureReconnectLoop t caller))
    (he : s.threads t = .ensureReconnectLoop caller) (hf : s.reconnecting || s.closedCh) :
    Supplied ((s.moveTo t .outside).returnTo caller) := by
  rw [supplied_iff]
  intro hs hc hn
  have hopen : s.closedCh = false := by cases caller <;> exact hc
  have hflag : s.reconnecting = true := by simpa [hopen] using hf
  obtain ⟨u, hholds⟩ := hl.held_iff.1 hflag
  have hut : u ≠ t := by
    rintro rfl
    rw [he] at hholds
    cases hholds
  have hstart : inStart (s.threads u) = false := by
    by_contra hin
    rw [Bool.not_eq_false] at hin
    cases caller with
    | start => exact hut (hst.unique hin (by rw [he]; rfl))
    | markDisconnected =>
      -- `Start` has returned
      have hdone : s.startOnce = .done := hs
      have hrunning := hst.held_iff.2 ⟨u, hin⟩
      rw [hdone] at hrunning
      cases hrunning
  refine ⟨u, ?_⟩
  have hplace : ((s.moveTo t .outside).returnTo caller).threads u = s.threads u := by
    cases caller <;> exact update_of_ne hut _ _
  rw [hplace]
  exact supplies_of_holdsFlag hholds (hu hopen u) hstart

theorem Supplied.step (h : Supplied s) (hl : Looping s) (hst : Starting s)
    (hu : Unhurried s action) (he : Enabled s action) : Supplied (after s action) := by
  cases action with
  | start t => exact nofun
  | ensureReconnectLoop t caller =>
    rw [after]
    split
    case isTrue hf => exact .ensureReconnectLoop hl hst hu he hf
    case isFalse =>
      cases caller with
      | start =>
        have hrunning := hst.held_iff.2 ⟨t, by rw [he]; rfl⟩
        intro hdone
        have hdone' : s.startOnce = .done := hdone
        rw [hdone'] at hrunning
        cases hrunning
      | markDisconnected =>
        exact supplied_of_thread (t := t) (by simp [Client.moveTo, supplies, restarts])
  | spawnLoop t caller loop =>
    refine supplied_of_thread (t := loop) ?_
    cases caller <;> simp [after, returnTo, Client.moveTo, supplies, attempts]
  | isClosed t =>
    rw [after]
    split
    case isTrue hc =>
      intro _ hopen
      exact (Bool.eq_false_iff.1 hopen hc).elim
    case isFalse => exact h.moveTo he fun _ => rfl
  | hasConnection t =>
    rw [after]
    split
    case isTrue hc =>
      intro _ _ hn
      have hnone : s.conn = none := hn
      rw [hnone] at hc
      cases hc
    case isFalse => exact h.moveTo he fun _ => rfl
  | dial t ok => cases ok <;> exact h.moveTo he fun _ => rfl
  | registerService t conn ok => cases ok <;> exact h.moveTo he fun _ => rfl
  | activateConnection t conn => exact nofun
  | spawnReaders t conn generation reader => exact h.start he.1 he.2 (by simp) nofun
  | discard t conn => exact h.moveTo he fun _ => rfl
  | delayed t => exact h.moveTo he fun _ => rfl
  | delayClosed t =>
    intro _ hopen
    exact (Bool.eq_false_iff.1 hopen he.2).elim
  | leave t => exact h.moveTo he nofun
  | readClosed t conn generation => exact h.moveTo he.1 nofun
  | readEnded t conn generation => exact h.moveTo he nofun
  | waitForConnection t conn => exact h.moveTo he.1 nofun
  | requestDone t conn generation => exact h.moveTo he nofun
  | requestFailed t conn generation => exact h.moveTo he nofun
  | markDisconnected t conn generation =>
    rw [after]
    split
    · exact h.moveTo he nofun
    · exact supplied_of_thread (t := t) (by simp [Client.moveTo, supplies, restarts])
  | marked t conn => exact h.moveTo he fun _ => rfl
  | close t => exact nofun
  | clear t => exact nofun
  | cleared t conn => exact nofun

def Sound (s : Client) : Prop := Looping s ∧ Starting s ∧ Ready s ∧ Held s

theorem sound_newClient : Sound newClient := by
  refine ⟨⟨nofun, ?_⟩, ⟨nofun, ?_⟩, ⟨rfl, rfl, nofun⟩, nofun⟩
  · exact iff_of_false Bool.false_ne_true nofun
  · exact iff_of_false Bool.false_ne_true nofun

theorem Sound.step (h : Sound s) (hs : system.step s action t) : Sound t := by
  obtain ⟨hl, hst, hr, hh⟩ := h
  obtain ⟨he, rfl⟩ := hs
  exact ⟨hl.step he, hst.step he, hr.step hl he, hh.step hr he⟩

theorem sound_of_run (h : system.Run newClient tr s) : ∀ u ∈ states tr s, Sound u :=
  h.forall_states sound_newClient fun _ _ hI _ hs => hI.step hs

/-- At any time one goroutine at most reconnects, none dials while there is a connection, and no open
connection is lost. -/
theorem connection_held (h : system.Run newClient tr s) : ∀ u ∈ states tr s,
    (∀ t t', holdsFlag (u.threads t) → holdsFlag (u.threads t') → t = t') ∧
      (∀ t, connecting (u.threads t) → u.conn = none) ∧
      ∀ conn, u.opened conn → u.conn = some conn ∨ ∃ t, owns conn (u.threads t) := by
  intro u hu
  obtain ⟨hloop, -, ⟨-, -, hmakes⟩, hheld⟩ := sound_of_run h u hu
  exact ⟨fun _ _ => hloop.unique, hmakes, hheld⟩

/-- The reconnect never stalls in a run in which no goroutine asks for a loop while the last one
is on its way out. -/
theorem supplied_of_unhurried (h : system.Run newClient tr s)
    (hu : ∀ p ∈ tr, Unhurried p.1 p.2) : ∀ u ∈ states tr s, Supplied u := by
  have hall : ∀ u ∈ states tr s, Sound u ∧ Supplied u :=
    h.forall_states ⟨sound_newClient, nofun⟩ fun p hp hI t hs =>
      ⟨hI.1.step hs, by
        obtain ⟨he, rfl⟩ := hs
        exact hI.2.step hI.1.1 hI.1.2.1 (hu p hp) he⟩
  exact fun u hm => (hall u hm).2

def asksForLoop : Action → Bool
  | .ensureReconnectLoop _ _ => true
  | _ => false

theorem unhurried_of_not_reconnecting (h : Looping s)
    (hr : asksForLoop action → s.reconnecting = false) : Unhurried s action := by
  cases action with
  | ensureReconnectLoop t caller =>
    intro _ u
    by_contra hx
    rw [Bool.not_eq_false] at hx
    have hheld : holdsFlag (s.threads u) := by
      cases hp : s.threads u <;> rw [hp] at hx <;> first | rfl | cases hx
    exact Bool.eq_false_iff.1 (hr rfl) (h.held_iff.2 ⟨u, hheld⟩)
  | _ => trivial

def connected : List Action :=
  [.start 0, .ensureReconnectLoop 0 .start, .spawnLoop 0 .start 1, .isClosed 1, .hasConnection 1,
   .dial 1 true]

theorem connection_held_dropped : ∃ tr s, system.Run newClient tr s ∧ s.opened 0 = true ∧
    ∃ t, owns 0 (s.threads t) := by
  have hrun : system.Run newClient (replay after newClient connected).1 (replay after newClient connected).2 :=
    System.run_replay connected (by decide +kernel)
  have hopen : (replay after newClient connected).2.opened 0 = true := by decide +kernel
  obtain ⟨-, hmakes, hheld⟩ := connection_held hrun _ (end_mem_states _ _)
  refine ⟨_, _, hrun, hopen, (hheld 0 hopen).resolve_left ?_⟩
  rw [hmakes 1 (by decide +kernel)]
  nofun

def dropped : List Action :=
  connected ++ [.registerService 1 0 true, .activateConnection 1 0, .spawnReaders 1 0 1 2,
   .leave 1, .readEnded 2 0 1, .markDisconnected 2 0 1, .marked 2 0,
   .ensureReconnectLoop 2 .markDisconnected]

theorem supplied_of_unhurried_dropped : ∃ tr s, system.Run newClient tr s ∧ s.conn = none ∧
      ∃ t, attempts (s.threads t) ∨ restarts (s.threads t) := by
  have hrun : system.Run newClient (replay after newClient dropped).1
      (replay after newClient dropped).2 :=
    System.run_replay dropped (by decide +kernel)
  have hflag : ∀ p ∈ (replay after newClient dropped).1,
      asksForLoop p.2 → p.1.reconnecting = false := by
    decide +kernel
  refine ⟨_, _, hrun, by decide +kernel, supplied_of_unhurried hrun ?_ _ (end_mem_states _ _)
    (by decide +kernel) (by decide +kernel) (by decide +kernel)⟩
  intro p hp
  exact unhurried_of_not_reconnecting (sound_of_run hrun p.1 (mem_states_of_mem hp)).1 (hflag p hp)

def stalled : List Action :=
  connected ++ [.registerService 1 0 true, .activateConnection 1 0, .waitForConnection 2 0,
   .requestFailed 2 0 1, .markDisconnected 2 0 1, .marked 2 0,
   .ensureReconnectLoop 2 .markDisconnected, .spawnReaders 1 0 1 3, .leave 1, .readEnded 3 0 1,
   .markDisconnected 3 0 1]

theorem stalled_not_supplied : ∃ tr s, system.Run newClient tr s ∧ ¬ Supplied s := by
  refine ⟨_, _, System.run_replay stalled (by decide +kernel), ?_⟩
  intro h
  have hout : ∀ t, (replay after newClient stalled).2.threads t = .outside := by
    intro t
    match t with
    | 0 => decide +kernel
    | 1 => decide +kernel
    | 2 => decide +kernel
    | 3 => decide +kernel
    | t + 4 => rfl
  obtain ⟨t, ht⟩ := h (by decide +kernel) (by decide +kernel) (by decide +kernel)
  rw [hout] at ht
  revert ht
  decide

/-- A goroutine that closes the connection, unless its registration succeeds. -/
def discards (conn : Conn) (place : Place) : Bool := owns conn place && !atActivate place

/-- `readyCh` is closed exactly while there is a connection and never twice; after `Close` there
is no connection, and one that is still open is about to be closed, in a run in which no
registration outlives `Close`. -/
theorem ready_and_closed (h : system.Run newClient tr s) :
    (∀ u ∈ states tr s, (u.readyClosed ↔ u.conn ≠ none) ∧ u.panicked = false) ∧
    ((∀ p ∈ tr, Timely p.1 p.2) → ∀ u ∈ states tr s, u.closeOnce = .returned →
      u.conn = none ∧ ∀ conn, u.opened conn → ∃ t, discards conn (u.threads t)) := by
  refine ⟨?_, ?_⟩
  · intro u hu
    obtain ⟨-, -, ⟨hr, hp, -⟩, -⟩ := sound_of_run h u hu
    refine ⟨?_, hp⟩
    rw [hr, Option.isSome_iff_ne_none]
  · intro hto u hu hret
    have hall : ∀ u ∈ states tr s, Settled u :=
      h.forall_states ⟨nofun, nofun⟩ fun p hp hI t hs => by
        obtain ⟨he, rfl⟩ := hs
        exact hI.step (hto p hp) he
    obtain ⟨hc, ha⟩ := (hall u hu).2 (by rw [hret]; rfl)
    refine ⟨hc, ?_⟩
    intro conn ho
    rcases (sound_of_run h u hu).2.2.2 conn ho with hcur | ⟨t, howns⟩
    · rw [hc] at hcur
      cases hcur
    · exact ⟨t, by simp [discards, howns, ha t]⟩

def asksToClear : Action → Bool
  | .clear _ => true
  | _ => false

def registers : Action → Bool
  | .registerService _ _ _ => true
  | _ => false

theorem timely_of_quiet (h : Looping s) (hc : asksToClear action → s.reconnecting = false)
    (hr : registers action → s.closeOnce = .unused) : Timely s action := by
  cases action with
  | registerService t conn ok =>
    intro _
    rw [hr rfl]
    rfl
  | clear t =>
    intro u
    by_contra ha
    rw [Bool.not_eq_false] at ha
    have hheld : holdsFlag (s.threads u) := by
      cases hp : s.threads u <;> rw [hp] at ha <;> first | rfl | cases ha
    exact Bool.eq_false_iff.1 (hc rfl) (h.held_iff.2 ⟨u, hheld⟩)
  | _ => trivial

def closed : List Action :=
  connected ++ [.registerService 1 0 true, .activateConnection 1 0, .spawnReaders 1 0 1 2,
   .leave 1, .close 0, .clear 0, .cleared 0 (some 0)]

theorem ready_and_closed_closed :
    ∃ tr s, system.Run newClient tr s ∧ s.closeOnce = .returned ∧ s.conn = none := by
  have hrun : system.Run newClient (replay after newClient closed).1
      (replay after newClient closed).2 :=
    System.run_replay closed (by decide +kernel)
  have hphase : ∀ p ∈ (replay after newClient closed).1,
      (asksToClear p.2 → p.1.reconnecting = false) ∧ (registers p.2 → p.1.closeOnce = .unused) := by
    decide +kernel
  refine ⟨_, _, hrun, by decide +kernel,
    ((ready_and_closed hrun).2 ?_ _ (end_mem_states _ _) (by decide +kernel)).1⟩
  intro p hp
  exact timely_of_quiet (sound_of_run hrun p.1 (mem_states_of_mem hp)).1 (hphase p hp).1
    (hphase p hp).2

def outlived : List Action :=
  connected ++ [.close 2, .clear 2, .cleared 2 none, .registerService 1 0 true,
   .activateConnection 1 0, .spawnReaders 1 0 1 3]

theorem outlived_connection :
    ∃ tr s, system.Run newClient tr s ∧ s.closeOnce = .returned ∧ s.conn = some 0 ∧
      s.opened 0 ∧ s.threads 3 = .readLoop 0 1 :=
  ⟨_, _, System.run_replay outlived (by decide +kernel), by decide +kernel, by decide +kernel,
    by decide +kernel, by decide +kernel⟩

end Client

end Trakrai.Ipc
