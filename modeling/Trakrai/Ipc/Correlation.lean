import Mathlib.Data.List.Nodup
import Mathlib.Logic.Function.Basic
import Trakrai.Lib.Table
import Trakrai.Lib.Transition

namespace Trakrai.Ipc.Correlation
open Function List Lib

/-- A request or its response on a connection: the id, and the attempt that it belongs to. -/
structure Letter where
  id : Int
  origin : Nat
deriving DecidableEq

/-- What `tryRequest` holds. Each attempt has a response channel of its own, by whose number it goes. The
id is the decimal text of a reading of the clock. -/
structure Attempt where
  generation : Nat
  reqId : Int
  respCh : Nat
deriving DecidableEq

inductive Failure where
  | disconnected
  | closed
deriving DecidableEq

inductive Result where
  | response (letter : Letter)
  | failure (failure : Failure)
deriving DecidableEq

/-- Where a call of `request` stands; `left` counts the attempts that it may make after this one. -/
inductive Phase where
  | idle
  | waitForConnection (left : Nat)
  | connected (left : Nat) (generation : Nat)
  /-- In the pending map, `writeLine` comes next. -/
  | registered (left : Nat) (attempt : Attempt)
  | select (left : Nat) (attempt : Attempt)
  /-- The timer has fired, `removePending` comes next. -/
  | timedOut (left : Nat) (attempt : Attempt)
  /-- In `markDisconnected`; from `writeLine` it goes on to `removePending`. -/
  | marking (left : Nat) (attempt : Attempt) (writing : Bool)
  | failing (left : Nat) (attempt : Attempt) (writing : Bool)
  | removing (left : Nat) (attempt : Attempt) (failure : Failure)
  /-- `tryRequest` has returned an error to `request`. -/
  | failed (left : Nat) (failure : Failure)
  | returned (result : Result)
deriving DecidableEq

inductive Reader where
  | absent
  | scanning
  /-- The channel is out of the pending map, the response not yet in the channel. -/
  | holding (respCh : Nat) (letter : Letter)
  | marking
  | failing
  | done
deriving DecidableEq

inductive Channel where
  | open
  | full (letter : Letter)
  | closed
deriving DecidableEq

inductive Closer where
  | unused
  | closing
  | failing
  | done
deriving DecidableEq

structure State where
  calls : Nat → Phase
  readers : Nat → Reader
  channels : Nat → Channel
  pending : List (Int × Nat)
  /-- The requests on a connection that the server has not answered. -/
  requests : Nat → List Letter
  /-- The responses that the reader of a connection has not read. -/
  responses : Nat → List Letter
  conn : Option Nat
  connGeneration : Nat
  closer : Closer
  attempts : Nat
  /-- The call that makes an attempt. -/
  caller : Nat → Nat
  /-- Whether a closed channel was written or closed. -/
  panicked : Bool

namespace State

def newClient : State where
  calls _ := .idle
  readers _ := .absent
  channels _ := .open
  pending := []
  requests _ := []
  responses _ := []
  conn := none
  connGeneration := 0
  closer := .unused
  attempts := 0
  caller _ := 0
  panicked := false

section
variable (s : State)

def isClosed : Bool := s.closer ≠ .unused

def setCall (c : Nat) (phase : Phase) : State :=
  { s with calls := update s.calls c phase }

def setReader (g : Nat) (reader : Reader) : State :=
  { s with readers := update s.readers g reader }

def removePending (id : Int) : State :=
  { s with pending := s.pending.filter (·.1 ≠ id) }

def failPending : State :=
  { s with
    channels := fun ch => if ch ∈ s.pending.map Prod.snd then .closed else s.channels ch
    pending := []
    panicked := s.panicked || s.pending.any fun entry => s.channels entry.2 == .closed }

/-- The section of `markDisconnected` under the lock: whether the connection was current. -/
def isCurrent (g : Nat) : Bool := s.conn == some g

/-- `c.pending[reqID] = respCh`. -/
def register (c : Nat) (reading : Int) : State :=
  { s with
    pending := s.pending.filter (·.1 ≠ reading) ++ [(reading, s.attempts)]
    attempts := s.attempts + 1
    caller := update s.caller s.attempts c }

def send (g : Nat) (letter : Letter) : State :=
  { s with requests := update s.requests g (s.requests g ++ [letter]) }

def answer (g : Nat) (letter : Letter) : State :=
  { s with
    requests := update s.requests g ((s.requests g).erase letter)
    responses := update s.responses g (s.responses g ++ [letter]) }

/-- The reader takes a response and the channel that waits for its id. -/
def read (g : Nat) : State :=
  match s.responses g with
  | [] => s
  | letter :: rest =>
    let s' := { s.removePending letter.id with responses := update s.responses g rest }
    match s.pending.lookup letter.id with
    | some respCh => s'.setReader g (.holding respCh letter)
    | none => s'

/-- `respCh <- resp` and `close(respCh)`. -/
def deliver (respCh : Nat) (letter : Letter) : State :=
  { s with
    channels := update s.channels respCh (.full letter)
    panicked := s.panicked || s.channels respCh ≠ .open }

def activateConnection : State :=
  { s with conn := some (s.connGeneration + 1), connGeneration := s.connGeneration + 1
           readers := update s.readers (s.connGeneration + 1) .scanning }

end

section
variable (s : State) {c d g g' respCh : Nat} {phase : Phase} {reader : Reader}

theorem setCall_self : (s.setCall c phase).calls c = phase := update_self ..

theorem setCall_of_ne (h : d ≠ c) : (s.setCall c phase).calls d = s.calls d := update_of_ne h ..

theorem setReader_self : (s.setReader g reader).readers g = reader := update_self ..

theorem setReader_of_ne (h : g' ≠ g) : (s.setReader g reader).readers g' = s.readers g' :=
  update_of_ne h ..

theorem removePending_of_lookup {id : Int} (h : s.pending.lookup id = none) : s.removePending id = s := by
  have hall : s.pending.filter (·.1 ≠ id) = s.pending := by
    rw [filter_eq_self]
    intro entry hm
    have hne : id ≠ entry.1 := by simpa using lookup_eq_none_iff.1 h entry hm
    exact decide_eq_true hne.symm
  rw [removePending, hall]

theorem failPending_closed (h : entry ∈ s.pending) : s.failPending.channels entry.2 = .closed :=
  if_pos (mem_map_of_mem h)

theorem failPending_of_not_mem (h : ∀ entry ∈ s.pending, entry.2 ≠ respCh) :
    s.failPending.channels respCh = s.channels respCh := by
  refine if_neg fun hm => ?_
  obtain ⟨entry, hentry, heq⟩ := mem_map.1 hm
  exact h entry hentry heq

end

end State

inductive Action where
  | request (c maxAttempts : Nat)
  | connect (c : Nat)
  /-- `waitForConnection` gives up. -/
  | noConnection (c : Nat) (failure : Failure)
  | register (c : Nat) (reading : Int)
  | write (c : Nat)
  /-- A write that fails; the line may have gone out. -/
  | writeFailed (c : Nat) (sent : Bool)
  | notCurrent (c : Nat)
  | receive (c : Nat)
  | channelClosed (c : Nat)
  | timeout (c : Nat)
  | clientClosed (c : Nat)
  | removePending (c : Nat)
  | mark (c : Nat)
  | failPending (c : Nat)
  | next (c : Nat)
  | read (g : Nat)
  | deliver (g : Nat)
  | readEnded (g : Nat)
  | readerMark (g : Nat)
  | readerFail (g : Nat)
  | activateConnection
  | answer (g : Nat) (letter : Letter)
  | close
  | clear
  | closeFail

def Action.caller : Action → Option Nat
  | .request c _ | .connect c | .noConnection c _ | .register c _ | .write c | .writeFailed c _ | .notCurrent c
  | .receive c | .channelClosed c | .timeout c | .clientClosed c | .removePending c | .mark c
  | .failPending c | .next c => some c
  | _ => none

def callStep (s : State) : Action → Phase → Option (Phase × State)
  | .request _ maxAttempts, .idle => some (.waitForConnection (maxAttempts - 1), s)
  | .connect _, .waitForConnection left => s.conn.map fun g => (.connected left g, s)
  | .noConnection _ .disconnected, .waitForConnection left => some (.failed left .disconnected, s)
  | .noConnection _ .closed, .waitForConnection left =>
    if s.isClosed then some (.failed left .closed, s) else none
  | .register c reading, .connected left g =>
    some (.registered left ⟨g, reading, s.attempts⟩, s.register c reading)
  | .write _, .registered left attempt =>
    if s.isCurrent attempt.generation then
      some (.select left attempt, s.send attempt.generation ⟨attempt.reqId, attempt.respCh⟩)
    else none
  | .writeFailed _ sent, .registered left attempt =>
    if s.isCurrent attempt.generation then
      some (.marking left attempt true,
        if sent then s.send attempt.generation ⟨attempt.reqId, attempt.respCh⟩ else s)
    else none
  | .notCurrent _, .registered left attempt =>
    if s.isCurrent attempt.generation then none else some (.removing left attempt .disconnected, s)
  | .receive _, .select _ attempt =>
    match s.channels attempt.respCh with
    | .full letter => some (.returned (.response letter), s)
    | _ => none
  | .channelClosed _, .select left attempt =>
    if s.channels attempt.respCh = .closed then some (.failed left .disconnected, s) else none
  | .timeout _, .select left attempt => some (.timedOut left attempt, s)
  | .clientClosed _, .select left attempt =>
    if s.isClosed then some (.removing left attempt .closed, s) else none
  | .removePending _, .timedOut left attempt => some (.marking left attempt false, s.removePending attempt.reqId)
  | .removePending _, .removing left attempt failure =>
    some (.failed left failure, s.removePending attempt.reqId)
  | .mark _, .marking left attempt writing =>
    if s.isCurrent attempt.generation then some (.failing left attempt writing, { s with conn := none })
    else some (if writing then .removing left attempt .disconnected else .failed left .disconnected, s)
  | .failPending _, .failing left attempt writing =>
    some (if writing then .removing left attempt .disconnected else .failed left .disconnected, s.failPending)
  | .next _, .failed left failure =>
    if failure = .disconnected ∧ left ≠ 0 ∧ ¬ s.isClosed then some (.waitForConnection (left - 1), s)
    else some (.returned (.failure failure), s)
  | _, _ => none

def otherStep (s : State) : Action → Option State
  | .read g => if s.readers g = .scanning ∧ s.responses g ≠ [] then some (s.read g) else none
  | .deliver g =>
    match s.readers g with
    | .holding respCh letter => some ((s.deliver respCh letter).setReader g .scanning)
    | _ => none
  | .readEnded g => if s.readers g = .scanning then some (s.setReader g .marking) else none
  | .readerMark g =>
    if s.readers g = .marking then
      some (if s.isCurrent g then { s with conn := none }.setReader g .failing else s.setReader g .done)
    else none
  | .readerFail g => if s.readers g = .failing then some (s.failPending.setReader g .done) else none
  | .activateConnection => some s.activateConnection
  | .answer g letter => if letter ∈ s.requests g then some (s.answer g letter) else none
  | .close => if s.closer = .unused then some { s with closer := .closing } else none
  | .clear => if s.closer = .closing then some { s with conn := none, closer := .failing } else none
  | .closeFail => if s.closer = .failing then some { s.failPending with closer := .done } else none
  | _ => none

def step (s : State) (action : Action) : Option State :=
  match action.caller with
  | some c => (callStep s action (s.calls c)).map fun next => next.2.setCall c next.1
  | none => otherStep s action

def system : System State Action := .ofMoves (· = .newClient) (fun _ _ => True) step

/-- The attempt that is pending: its id has been registered and is still to be given up. -/
def Phase.held : Phase → Option Attempt
  | .registered _ attempt | .select _ attempt | .timedOut _ attempt | .marking _ attempt true
  | .failing _ attempt true | .removing _ attempt _ => some attempt
  | _ => none

/-- The attempt that a response can still end. -/
def Phase.listening : Phase → Option Attempt
  | .registered _ attempt | .select _ attempt => some attempt
  | _ => none

theorem Phase.held_of_listening {phase : Phase} (h : phase.listening = some attempt) : phase.held = some attempt := by
  cases phase with
  | registered | select => exact h
  | _ => cases h

def Reader.live : Reader → Bool
  | .scanning | .holding _ _ => true
  | _ => false

def State.inFlight (s : State) (g : Nat) : List Letter := s.requests g ++ s.responses g

/-- What the map of pending requests and the readers keep of the channels, whatever the ids are. -/
structure Wired (s : State) : Prop where
  ids : (s.pending.map Prod.fst).Nodup
  channels : (s.pending.map Prod.snd).Nodup
  pending_open : ∀ entry ∈ s.pending, s.channels entry.2 = .open ∧ entry.2 < s.attempts
  unused_open : ∀ respCh, s.attempts ≤ respCh → s.channels respCh = .open
  holding_open : ∀ {g respCh letter}, s.readers g = .holding respCh letter →
    s.channels respCh = .open ∧ respCh < s.attempts ∧ ∀ entry ∈ s.pending, entry.2 ≠ respCh
  holding_one : ∀ {g g' respCh letter letter'}, s.readers g = .holding respCh letter →
    s.readers g' = .holding respCh letter' → g = g'
  calm : s.panicked = false

namespace Wired
variable {s : State}

theorem newClient : Wired .newClient where
  ids := nodup_nil
  channels := nodup_nil
  pending_open := nofun
  unused_open _ _ := rfl
  holding_open := nofun
  holding_one := nofun
  calm := rfl

theorem setCall (h : Wired s) (c : Nat) (phase : Phase) : Wired (s.setCall c phase) :=
  { h with }

theorem setReader (h : Wired s) (hreader : ∀ respCh letter, reader ≠ .holding respCh letter) :
    Wired (s.setReader g reader) := by
  have hold {g' respCh letter} (hg : (s.setReader g reader).readers g' = .holding respCh letter) :
      s.readers g' = .holding respCh letter := by
    rcases eq_or_ne g' g with rfl | hne
    · rw [s.setReader_self] at hg
      exact (hreader _ _ hg).elim
    · rwa [s.setReader_of_ne hne] at hg
  exact { h with
    holding_open := fun hg => h.holding_open (hold hg)
    holding_one := fun hg hg' => h.holding_one (hold hg) (hold hg') }

theorem sublist (h : Wired s) (hsub : entries.Sublist s.pending) : Wired { s with pending := entries } :=
  { h with
    ids := h.ids.sublist (hsub.map _)
    channels := h.channels.sublist (hsub.map _)
    pending_open := fun entry hm => h.pending_open entry (hsub.subset hm)
    holding_open := fun hg =>
      have ⟨hopen, hlt, hne⟩ := h.holding_open hg
      ⟨hopen, hlt, fun entry hm => hne entry (hsub.subset hm)⟩ }

theorem removePending (h : Wired s) (id : Int) : Wired (s.removePending id) :=
  h.sublist filter_sublist

theorem failPending (h : Wired s) : Wired s.failPending where
  ids := nodup_nil
  channels := nodup_nil
  pending_open := nofun
  unused_open respCh hle := by
    rw [s.failPending_of_not_mem]
    · exact h.unused_open respCh hle
    · rintro entry hm rfl
      exact absurd (h.pending_open entry hm).2 (Nat.not_lt.2 hle)
  holding_open := by
    intro g respCh letter hg
    obtain ⟨hopen, hlt, hne⟩ := h.holding_open hg
    exact ⟨(s.failPending_of_not_mem hne).trans hopen, hlt, nofun⟩
  holding_one := h.holding_one
  calm := by
    have hany : (s.pending.any fun entry => s.channels entry.2 == .closed) = false := by
      rw [any_eq_false]
      intro entry hm
      rw [(h.pending_open entry hm).1]
      decide
    change (s.panicked || _) = false
    rw [h.calm, hany]
    rfl

theorem register (h : Wired s) (c : Nat) (reading : Int) : Wired (s.register c reading) where
  ids := by
    rw [State.register, map_append, nodup_append_comm]
    refine nodup_cons.2 ⟨?_, h.ids.sublist (filter_sublist.map _)⟩
    intro hm
    obtain ⟨entry, hentry, heq⟩ := mem_map.1 hm
    have hne : entry.1 ≠ reading := by simpa using (mem_filter.1 hentry).2
    exact hne heq
  channels := by
    rw [State.register, map_append, nodup_append_comm]
    refine nodup_cons.2 ⟨?_, h.channels.sublist (filter_sublist.map _)⟩
    intro hm
    obtain ⟨entry, hentry, heq⟩ := mem_map.1 hm
    exact absurd (h.pending_open entry (mem_filter.1 hentry).1).2 (by omega)
  pending_open entry hm := by
    rcases mem_append.1 hm with hm | hm
    · obtain ⟨hopen, hlt⟩ := h.pending_open entry (mem_filter.1 hm).1
      exact ⟨hopen, Nat.lt_succ_of_lt hlt⟩
    · rw [mem_singleton.1 hm]
      exact ⟨h.unused_open _ (Nat.le_refl _), Nat.lt_succ_self _⟩
  unused_open respCh hle := h.unused_open respCh (Nat.le_of_succ_le hle)
  holding_open := by
    intro g respCh letter hg
    obtain ⟨hopen, hlt, hne⟩ := h.holding_open hg
    refine ⟨hopen, Nat.lt_succ_of_lt hlt, fun entry hm => ?_⟩
    rcases mem_append.1 hm with hm | hm
    · exact hne entry (mem_filter.1 hm).1
    · rw [mem_singleton.1 hm]
      exact (Nat.ne_of_lt hlt).symm
  holding_one := h.holding_one
  calm := h.calm

theorem take {id : Int} {g : Nat} (h : Wired s) (hentry : s.pending.lookup id = some respCh) (hg : s.readers g = .scanning) :
    Wired ((s.removePending id).setReader g (.holding respCh letter)) := by
  have hm : (id, respCh) ∈ s.pending := mem_of_lookup hentry
  obtain ⟨hopen, hlt⟩ := h.pending_open _ hm
  have hgone : ∀ entry ∈ (s.removePending id).pending, entry.2 ≠ respCh := by
    intro entry hentry' heq
    obtain ⟨hin, hne⟩ := mem_filter.1 hentry'
    have hsame : entry = (id, respCh) := inj_on_of_nodup_map h.channels hin hm heq
    rw [hsame] at hne
    simp at hne
  refine { h.removePending id with holding_open := ?_, holding_one := ?_ }
  · intro g' ch l hg'
    rcases eq_or_ne g' g with rfl | hne
    · rw [State.setReader_self] at hg'
      cases hg'
      exact ⟨hopen, hlt, hgone⟩
    · rw [State.setReader_of_ne _ hne] at hg'
      exact (h.removePending id).holding_open hg'
  · have hother {g' l} (hg' : s.readers g' = .holding respCh l) : False :=
      (h.holding_open hg').2.2 _ hm rfl
    intro g₁ g₂ ch l₁ l₂ h₁ h₂
    rcases eq_or_ne g₁ g with he₁ | hne₁ <;> rcases eq_or_ne g₂ g with he₂ | hne₂
    · rw [he₁, he₂]
    · rw [he₁, State.setReader_self] at h₁
      rw [State.setReader_of_ne _ hne₂] at h₂
      cases h₁
      exact (hother h₂).elim
    · rw [State.setReader_of_ne _ hne₁] at h₁
      rw [he₂, State.setReader_self] at h₂
      cases h₂
      exact (hother h₁).elim
    · rw [State.setReader_of_ne _ hne₁] at h₁
      rw [State.setReader_of_ne _ hne₂] at h₂
      exact h.holding_one h₁ h₂

theorem deliver (h : Wired s) (hg : s.readers g = .holding respCh letter) :
    Wired ((s.deliver respCh letter).setReader g .scanning) := by
  obtain ⟨hopen, hlt, hne⟩ := h.holding_open hg
  have hother {ch} (hch : ch ≠ respCh) : (s.deliver respCh letter).channels ch = s.channels ch :=
    update_of_ne hch _ _
  have hback {g' ch l} (hg' : ((s.deliver respCh letter).setReader g .scanning).readers g' = .holding ch l) :
      g' ≠ g ∧ s.readers g' = .holding ch l := by
    rcases eq_or_ne g' g with rfl | hgg
    · rw [State.setReader_self] at hg'
      cases hg'
    · rw [State.setReader_of_ne _ hgg] at hg'
      exact ⟨hgg, hg'⟩
  exact {
    ids := h.ids
    channels := h.channels
    pending_open := fun entry hm => ⟨(hother (hne entry hm)).trans (h.pending_open entry hm).1,
      (h.pending_open entry hm).2⟩
    unused_open := fun ch hle => (hother (by change s.attempts ≤ ch at hle; omega)).trans (h.unused_open ch hle)
    holding_open := by
      intro g' ch l hg'
      obtain ⟨hgg, hold⟩ := hback hg'
      have hch : ch ≠ respCh := by
        rintro rfl
        exact hgg (h.holding_one hold hg)
      exact ⟨(hother hch).trans (h.holding_open hold).1, (h.holding_open hold).2⟩
    holding_one := fun h₁ h₂ => h.holding_one (hback h₁).2 (hback h₂).2
    calm := by
      change (s.panicked || s.channels respCh ≠ .open) = false
      rw [h.calm, hopen]
      rfl }

end Wired

inductive CallStep (s : State) : Action → Phase → Phase → State → Prop where
  | request : CallStep s (.request c maxAttempts) .idle (.waitForConnection (maxAttempts - 1)) s
  | connect : CallStep s (.connect c) (.waitForConnection left) (.connected left g) s
  | noConnection {failure : Failure} : CallStep s (.noConnection c failure) (.waitForConnection left) (.failed left failure) s
  | register : CallStep s (.register c reading) (.connected left g) (.registered left ⟨g, reading, s.attempts⟩)
      (s.register c reading)
  | write (h : s.conn = some attempt.generation) : CallStep s (.write c) (.registered left attempt)
      (.select left attempt) (s.send attempt.generation ⟨attempt.reqId, attempt.respCh⟩)
  | writeFailed (h : s.conn = some attempt.generation) : CallStep s (.writeFailed c true) (.registered left attempt)
      (.marking left attempt true) (s.send attempt.generation ⟨attempt.reqId, attempt.respCh⟩)
  | writeRefused : CallStep s (.writeFailed c false) (.registered left attempt) (.marking left attempt true) s
  | notCurrent : CallStep s (.notCurrent c) (.registered left attempt) (.removing left attempt .disconnected) s
  | receive (h : s.channels attempt.respCh = .full letter) :
      CallStep s (.receive c) (.select left attempt) (.returned (.response letter)) s
  | channelClosed (h : s.channels attempt.respCh = .closed) :
      CallStep s (.channelClosed c) (.select left attempt) (.failed left .disconnected) s
  | timeout : CallStep s (.timeout c) (.select left attempt) (.timedOut left attempt) s
  | clientClosed : CallStep s (.clientClosed c) (.select left attempt) (.removing left attempt .closed) s
  | removeTimedOut : CallStep s (.removePending c) (.timedOut left attempt) (.marking left attempt false)
      (s.removePending attempt.reqId)
  | remove {failure : Failure} : CallStep s (.removePending c) (.removing left attempt failure) (.failed left failure)
      (s.removePending attempt.reqId)
  | mark : CallStep s (.mark c) (.marking left attempt writing) (.failing left attempt writing) { s with conn := none }
  | marked : CallStep s (.mark c) (.marking left attempt writing)
      (if writing then .removing left attempt .disconnected else .failed left .disconnected) s
  | failPending : CallStep s (.failPending c) (.failing left attempt writing)
      (if writing then .removing left attempt .disconnected else .failed left .disconnected) s.failPending
  | again {failure : Failure} (h : left ≠ 0) : CallStep s (.next c) (.failed left failure) (.waitForConnection (left - 1)) s
  | ended {failure : Failure} : CallStep s (.next c) (.failed left failure) (.returned (.failure failure)) s

theorem callStep_cases (h : callStep s action phase = some (phase', s')) :
    CallStep s action phase phase' s' := by
  have hcurrent {g : Nat} (hg : s.isCurrent g = true) : s.conn = some g := eq_of_beq hg
  unfold callStep at h
  split at h
  · cases h
    exact .request
  · obtain ⟨g, -, he⟩ := Option.map_eq_some_iff.1 h
    cases he
    exact .connect
  · cases h
    exact .noConnection
  · split at h <;> cases h
    exact .noConnection
  · cases h
    exact .register
  · split at h <;> cases h
    exact .write (hcurrent ‹_›)
  · rename_i sent _ _
    split at h <;> cases h
    cases sent with
    | true => exact .writeFailed (hcurrent ‹_›)
    | false => exact .writeRefused
  · split at h <;> cases h
    exact .notCurrent
  · split at h <;> cases h
    exact .receive ‹_›
  · split at h <;> cases h
    exact .channelClosed ‹_›
  · cases h
    exact .timeout
  · split at h <;> cases h
    exact .clientClosed
  · cases h
    exact .removeTimedOut
  · cases h
    exact .remove
  · split at h <;> cases h
    · exact .mark
    · exact .marked
  · cases h
    exact .failPending
  · split at h <;> cases h
    · rename_i hagain
      exact .again hagain.2.1
    · exact .ended
  · cases h

inductive OtherStep (s : State) : Action → State → Prop where
  /-- A response whose id is not pending is dropped. -/
  | drop (hg : s.readers g = .scanning) (hnext : s.responses g = letter :: rest)
      (hid : s.pending.lookup letter.id = none) :
      OtherStep s (.read g) { s.removePending letter.id with responses := update s.responses g rest }
  | take (hg : s.readers g = .scanning) (hnext : s.responses g = letter :: rest)
      (hid : s.pending.lookup letter.id = some respCh) :
      OtherStep s (.read g) (State.setReader
        { s.removePending letter.id with responses := update s.responses g rest } g (.holding respCh letter))
  | deliver (hg : s.readers g = .holding respCh letter) :
      OtherStep s (.deliver g) ((s.deliver respCh letter).setReader g .scanning)
  | readEnded (hg : s.readers g = .scanning) : OtherStep s (.readEnded g) (s.setReader g .marking)
  | readerMark (hg : s.readers g = .marking) :
      OtherStep s (.readerMark g) ({ s with conn := none }.setReader g .failing)
  | readerMarked (hg : s.readers g = .marking) : OtherStep s (.readerMark g) (s.setReader g .done)
  | readerFail (hg : s.readers g = .failing) : OtherStep s (.readerFail g) (s.failPending.setReader g .done)
  | activateConnection : OtherStep s .activateConnection s.activateConnection
  | answer (hrequest : letter ∈ s.requests g) : OtherStep s (.answer g letter) (s.answer g letter)
  | close : OtherStep s .close { s with closer := .closing }
  | clear : OtherStep s .clear { s with conn := none, closer := .failing }
  | closeFail : OtherStep s .closeFail { s.failPending with closer := .done }

theorem otherStep_cases (h : otherStep s action = some s') : OtherStep s action s' := by
  unfold otherStep at h
  split at h
  · split at h
    · rename_i g hread
      cases h
      obtain ⟨hg, hne⟩ := hread
      obtain ⟨letter, rest, hnext⟩ := exists_cons_of_ne_nil hne
      cases hid : s.pending.lookup letter.id with
      | none => simpa only [State.read, hnext, hid] using OtherStep.drop hg hnext hid
      | some respCh => simpa only [State.read, hnext, hid] using OtherStep.take hg hnext hid
    · cases h
  · split at h <;> cases h
    exact .deliver ‹_›
  · split at h <;> cases h
    exact .readEnded ‹_›
  · split at h <;> cases h
    split
    · exact .readerMark ‹_›
    · exact .readerMarked ‹_›
  · split at h <;> cases h
    exact .readerFail ‹_›
  · cases h
    exact .activateConnection
  · split at h <;> cases h
    exact .answer ‹_›
  · split at h <;> cases h
    exact .close
  · split at h <;> cases h
    exact .clear
  · split at h <;> cases h
    exact .closeFail
  · cases h

theorem step_cases (h : step s action = some s') :
    (∃ c phase' s'', action.caller = some c ∧ CallStep s action (s.calls c) phase' s'' ∧
      s' = s''.setCall c phase') ∨ action.caller = none ∧ OtherStep s action s' := by
  rw [step] at h
  split at h
  · rename_i c hc
    obtain ⟨⟨phase', s''⟩, hstep, he⟩ := Option.map_eq_some_iff.1 h
    exact .inl ⟨c, phase', s'', hc, callStep_cases hstep, he.symm⟩
  · exact .inr ⟨‹_›, otherStep_cases h⟩

theorem Wired.callStep (h : Wired s) (hstep : CallStep s action phase phase' s') : Wired s' := by
  cases hstep with
  | register => exact h.register _ _
  | removeTimedOut | remove => exact h.removePending _
  | failPending => exact h.failPending
  | write | writeFailed | mark => exact { h with }
  | _ => exact h

theorem Wired.otherStep (h : Wired s) (hstep : OtherStep s action s') : Wired s' := by
  cases hstep with
  | drop => exact { h.removePending _ with }
  | take hg hnext hid => exact { h.take hid hg with }
  | deliver hg => exact h.deliver hg
  | readEnded | readerMarked => exact h.setReader nofun
  | readerMark => exact Wired.setReader { h with } nofun
  | readerFail => exact h.failPending.setReader nofun
  | activateConnection =>
    have hscan : Wired (s.setReader (s.connGeneration + 1) .scanning) := h.setReader nofun
    exact { hscan with }
  | answer | close | clear => exact { h with }
  | closeFail => exact { h.failPending with }

theorem Wired.step (h : Wired s) (hstep : Correlation.step s action = some s') : Wired s' := by
  obtain ⟨c, phase', s'', -, hcall, rfl⟩ | ⟨-, hother⟩ := step_cases hstep
  · exact (h.callStep hcall).setCall _ _
  · exact h.otherStep hother

end Trakrai.Ipc.Correlation
