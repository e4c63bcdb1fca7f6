import Trakrai.Lib.Transition

namespace Trakrai.LiveTransport
open Option List Lib

/-- `readyState` of a socket. -/
inductive ReadyState where
  | connecting
  | open
  | closing
  | closed
deriving DecidableEq

structure Client where
  url : String
  ws : Option Nat := none
  reconnectTimer : Option Nat := none
  shouldReconnect : Bool := true
  reconnectAttempt : Nat := 0
  outboundQueue : List String := []
  /-- The sockets in the order in which they were made. -/
  sockets : List ReadyState := []
  /-- The timers that have yet to fire. -/
  timers : List Nat := []
  /-- The number of timers made so far, the next one's identity. -/
  timersMade : Nat := 0
  /-- The frames handed to a socket, the last one first. -/
  sent : List (Nat × String) := []

def maxQueueSize : Nat := 32

namespace Client

def Live (s : Client) (socket : Nat) : Prop :=
  s.sockets[socket]? = some .connecting ∨ s.sockets[socket]? = some .open

instance (s : Client) (socket : Nat) : Decidable (s.Live socket) :=
  inferInstanceAs (Decidable (_ ∨ _))

section
variable (s : Client)

def isOpen (socket : Nat) : Bool := s.sockets[socket]? = some .open

def setReadyState (socket : Nat) (readyState : ReadyState) : Client :=
  { s with sockets := s.sockets.set socket readyState }

def connect : Client :=
  if s.ws.any (fun socket => s.Live socket) || s.url == "" then { s with shouldReconnect := true }
  else
    { s with
      shouldReconnect := true
      ws := some s.sockets.length
      sockets := s.sockets ++ [.connecting] }

def flushQueue : Client :=
  match s.ws with
  | none => s
  | some socket =>
    if s.isOpen socket then
      { s with
        sent := (s.outboundQueue.map fun frame => (socket, frame)).reverse ++ s.sent
        outboundQueue := [] }
    else s

def onopen : Client := flushQueue { s with reconnectAttempt := 0 }

def onclose : Client :=
  if s.shouldReconnect then
    { s with
      ws := none
      reconnectAttempt := s.reconnectAttempt + 1
      reconnectTimer := some s.timersMade
      timers := s.timers ++ [s.timersMade]
      timersMade := s.timersMade + 1 }
  else { s with ws := none }

/-- The end of `sendPacket` and of `setDevice`. -/
def send (frame : String) : Client :=
  match s.ws.filter s.isOpen with
  | some socket => { s with sent := (socket, frame) :: s.sent }
  | none =>
    let outboundQueue :=
      if s.outboundQueue.length ≥ maxQueueSize then s.outboundQueue.tail else s.outboundQueue
    { s with outboundQueue := outboundQueue ++ [frame] }

def clearTimeout (timer : Nat) : Client := { s with timers := s.timers.filter (· != timer) }

def clearReconnectTimer : Client :=
  match s.reconnectTimer with
  | some timer => { s.clearTimeout timer with reconnectTimer := none }
  | none => s

/-- `this.ws.close()`, if `ws` is open or connecting. -/
def closeSocket : Client :=
  match s.ws with
  | some socket => if s.Live socket then s.setReadyState socket .closing else s
  | none => s

def disconnect : Client :=
  let s := { s with shouldReconnect := false, reconnectAttempt := 0 }
  { s.clearReconnectTimer.closeSocket with ws := none, outboundQueue := [] }

end

/-- The calls of the client's functions, and what sockets and timers do. -/
inductive Action where
  | connect
  | disconnect
  | send (frame : String)
  | opened (socket : Nat)
  /-- The peer closes the socket, or the connection fails; the close event comes later. -/
  | closing (socket : Nat)
  /-- The close event. -/
  | closed (socket : Nat)
  | fired (timer : Nat)
deriving DecidableEq

def Enabled (s : Client) : Action → Prop
  | .connect | .disconnect | .send _ => True
  | .opened socket => s.sockets[socket]? = some .connecting
  | .closing socket => s.Live socket
  | .closed socket => s.Live socket ∨ s.sockets[socket]? = some .closing
  | .fired timer => timer ∈ s.timers

instance (s : Client) : (a : Action) → Decidable (s.Enabled a)
  | .connect | .disconnect | .send _ => inferInstanceAs (Decidable True)
  | .opened socket => inferInstanceAs (Decidable (s.sockets[socket]? = some .connecting))
  | .closing socket => inferInstanceAs (Decidable (s.Live socket))
  | .closed socket => inferInstanceAs (Decidable (s.Live socket ∨ s.sockets[socket]? = some .closing))
  | .fired timer => inferInstanceAs (Decidable (timer ∈ s.timers))

def after (s : Client) : Action → Client
  | .connect => s.connect
  | .disconnect => s.disconnect
  | .send frame => s.send frame
  | .opened socket => (s.setReadyState socket .open).onopen
  | .closing socket => s.setReadyState socket .closing
  | .closed socket => (s.setReadyState socket .closed).onclose
  | .fired timer => (s.clearTimeout timer).connect

def system (url : String) : System Client Action := System.guarded (· = { url }) Enabled after

/-- There is at most one socket that is open or about to be, and it is `ws`. -/
structure SingleSocket (s : Client) : Prop where
  unique : ∀ socket socket', s.Live socket → s.Live socket' → socket = socket'
  current : ∀ socket, s.Live socket → s.ws = some socket

/-- Since the last `disconnect`, with no `connect` after it, no socket was made and none is open. -/
def QuietAfterDisconnect (tr : List (Client × Action)) (s : Client) : Prop :=
  ∀ pre post v, tr = pre ++ (v, .disconnect) :: post → (∀ p ∈ post, p.2 ≠ .connect) →
    s.sockets.length = v.sockets.length ∧ ∀ socket, ¬ s.Live socket

/-- The close event of a socket comes when another one has taken its place. -/
def Displaced (p : Client × Action) : Prop :=
  ∃ socket socket', p.2 = .closed socket ∧ p.1.ws = some socket' ∧ socket' ≠ socket ∧ p.1.Live socket'

/-- `disconnect` is called while a timer is pending that `reconnectTimer` does not hold any more. -/
def Forgotten (p : Client × Action) : Prop :=
  p.2 = .disconnect ∧ ∃ timer ∈ p.1.timers, p.1.reconnectTimer ≠ some timer

section
variable {s t : Client} {socket socket' : Nat}

theorem live_setReadyState_of_ne (h : socket' ≠ socket) (readyState : ReadyState) :
    (s.setReadyState socket readyState).Live socket' ↔ s.Live socket' := by
  simp only [Live, setReadyState, List.getElem?_set, if_neg (Ne.symm h)]

theorem not_live_setReadyState (h : readyState = .closing ∨ readyState = .closed) :
    ¬ (s.setReadyState socket readyState).Live socket := by
  simp only [Live, setReadyState, List.getElem?_set_self']
  rcases h with rfl | rfl
  · cases s.sockets[socket]? <;> simp
  · cases s.sockets[socket]? <;> simp

theorem live_of_setReadyState_open (h : s.Live socket) (hlive : (s.setReadyState socket .open).Live socket') :
    s.Live socket' := by
  by_cases hne : socket' = socket
  · exact hne ▸ h
  · exact (live_setReadyState_of_ne hne _).1 hlive

/-- What a part of the client's code does to the sockets, if it makes none. -/
structure Keeps (s t : Client) : Prop where
  sockets : t.sockets = s.sockets
  ws : t.ws = s.ws
  timers : t.timers = s.timers
  shouldReconnect : t.shouldReconnect = s.shouldReconnect

theorem Keeps.live_iff (h : Keeps s t) : t.Live socket ↔ s.Live socket := by
  rw [Live, Live, h.sockets]

section
variable (s : Client)

theorem keeps_onopen : Keeps s s.onopen := by
  rw [onopen, flushQueue]
  split
  · exact ⟨rfl, rfl, rfl, rfl⟩
  · split
    · exact ⟨rfl, rfl, rfl, rfl⟩
    · exact ⟨rfl, rfl, rfl, rfl⟩

theorem keeps_send (frame : String) : Keeps s (s.send frame) := by
  rw [send]
  split
  · exact ⟨rfl, rfl, rfl, rfl⟩
  · exact ⟨rfl, rfl, rfl, rfl⟩

theorem connect_cases : (s.connect.sockets = s.sockets ∧ s.connect.ws = s.ws) ∨
    (s.connect.sockets = s.sockets ++ [.connecting] ∧ s.connect.ws = some s.sockets.length ∧
      ∀ socket, s.ws = some socket → ¬ s.Live socket) := by
  rw [connect]
  split
  · exact .inl ⟨rfl, rfl⟩
  · rename_i h
    refine .inr ⟨rfl, rfl, fun socket hws => ?_⟩
    rw [hws] at h
    simp only [any_some, Bool.or_eq_true, decide_eq_true_eq, not_or] at h
    exact h.1

theorem clearReconnectTimer_timers :
    s.clearReconnectTimer.timers = s.timers.filter fun timer => s.reconnectTimer != some timer := by
  rw [clearReconnectTimer]
  split
  · rename_i timer h
    rw [clearTimeout, h]
    apply filter_congr
    intro timer' _
    rw [Bool.eq_iff_iff, bne_iff_ne, bne_iff_ne, ne_comm, ne_eq, ne_eq, some.injEq]
  · rename_i h
    rw [h]
    exact (filter_eq_self.2 fun _ _ => rfl).symm

theorem clearReconnectTimer_sockets : s.clearReconnectTimer.sockets = s.sockets := by
  rw [clearReconnectTimer]
  split <;> rfl

theorem clearReconnectTimer_ws : s.clearReconnectTimer.ws = s.ws := by
  rw [clearReconnectTimer]
  split <;> rfl

theorem clearReconnectTimer_shouldReconnect :
    s.clearReconnectTimer.shouldReconnect = s.shouldReconnect := by
  rw [clearReconnectTimer]
  split <;> rfl

theorem closeSocket_keeps : s.closeSocket.timers = s.timers ∧
    s.closeSocket.shouldReconnect = s.shouldReconnect ∧ s.closeSocket.sockets.length = s.sockets.length := by
  rw [closeSocket]
  split
  · split
    · exact ⟨rfl, rfl, length_set⟩
    · exact ⟨rfl, rfl, rfl⟩
  · exact ⟨rfl, rfl, rfl⟩

end

theorem live_closeSocket : s.closeSocket.Live socket ↔ s.Live socket ∧ s.ws ≠ some socket := by
  rw [closeSocket]
  split
  · rename_i current hws
    rw [hws, ne_eq, some.injEq]
    by_cases hsocket : current = socket
    · subst hsocket
      split
      · exact iff_of_false (not_live_setReadyState (.inl rfl)) fun h => h.2 rfl
      · rename_i hlive
        exact iff_of_false hlive fun h => h.2 rfl
    · rw [and_iff_left hsocket]
      split
      · exact live_setReadyState_of_ne (Ne.symm hsocket) _
      · exact Iff.rfl
  · rename_i hws
    simp [hws]

theorem disconnect_timers (s : Client) :
    s.disconnect.timers = s.timers.filter fun timer => s.reconnectTimer != some timer :=
  (closeSocket_keeps _).1.trans (clearReconnectTimer_timers _)

theorem disconnect_shouldReconnect (s : Client) : s.disconnect.shouldReconnect = false :=
  (closeSocket_keeps _).2.1.trans (clearReconnectTimer_shouldReconnect _)

theorem live_disconnect : s.disconnect.Live socket ↔ s.Live socket ∧ s.ws ≠ some socket := by
  have hsame (s : Client) : s.clearReconnectTimer.Live socket ↔ s.Live socket := by
    rw [Live, Live, clearReconnectTimer_sockets]
  have hclose := @live_closeSocket
    (clearReconnectTimer { s with shouldReconnect := false, reconnectAttempt := 0 }) socket
  rw [hsame, clearReconnectTimer_ws] at hclose
  exact hclose

/-- `ws` is the socket that is open or about to be. -/
def Current (s : Client) : Prop := ∀ socket, s.Live socket → s.ws = some socket

theorem Current.singleSocket (h : s.Current) : s.SingleSocket :=
  ⟨fun socket socket' hsocket hsocket' => some.inj ((h socket hsocket).symm.trans (h socket' hsocket')), h⟩

theorem Current.connect (h : s.Current) : s.connect.Current := by
  intro socket hlive
  rcases s.connect_cases with ⟨hsockets, hws⟩ | ⟨hsockets, hws, hdead⟩
  · rw [Live, hsockets] at hlive
    rw [hws]
    exact h socket hlive
  · -- no socket was live before, so it is the new one
    rw [Live, hsockets, List.getElem?_append] at hlive
    rw [hws, some.injEq]
    split at hlive
    · exact absurd hlive (hdead socket (h socket hlive))
    · rename_i hge
      rw [List.getElem?_singleton] at hlive
      split at hlive
      · omega
      · simp at hlive

theorem onclose_sockets (s : Client) : s.onclose.sockets = s.sockets := by
  rw [onclose]
  split <;> rfl

theorem onclose_ws (s : Client) : s.onclose.ws = none := by
  rw [onclose]
  split <;> rfl

theorem live_onclose : s.onclose.Live socket ↔ s.Live socket := by
  rw [Live, Live, onclose_sockets]

/-- A step keeps `ws` current, unless the close event of one socket takes away another one. -/
theorem Current.after (h : s.Current) (henabled : s.Enabled a) (ha : ¬ Displaced (s, a)) :
    (s.after a).Current := by
  cases a with
  | connect => exact h.connect
  | disconnect =>
    intro socket hlive
    obtain ⟨hlive, hws⟩ := live_disconnect.1 hlive
    exact absurd (h socket hlive) hws
  | send frame =>
    have hkeeps := keeps_send s frame
    intro socket hlive
    exact hkeeps.ws.trans (h socket (hkeeps.live_iff.1 hlive))
  | opened socket =>
    have hkeeps := keeps_onopen (s.setReadyState socket .open)
    intro socket' hlive
    exact hkeeps.ws.trans (h socket' (live_of_setReadyState_open (.inl henabled) (hkeeps.live_iff.1 hlive)))
  | closing socket =>
    intro socket' hlive
    by_cases hne : socket' = socket
    · exact absurd (hne ▸ hlive) (not_live_setReadyState (.inl rfl))
    · exact h socket' ((live_setReadyState_of_ne hne _).1 hlive)
  | closed socket =>
    intro socket' hlive
    have hlive := live_onclose.1 hlive
    by_cases hne : socket' = socket
    · exact absurd (hne ▸ hlive) (not_live_setReadyState (.inr rfl))
    · have hbefore := (live_setReadyState_of_ne hne _).1 hlive
      exact absurd ⟨socket, socket', rfl, h socket' hbefore, hne, hbefore⟩ ha
  | fired timer =>
    have hcleared : (s.clearTimeout timer).Current := h
    exact hcleared.connect

/-- After `disconnect` nothing is left that could open a socket. -/
structure Quiet (made : Nat) (s : Client) : Prop where
  shouldReconnect : s.shouldReconnect = false
  timers : s.timers = []
  made : s.sockets.length = made
  dead : ∀ socket, ¬ s.Live socket

theorem Current.quiet_disconnect (h : s.Current) (ha : ¬ Forgotten (s, .disconnect)) :
    Quiet s.sockets.length s.disconnect where
  shouldReconnect := disconnect_shouldReconnect s
  timers := by
    rw [disconnect_timers, filter_eq_nil_iff]
    intro timer htimer
    rw [bne_iff_ne]
    exact fun hne => ha ⟨rfl, timer, htimer, hne⟩
  made := by
    have hlength := (closeSocket_keeps
      (clearReconnectTimer { s with shouldReconnect := false, reconnectAttempt := 0 })).2.2
    rw [clearReconnectTimer_sockets] at hlength
    exact hlength
  dead socket hlive := by
    obtain ⟨hlive, hws⟩ := live_disconnect.1 hlive
    exact hws (h socket hlive)

/-- Until the next `connect` it stays so. -/
theorem Quiet.after {made : Nat} {a : Action} (h : Quiet made s) (henabled : s.Enabled a) (ha : a ≠ .connect) :
    Quiet made (s.after a) := by
  cases a with
  | connect => exact absurd rfl ha
  | disconnect =>
    have hcurrent : s.Current := fun socket hlive => absurd hlive (h.dead socket)
    rw [← h.made]
    apply hcurrent.quiet_disconnect
    rintro ⟨-, timer, htimer, -⟩
    have htimer : timer ∈ s.timers := htimer
    rw [h.timers] at htimer
    cases htimer
  | send frame =>
    have hkeeps := keeps_send s frame
    exact ⟨hkeeps.shouldReconnect.trans h.shouldReconnect, hkeeps.timers.trans h.timers,
      (congrArg List.length hkeeps.sockets).trans h.made, fun socket hlive => h.dead socket (hkeeps.live_iff.1 hlive)⟩
  | opened socket => exact absurd (.inl henabled) (h.dead socket)
  | closing socket => exact absurd henabled (h.dead socket)
  | closed socket =>
    have hclosed : (s.setReadyState socket .closed).onclose = { s.setReadyState socket .closed with ws := none } :=
      if_neg (Bool.eq_false_iff.1 h.shouldReconnect)
    rw [Client.after, hclosed]
    refine ⟨h.shouldReconnect, h.timers, length_set.trans h.made, fun socket' hlive => ?_⟩
    by_cases hne : socket' = socket
    · exact not_live_setReadyState (.inr rfl) (hne ▸ hlive)
    · exact h.dead socket' ((live_setReadyState_of_ne hne _).1 hlive)
  | fired timer =>
    have henabled : timer ∈ s.timers := henabled
    rw [h.timers] at henabled
    cases henabled

end

section
variable {url : String} {s u v : Client} {tr : List (Client × Action)}

theorem Current.run (h : (system url).Run s tr u) (hs : s.Current) (htr : ∀ p ∈ tr, ¬ Displaced p) :
    ∀ w ∈ states tr u, w.Current := by
  apply h.forall_states hs
  rintro p hp hcurrent w ⟨henabled, rfl⟩
  exact hcurrent.after henabled (htr p hp)

theorem current_new (url : String) : Current { url } := by
  intro socket hlive
  simp [Live] at hlive

theorem Quiet.run {made : Nat} (h : (system url).Run s tr u) (hs : Quiet made s)
    (htr : ∀ p ∈ tr, p.2 ≠ .connect) : Quiet made u := by
  refine h.forall_states hs ?_ u (end_mem_states tr u)
  rintro p hp hquiet w ⟨henabled, rfl⟩
  exact hquiet.after henabled (htr p hp)

theorem Displaced.not_singleSocket (h : Displaced p) : ¬ (p.1.after p.2).SingleSocket := by
  obtain ⟨s, a⟩ := p
  obtain ⟨socket, socket', rfl, -, hne, hlive⟩ := h
  intro hsingle
  have hws := hsingle.current socket' (live_onclose.2 ((live_setReadyState_of_ne hne _).2 hlive))
  rw [Client.after, onclose_ws] at hws
  cases hws

/-- The client has a single socket in exactly the runs where every close event comes before the next socket is
made. It opens none after `disconnect` if that also finds no forgotten timer. -/
theorem single_socket_iff (h : (system url).Run { url } tr s) :
    ((∀ u ∈ states tr s, u.SingleSocket) ↔ ∀ p ∈ tr, ¬ Displaced p) ∧
    ((∀ p ∈ tr, ¬ Displaced p ∧ ¬ Forgotten p) → QuietAfterDisconnect tr s) := by
  refine ⟨⟨fun hsingle p hp hdisplaced => ?_, fun htr u hu => ?_⟩, ?_⟩
  · obtain ⟨u, ⟨-, rfl⟩, hu⟩ := h.exists_mem_states hp
    exact hdisplaced.not_singleSocket (hsingle _ hu)
  · exact ((current_new url).run h htr u hu).singleSocket
  · intro htr pre post v hsplit hpost
    subst hsplit
    obtain ⟨w, hpre, hrest⟩ := h.of_append
    cases hrest with
    | cons hstep hrest =>
      obtain ⟨-, rfl⟩ := hstep
      have hcurrent : v.Current :=
        (current_new url).run hpre (fun p hp => (htr p (mem_append_left _ hp)).1) v (end_mem_states _ _)
      have hforgotten := (htr (v, .disconnect) (mem_append_right _ (mem_cons_self ..))).2
      have hquiet := (hcurrent.quiet_disconnect hforgotten).run hrest hpost
      exact ⟨hquiet.made, hquiet.dead⟩

end

def orderly : List Action := [.connect, .opened 0, .disconnect, .closed 0]

theorem single_socket_iff_orderly : ∃ tr s, (system "ws://gateway").Run { url := "ws://gateway" } tr s ∧
    tr.map Prod.snd = orderly ∧ ∀ u ∈ states tr s, u.SingleSocket := by
  have hrun : (system "ws://gateway").Run { url := "ws://gateway" }
      (replay after { url := "ws://gateway" } orderly).1 (replay after { url := "ws://gateway" } orderly).2 :=
    System.run_replay orderly (by decide +kernel)
  have hcloses : ∀ p ∈ (replay after { url := "ws://gateway" } orderly).1,
      p.1.ws = none ∨ p.2 ∈ ([.opened 0, .disconnect] : List Action) := by
    decide +kernel
  refine ⟨_, _, hrun, replay_labels _ _ _, (single_socket_iff hrun).1.2 ?_⟩
  rintro p hp ⟨socket, socket', haction, hws, -⟩
  rcases hcloses p hp with hnone | hother
  · cases hnone.symm.trans hws
  · rw [haction] at hother
    simp at hother

def displaced : List Action := [.connect, .opened 0, .disconnect, .connect, .closed 0, .fired 0]

def forgotten : List Action := [.connect, .closed 0, .connect, .closed 1, .disconnect, .fired 0]

theorem displaced_two_sockets :
    (∃ tr s, (system "ws://gateway").Run { url := "ws://gateway" } tr s ∧ ¬ s.SingleSocket) ∧
    ∃ tr s, (system "ws://gateway").Run { url := "ws://gateway" } tr s ∧ ¬ QuietAfterDisconnect tr s := by
  constructor
  · refine ⟨_, _, System.run_replay displaced (by decide +kernel), fun hsingle => ?_⟩
    have hsame := hsingle.unique 1 2 (by decide +kernel) (by decide +kernel)
    cases hsame
  · refine ⟨_, _, System.run_replay forgotten (by decide +kernel), fun hquiet => ?_⟩
    have hmade := (hquiet (replay after { url := "ws://gateway" } (forgotten.take 4)).1
      [((replay after { url := "ws://gateway" } (forgotten.take 5)).2, .fired 0)]
      (replay after { url := "ws://gateway" } (forgotten.take 4)).2 rfl (by simp)).1
    revert hmade
    decide +kernel

end Client

end Trakrai.LiveTransport
