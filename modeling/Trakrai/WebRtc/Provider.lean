import Mathlib.Algebra.GroupWithZero.Nat
import Trakrai.Lib.Transition
import Trakrai.LiveTransport.Requests

namespace Trakrai.WebRtc
open Lib LiveTransport

/-- What is called on a peer connection, which performs it in that order. -/
inductive Operation where
  | setRemoteDescription
  | addIceCandidate (candidate : Nat)
  | createAnswer
  | setLocalDescription
  | close
deriving DecidableEq

/-- An `RTCPeerConnection`, the offer that it was created for, and the calls on it. -/
structure Peer where
  offer : Nat
  operations : List Operation

/-- What a call of `handleSdpOffer` waits for. -/
inductive Stage where
  /-- The response of `/api/ice-config`. -/
  | fetching
  /-- The body of the response. -/
  | reading
  | describing (peerConnection : Nat)
  /-- A call of `addIceCandidate`, with these candidates left. -/
  | adding (peerConnection : Nat) (rest : List Nat)
  | answering (peerConnection : Nat)
  | settingLocal (peerConnection : Nat)
  | done (peerConnection : Nat)
  | failed
deriving DecidableEq

def Stage.peerConnection : Stage → Option Nat
  | .fetching | .reading | .failed => none
  | .describing p | .adding p _ | .answering p | .settingLocal p | .done p => some p

def Stage.returned : Stage → Bool
  | .done _ | .failed => true
  | _ => false

def Stage.rest : Stage → List Nat
  | .adding _ rest => rest
  | _ => []

/-- A call of `handleSdpOffer` that was not ignored. -/
structure Offer where
  /-- `nextSessionId`. -/
  sessionId : String
  stage : Stage := .fetching
  /-- The number of candidates that had come when it was made. -/
  since : Nat
  /-- The candidates that name its session and were in the buffer when it was made. -/
  waiting : List Nat

/-- The candidate is for the peer of the offer: it came after it or was waiting for it, and it names
its session or none. -/
def Offer.Awaits (offer : Offer) (c : Nat) (sessionId : Option String) : Prop :=
  (offer.since ≤ c ∧ (sessionId = none ∨ sessionId = some offer.sessionId)) ∨
    (c ∈ offer.waiting ∧ sessionId = some offer.sessionId)

structure BufferedIceCandidate where
  candidate : Nat
  sessionId : Option String
deriving DecidableEq

/-- The refs and the session of the provider, and what has happened in its life. -/
structure Provider where
  pc : Option Nat := none
  /-- The peer whose grace period is running. -/
  disconnectTimer : Option Nat := none
  iceCandidateBuffer : List BufferedIceCandidate := []
  currentSessionId : Option String := none
  /-- The session at the last render: the one that the callbacks in use have captured. -/
  renderedSessionId : Option String := none
  /-- The peers in the order in which they were created. -/
  peers : List Peer := []
  /-- The offers in the order in which they came, without those that were ignored. -/
  offers : List Offer := []
  /-- The sessions of the remote candidates in the order in which they came. -/
  candidates : List (Option String) := []
  /-- The session of the most recent offer, ignored or not. -/
  received : Option String := none
  /-- There was no offer yet, or the most recent one has failed or its peer was closed. -/
  closedSince : Bool := true

namespace Provider

section
variable (s : Provider)

def call (peerConnection : Nat) (operation : Operation) : Provider :=
  { s with
    peers := s.peers.modify peerConnection fun peer =>
      { peer with operations := peer.operations ++ [operation] } }

def closeConnection : Provider :=
  match s.pc with
  | some p => { s.call p .close with pc := none }
  | none => s

def cleanupPeer (clearSession : Bool) (preserveIceCandidateBuffer : Bool := false) : Provider :=
  { s.closeConnection with
    disconnectTimer := none
    iceCandidateBuffer := if preserveIceCandidateBuffer then s.iceCandidateBuffer else []
    currentSessionId := if clearSession then none else s.currentSessionId }

def setStage (t : Nat) (stage : Stage) : Provider :=
  { s with offers := s.offers.modify t fun offer => { offer with stage } }

def isLatest (t : Nat) : Bool := t + 1 = s.offers.length

/-- The `catch` of `handleSdpOffer`. -/
def fail (t : Nat) : Provider :=
  { (s.cleanupPeer true).setStage t .failed with closedSince := s.closedSince || s.isLatest t }

def handleSdpOffer (sessionId : Option String) (fresh : String) : Provider :=
  let nextSessionId := (normalizeOptionalString sessionId).getD fresh
  if s.renderedSessionId = some nextSessionId ∧ s.pc ≠ none then { s with received := some nextSessionId }
  else
    { s.cleanupPeer false true with
      currentSessionId := some nextSessionId
      offers := s.offers ++ [{
        sessionId := nextSessionId
        since := s.candidates.length
        waiting := (s.iceCandidateBuffer.filter (·.sessionId = some nextSessionId)).map (·.candidate) }]
      received := some nextSessionId
      closedSince := false }

/-- The peer is made, installed and told the remote description. -/
def install (t : Nat) : Provider :=
  let installed : Provider :=
    { s with
      peers := s.peers ++ [{ offer := t, operations := [.setRemoteDescription] }]
      pc := some s.peers.length }
  installed.setStage t (.describing s.peers.length)

/-- The loop over the buffered candidates from one `await` to the next, and what follows the loop. -/
def addCandidates (t p : Nat) : List Nat → Provider
  | [] => (s.call p .createAnswer).setStage t (.answering p)
  | c :: rest => (s.call p (.addIceCandidate c)).setStage t (.adding p rest)

def bufferedFor (sessionId : String) : List Nat :=
  (s.iceCandidateBuffer.filter fun buffered =>
    buffered.sessionId = none ∨ buffered.sessionId = some sessionId).map (·.candidate)

/-- `handleSdpOffer` goes on after an `await`. -/
def resume (t : Nat) (offer : Offer) : Provider :=
  match offer.stage with
  | .fetching => s.setStage t .reading
  | .reading => s.install t
  | .describing p =>
    let drained : Provider := { s with iceCandidateBuffer := [] }
    drained.addCandidates t p (s.bufferedFor offer.sessionId)
  | .adding p rest => s.addCandidates t p rest
  | .answering p => (s.call p .setLocalDescription).setStage t (.settingLocal p)
  | .settingLocal p => s.setStage t (.done p)
  | .done _ | .failed => s

def handleRemoteIceCandidate (sessionId : Option String) : Provider :=
  let normalizedSessionId := normalizeOptionalString sessionId
  let c := s.candidates.length
  let s := { s with candidates := s.candidates ++ [normalizedSessionId] }
  match s.pc, s.renderedSessionId with
  | some p, some currentSessionId =>
    if normalizedSessionId ≠ none ∧ normalizedSessionId ≠ some currentSessionId then s
    else s.call p (.addIceCandidate c)
  | _, _ => { s with iceCandidateBuffer := s.iceCandidateBuffer ++ [⟨c, normalizedSessionId⟩] }

def closePeer (clearSession : Bool) : Provider :=
  { s.cleanupPeer clearSession with closedSince := true }

end

/-- The calls of the provider's functions, and what the browser does. -/
inductive Action where
  /-- `fresh` is what `createClientRequestId` makes. -/
  | handleSdpOffer (sessionId : Option String) (fresh : String)
  /-- What the offer waits for has come, or has failed. -/
  | settled (offer : Nat) (ok : Bool)
  | handleRemoteIceCandidate (sessionId : Option String)
  | closePeer (clearSession : Bool)
  /-- The state of the peer is `connected`. -/
  | connected (peerConnection : Nat)
  | disconnected (peerConnection : Nat)
  /-- The state of the peer is `failed` or `closed`. -/
  | lost (peerConnection : Nat)
  /-- The grace period is over. -/
  | fired
  | render
deriving DecidableEq

def after (s : Provider) : Action → Provider
  | .handleSdpOffer sessionId fresh => s.handleSdpOffer sessionId fresh
  | .settled t ok =>
    match s.offers[t]? with
    | some offer => if ok then s.resume t offer else s.fail t
    | none => s
  | .handleRemoteIceCandidate sessionId => s.handleRemoteIceCandidate sessionId
  | .closePeer clearSession => s.closePeer clearSession
  | .connected p => if s.pc = some p then { s with disconnectTimer := none } else s
  | .disconnected p => if s.pc = some p then { s with disconnectTimer := some p } else s
  | .lost p => if s.pc = some p then s.closePeer true else s
  | .fired =>
    if s.disconnectTimer ≠ none ∧ s.disconnectTimer = s.pc then s.closePeer true
    else { s with disconnectTimer := none }
  | .render => { s with renderedSessionId := s.currentSessionId }

def Enabled (s : Provider) : Action → Prop
  | .settled t _ => ∃ offer ∈ s.offers[t]?, offer.stage.returned = false
  | .connected p | .disconnected p | .lost p => p < s.peers.length
  | .fired => s.disconnectTimer ≠ none
  | _ => True

instance (s : Provider) : (a : Action) → Decidable (s.Enabled a)
  | .settled t _ => inferInstanceAs (Decidable (∃ offer ∈ s.offers[t]?, offer.stage.returned = false))
  | .connected p | .disconnected p | .lost p => inferInstanceAs (Decidable (p < s.peers.length))
  | .fired => inferInstanceAs (Decidable (s.disconnectTimer ≠ none))
  | .handleSdpOffer .. | .handleRemoteIceCandidate .. | .closePeer .. | .render =>
    inferInstanceAs (Decidable True)

def system : System Provider Action := System.guarded (· = {}) Enabled after

section
variable (s : Provider)

def Closed (p : Nat) : Prop := ∃ peer, s.peers[p]? = some peer ∧ .close ∈ peer.operations

/-- The call has returned. One that waits for a peer which was closed may never return. -/
def Finished (offer : Offer) : Prop :=
  offer.stage.returned = true ∨ ∃ p, offer.stage.peerConnection = some p ∧ s.Closed p

def added (c : Nat) : Nat :=
  (s.peers.map fun peer => peer.operations.count (.addIceCandidate c)).sum

def AddedTo (p c : Nat) : Prop :=
  ∃ peer, s.peers[p]? = some peer ∧ .addIceCandidate c ∈ peer.operations

def AddedFor (sessionId : String) (c : Nat) : Prop :=
  ∃ (p : Nat) (peer : Peer) (offer : Offer), s.peers[p]? = some peer ∧
    .addIceCandidate c ∈ peer.operations ∧ s.offers[peer.offer]? = some offer ∧
      offer.sessionId = sessionId

/-- What holds once all calls have returned. -/
structure OnePeer (s : Provider) : Prop where
  /-- The peer is that of the most recent offer, unless it was closed since. -/
  installed : s.closedSince = false → ∃ offer p peer, s.offers.getLast? = some offer ∧
    s.received = some offer.sessionId ∧ s.pc = some p ∧ s.peers[p]? = some peer ∧
      peer.offer + 1 = s.offers.length
  uninstalled : s.closedSince = true → s.pc = none
  /-- The other peers are closed, and this one is not. -/
  closed : ∀ p, p < s.peers.length → (s.Closed p ↔ s.pc ≠ some p)
  /-- Whatever is called on a peer, its remote description came first. -/
  described : ∀ peer ∈ s.peers, peer.operations.head? = some .setRemoteDescription
  /-- The candidates that came since the offer or waited for it are added to its peer. -/
  awaited : s.closedSince = false → ∀ offer, s.offers.getLast? = some offer →
    ∀ c sessionId, s.candidates[c]? = some sessionId → offer.Awaits c sessionId →
      s.added c = 1 ∧ ∃ p, s.pc = some p ∧ s.AddedTo p c
  /-- Those of the session that came before are added to the peer that it had. -/
  earlier : s.closedSince = false → ∀ offer, s.offers.getLast? = some offer →
    ∀ c, s.candidates[c]? = some (some offer.sessionId) → s.added c = 1 ∧ s.AddedFor offer.sessionId c

/-- The buffered candidate is for the peer of the most recent offer. -/
def Awaited (buffered : BufferedIceCandidate) : Prop :=
  s.closedSince = false ∧ ∃ offer ∈ s.offers.getLast?, offer.Awaits buffered.candidate buffered.sessionId

/-- The steps that leave the peer of the most recent offer and its candidates alone. -/
def Orderly : Action → Prop
  | .handleSdpOffer sessionId fresh =>
    let nextSessionId := (normalizeOptionalString sessionId).getD fresh
    if s.renderedSessionId = some nextSessionId ∧ s.pc ≠ none then s.received = some nextSessionId
    else
      ∀ c, s.candidates[c]? = some (some nextSessionId) →
        ⟨c, some nextSessionId⟩ ∈ s.iceCandidateBuffer ∨ s.AddedFor nextSessionId c
  | .settled t true =>
    match s.offers[t]?.map Offer.stage with
    | some .reading => s.isLatest t ∧ s.closedSince = false
    | some (.describing _) => s.isLatest t ∨ ∀ buffered ∈ s.iceCandidateBuffer, ¬ s.Awaited buffered
    | _ => True
  | .settled t false =>
    s.isLatest t ∨ (s.pc = none ∧ ∀ buffered ∈ s.iceCandidateBuffer, ¬ s.Awaited buffered)
  | .handleRemoteIceCandidate sessionId =>
    let normalizedSessionId := normalizeOptionalString sessionId
    s.Awaited ⟨s.candidates.length, normalizedSessionId⟩ → s.pc = none ∨
      (∃ sessionId, s.renderedSessionId = some sessionId ∧
        (normalizedSessionId = none ∨ normalizedSessionId = some sessionId)) ∨
      (s.renderedSessionId = none ∧ ∃ offer ∈ s.offers.getLast?, ∃ p, offer.stage = .describing p)
  | _ => True

end

end Provider
end Trakrai.WebRtc
