import Trakrai.WebRtc.Provider

namespace Trakrai.LiveViewer
open Option List Lib LiveTransport WebRtc

inductive LiveFrameSource where
  | raw
  | processed
deriving DecidableEq

structure LiveLayoutSelection where
  cameraNames : List String
  frameSource : Option LiveFrameSource := none
  mode : String

def normalizeLiveFrameSource (frameSource : Option LiveFrameSource) : LiveFrameSource :=
  if frameSource = some .processed then .processed else .raw

def normalizeLiveLayoutSelection (selection : LiveLayoutSelection) : LiveLayoutSelection where
  cameraNames := selection.cameraNames.foldl (fun cameraNames candidate =>
    match normalizeOptionalString (some candidate) with
    | none => cameraNames
    | some name => if name ∈ cameraNames then cameraNames else cameraNames ++ [name]) []
  frameSource := some (normalizeLiveFrameSource selection.frameSource)
  mode := selection.mode

inductive Message where
  | startLive (requestId : String) (selection : LiveLayoutSelection)
  | updateLiveLayout (requestId sessionId : String) (selection : LiveLayoutSelection)
  | stopLive (requestId sessionId : Option String)

inductive WebRtcEvent where
  | offerReceived (sessionId : String)
  | peerClosed
  | error

def emits (s : Provider) : Provider.Action → Option WebRtcEvent
  | .handleSdpOffer sessionId fresh =>
    let nextSessionId := (normalizeOptionalString sessionId).getD fresh
    if s.renderedSessionId = some nextSessionId ∧ s.pc ≠ none then none
    else some (.offerReceived nextSessionId)
  | .settled _ false => some .error
  | .lost p => if s.pc = some p then some .peerClosed else none
  | .fired => if s.disconnectTimer ≠ none ∧ s.disconnectTimer = s.pc then some .peerClosed else none
  | _ => none

inductive RequestKind where
  | startLive
  | updateLiveLayout
deriving DecidableEq

/-- A request of the viewer. Its `session` is the one that the device makes for it, or that it
is to change. -/
structure Request where
  kind : RequestKind
  requestId : String
  session : String
  answered : Bool := false

/-- The refs of the viewer, the provider that it uses, and the requests that it has made. -/
structure Viewer where
  provider : Provider := {}
  activeRequestId : Option String := none
  pendingSessionId : Option String := none
  requests : List Request := []
  sent : List Message := []

/-- How the promise of a request ends. An answer that reports an error counts as failed. -/
inductive Answer where
  | ok (sessionId : Option String)
  | failed

namespace Viewer

section
variable (v : Viewer)

def currentSessionId : Option String := v.provider.renderedSessionId

def onEvent : Option WebRtcEvent → Viewer
  | some (.offerReceived sessionId) => { v with pendingSessionId := some sessionId }
  | some .peerClosed | some .error => { v with pendingSessionId := none, activeRequestId := none }
  | none => v

def perform (a : Provider.Action) : Viewer :=
  onEvent { v with provider := v.provider.after a } (emits v.provider a)

def stopLiveSession : Viewer :=
  let sessionId := v.currentSessionId.or v.pendingSessionId
  let sent :=
    if sessionId ≠ none ∨ v.activeRequestId ≠ none then v.sent ++ [.stopLive v.activeRequestId sessionId]
    else v.sent
  perform { v with sent, pendingSessionId := none, activeRequestId := none } (.closePeer true)

def startLive (selection : LiveLayoutSelection) (requestId session : String) : Viewer :=
  let normalizedSelection := normalizeLiveLayoutSelection selection
  if normalizedSelection.cameraNames = [] then v
  else
    let v :=
      if v.currentSessionId ≠ none ∨ v.pendingSessionId ≠ none ∨ v.activeRequestId ≠ none then
        v.stopLiveSession
      else v
    { v with
      activeRequestId := some requestId
      pendingSessionId := none
      requests := v.requests ++ [{ kind := .startLive, requestId, session }]
      sent := v.sent ++ [.startLive requestId normalizedSelection] }

def updateLiveLayout (selection : LiveLayoutSelection) (requestId session : String) : Viewer :=
  let normalizedSelection := normalizeLiveLayoutSelection selection
  if normalizedSelection.cameraNames = [] then v
  else
    match v.currentSessionId.or v.pendingSessionId with
    | none => v.startLive normalizedSelection requestId session
    | some sessionId =>
      { v with
        activeRequestId := some requestId
        requests := v.requests ++ [{ kind := .updateLiveLayout, requestId, session := sessionId }]
        sent := v.sent ++ [.updateLiveLayout requestId sessionId normalizedSelection] }

/-- The `then` and the `catch` of a request. -/
def settle (request : Request) : Answer → Viewer
  | .ok sessionId =>
    { v with
      pendingSessionId :=
        match request.kind with
        | .startLive => normalizeOptionalString sessionId
        | .updateLiveLayout => (normalizeOptionalString sessionId).or v.pendingSessionId
      activeRequestId := some request.requestId }
  | .failed =>
    match request.kind with
    | .startLive => v.perform (.closePeer true)
    | .updateLiveLayout => v

def markAnswered (t : Nat) : Viewer :=
  { v with requests := v.requests.modify t fun request => { request with answered := true } }

def isForAnotherRequest (requestId : Option String) : Bool :=
  let offeredRequestId := normalizeOptionalString requestId
  offeredRequestId ≠ none ∧ v.activeRequestId ≠ none ∧ offeredRequestId ≠ v.activeRequestId

def isStale (sessionId : Option String) : Bool :=
  let offeredSessionId := normalizeOptionalString sessionId
  let expectedSessionId := v.pendingSessionId.or v.currentSessionId
  offeredSessionId ≠ none ∧ expectedSessionId ≠ none ∧ offeredSessionId ≠ expectedSessionId

def acceptsOffer (requestId sessionId : Option String) : Bool :=
  !v.isForAnotherRequest requestId && !v.isStale sessionId

/-- The calls of the viewer's functions, and what comes from the device and the browser. -/
inductive Action where
  /-- `requestId` is what `createLiveViewerRequestId` makes. -/
  | startLive (selection : LiveLayoutSelection) (requestId session : String)
  | updateLiveLayout (selection : LiveLayoutSelection) (requestId session : String)
  | stopLive
  | answered (request : Nat) (answer : Answer)
  | sdpOffer (requestId sessionId : Option String) (fresh : String)
  | iceCandidate (requestId sessionId : Option String)
  /-- A step that the provider makes on its own. -/
  | provider (a : Provider.Action)

def after : Action → Viewer
  | .startLive selection requestId session => v.startLive selection requestId session
  | .updateLiveLayout selection requestId session => v.updateLiveLayout selection requestId session
  | .stopLive => v.stopLiveSession
  | .answered t answer =>
    match v.requests[t]? with
    | some request => (v.settle request answer).markAnswered t
    | none => v
  | .sdpOffer requestId sessionId fresh =>
    if v.acceptsOffer requestId sessionId then v.perform (.handleSdpOffer sessionId fresh) else v
  | .iceCandidate requestId sessionId =>
    if v.isForAnotherRequest requestId then v else v.perform (.handleRemoteIceCandidate sessionId)
  | .provider a => v.perform a

def Enabled : Action → Prop
  | .answered t (.ok sessionId) => ∃ request ∈ v.requests[t]?, request.answered = false ∧
      (normalizeOptionalString sessionId = none ∨ normalizeOptionalString sessionId = some request.session)
  | .answered t .failed => ∃ request ∈ v.requests[t]?, request.answered = false
  | .provider (.handleSdpOffer ..) | .provider (.handleRemoteIceCandidate _) | .provider (.closePeer _) => False
  | .provider a => v.provider.Enabled a
  | _ => True

def system : System Viewer Action := System.guarded (· = {}) Enabled after

def newest : Option Request := v.requests.getLast?

def isSuperseded (t : Nat) : Bool := t + 1 < v.requests.length

def NewestPeer (p : Nat) : Prop :=
  v.provider.pc = some p ∧ ∃ (peer : Peer) (offer : Offer), v.provider.peers[p]? = some peer ∧
    v.provider.offers[peer.offer]? = some offer ∧ ∃ request ∈ v.newest, offer.sessionId = request.session

def Belongs (requestId sessionId : Option String) : Prop :=
  ∃ request ∈ v.newest,
    (normalizeOptionalString requestId = none ∨ normalizeOptionalString requestId = some request.requestId) ∧
      (normalizeOptionalString sessionId = none ∨ normalizeOptionalString sessionId = some request.session)

/-- The step leaves the newest request what is its own. -/
def Wins : Action → Prop
  | .answered t answer => v.isSuperseded t →
      (v.after (.answered t answer)).activeRequestId = v.activeRequestId ∧
        (v.after (.answered t answer)).pendingSessionId = v.pendingSessionId ∧
          ∀ p, v.NewestPeer p → (v.after (.answered t answer)).NewestPeer p
  | .sdpOffer requestId sessionId _ => v.Belongs requestId sessionId → v.acceptsOffer requestId sessionId
  | _ => True

def NamesAnother (requestId sessionId : Option String) : Prop :=
  (∃ q a, normalizeOptionalString requestId = some q ∧ v.activeRequestId = some a ∧ q ≠ a) ∨
    ∃ x y, normalizeOptionalString sessionId = some x ∧
      v.pendingSessionId.or v.currentSessionId = some y ∧ x ≠ y

/-- The steps that do not confuse the newest request with another. -/
def Orderly : Action → Prop
  | .answered t (.ok _) => ¬ v.isSuperseded t
  | .answered t .failed => v.isSuperseded t →
      (∃ request ∈ v.requests[t]?, request.kind = .updateLiveLayout) ∨ ∀ p, ¬ v.NewestPeer p
  | .updateLiveLayout .. => ∀ x ∈ v.currentSessionId.or v.pendingSessionId,
      (v.pendingSessionId = none ∨ v.pendingSessionId = some x) ∧
        (v.provider.currentSessionId = none ∨ v.provider.currentSessionId = some x)
  | .sdpOffer requestId sessionId _ => ∀ request ∈ v.newest,
      if normalizeOptionalString sessionId = some request.session then
        v.currentSessionId = none ∨ v.currentSessionId = v.provider.currentSessionId ∨ v.pendingSessionId ≠ none
      else v.NamesAnother requestId sessionId
  | _ => True

end

theorem acceptsOffer_iff {v : Viewer} :
    v.acceptsOffer requestId sessionId ↔ ¬ v.NamesAnother requestId sessionId := by
  have hreq : v.isForAnotherRequest requestId = true ↔
      ∃ q a, normalizeOptionalString requestId = some q ∧ v.activeRequestId = some a ∧ q ≠ a := by
    rw [isForAnotherRequest, decide_eq_true_iff]
    cases normalizeOptionalString requestId <;> cases v.activeRequestId <;> simp
  have hstale : v.isStale sessionId = true ↔ ∃ x y, normalizeOptionalString sessionId = some x ∧
      v.pendingSessionId.or v.currentSessionId = some y ∧ x ≠ y := by
    rw [isStale, decide_eq_true_iff]
    cases normalizeOptionalString sessionId <;> cases v.pendingSessionId.or v.currentSessionId <;> simp
  rw [NamesAnother, ← hreq, ← hstale, acceptsOffer]
  cases v.isForAnotherRequest requestId <;> cases v.isStale sessionId <;> simp

section Provider
variable (s : Provider)

theorem resume_currentSessionId (t : Nat) (offer : Offer) :
    (s.resume t offer).currentSessionId = s.currentSessionId := by
  have hadd : ∀ (s : Provider) p cs, (s.addCandidates t p cs).currentSessionId = s.currentSessionId := by
    intro s p cs
    cases cs <;> rfl
  unfold Provider.resume
  cases offer.stage with
  | describing p => exact hadd _ p _
  | adding p rest => exact hadd s p rest
  | _ => rfl

theorem handleRemoteIceCandidate_currentSessionId (sessionId : Option String) :
    (s.handleRemoteIceCandidate sessionId).currentSessionId = s.currentSessionId := by
  simp only [Provider.handleRemoteIceCandidate]
  split
  · split <;> rfl
  · rfl

/-- Without an offer, a step of the provider keeps its session or clears it, and clears it if
the viewer hears of it. -/
theorem currentSessionId_after {s : Provider} {a : Provider.Action} (h : s.Enabled a)
    (ha : ∀ sessionId fresh, a ≠ .handleSdpOffer sessionId fresh) :
    (emits s a = none ∧
      ((s.after a).currentSessionId = s.currentSessionId ∨ (s.after a).currentSessionId = none)) ∨
    ((emits s a = some .peerClosed ∨ emits s a = some .error) ∧ (s.after a).currentSessionId = none) := by
  cases a with
  | handleSdpOffer sessionId fresh => exact absurd rfl (ha sessionId fresh)
  | settled t ok =>
    obtain ⟨offer, ho, -⟩ := h
    have hafter : s.after (.settled t ok) = if ok then s.resume t offer else s.fail t := by
      simp only [Provider.after, mem_def.1 ho]
    cases ok with
    | true =>
      rw [hafter, if_pos rfl]
      exact .inl ⟨rfl, .inl (resume_currentSessionId s t offer)⟩
    | false => exact .inr ⟨.inr rfl, by rw [hafter]; rfl⟩
  | handleRemoteIceCandidate sessionId =>
    exact .inl ⟨rfl, .inl (handleRemoteIceCandidate_currentSessionId s sessionId)⟩
  | closePeer clearSession =>
    cases clearSession with
    | true => exact .inl ⟨rfl, .inr rfl⟩
    | false => exact .inl ⟨rfl, .inl rfl⟩
  | connected p | disconnected p =>
    refine .inl ⟨rfl, .inl ?_⟩
    simp only [Provider.after]
    split <;> rfl
  | lost p | fired =>
    simp only [Provider.after, emits]
    split
    · exact .inr ⟨.inl rfl, rfl⟩
    · exact .inl ⟨rfl, .inl rfl⟩
  | render => exact .inl ⟨rfl, .inl rfl⟩

end Provider

/-- The refs and the session are those of the newest request, as far as there are any. -/
structure Coherent (v : Viewer) : Prop where
  newest : ∀ request ∈ v.newest,
    (v.activeRequestId = none ∨ v.activeRequestId = some request.requestId) ∧
    (v.pendingSessionId = none ∨ v.pendingSessionId = some request.session) ∧
    (v.provider.currentSessionId = none ∨ v.provider.currentSessionId = some request.session)
  session : v.provider.currentSessionId ≠ none → v.pendingSessionId ≠ none ∨ v.activeRequestId ≠ none

theorem newest_markAnswered (v : Viewer) (t : Nat) : ∃ f : Request → Request,
    (∀ request, (f request).requestId = request.requestId ∧ (f request).session = request.session) ∧
      (v.markAnswered t).newest = v.newest.map f := by
  refine ⟨fun request => if t = v.requests.length - 1 then { request with answered := true } else request,
    fun request => by split <;> exact ⟨rfl, rfl⟩, ?_⟩
  rw [newest, newest, List.getLast?_eq_getElem?, List.getLast?_eq_getElem?, markAnswered, length_modify,
    List.getElem?_modify]
  rfl

namespace Coherent

section
variable {v : Viewer}

theorem perform {a : Provider.Action} (h : v.Coherent) (he : v.provider.Enabled a)
    (ha : ∀ sessionId fresh, a ≠ .handleSdpOffer sessionId fresh) : (v.perform a).Coherent := by
  rcases currentSessionId_after he ha with ⟨hev, hcur⟩ | ⟨hev, hcur⟩
  · rw [Viewer.perform, hev]
    refine ⟨fun request hr => ?_, fun hne => ?_⟩
    · obtain ⟨hact, hpend, hsess⟩ := h.newest request hr
      refine ⟨hact, hpend, ?_⟩
      rcases hcur with hcur | hcur
      · exact hsess.imp hcur.trans hcur.trans
      · exact .inl hcur
    · rcases hcur with hcur | hcur
      · exact h.session (hcur ▸ hne)
      · exact absurd hcur hne
  · have hv : v.perform a =
        { v with provider := v.provider.after a, pendingSessionId := none, activeRequestId := none } := by
      rw [Viewer.perform]
      rcases hev with hev | hev <;> rw [hev] <;> rfl
    rw [hv]
    exact ⟨fun request _ => ⟨.inl rfl, .inl rfl, .inl hcur⟩, fun hne => absurd hcur hne⟩

theorem stopLiveSession : v.stopLiveSession.Coherent :=
  ⟨fun _ _ => ⟨.inl rfl, .inl rfl, .inl rfl⟩, fun hne => absurd rfl hne⟩

theorem startLive (h : v.Coherent) (selection : LiveLayoutSelection) (requestId session : String) :
    (v.startLive selection requestId session).Coherent := by
  simp only [Viewer.startLive]
  split
  · exact h
  · split
    · refine ⟨fun request hr => ?_, fun hne => absurd rfl hne⟩
      cases some.inj (List.getLast?_concat.symm.trans hr)
      exact ⟨.inr rfl, .inl rfl, .inl rfl⟩
    · rename_i hnone
      obtain ⟨-, hnone⟩ := not_or.1 hnone
      have hcur : v.provider.currentSessionId = none := by
        by_contra hne
        exact hnone (h.session hne)
      refine ⟨fun request hr => ?_, fun hne => absurd hcur hne⟩
      cases some.inj (List.getLast?_concat.symm.trans hr)
      exact ⟨.inr rfl, .inl rfl, .inl hcur⟩

theorem updateLiveLayout {session : String} (h : v.Coherent)
    (hord : v.Orderly (.updateLiveLayout selection requestId session)) :
    (v.updateLiveLayout selection requestId session).Coherent := by
  simp only [Orderly] at hord
  simp only [Viewer.updateLiveLayout]
  split
  · exact h
  · split
    · exact h.startLive ..
    · rename_i x hx
      refine ⟨fun request hr => ?_, fun _ => .inr nofun⟩
      cases some.inj (List.getLast?_concat.symm.trans hr)
      exact ⟨.inr rfl, hord x hx⟩

theorem markAnswered (h : v.Coherent) (t : Nat) : (v.markAnswered t).Coherent := by
  refine ⟨fun request hr => ?_, h.session⟩
  obtain ⟨f, hf, he⟩ := newest_markAnswered v t
  rw [he] at hr
  obtain ⟨old, hold, rfl⟩ := map_eq_some_iff.1 hr
  rw [(hf old).1, (hf old).2]
  exact h.newest old hold

theorem settle {request : Request} (h : v.Coherent) (hnew : v.newest = some request)
    (hs : normalizeOptionalString sessionId = none ∨ normalizeOptionalString sessionId = some request.session) :
    (v.settle request (.ok sessionId)).Coherent := by
  refine ⟨fun request' hr => ?_, fun _ => .inr nofun⟩
  cases some.inj (hnew.symm.trans hr)
  obtain ⟨-, hpend, hcur⟩ := h.newest request hnew
  refine ⟨.inr rfl, ?_, hcur⟩
  simp only [Viewer.settle]
  cases request.kind with
  | startLive => exact hs
  | updateLiveLayout =>
    rcases hs with hs | hs <;> rw [hs]
    · exact hpend
    · exact .inr rfl

theorem sdpOffer (h : v.Coherent) (hord : v.Orderly (.sdpOffer requestId sessionId fresh)) :
    (v.after (.sdpOffer requestId sessionId fresh)).Coherent := by
  simp only [Viewer.after]
  split
  · rename_i hacc
    have hsession : ∀ request ∈ v.newest, normalizeOptionalString sessionId = some request.session := by
      intro request hr
      have ho := hord request hr
      split at ho
      · assumption
      · exact absurd ho (acceptsOffer_iff.1 hacc)
    simp only [Viewer.perform, emits, Provider.after, Provider.handleSdpOffer]
    split
    · exact ⟨h.newest, h.session⟩
    · refine ⟨fun request hr => ?_, fun _ => .inl nofun⟩
      obtain ⟨hact, -, -⟩ := h.newest request hr
      have hs := hsession request hr
      rw [hs]
      exact ⟨hact, .inr rfl, .inr rfl⟩
  · exact h

theorem after {a : Action} (h : v.Coherent) (he : v.Enabled a) (hord : v.Orderly a) :
    (v.after a).Coherent := by
  cases a with
  | startLive selection requestId session => exact h.startLive selection requestId session
  | updateLiveLayout selection requestId session => exact h.updateLiveLayout hord
  | stopLive => exact stopLiveSession
  | answered t answer =>
    simp only [Viewer.after]
    split
    · rename_i request hr
      apply markAnswered
      cases answer with
      | ok sessionId =>
        obtain ⟨request', hr', -, hs⟩ := he
        cases some.inj (hr.symm.trans hr')
        refine h.settle ?_ hs
        have hlt := (List.getElem?_eq_some_iff.1 hr).1
        simp only [Orderly, isSuperseded, decide_eq_true_eq] at hord
        have hlast : v.requests.length - 1 = t := by omega
        rw [Viewer.newest, List.getLast?_eq_getElem?, hlast, hr]
      | failed =>
        simp only [Viewer.settle]
        split
        · exact h.perform trivial nofun
        · exact h
    · exact h
  | sdpOffer requestId sessionId fresh => exact h.sdpOffer hord
  | iceCandidate requestId sessionId =>
    simp only [Viewer.after]
    split
    · exact h
    · exact h.perform trivial nofun
  | provider a =>
    cases a with
    | handleSdpOffer sessionId fresh => exact he.elim
    | handleRemoteIceCandidate sessionId => exact he.elim
    | closePeer clearSession => exact he.elim
    | _ => exact h.perform he nofun

end

end Coherent

theorem Coherent.accepts {v : Viewer} (h : v.Coherent) (hb : v.Belongs requestId sessionId)
    (hord : v.Orderly (.sdpOffer requestId sessionId fresh)) : v.acceptsOffer requestId sessionId := by
  obtain ⟨request, hr, hreq, hs⟩ := hb
  obtain ⟨hact, hpend, hcur⟩ := h.newest request hr
  have ho := hord request hr
  rw [acceptsOffer_iff]
  rintro (⟨q, a, hq, ha, hne⟩ | ⟨x, y, hx, hy, hne⟩)
  · rcases hact with hact | hact <;> rw [hact] at ha <;> cases ha
    rcases hreq with hreq | hreq <;> rw [hreq] at hq <;> cases hq
    exact hne rfl
  · rcases hs with hs | hs <;> rw [hs] at hx <;> cases hx
    rw [if_pos hs] at ho
    rcases hpend with hpend | hpend <;> rw [hpend] at hy ho
    · rcases ho with ho | ho | ho
      · rw [ho] at hy
        cases hy
      · rw [ho] at hy
        rcases hcur with hcur | hcur <;> rw [hcur] at hy <;> cases hy
        exact hne rfl
      · exact ho rfl
    · cases hy
      exact hne rfl

/-- A late answer that is no success changes nothing that is the newest request's. -/
theorem answered_wins {v : Viewer} (hord : v.Orderly (.answered t answer)) : v.Wins (.answered t answer) := by
  intro hsup
  cases answer with
  | ok sessionId => exact absurd hsup hord
  | failed =>
    have hpeer : ∀ p, v.NewestPeer p → (v.markAnswered t).NewestPeer p := by
      rintro p ⟨hpc, peer, offer, hp, ho, request, hr, hs⟩
      obtain ⟨f, hf, he⟩ := newest_markAnswered v t
      exact ⟨hpc, peer, offer, hp, ho, f request, he ▸ Option.mem_map_of_mem f hr, hs.trans (hf request).2.symm⟩
    simp only [Viewer.after]
    split
    · rename_i request hr
      simp only [settle]
      split
      · rename_i hkind
        refine ⟨rfl, rfl, fun p hp => ?_⟩
        rcases hord hsup with ⟨request', hr', hkind'⟩ | hno
        · cases some.inj (hr.symm.trans hr')
          rw [hkind] at hkind'
          cases hkind'
        · exact absurd hp (hno p)
      · exact ⟨rfl, rfl, hpeer⟩
    · exact ⟨rfl, rfl, fun p hp => hp⟩

/-- In a run of orderly steps, a late answer leaves alone what is the newest request's, and the
offer that belongs to it is accepted. -/
theorem latest_wins {tr : List (Viewer × Action)} {v : Viewer} (h : system.Run {} tr v)
    (hord : ∀ p ∈ tr, p.1.Orderly p.2) : ∀ p ∈ tr, p.1.Wins p.2 := by
  have hinv : ∀ u ∈ states tr v, u.Coherent := by
    refine h.forall_states (I := Coherent) ⟨nofun, fun hne => absurd rfl hne⟩ ?_
    rintro p hp hc u ⟨he, rfl⟩
    exact hc.after he (hord p hp)
  rintro ⟨u, a⟩ hp
  have hc := hinv u (mem_states_of_mem hp)
  have ho := hord _ hp
  cases a with
  | answered t answer => exact answered_wins ho
  | sdpOffer requestId sessionId fresh => exact fun hb => hc.accepts hb ho
  | _ => trivial

def oneCamera : LiveLayoutSelection where
  cameraNames := [" gate "]
  mode := "single"

def lateFailure : List Action :=
  [.startLive oneCamera "first" "a", .startLive oneCamera "second" "b", .answered 0 .failed,
    .answered 1 (.ok (some "b")), .sdpOffer (some "second") (some "b") "c"]

theorem latest_wins_lateFailure : ∃ tr v, system.Run {} tr v ∧ tr.map Prod.snd = lateFailure ∧
    (∀ p ∈ tr, p.1.Wins p.2) ∧ v.provider.offers.map Offer.sessionId = ["b"] := by
  have hrun : system.Run {} (replay after {} lateFailure).1 (replay after {} lateFailure).2 := by
    apply System.run_replay lateFailure
    refine forall_mem_cons.2 ⟨trivial, ?_⟩
    refine forall_mem_cons.2 ⟨trivial, ?_⟩
    refine forall_mem_cons.2 ⟨⟨_, rfl, rfl⟩, ?_⟩
    refine forall_mem_cons.2 ⟨⟨_, rfl, rfl, .inr (by decide +kernel)⟩, ?_⟩
    exact forall_mem_singleton.2 trivial
  have hord : ∀ p ∈ (replay after {} lateFailure).1, p.1.Orderly p.2 := by
    refine forall_mem_cons.2 ⟨trivial, ?_⟩
    refine forall_mem_cons.2 ⟨trivial, ?_⟩
    refine forall_mem_cons.2 ⟨fun _ => .inr (fun p hp => nomatch hp.1), ?_⟩
    refine forall_mem_cons.2 ⟨fun hsup => absurd hsup (by decide +kernel), ?_⟩
    refine forall_mem_singleton.2 fun request hr => ?_
    cases some.inj hr
    have hs : normalizeOptionalString (some "b") = some "b" := by decide +kernel
    split
    · exact .inl rfl
    · rename_i hne
      exact absurd hs hne
  exact ⟨_, _, hrun, replay_labels .., latest_wins hrun hord, by decide +kernel⟩

def lateAcknowledgement : List Action :=
  [.startLive oneCamera "first" "a", .startLive oneCamera "second" "b", .answered 0 (.ok (some "a")),
    .sdpOffer (some "second") (some "b") "c"]

theorem lateAcknowledgement_loses : ∃ tr v, system.Run {} tr v ∧ tr.map Prod.snd = lateAcknowledgement ∧
    (∃ u, (u, .answered 0 (.ok (some "a"))) ∈ tr ∧ ¬ u.Wins (.answered 0 (.ok (some "a")))) ∧
      ∃ u, (u, .sdpOffer (some "second") (some "b") "c") ∈ tr ∧
        ¬ u.Wins (.sdpOffer (some "second") (some "b") "c") := by
  have hrun : system.Run {} (replay after {} lateAcknowledgement).1 (replay after {} lateAcknowledgement).2 := by
    apply System.run_replay lateAcknowledgement
    refine forall_mem_cons.2 ⟨trivial, ?_⟩
    refine forall_mem_cons.2 ⟨trivial, ?_⟩
    refine forall_mem_cons.2 ⟨⟨_, rfl, rfl, .inr (by decide +kernel)⟩, ?_⟩
    exact forall_mem_singleton.2 trivial
  refine ⟨_, _, hrun, replay_labels .., ⟨_, .tail _ (.tail _ (.head _)), ?_⟩,
    ⟨_, .tail _ (.tail _ (.tail _ (.head _))), ?_⟩⟩
  · intro hw
    exact absurd (hw (by decide +kernel)).1 (by decide +kernel)
  · intro hw
    exact absurd (hw ⟨_, rfl, .inr (by decide +kernel), .inr (by decide +kernel)⟩) (by decide +kernel)

end Viewer
end Trakrai.LiveViewer
