import Mathlib.Algebra.BigOperators.Group.List.Basic
import Trakrai.WebRtc.Provider

namespace Trakrai.WebRtc
open List Lib LiveTransport

theorem sum_map_modify {α : Type} (f : α → Nat) (g : α → α) {l : List α} {i : Nat} {x : α}
    (h : l[i]? = some x) : ((l.modify i g).map f).sum + f x = (l.map f).sum + f (g x) := by
  induction l generalizing i with
  | nil => cases h
  | cons y l ih =>
    cases i with
    | zero =>
      cases h
      simp only [modify_zero_cons, map_cons, sum_cons]
      omega
    | succ i =>
      have hl := ih h
      simp only [modify_succ_cons, map_cons, sum_cons]
      omega

namespace Provider

section Calls
variable (s : Provider) (p t : Nat) (operation : Operation) (stage : Stage)

theorem call_peers_getElem? (q : Nat) : (s.call p operation).peers[q]? =
    if p = q then s.peers[q]?.map fun peer => { peer with operations := peer.operations ++ [operation] }
    else s.peers[q]? := by
  rw [call, List.getElem?_modify]
  split
  · rfl
  · exact Option.map_id'

@[simp] theorem call_peers_length : (s.call p operation).peers.length = s.peers.length :=
  length_modify ..

@[simp] theorem setStage_offers_length : (s.setStage t stage).offers.length = s.offers.length :=
  length_modify ..

section
variable (clearSession preserve : Bool)

theorem cleanupPeer_peers :
    (s.cleanupPeer clearSession preserve).peers = s.closeConnection.peers := rfl

@[simp] theorem cleanupPeer_pc : (s.cleanupPeer clearSession preserve).pc = none := by
  change s.closeConnection.pc = none
  unfold closeConnection
  split
  · rfl
  · assumption

theorem closeConnection_fields : s.closeConnection.offers = s.offers ∧
    s.closeConnection.candidates = s.candidates ∧ s.closeConnection.received = s.received ∧
      s.closeConnection.closedSince = s.closedSince := by
  unfold closeConnection
  split <;> exact ⟨rfl, rfl, rfl, rfl⟩

@[simp] theorem cleanupPeer_offers :
    (s.cleanupPeer clearSession preserve).offers = s.offers := s.closeConnection_fields.1

@[simp] theorem cleanupPeer_candidates :
    (s.cleanupPeer clearSession preserve).candidates = s.candidates := s.closeConnection_fields.2.1

@[simp] theorem cleanupPeer_received :
    (s.cleanupPeer clearSession preserve).received = s.received := s.closeConnection_fields.2.2.1

end

end Calls

theorem after_cases {P : Provider → Prop} {s : Provider} {a : Action}
    (offer : ∀ sessionId fresh, a = .handleSdpOffer sessionId fresh → P (s.handleSdpOffer sessionId fresh))
    (resumed : ∀ t offer, a = .settled t true → s.offers[t]? = some offer → P (s.resume t offer))
    (failed : ∀ t offer, a = .settled t false → s.offers[t]? = some offer → P (s.fail t))
    (candidate : ∀ sessionId, a = .handleRemoteIceCandidate sessionId → P (s.handleRemoteIceCandidate sessionId))
    (closed : ∀ clearSession, P (s.closePeer clearSession))
    (aside : ∀ timer rendered, P { s with disconnectTimer := timer, renderedSessionId := rendered }) :
    P (s.after a) := by
  cases a with
  | handleSdpOffer sessionId fresh => exact offer sessionId fresh rfl
  | settled t ok =>
    simp only [after]
    split
    · rename_i o ho
      cases ok with
      | true => exact resumed t o rfl ho
      | false => exact failed t o rfl ho
    · exact aside s.disconnectTimer s.renderedSessionId
  | handleRemoteIceCandidate sessionId => exact candidate sessionId rfl
  | closePeer clearSession => exact closed clearSession
  | connected p =>
    simp only [after]
    split
    · exact aside none s.renderedSessionId
    · exact aside s.disconnectTimer s.renderedSessionId
  | disconnected p =>
    simp only [after]
    split
    · exact aside (some p) s.renderedSessionId
    · exact aside s.disconnectTimer s.renderedSessionId
  | lost p =>
    simp only [after]
    split
    · exact closed true
    · exact aside s.disconnectTimer s.renderedSessionId
  | fired =>
    simp only [after]
    split
    · exact closed true
    · exact aside none s.renderedSessionId
  | render => exact aside s.disconnectTimer s.currentSessionId

structure Grows (s s' : Provider) : Prop where
  peers : ∀ (p : Nat) (peer : Peer), s.peers[p]? = some peer → ∃ peer', s'.peers[p]? = some peer' ∧
    peer'.offer = peer.offer ∧ peer.operations ⊆ peer'.operations
  offers : ∀ (t : Nat) (offer : Offer), s.offers[t]? = some offer →
    ∃ offer', s'.offers[t]? = some offer' ∧ offer'.sessionId = offer.sessionId

namespace Grows

section
variable (s : Provider)

theorem refl : s.Grows s :=
  ⟨fun _ peer h => ⟨peer, h, rfl, List.Subset.refl _⟩, fun _ offer h => ⟨offer, h, rfl⟩⟩

theorem trans {s s' s'' : Provider} (h : s.Grows s') (h' : s'.Grows s'') : s.Grows s'' := by
  constructor
  · intro p peer hp
    obtain ⟨peer', hp', ho, hs⟩ := h.peers p peer hp
    obtain ⟨peer'', hp'', ho', hs'⟩ := h'.peers p peer' hp'
    exact ⟨peer'', hp'', ho'.trans ho, List.Subset.trans hs hs'⟩
  · intro t offer ht
    obtain ⟨offer', ht', hs⟩ := h.offers t offer ht
    obtain ⟨offer'', ht'', hs'⟩ := h'.offers t offer' ht'
    exact ⟨offer'', ht'', hs'.trans hs⟩

theorem call (p : Nat) (operation : Operation) : s.Grows (s.call p operation) := by
  constructor
  · intro q peer hq
    rw [call_peers_getElem?, hq]
    by_cases hpq : p = q
    · rw [if_pos hpq]
      exact ⟨_, rfl, rfl, subset_append_left _ _⟩
    · rw [if_neg hpq]
      exact ⟨peer, rfl, rfl, List.Subset.refl _⟩
  · intro t offer ht
    exact ⟨offer, ht, rfl⟩

theorem setStage (t : Nat) (stage : Stage) : s.Grows (s.setStage t stage) := by
  constructor
  · intro p peer hp
    exact ⟨peer, hp, rfl, List.Subset.refl _⟩
  · intro t' offer ht
    rw [Provider.setStage, List.getElem?_modify, ht]
    split
    · exact ⟨_, rfl, rfl⟩
    · exact ⟨offer, rfl, rfl⟩

theorem closeConnection : s.Grows s.closeConnection := by
  unfold Provider.closeConnection
  split
  · rename_i p _
    exact ⟨(call s p .close).peers, (call s p .close).offers⟩
  · exact refl s

theorem cleanupPeer (clearSession preserve : Bool) :
    s.Grows (s.cleanupPeer clearSession preserve) :=
  ⟨(closeConnection s).peers, (closeConnection s).offers⟩

theorem addCandidates (t p : Nat) (cs : List Nat) : s.Grows (s.addCandidates t p cs) := by
  cases cs with
  | nil => exact (call s p .createAnswer).trans (setStage ..)
  | cons c rest => exact (call s p (.addIceCandidate c)).trans (setStage ..)

theorem install (t : Nat) : s.Grows (s.install t) := by
  refine trans ⟨?_, ?_⟩ (setStage ..)
  · intro p peer hp
    refine ⟨peer, ?_, rfl, List.Subset.refl _⟩
    exact (List.getElem?_append_left (List.getElem?_eq_some_iff.1 hp).1).trans hp
  · intro t' offer ht
    exact ⟨offer, ht, rfl⟩

theorem resume (t : Nat) (offer : Offer) : s.Grows (s.resume t offer) := by
  unfold Provider.resume
  cases offer.stage with
  | fetching => exact setStage ..
  | reading => exact install s t
  | describing p =>
    have h := addCandidates { s with iceCandidateBuffer := [] } t p (s.bufferedFor offer.sessionId)
    exact ⟨h.peers, h.offers⟩
  | adding p rest => exact addCandidates s t p rest
  | answering p => exact (call s p .setLocalDescription).trans (setStage ..)
  | settingLocal p => exact setStage ..
  | done p => exact refl s
  | failed => exact refl s

theorem fail (t : Nat) : s.Grows (s.fail t) := by
  have h := (cleanupPeer s true false).trans (setStage _ t .failed)
  exact ⟨h.peers, h.offers⟩

theorem after (a : Action) : s.Grows (s.after a) := by
  apply after_cases (P := s.Grows)
  case offer =>
    intro sessionId fresh _
    simp only [handleSdpOffer]
    split
    · exact ⟨(refl s).peers, (refl s).offers⟩
    · refine ⟨(cleanupPeer s false true).peers, ?_⟩
      intro t offer ht
      exact ⟨offer, (List.getElem?_append_left (List.getElem?_eq_some_iff.1 ht).1).trans ht, rfl⟩
  case resumed =>
    intro t offer _ _
    exact resume s t offer
  case failed =>
    intro t offer _ _
    exact fail s t
  case candidate =>
    intro sessionId _
    simp only [handleRemoteIceCandidate]
    split
    · rename_i p _ _ _
      split
      · exact ⟨(refl s).peers, (refl s).offers⟩
      · have h := call s p (.addIceCandidate s.candidates.length)
        exact ⟨h.peers, h.offers⟩
    · exact ⟨(refl s).peers, (refl s).offers⟩
  case closed =>
    intro clearSession
    exact ⟨(cleanupPeer s clearSession false).peers, (cleanupPeer s clearSession false).offers⟩
  case aside =>
    intro timer rendered
    exact ⟨(refl s).peers, (refl s).offers⟩

end

end Grows

theorem AddedTo.mono {s s' : Provider} (h : s.AddedTo p c) (hg : s.Grows s') : s'.AddedTo p c := by
  obtain ⟨peer, hp, hc⟩ := h
  obtain ⟨peer', hp', -, hs⟩ := hg.peers p peer hp
  exact ⟨peer', hp', hs hc⟩

theorem AddedFor.mono {s s' : Provider} (h : s.AddedFor sessionId c) (hg : s.Grows s') :
    s'.AddedFor sessionId c := by
  obtain ⟨p, peer, offer, hp, hc, ht, hid⟩ := h
  obtain ⟨peer', hp', ho, hs⟩ := hg.peers p peer hp
  obtain ⟨offer', ht', hid'⟩ := hg.offers _ offer ht
  exact ⟨p, peer', offer', hp', hs hc, ho ▸ ht', hid'.trans hid⟩

/-- What holds of the peers as long as none is installed over another. -/
structure PeersKept (s : Provider) : Prop where
  current : ∀ p, s.pc = some p → p < s.peers.length
  closed : ∀ p, p < s.peers.length → (s.Closed p ↔ s.pc ≠ some p)
  described : ∀ (p : Nat) (peer : Peer), s.peers[p]? = some peer →
    peer.operations.head? = some .setRemoteDescription

theorem Closed.mono {s s' : Provider} (h : s.Closed p) (hg : s.Grows s') : s'.Closed p := by
  obtain ⟨peer, hp, hc⟩ := h
  obtain ⟨peer', hp', -, hs⟩ := hg.peers p peer hp
  exact ⟨peer', hp', hs hc⟩

theorem closed_call {s : Provider} {operation : Operation} (hop : operation ≠ .close) :
    (s.call p operation).Closed q ↔ s.Closed q := by
  constructor
  · rintro ⟨peer', hq, hc⟩
    rw [call_peers_getElem?] at hq
    split at hq
    · obtain ⟨peer, hp, rfl⟩ := Option.map_eq_some_iff.1 hq
      rcases mem_append.1 hc with hc | hc
      · exact ⟨peer, hp, hc⟩
      · exact absurd (mem_singleton.1 hc).symm hop
    · exact ⟨peer', hq, hc⟩
  · intro h
    exact h.mono (.call s p operation)

theorem described_call {s : Provider} {operation : Operation}
    (h : ∀ (q : Nat) (peer : Peer), s.peers[q]? = some peer →
      peer.operations.head? = some .setRemoteDescription) :
    ∀ (q : Nat) (peer : Peer), (s.call p operation).peers[q]? = some peer →
      peer.operations.head? = some .setRemoteDescription := by
  intro q peer' hq
  rw [call_peers_getElem?] at hq
  split at hq
  · obtain ⟨peer, hp, rfl⟩ := Option.map_eq_some_iff.1 hq
    rw [List.head?_append, h q peer hp]
    rfl
  · exact h q peer' hq

namespace PeersKept

section
variable {s : Provider}

theorem call (h : s.PeersKept) (p : Nat) (operation : Operation) (hop : operation ≠ .close) :
    (s.call p operation).PeersKept := by
  refine ⟨?_, ?_, described_call h.described⟩
  · intro q hq
    rw [call_peers_length]
    exact h.current q hq
  · intro q hq
    rw [call_peers_length] at hq
    rw [closed_call hop]
    exact h.closed q hq

theorem setStage (h : s.PeersKept) (t : Nat) (stage : Stage) : (s.setStage t stage).PeersKept :=
  ⟨h.current, h.closed, h.described⟩

theorem cleanupPeer (h : s.PeersKept) (clearSession preserve : Bool) :
    (s.cleanupPeer clearSession preserve).PeersKept := by
  have hpc := cleanupPeer_pc s clearSession preserve
  refine ⟨?_, ?_, ?_⟩
  · intro p hp
    rw [hpc] at hp
    cases hp
  · intro p hp
    refine ⟨fun _ => by rw [hpc]; exact nofun, fun _ => ?_⟩
    cases hs : s.pc with
    | none =>
      have hlen : p < s.peers.length := by
        simpa only [cleanupPeer_peers, closeConnection, hs] using hp
      have hc : s.Closed p := (h.closed p hlen).2 (by rw [hs]; exact nofun)
      exact hc.mono (.cleanupPeer s clearSession preserve)
    | some q =>
      have hlen : p < s.peers.length := by
        simpa only [cleanupPeer_peers, closeConnection, hs, call_peers_length] using hp
      by_cases hpq : q = p
      · subst q
        refine ⟨{ s.peers[p] with operations := s.peers[p].operations ++ [.close] }, ?_, ?_⟩
        · simp only [cleanupPeer_peers, closeConnection, hs, call_peers_getElem?, if_true,
            List.getElem?_eq_getElem hlen, Option.map_some]
        · exact mem_append_right _ (mem_singleton_self _)
      · have hc : s.Closed p := (h.closed p hlen).2 (by rw [hs]; exact fun he => hpq (Option.some.inj he))
        exact hc.mono (.cleanupPeer s clearSession preserve)
  · have hd : ∀ (q : Nat) (peer : Peer), s.closeConnection.peers[q]? = some peer →
        peer.operations.head? = some .setRemoteDescription := by
      unfold closeConnection
      split
      · exact described_call h.described
      · exact h.described
    exact hd

theorem addCandidates (h : s.PeersKept) (t p : Nat) (cs : List Nat) :
    (s.addCandidates t p cs).PeersKept := by
  cases cs with
  | nil => exact (h.call p .createAnswer nofun).setStage ..
  | cons c rest => exact (h.call p (.addIceCandidate c) nofun).setStage ..

theorem install (h : s.PeersKept) (hpc : s.pc = none) (t : Nat) : (s.install t).PeersKept := by
  have hpeers : (s.install t).peers = s.peers ++ [{ offer := t, operations := [.setRemoteDescription] }] := rfl
  have hnew : (s.install t).pc = some s.peers.length := rfl
  refine ⟨?_, ?_, ?_⟩
  · intro p hp
    cases hnew.symm.trans hp
    simp [hpeers]
  · intro p hp
    rw [hpeers, length_append, length_singleton] at hp
    rcases Nat.lt_or_eq_of_le (Nat.le_of_lt_succ hp) with hlt | rfl
    · have hc : s.Closed p := (h.closed p hlt).2 (by rw [hpc]; exact nofun)
      refine ⟨fun _ he => ?_, fun _ => hc.mono (.install s t)⟩
      exact Nat.ne_of_gt hlt (Option.some.inj (hnew.symm.trans he))
    · refine ⟨?_, fun hne => absurd hnew hne⟩
      rintro ⟨peer, hpeer, hclose⟩
      rw [hpeers, List.getElem?_concat_length] at hpeer
      cases hpeer
      simp at hclose
  · intro p peer hp
    rw [hpeers, List.getElem?_append] at hp
    split at hp
    · exact h.described p peer hp
    · rw [List.getElem?_singleton] at hp
      split at hp
      · cases hp
        rfl
      · cases hp

theorem resume (h : s.PeersKept) (t : Nat) (offer : Offer)
    (hr : offer.stage = .reading → s.pc = none) : (s.resume t offer).PeersKept := by
  unfold Provider.resume
  cases hs : offer.stage with
  | fetching => exact h.setStage ..
  | reading => exact h.install (hr hs) t
  | describing p =>
    have hd : ({ s with iceCandidateBuffer := [] } : Provider).PeersKept := ⟨h.current, h.closed, h.described⟩
    exact hd.addCandidates t p (s.bufferedFor offer.sessionId)
  | adding p rest => exact h.addCandidates t p rest
  | answering p => exact (h.call p .setLocalDescription nofun).setStage ..
  | settingLocal p => exact h.setStage ..
  | done p => exact h
  | failed => exact h

theorem after {a : Action} (h : s.PeersKept)
    (hr : ∀ t, a = .settled t true → ∀ offer, s.offers[t]? = some offer → offer.stage = .reading →
      s.pc = none) :
    (s.after a).PeersKept := by
  apply after_cases (P := PeersKept)
  case offer =>
    intro sessionId fresh _
    simp only [handleSdpOffer]
    split
    · exact ⟨h.current, h.closed, h.described⟩
    · have hc := h.cleanupPeer false true
      exact ⟨hc.current, hc.closed, hc.described⟩
  case resumed =>
    intro t offer ha ho
    exact h.resume t offer (hr t ha offer ho)
  case failed =>
    intro t offer _ _
    have hc := (h.cleanupPeer true false).setStage t .failed
    exact ⟨hc.current, hc.closed, hc.described⟩
  case candidate =>
    intro sessionId _
    simp only [handleRemoteIceCandidate]
    split
    · split
      · exact ⟨h.current, h.closed, h.described⟩
      · rename_i p _ _ _ _
        have hc := h.call p (.addIceCandidate s.candidates.length) nofun
        exact ⟨hc.current, hc.closed, hc.described⟩
    · exact ⟨h.current, h.closed, h.described⟩
  case closed =>
    intro clearSession
    have hc := h.cleanupPeer clearSession false
    exact ⟨hc.current, hc.closed, hc.described⟩
  case aside =>
    intro timer rendered
    exact ⟨h.current, h.closed, h.described⟩

end

end PeersKept

section
variable (s : Provider)

def bufferCount (c : Nat) : Nat := (s.iceCandidateBuffer.map (·.candidate)).count c

def restCount (c : Nat) : Nat := (s.offers.map fun offer => offer.stage.rest.count c).sum

/-- The places that a candidate has: in the buffer, in a loop over buffered candidates, or on a peer. -/
def placed (c : Nat) : Nat := s.bufferCount c + s.restCount c + s.added c

theorem added_call (p : Nat) (operation : Operation) (c : Nat) :
    (s.call p operation).added c ≤ s.added c + if operation = .addIceCandidate c then 1 else 0 := by
  cases hp : s.peers[p]? with
  | none =>
    have he : (s.call p operation).added c = s.added c := by
      rw [added, call, modify_eq_self (List.getElem?_eq_none_iff.1 hp), added]
    omega
  | some peer =>
    have hm := sum_map_modify (fun peer : Peer => peer.operations.count (.addIceCandidate c))
      (fun peer => { peer with operations := peer.operations ++ [operation] }) hp
    have hc : [operation].count (.addIceCandidate c) = if operation = .addIceCandidate c then 1 else 0 := by
      rw [count_singleton]
      simp only [beq_iff_eq]
    simp only [count_append, hc] at hm
    simp only [added, call]
    omega

theorem restCount_setStage {s : Provider} {offer : Offer} (h : s.offers[t]? = some offer) (stage : Stage)
    (c : Nat) : (s.setStage t stage).restCount c + offer.stage.rest.count c = s.restCount c + stage.rest.count c :=
  sum_map_modify (fun offer : Offer => offer.stage.rest.count c) (fun offer => { offer with stage }) h

theorem placed_setStage {s : Provider} {offer : Offer} (h : s.offers[t]? = some offer) (stage : Stage)
    (c : Nat) : (s.setStage t stage).placed c + offer.stage.rest.count c = s.placed c + stage.rest.count c := by
  have hr := restCount_setStage h stage c
  change s.bufferCount c + _ + s.added c + _ = s.bufferCount c + _ + s.added c + _
  omega

theorem placed_call (p : Nat) (operation : Operation) (c : Nat) :
    (s.call p operation).placed c ≤ s.placed c + if operation = .addIceCandidate c then 1 else 0 := by
  have ha := added_call s p operation c
  change s.bufferCount c + s.restCount c + _ ≤ s.bufferCount c + s.restCount c + _ + _
  omega

theorem added_closeConnection (c : Nat) : s.closeConnection.added c ≤ s.added c := by
  unfold closeConnection
  split
  · exact added_call s _ .close c
  · exact Nat.le_refl _

theorem placed_cleanupPeer (clearSession preserve : Bool) (c : Nat) :
    (s.cleanupPeer clearSession preserve).placed c ≤ s.placed c := by
  have ha := added_closeConnection s c
  have hb : (s.cleanupPeer clearSession preserve).bufferCount c ≤ s.bufferCount c := by
    cases preserve with
    | true => exact Nat.le_refl _
    | false => exact Nat.zero_le _
  have hr : (s.cleanupPeer clearSession preserve).restCount c = s.restCount c := by
    rw [restCount, cleanupPeer_offers, restCount]
  change _ + _ + s.closeConnection.added c ≤ _
  rw [hr, placed]
  omega

theorem placed_addCandidates {s : Provider} {offer : Offer} (h : s.offers[t]? = some offer) (p : Nat)
    (cs : List Nat) (c : Nat) :
    (s.addCandidates t p cs).placed c + offer.stage.rest.count c ≤ s.placed c + cs.count c := by
  cases cs with
  | nil =>
    have hc := placed_call s p .createAnswer c
    have hs := placed_setStage (s := s.call p .createAnswer) h (.answering p) c
    simp only [reduceCtorEq, if_false] at hc
    simp only [addCandidates, count_nil, Stage.rest] at hs ⊢
    omega
  | cons d rest =>
    have hc := placed_call s p (.addIceCandidate d) c
    have hs := placed_setStage (s := s.call p (.addIceCandidate d)) h (.adding p rest) c
    simp only [Operation.addIceCandidate.injEq] at hc
    simp only [addCandidates, count_cons, beq_iff_eq, Stage.rest] at hs ⊢
    omega

theorem placed_install {s : Provider} {offer : Offer} (h : s.offers[t]? = some offer) (c : Nat) :
    (s.install t).placed c ≤ s.placed c := by
  have hr := restCount_setStage h (.describing s.peers.length) c
  have ha : (s.install t).added c = s.added c := by
    change ((s.peers ++ [_]).map _).sum = _
    rw [map_append, sum_append]
    rfl
  change s.bufferCount c + (s.setStage t (.describing s.peers.length)).restCount c + (s.install t).added c ≤ _
  simp only [Stage.rest, count_nil] at hr
  rw [placed]
  omega

theorem placed_resume {s : Provider} {offer : Offer} (h : s.offers[t]? = some offer) (c : Nat) :
    (s.resume t offer).placed c ≤ s.placed c := by
  have hset := fun (s : Provider) (h : s.offers[t]? = some offer) stage => placed_setStage h stage c
  unfold resume
  cases hs : offer.stage with
  | fetching =>
    have := hset s h .reading
    simp only [hs, Stage.rest] at this
    exact Nat.le_of_eq this
  | reading => exact placed_install h c
  | describing p =>
    have hd : s.offers[t]? = some offer := h
    have ha := placed_addCandidates (s := { s with iceCandidateBuffer := [] }) hd p (s.bufferedFor offer.sessionId) c
    have hb : (s.bufferedFor offer.sessionId).count c ≤ s.bufferCount c :=
      (filter_sublist.map _).count_le c
    have he : ({ s with iceCandidateBuffer := [] } : Provider).placed c + s.bufferCount c = s.placed c := by
      change 0 + s.restCount c + s.added c + _ = _
      rw [placed]
      omega
    dsimp only
    omega
  | adding p rest =>
    have ha := placed_addCandidates h p rest c
    rw [hs] at ha
    simp only [Stage.rest] at ha
    dsimp only
    omega
  | answering p =>
    have hc := placed_call s p .setLocalDescription c
    have hc' := hset (s.call p .setLocalDescription) h (.settingLocal p)
    simp only [hs, Stage.rest, reduceCtorEq, if_false] at hc hc'
    dsimp only
    omega
  | settingLocal p =>
    have := hset s h (.done p)
    simp only [hs, Stage.rest] at this
    exact Nat.le_of_eq this
  | done p => exact Nat.le_refl _
  | failed => exact Nat.le_refl _

def PlacedOnce : Prop := ∀ c, s.placed c ≤ if c < s.candidates.length then 1 else 0

theorem PlacedOnce.of_le {s s' : Provider} (h : s.PlacedOnce) (hlen : s'.candidates = s.candidates)
    (hle : ∀ c, s'.placed c ≤ s.placed c) : s'.PlacedOnce := by
  intro c
  rw [hlen]
  exact Nat.le_trans (hle c) (h c)

theorem candidates_addCandidates (t p : Nat) (cs : List Nat) :
    (s.addCandidates t p cs).candidates = s.candidates := by
  cases cs <;> rfl

theorem candidates_resume (t : Nat) (offer : Offer) :
    (s.resume t offer).candidates = s.candidates := by
  unfold resume
  cases offer.stage with
  | describing p => exact candidates_addCandidates ..
  | adding p rest => exact candidates_addCandidates ..
  | _ => rfl

end

section
variable {s : Provider}

theorem PlacedOnce.after {a : Action} (h : s.PlacedOnce) : (s.after a).PlacedOnce := by
  apply after_cases (P := PlacedOnce)
  case offer =>
    intro sessionId fresh _
    simp only [handleSdpOffer]
    split
    · exact h
    · have hclean := h.of_le (cleanupPeer_candidates ..) (placed_cleanupPeer s false true)
      intro c
      have hc := hclean c
      have hr : ∀ offers : List Offer, ∀ offer : Offer, offer.stage = .fetching →
          ((offers ++ [offer]).map fun offer => offer.stage.rest.count c).sum =
            (offers.map fun offer => offer.stage.rest.count c).sum := by
        intro offers offer hf
        simp only [map_append, map_cons, map_nil, sum_append, sum_singleton, hf,
          Stage.rest, count_nil, Nat.add_zero]
      rw [placed, restCount, cleanupPeer_offers] at hc
      rw [placed, restCount, hr _ _ rfl]
      exact hc
  case resumed =>
    intro t offer _ ho
    exact h.of_le (candidates_resume s t offer) (placed_resume ho)
  case failed =>
    intro t offer _ ho
    refine h.of_le (cleanupPeer_candidates s true false) fun c => ?_
    have ho' : (s.cleanupPeer true).offers[t]? = some offer := by rwa [cleanupPeer_offers]
    have hs := placed_setStage ho' .failed c
    have hc := placed_cleanupPeer s true false c
    change ((s.cleanupPeer true).setStage t .failed).placed c ≤ _
    simp only [Stage.rest, count_nil] at hs
    omega
  case candidate =>
    intro sessionId _ c
    have hc := h c
    have hlen : (s.handleRemoteIceCandidate sessionId).candidates.length = s.candidates.length + 1 := by
      simp only [handleRemoteIceCandidate]
      split
      · split <;> exact length_append
      · exact length_append
    have hle : (s.handleRemoteIceCandidate sessionId).placed c ≤
        s.placed c + if s.candidates.length = c then 1 else 0 := by
      simp only [handleRemoteIceCandidate]
      split
      · rename_i p _ _ _
        split
        · exact Nat.le_add_right ..
        · have hadd := placed_call s p (.addIceCandidate s.candidates.length) c
          simp only [Operation.addIceCandidate.injEq] at hadd
          exact hadd
      · have hb : ∀ buffered : BufferedIceCandidate, buffered.candidate = s.candidates.length →
            ((s.iceCandidateBuffer ++ [buffered]).map (·.candidate)).count c =
              s.bufferCount c + if s.candidates.length = c then 1 else 0 := by
          intro buffered he
          simp only [map_append, map_cons, map_nil, count_append, count_singleton,
            beq_iff_eq, he, Provider.bufferCount]
        change List.count c _ + s.restCount c + s.added c ≤ _
        rw [hb _ rfl, placed]
        omega
    rw [hlen]
    split at hle <;> split at hc <;> split <;> omega
  case closed =>
    intro clearSession
    exact h.of_le (cleanupPeer_candidates s clearSession false) (placed_cleanupPeer s clearSession false)
  case aside =>
    intro timer rendered
    exact h

structure Owned (s : Provider) : Prop where
  peer : ∀ (t : Nat) (offer : Offer) (p : Nat), s.offers[t]? = some offer →
    offer.stage.peerConnection = some p → ∃ peer, s.peers[p]? = some peer ∧ peer.offer = t
  since : ∀ (t : Nat) (offer : Offer), s.offers[t]? = some offer →
    offer.since ≤ s.candidates.length ∧ ∀ c ∈ offer.waiting, c < offer.since

theorem Owned.setStage (h : s.Owned) (t : Nat) (stage : Stage)
    (hp : ∀ p, stage.peerConnection = some p → ∃ peer, s.peers[p]? = some peer ∧ peer.offer = t) :
    (s.setStage t stage).Owned := by
  constructor
  · intro t' offer p ho hstage
    rw [Provider.setStage, List.getElem?_modify] at ho
    split at ho
    · rename_i he
      obtain ⟨offer', -, rfl⟩ := Option.map_eq_some_iff.1 ho
      exact he ▸ hp p hstage
    · exact h.peer t' offer p (by simpa using ho) hstage
  · intro t' offer ho
    rw [Provider.setStage, List.getElem?_modify] at ho
    obtain ⟨offer', ho', he⟩ := Option.map_eq_some_iff.1 ho
    have hs := h.since t' offer' ho'
    split at he <;> · subst he; exact hs

theorem Owned.grow {s s' : Provider} (h : s.Owned) (hg : s.Grows s') (ho : s'.offers = s.offers)
    (hlen : s.candidates.length ≤ s'.candidates.length) : s'.Owned := by
  constructor
  · intro t offer p ht hstage
    rw [ho] at ht
    obtain ⟨peer, hp, he⟩ := h.peer t offer p ht hstage
    obtain ⟨peer', hp', he', -⟩ := hg.peers p peer hp
    exact ⟨peer', hp', he'.trans he⟩
  · intro t offer ht
    rw [ho] at ht
    obtain ⟨hs, hw⟩ := h.since t offer ht
    exact ⟨Nat.le_trans hs hlen, hw⟩

theorem Owned.addCandidates (h : s.Owned) (hp : ∃ peer, s.peers[p]? = some peer ∧ peer.offer = t)
    (cs : List Nat) : (s.addCandidates t p cs).Owned := by
  obtain ⟨peer, hp, ho⟩ := hp
  have hcall : ∀ operation, ∃ peer, (s.call p operation).peers[p]? = some peer ∧ peer.offer = t := by
    intro operation
    obtain ⟨peer', hp', ho', -⟩ := (Grows.call s p operation).peers p peer hp
    exact ⟨peer', hp', ho'.trans ho⟩
  cases cs with
  | nil =>
    refine (h.grow (.call s p .createAnswer) rfl (Nat.le_refl _)).setStage t _ ?_
    intro q hq
    cases hq
    exact hcall .createAnswer
  | cons c rest =>
    refine (h.grow (.call s p (.addIceCandidate c)) rfl (Nat.le_refl _)).setStage t _ ?_
    intro q hq
    cases hq
    exact hcall (.addIceCandidate c)

theorem Owned.resume {offer : Offer} (h : s.Owned) (ho : s.offers[t]? = some offer) :
    (s.resume t offer).Owned := by
  have hpeer := h.peer t offer
  unfold Provider.resume
  cases hs : offer.stage with
  | fetching => exact h.setStage t .reading nofun
  | reading =>
    have hi : ({ s with
        peers := s.peers ++ [{ offer := t, operations := [.setRemoteDescription] }]
        pc := some s.peers.length } : Provider).Owned := by
      refine ⟨?_, h.since⟩
      intro t' offer' p ht' hstage
      obtain ⟨peer, hp, he⟩ := h.peer t' offer' p ht' hstage
      exact ⟨peer, (List.getElem?_append_left (List.getElem?_eq_some_iff.1 hp).1).trans hp, he⟩
    apply hi.setStage t (.describing s.peers.length)
    intro p hp
    cases hp
    exact ⟨_, List.getElem?_concat_length, rfl⟩
  | describing p =>
    have hd : ({ s with iceCandidateBuffer := [] } : Provider).Owned := ⟨h.peer, h.since⟩
    exact hd.addCandidates (hpeer p ho (by rw [hs]; rfl)) (s.bufferedFor offer.sessionId)
  | adding p rest => exact h.addCandidates (hpeer p ho (by rw [hs]; rfl)) rest
  | answering p =>
    obtain ⟨peer, hp, he⟩ := hpeer p ho (by rw [hs]; rfl)
    refine (h.grow (.call s p .setLocalDescription) rfl (Nat.le_refl _)).setStage t _ ?_
    intro q hq
    cases hq
    obtain ⟨peer', hp', he', -⟩ := (Grows.call s p .setLocalDescription).peers p peer hp
    exact ⟨peer', hp', he'.trans he⟩
  | settingLocal p =>
    refine h.setStage t (.done p) ?_
    intro q hq
    cases hq
    exact hpeer p ho (by rw [hs]; rfl)
  | done p => exact h
  | failed => exact h

theorem PlacedOnce.lt_of_mem (h : s.PlacedOnce) {buffered : BufferedIceCandidate}
    (hb : buffered ∈ s.iceCandidateBuffer) : buffered.candidate < s.candidates.length := by
  by_contra hge
  have hc := h buffered.candidate
  have hpos : 0 < s.bufferCount buffered.candidate := count_pos_iff.2 (mem_map_of_mem hb)
  rw [if_neg hge, placed] at hc
  omega

theorem Owned.after {a : Action} (h : s.Owned) (hb : s.PlacedOnce) : (s.after a).Owned := by
  apply after_cases (P := Owned)
  case offer =>
    intro sessionId fresh _
    simp only [handleSdpOffer]
    split
    · exact ⟨h.peer, h.since⟩
    · have hc := h.grow (.cleanupPeer s false true) (cleanupPeer_offers ..) (by rw [cleanupPeer_candidates])
      constructor
      · intro t offer p ht hstage
        rw [List.getElem?_append] at ht
        split at ht
        · exact hc.peer t offer p (by rwa [cleanupPeer_offers]) hstage
        · rw [List.getElem?_singleton] at ht
          split at ht
          · cases ht
            cases hstage
          · cases ht
      · intro t offer ht
        simp only [cleanupPeer_candidates]
        rw [List.getElem?_append] at ht
        split at ht
        · exact h.since t offer ht
        · rw [List.getElem?_singleton] at ht
          split at ht
          · cases ht
            refine ⟨Nat.le_refl _, ?_⟩
            intro c hc
            obtain ⟨buffered, hmem, rfl⟩ := mem_map.1 hc
            exact hb.lt_of_mem (mem_of_mem_filter hmem)
          · cases ht
  case resumed =>
    intro t offer _ ho
    exact h.resume ho
  case failed =>
    intro t offer _ _
    have hc := h.grow (.cleanupPeer s true false) (cleanupPeer_offers ..) (by rw [cleanupPeer_candidates])
    have hf := hc.setStage t .failed nofun
    exact ⟨hf.peer, hf.since⟩
  case candidate =>
    intro sessionId _
    have hlen : s.candidates.length ≤ (s.candidates ++ [normalizeOptionalString sessionId]).length := by
      rw [length_append]
      exact Nat.le_add_right ..
    have hg := Grows.after s (.handleRemoteIceCandidate sessionId)
    simp only [Provider.after, handleRemoteIceCandidate] at hg ⊢
    split at hg
    · split at hg
      · rw [if_pos ‹_›]
        exact h.grow hg rfl hlen
      · rw [if_neg ‹_›]
        exact h.grow hg rfl hlen
    · exact h.grow hg rfl hlen
  case closed =>
    intro clearSession
    have hc := h.grow (.cleanupPeer s clearSession false) (cleanupPeer_offers ..) (by rw [cleanupPeer_candidates])
    exact ⟨hc.peer, hc.since⟩
  case aside =>
    intro timer rendered
    exact ⟨h.peer, h.since⟩

end

end Provider
end Trakrai.WebRtc
