import Mathlib.Algebra.Order.BigOperators.Group.List
import Mathlib.Algebra.Order.Group.Nat
import Trakrai.WebRtc.Peers

namespace Trakrai.WebRtc
open List Lib LiveTransport

namespace Provider

def Located (s : Provider) (stage : Stage) (buffered : BufferedIceCandidate) : Prop :=
  match stage with
  | .fetching | .reading => buffered ∈ s.iceCandidateBuffer
  | .describing p => buffered ∈ s.iceCandidateBuffer ∨ s.AddedTo p buffered.candidate
  | .adding p rest => buffered.candidate ∈ rest ∨ s.AddedTo p buffered.candidate
  | .answering p | .settingLocal p | .done p => s.AddedTo p buffered.candidate
  | .failed => False

theorem Located.mono {s s' : Provider} (h : s.Located stage buffered) (hg : s.Grows s')
    (hb : buffered ∈ s.iceCandidateBuffer → buffered ∈ s'.iceCandidateBuffer) : s'.Located stage buffered := by
  cases stage with
  | fetching => exact hb h
  | reading => exact hb h
  | describing p => exact h.imp hb fun ha => ha.mono hg
  | adding p rest => exact h.imp_right fun ha => ha.mono hg
  | answering p => exact AddedTo.mono h hg
  | settingLocal p => exact AddedTo.mono h hg
  | done p => exact AddedTo.mono h hg
  | failed => exact h

theorem addedTo_call {s : Provider} (hp : p < s.peers.length) (c : Nat) :
    (s.call p (.addIceCandidate c)).AddedTo p c := by
  refine ⟨{ s.peers[p] with operations := s.peers[p].operations ++ [.addIceCandidate c] }, ?_,
    mem_append_right _ (mem_singleton_self _)⟩
  rw [call_peers_getElem?, if_pos rfl, List.getElem?_eq_getElem hp]
  rfl

/-- What holds of the most recent offer as long as it is in force. -/
structure Current (s : Provider) (offer : Offer) : Prop where
  received : s.received = some offer.sessionId
  stage : offer.stage ≠ .failed
  pc : s.pc = offer.stage.peerConnection
  located : ∀ c sessionId, s.candidates[c]? = some sessionId → offer.Awaits c sessionId →
    s.Located offer.stage ⟨c, sessionId⟩
  earlier : ∀ c, s.candidates[c]? = some (some offer.sessionId) →
    offer.Awaits c (some offer.sessionId) ∨ s.AddedFor offer.sessionId c

namespace Current

theorem move {s s' : Provider} {offer : Offer} (h : s.Current offer) (stage : Stage) (hg : s.Grows s')
    (hr : s'.received = s.received) (hc : s'.candidates = s.candidates) (hs : stage ≠ .failed)
    (hpc : s'.pc = stage.peerConnection)
    (hl : ∀ buffered, offer.Awaits buffered.candidate buffered.sessionId →
      s.Located offer.stage buffered → s'.Located stage buffered) :
    s'.Current { offer with stage } := by
  refine ⟨hr.trans h.received, hs, hpc, ?_, ?_⟩
  · intro c sessionId hcand haw
    rw [hc] at hcand
    exact hl ⟨c, sessionId⟩ haw (h.located c sessionId hcand haw)
  · intro c hcand
    rw [hc] at hcand
    exact (h.earlier c hcand).imp_right fun ha => ha.mono hg

theorem keep {s s' : Provider} {offer : Offer} (h : s.Current offer) (hg : s.Grows s')
    (hr : s'.received = s.received) (hc : s'.candidates = s.candidates) (hpc : s'.pc = s.pc)
    (hb : ∀ buffered ∈ s.iceCandidateBuffer, offer.Awaits buffered.candidate buffered.sessionId →
      buffered ∈ s'.iceCandidateBuffer) : s'.Current offer :=
  h.move offer.stage hg hr hc h.stage (hpc.trans h.pc) fun buffered haw hl =>
    hl.mono hg fun hmem => hb buffered hmem haw

theorem addCandidates {s : Provider} {offer : Offer} {cs : List Nat}
    (h : s.Current { offer with stage := .adding p cs }) (hp : p < s.peers.length) (t : Nat) :
    ∃ stage, (s.addCandidates t p cs).offers = (s.setStage t stage).offers ∧
      (s.addCandidates t p cs).Current { offer with stage } := by
  have hg := Grows.addCandidates s t p cs
  cases cs with
  | nil =>
    refine ⟨.answering p, rfl, h.move (.answering p) hg rfl rfl nofun h.pc ?_⟩
    intro buffered haw hl
    rcases hl with hl | hl
    · cases hl
    · exact hl.mono hg
  | cons c rest =>
    refine ⟨.adding p rest, rfl, h.move (.adding p rest) hg rfl rfl nofun h.pc ?_⟩
    intro buffered haw hl
    rcases hl with hl | hl
    · rcases mem_cons.1 hl with he | hl
      · right
        rw [he]
        exact addedTo_call hp c
      · exact .inl hl
    · exact .inr (hl.mono hg)

theorem candidate {s s' : Provider} {offer : Offer} (h : s.Current offer) (sessionId : Option String)
    (hs : offer.since ≤ s.candidates.length ∧ ∀ c ∈ offer.waiting, c < offer.since) (hg : s.Grows s')
    (hr : s'.received = s.received) (hc : s'.candidates = s.candidates ++ [sessionId]) (hpc : s'.pc = s.pc)
    (hb : ∀ buffered ∈ s.iceCandidateBuffer, buffered ∈ s'.iceCandidateBuffer)
    (hnew : offer.Awaits s.candidates.length sessionId →
      s'.Located offer.stage ⟨s.candidates.length, sessionId⟩) : s'.Current offer := by
  have hcases : ∀ c id, s'.candidates[c]? = some id →
      s.candidates[c]? = some id ∨ (c = s.candidates.length ∧ id = sessionId) := by
    intro c id hcand
    rw [hc, List.getElem?_append] at hcand
    split at hcand
    · exact .inl hcand
    · rw [List.getElem?_singleton] at hcand
      split at hcand
      · exact .inr ⟨by omega, (Option.some.inj hcand).symm⟩
      · cases hcand
  refine ⟨hr.trans h.received, h.stage, hpc.trans h.pc, ?_, ?_⟩
  · intro c id hcand haw
    rcases hcases c id hcand with hold | ⟨rfl, rfl⟩
    · exact (h.located c id hold haw).mono hg (hb _)
    · exact hnew haw
  · intro c hcand
    rcases hcases c _ hcand with hold | ⟨rfl, -⟩
    · exact (h.earlier c hold).imp_right fun ha => ha.mono hg
    · exact .inl (.inl ⟨hs.1, .inr rfl⟩)

end Current

structure Installed (s : Provider) : Prop where
  closed : s.closedSince = true → s.pc = none
  latest : s.closedSince = false → ∃ offer, s.offers.getLast? = some offer ∧ s.Current offer

section
variable {s : Provider}

theorem getLast?_setStage {offer : Offer} (h : s.offers[t]? = some offer)
    (hl : t + 1 = s.offers.length) (stage : Stage) :
    (s.setStage t stage).offers.getLast? = some { offer with stage } := by
  rw [List.getLast?_eq_getElem?, setStage_offers_length, ← hl, Nat.add_sub_cancel, setStage,
    List.getElem?_modify_eq, h]
  rfl

theorem getLast?_setStage_of_ne (hl : t + 1 ≠ s.offers.length) (stage : Stage) :
    (s.setStage t stage).offers.getLast? = s.offers.getLast? := by
  cases hlen : s.offers.length with
  | zero =>
    have hnil := eq_nil_of_length_eq_zero hlen
    rw [setStage, hnil, modify_nil]
  | succ n =>
    have hne : t ≠ n := fun he => hl (by rw [he, hlen])
    rw [List.getLast?_eq_getElem?, List.getLast?_eq_getElem?, setStage_offers_length, hlen,
      Nat.add_sub_cancel, setStage, List.getElem?_modify_ne _ _ hne]

theorem addCandidates_fields (s : Provider) (t p : Nat) (cs : List Nat) :
    (s.addCandidates t p cs).pc = s.pc ∧ (s.addCandidates t p cs).received = s.received ∧
      (s.addCandidates t p cs).closedSince = s.closedSince ∧
      (s.addCandidates t p cs).iceCandidateBuffer = s.iceCandidateBuffer ∧
      ∃ stage, (s.addCandidates t p cs).offers = (s.setStage t stage).offers := by
  cases cs <;> exact ⟨rfl, rfl, rfl, rfl, _, rfl⟩

structure Resumed (s s' : Provider) (t : Nat) (offer : Offer) : Prop where
  received : s'.received = s.received
  closedSince : s'.closedSince = s.closedSince
  offers : s'.offers = s.offers ∨ ∃ stage, s'.offers = (s.setStage t stage).offers
  pc : offer.stage ≠ .reading → s'.pc = s.pc
  buffer : (∀ p, offer.stage ≠ .describing p) → s'.iceCandidateBuffer = s.iceCandidateBuffer

theorem resumed_resume (s : Provider) (t : Nat) (offer : Offer) : s.Resumed (s.resume t offer) t offer := by
  unfold resume
  cases hs : offer.stage with
  | fetching => exact ⟨rfl, rfl, .inr ⟨_, rfl⟩, fun _ => rfl, fun _ => rfl⟩
  | reading => exact ⟨rfl, rfl, .inr ⟨_, rfl⟩, fun h => absurd hs h, fun _ => rfl⟩
  | describing p =>
    obtain ⟨hpc, hr, hc, -, ho⟩ :=
      addCandidates_fields { s with iceCandidateBuffer := [] } t p (s.bufferedFor offer.sessionId)
    exact ⟨hr, hc, .inr ho, fun _ => hpc, fun h => absurd hs (h p)⟩
  | adding p rest =>
    obtain ⟨hpc, hr, hc, hb, ho⟩ := addCandidates_fields s t p rest
    exact ⟨hr, hc, .inr ho, fun _ => hpc, fun _ => hb⟩
  | answering p => exact ⟨rfl, rfl, .inr ⟨_, rfl⟩, fun _ => rfl, fun _ => rfl⟩
  | settingLocal p => exact ⟨rfl, rfl, .inr ⟨_, rfl⟩, fun _ => rfl, fun _ => rfl⟩
  | done p => exact ⟨rfl, rfl, .inl rfl, fun _ => rfl, fun _ => rfl⟩
  | failed => exact ⟨rfl, rfl, .inl rfl, fun _ => rfl, fun _ => rfl⟩

theorem Current.resume {offer : Offer} (h : s.Current offer) (hk : s.PeersKept)
    (ho : s.offers[t]? = some offer) (hl : t + 1 = s.offers.length) :
    ∃ offer', (s.resume t offer).offers.getLast? = some offer' ∧ (s.resume t offer).Current offer' := by
  have hg := Grows.resume s t offer
  unfold Provider.resume at hg ⊢
  cases hs : offer.stage with
  | fetching =>
    rw [hs] at hg
    have hpc : s.pc = none := h.pc.trans (by rw [hs]; rfl)
    refine ⟨_, getLast?_setStage ho hl .reading, h.move .reading hg rfl rfl nofun hpc ?_⟩
    intro buffered _ hloc
    rwa [hs] at hloc
  | reading =>
    rw [hs] at hg
    refine ⟨_, getLast?_setStage ho hl (.describing s.peers.length),
      h.move (.describing s.peers.length) hg rfl rfl nofun rfl ?_⟩
    intro buffered _ hloc
    rw [hs] at hloc
    exact .inl hloc
  | describing p =>
    have hpc : s.pc = some p := h.pc.trans (by rw [hs]; rfl)
    have hd : ({ s with iceCandidateBuffer := [] } : Provider).Current
        { offer with stage := .adding p (s.bufferedFor offer.sessionId) } := by
      refine h.move _ ⟨(Grows.refl s).peers, (Grows.refl s).offers⟩ rfl rfl nofun hpc ?_
      intro buffered haw hloc
      rw [hs] at hloc
      refine hloc.imp (fun hmem => ?_) fun ha => ha
      apply mem_map_of_mem
      refine mem_filter.2 ⟨hmem, decide_eq_true ?_⟩
      rcases haw with haw | haw
      · exact haw.2
      · exact .inr haw.2
    obtain ⟨stage, hoff, hcur⟩ := hd.addCandidates (hk.current p hpc) t
    exact ⟨_, (congrArg List.getLast? hoff).trans (getLast?_setStage ho hl stage), hcur⟩
  | adding p rest =>
    have hpc : s.pc = some p := h.pc.trans (by rw [hs]; rfl)
    have ha : s.Current { offer with stage := .adding p rest } := by rwa [← hs]
    obtain ⟨stage, hoff, hcur⟩ := ha.addCandidates (hk.current p hpc) t
    exact ⟨_, (congrArg List.getLast? hoff).trans (getLast?_setStage ho hl stage), hcur⟩
  | answering p =>
    rw [hs] at hg
    have hpc : s.pc = some p := h.pc.trans (by rw [hs]; rfl)
    refine ⟨_, getLast?_setStage (s := s.call p .setLocalDescription) ho hl (.settingLocal p),
      h.move (.settingLocal p) hg rfl rfl nofun hpc ?_⟩
    intro buffered _ hloc
    rw [hs] at hloc
    exact AddedTo.mono hloc hg
  | settingLocal p =>
    rw [hs] at hg
    have hpc : s.pc = some p := h.pc.trans (by rw [hs]; rfl)
    refine ⟨_, getLast?_setStage ho hl (.done p), h.move (.done p) hg rfl rfl nofun hpc ?_⟩
    intro buffered _ hloc
    rw [hs] at hloc
    exact AddedTo.mono hloc hg
  | done p =>
    refine ⟨offer, ?_, h⟩
    rw [List.getLast?_eq_getElem?, ← hl, Nat.add_sub_cancel]
    exact ho
  | failed => exact absurd hs h.stage

theorem latest_eq {offer offer' : Offer} (h : s.offers.getLast? = some offer)
    (ho : s.offers[t]? = some offer') (hl : t + 1 = s.offers.length) : offer = offer' := by
  rw [List.getLast?_eq_getElem?, ← hl, Nat.add_sub_cancel, ho] at h
  exact (Option.some.inj h).symm

theorem Installed.resume {offer : Offer} (h : s.Installed) (hk : s.PeersKept)
    (ho : s.offers[t]? = some offer) (hord : s.Orderly (.settled t true)) : (s.resume t offer).Installed := by
  have hr := resumed_resume s t offer
  simp only [Orderly, ho, Option.map_some, isLatest, decide_eq_true_eq] at hord
  by_cases hl : t + 1 = s.offers.length
  · refine ⟨fun hc => ?_, fun hc => ?_⟩
    · rw [hr.closedSince] at hc
      by_cases hs : offer.stage = .reading
      · rw [hs] at hord
        rw [hord.2] at hc
        cases hc
      · rw [hr.pc hs]
        exact h.closed hc
    · rw [hr.closedSince] at hc
      obtain ⟨latest, hlast, hcur⟩ := h.latest hc
      cases latest_eq hlast ho hl
      exact hcur.resume hk ho hl
  · have hs : offer.stage ≠ .reading := by
      intro hs
      rw [hs] at hord
      exact hl hord.1
    refine ⟨fun hc => ?_, fun hc => ?_⟩
    · rw [hr.closedSince] at hc
      rw [hr.pc hs]
      exact h.closed hc
    · rw [hr.closedSince] at hc
      obtain ⟨latest, hlast, hcur⟩ := h.latest hc
      refine ⟨latest, ?_, hcur.keep (.resume s t offer) hr.received (candidates_resume s t offer) (hr.pc hs) ?_⟩
      · rcases hr.offers with he | ⟨stage, he⟩
        · rw [he, hlast]
        · rw [he, getLast?_setStage_of_ne hl, hlast]
      · intro buffered hmem haw
        by_cases hdesc : ∃ p, offer.stage = .describing p
        · obtain ⟨p, hp⟩ := hdesc
          rw [hp] at hord
          have hno := (hord.resolve_left hl) buffered hmem
          exact absurd ⟨hc, latest, hlast, haw⟩ hno
        · rw [hr.buffer fun p hp => hdesc ⟨p, hp⟩]
          exact hmem

theorem Installed.fail (h : s.Installed) (hord : s.Orderly (.settled t false)) :
    (s.fail t).Installed := by
  have hpc : (s.fail t).pc = none := cleanupPeer_pc s true false
  refine ⟨fun _ => hpc, fun hc => ?_⟩
  obtain ⟨hc, hl⟩ := Bool.or_eq_false_iff.1 hc
  simp only [isLatest, decide_eq_false_iff_not] at hl
  simp only [Orderly, isLatest, decide_eq_true_eq] at hord
  obtain ⟨hnone, hno⟩ := hord.resolve_left hl
  obtain ⟨latest, hlast, hcur⟩ := h.latest hc
  refine ⟨latest, ?_, hcur.keep (.fail s t) (cleanupPeer_received s true false)
    (cleanupPeer_candidates s true false) (hpc.trans hnone.symm) ?_⟩
  · refine (getLast?_setStage_of_ne (s := s.cleanupPeer true) ?_ .failed).trans ?_
    · rwa [cleanupPeer_offers]
    · rwa [cleanupPeer_offers]
  · intro buffered hmem haw
    exact absurd ⟨hc, latest, hlast, haw⟩ (hno buffered hmem)

theorem Installed.handleSdpOffer (h : s.Installed)
    (hord : s.Orderly (.handleSdpOffer sessionId fresh)) : (s.handleSdpOffer sessionId fresh).Installed := by
  have hg := Grows.after s (.handleSdpOffer sessionId fresh)
  simp only [Orderly] at hord
  simp only [Provider.after, Provider.handleSdpOffer] at hg ⊢
  split
  · rename_i hig
    rw [if_pos hig] at hord hg
    refine ⟨h.closed, fun hc => ?_⟩
    obtain ⟨latest, hlast, hcur⟩ := h.latest hc
    exact ⟨latest, hlast, hcur.keep hg hord.symm rfl rfl fun _ hmem _ => hmem⟩
  · rename_i hig
    rw [if_neg hig] at hord hg
    refine ⟨by rintro ⟨⟩, fun _ => ⟨_, List.getLast?_concat, rfl, by rintro ⟨⟩, cleanupPeer_pc s false true, ?_, ?_⟩⟩
    · intro c id hcand haw
      simp only [cleanupPeer_candidates] at hcand
      rcases haw with ⟨hge, -⟩ | ⟨hw, rfl⟩
      · exact absurd (List.getElem?_eq_some_iff.1 hcand).1 (Nat.not_lt.2 hge)
      · obtain ⟨⟨c', id⟩, hmem, rfl⟩ := mem_map.1 hw
        obtain ⟨hmem, hid⟩ := mem_filter.1 hmem
        cases of_decide_eq_true hid
        exact hmem
    · intro c hcand
      simp only [cleanupPeer_candidates] at hcand
      refine (hord c hcand).imp (fun hmem => .inr ⟨?_, rfl⟩) fun ha => ha.mono hg
      exact mem_map.2 ⟨_, mem_filter.2 ⟨hmem, decide_eq_true rfl⟩, rfl⟩

theorem located_of_added {stage : Stage} (hs : stage.peerConnection = some p)
    (h : s.AddedTo p buffered.candidate) : s.Located stage buffered := by
  cases stage with
  | fetching | reading | failed => cases hs
  | describing q | adding q rest =>
    cases hs
    exact .inr h
  | answering q | settingLocal q | done q =>
    cases hs
    exact h

theorem located_of_mem {stage : Stage} (hs : stage.peerConnection = none)
    (hf : stage ≠ .failed) (h : buffered ∈ s.iceCandidateBuffer) : s.Located stage buffered := by
  cases stage with
  | fetching | reading => exact h
  | failed => exact absurd rfl hf
  | describing q | adding q rest | answering q | settingLocal q | done q => cases hs

theorem Installed.handleRemoteIceCandidate (h : s.Installed) (hk : s.PeersKept) (ho : s.Owned)
    (hord : s.Orderly (.handleRemoteIceCandidate sessionId)) :
    (s.handleRemoteIceCandidate sessionId).Installed := by
  simp only [Orderly] at hord
  simp only [Provider.handleRemoteIceCandidate]
  generalize normalizeOptionalString sessionId = id at hord ⊢
  have hs : ∀ offer, s.offers.getLast? = some offer →
      offer.since ≤ s.candidates.length ∧ ∀ c ∈ offer.waiting, c < offer.since := by
    intro offer hlast
    rw [List.getLast?_eq_getElem?] at hlast
    exact ho.since _ offer hlast
  split
  · rename_i p r hpc hrend
    split
    · rename_i hdrop
      refine ⟨h.closed, fun hc => ?_⟩
      obtain ⟨latest, hlast, hcur⟩ := h.latest hc
      refine ⟨latest, hlast, hcur.candidate id (hs latest hlast) ⟨(Grows.refl s).peers, (Grows.refl s).offers⟩
        rfl rfl rfl (fun _ hmem => hmem) fun haw => ?_⟩
      -- A candidate that is dropped is for another session, or the callbacks are behind.
      rcases hord ⟨hc, latest, hlast, haw⟩ with hnone | ⟨r', hr, hid⟩ | ⟨hr, -⟩
      · rw [hpc] at hnone
        cases hnone
      · cases Option.some.inj (hrend.symm.trans hr)
        exact absurd hid (not_or.2 hdrop)
      · rw [hrend] at hr
        cases hr
    · have hg := Grows.call s p (.addIceCandidate s.candidates.length)
      refine ⟨h.closed, fun hc => ?_⟩
      obtain ⟨latest, hlast, hcur⟩ := h.latest hc
      refine ⟨latest, hlast, hcur.candidate id (hs latest hlast) ⟨hg.peers, hg.offers⟩
        rfl rfl rfl (fun _ hmem => hmem) fun _ => ?_⟩
      exact located_of_added (hcur.pc.symm.trans hpc) (addedTo_call (hk.current p hpc) _)
  · rename_i hbuf
    refine ⟨h.closed, fun hc => ?_⟩
    obtain ⟨latest, hlast, hcur⟩ := h.latest hc
    refine ⟨latest, hlast, hcur.candidate id (hs latest hlast) ⟨(Grows.refl s).peers, (Grows.refl s).offers⟩
      rfl rfl rfl (fun _ hmem => mem_append_left _ hmem) fun haw => ?_⟩
    have hmem : (⟨s.candidates.length, id⟩ : BufferedIceCandidate) ∈
        s.iceCandidateBuffer ++ [⟨s.candidates.length, id⟩] :=
      mem_append_right _ (mem_singleton_self _)
    cases hpc : s.pc with
    | none => exact located_of_mem (hcur.pc.symm.trans hpc) hcur.stage hmem
    | some p =>
      rcases hord ⟨hc, latest, hlast, haw⟩ with hnone | ⟨r, hr, -⟩ | ⟨-, offer, hlast', q, hdesc⟩
      · rw [hpc] at hnone
        cases hnone
      · exact absurd hr (hbuf p r hpc)
      · cases Option.some.inj (hlast.symm.trans hlast')
        rw [hdesc]
        exact .inl hmem

theorem Installed.after {a : Action} (h : s.Installed) (hk : s.PeersKept) (ho : s.Owned)
    (hord : s.Orderly a) : (s.after a).Installed := by
  apply after_cases (P := Installed)
  case offer =>
    rintro sessionId fresh rfl
    exact h.handleSdpOffer hord
  case resumed =>
    rintro t offer rfl ht
    exact h.resume hk ht hord
  case failed =>
    rintro t offer rfl -
    exact h.fail hord
  case candidate =>
    rintro sessionId rfl
    exact h.handleRemoteIceCandidate hk ho hord
  case closed =>
    intro clearSession
    exact ⟨fun _ => cleanupPeer_pc s clearSession false, nofun⟩
  case aside =>
    intro timer rendered
    refine ⟨h.closed, fun hc => ?_⟩
    obtain ⟨latest, hlast, hcur⟩ := h.latest hc
    have hg : s.Grows { s with disconnectTimer := timer, renderedSessionId := rendered } :=
      ⟨(Grows.refl s).peers, (Grows.refl s).offers⟩
    exact ⟨latest, hlast, hcur.keep hg rfl rfl rfl fun _ hmem _ => hmem⟩

structure Invariant (s : Provider) : Prop where
  peersKept : s.PeersKept
  placedOnce : s.PlacedOnce
  owned : s.Owned
  installed : s.Installed

theorem invariant_init : Invariant {} where
  peersKept := ⟨nofun, nofun, nofun⟩
  placedOnce := fun _ => Nat.le_refl 0
  owned := ⟨nofun, nofun⟩
  installed := ⟨fun _ => rfl, nofun⟩

theorem Invariant.after {a : Action} (h : s.Invariant) (hord : s.Orderly a) :
    (s.after a).Invariant := by
  refine ⟨h.peersKept.after ?_, h.placedOnce.after, h.owned.after h.placedOnce,
    h.installed.after h.peersKept h.owned hord⟩
  rintro t rfl offer ho hs
  simp only [Orderly, ho, Option.map_some, hs, isLatest, decide_eq_true_eq] at hord
  obtain ⟨hl, hc⟩ := hord
  obtain ⟨latest, hlast, hcur⟩ := h.installed.latest hc
  cases latest_eq hlast ho hl
  rw [hcur.pc, hs]
  rfl

theorem Invariant.done {offer : Offer} (h : s.Invariant) (hc : s.closedSince = false)
    (hlast : s.offers.getLast? = some offer) (hfin : s.Finished offer) :
    ∃ p, offer.stage = .done p ∧ s.pc = some p := by
  obtain ⟨latest, hlast', hcur⟩ := h.installed.latest hc
  cases Option.some.inj (hlast'.symm.trans hlast)
  rcases hfin with hret | ⟨p, hp, hclosed⟩
  · cases hst : offer.stage with
    | done p => exact ⟨p, rfl, hcur.pc.trans (by rw [hst]; rfl)⟩
    | failed => exact absurd hst hcur.stage
    | _ =>
      rw [hst] at hret
      cases hret
  · have hpc : s.pc = some p := hcur.pc.trans hp
    exact absurd hpc (((h.peersKept.closed p (h.peersKept.current p hpc))).1 hclosed)

theorem AddedTo.pos (h : s.AddedTo p c) : 0 < s.added c := by
  obtain ⟨peer, hp, hc⟩ := h
  have hmem : peer ∈ s.peers := List.mem_of_getElem? hp
  have hle := single_le_sum (fun _ _ => Nat.zero_le _) _
    (mem_map_of_mem (f := fun peer : Peer => peer.operations.count (.addIceCandidate c)) hmem)
  exact Nat.lt_of_lt_of_le (count_pos_iff.2 hc) hle

theorem PlacedOnce.added_eq_one (h : s.PlacedOnce) (ha : s.AddedTo p c) : s.added c = 1 := by
  have hpos := ha.pos
  have hc := h c
  rw [placed] at hc
  split at hc <;> omega

theorem Invariant.onePeer (h : s.Invariant) (hfin : ∀ offer ∈ s.offers, s.Finished offer) :
    s.OnePeer := by
  have hcurrent : s.closedSince = false → ∀ offer, s.offers.getLast? = some offer →
      s.Current offer ∧ ∃ p, offer.stage = .done p ∧ s.pc = some p := by
    intro hc offer hlast
    obtain ⟨latest, hlast', hcur⟩ := h.installed.latest hc
    cases Option.some.inj (hlast'.symm.trans hlast)
    exact ⟨hcur, h.done hc hlast (hfin _ (List.mem_of_getLast? hlast))⟩
  have howner : ∀ offer p, s.offers.getLast? = some offer → offer.stage = .done p →
      ∃ peer, s.peers[p]? = some peer ∧ s.offers[peer.offer]? = some offer ∧
        peer.offer + 1 = s.offers.length := by
    intro offer p hlast hdone
    have hget : s.offers[s.offers.length - 1]? = some offer := List.getLast?_eq_getElem? ▸ hlast
    obtain ⟨peer, hp, ho⟩ := h.owned.peer _ offer p hget (by rw [hdone]; rfl)
    have hlt := (List.getElem?_eq_some_iff.1 hget).1
    exact ⟨peer, hp, by rw [ho, hget], by omega⟩
  have hawaited : s.closedSince = false → ∀ offer, s.offers.getLast? = some offer →
      ∀ c sessionId, s.candidates[c]? = some sessionId → offer.Awaits c sessionId →
        s.added c = 1 ∧ ∃ p, s.pc = some p ∧ s.AddedTo p c := by
    intro hc offer hlast c sessionId hcand haw
    obtain ⟨hcur, p, hdone, hpc⟩ := hcurrent hc offer hlast
    have hloc := hcur.located c sessionId hcand haw
    rw [hdone] at hloc
    exact ⟨h.placedOnce.added_eq_one hloc, p, hpc, hloc⟩
  refine ⟨?_, h.installed.closed, h.peersKept.closed, ?_, hawaited, ?_⟩
  · intro hc
    obtain ⟨offer, hlast, -⟩ := h.installed.latest hc
    obtain ⟨hcur, p, hdone, hpc⟩ := hcurrent hc offer hlast
    obtain ⟨peer, hp, -, ho⟩ := howner offer p hlast hdone
    exact ⟨offer, p, peer, hlast, hcur.received, hpc, hp, ho⟩
  · intro peer hmem
    obtain ⟨p, hp⟩ := List.mem_iff_getElem?.1 hmem
    exact h.peersKept.described p peer hp
  · intro hc offer hlast c hcand
    obtain ⟨hcur, p, hdone, hpc⟩ := hcurrent hc offer hlast
    rcases hcur.earlier c hcand with haw | ha
    · obtain ⟨hone, q, hq, hadd⟩ := hawaited hc offer hlast c _ hcand haw
      cases Option.some.inj (hpc.symm.trans hq)
      obtain ⟨peer, hp, ho, -⟩ := howner offer p hlast hdone
      obtain ⟨peer', hp', hmem⟩ := hadd
      cases Option.some.inj (hp.symm.trans hp')
      exact ⟨hone, p, peer, offer, hp, hmem, ho, rfl⟩
    · obtain ⟨p', peer, offer', hp, hmem, ho, hid⟩ := ha
      exact ⟨h.placedOnce.added_eq_one ⟨peer, hp, hmem⟩, p', peer, offer', hp, hmem, ho, hid⟩

end

/-- In a run of orderly steps, one peer is left whenever all calls have returned: that of the most
recent offer; and an offer that is no longer the most recent one fails without a trace. -/
theorem one_peer {tr : List (Provider × Action)} {s : Provider} (h : system.Run {} tr s)
    (hord : ∀ p ∈ tr, p.1.Orderly p.2) :
    (∀ u ∈ states tr s, (∀ offer ∈ u.offers, u.Finished offer) → u.OnePeer) ∧
      ∀ u t, (u, .settled t false) ∈ tr → ¬ u.isLatest t → (u.fail t).pc = u.pc := by
  refine ⟨?_, ?_⟩
  · have hinv : ∀ u ∈ states tr s, u.Invariant := by
      apply h.forall_states invariant_init
      rintro p hp hi u ⟨-, rfl⟩
      exact hi.after (hord p hp)
    intro u hu hfin
    exact (hinv u hu).onePeer hfin
  · intro u t hmem hl
    have hnone := ((hord _ hmem).resolve_left hl).1
    exact (cleanupPeer_pc u true false).trans hnone.symm

def orderlyCalls : List Action :=
  [.handleSdpOffer (some "a") "b", .settled 0 true, .settled 0 true, .handleRemoteIceCandidate (some "a"),
    .settled 0 true, .render, .settled 0 true, .settled 0 true, .settled 0 true]

theorem one_peer_orderlyCalls : ∃ tr s, system.Run {} tr s ∧ tr.map Prod.snd = orderlyCalls ∧
    (∀ offer ∈ s.offers, s.Finished offer) ∧ s.OnePeer ∧ s.pc = some 0 ∧ s.added 0 = 1 := by
  have hrun : system.Run {} (replay after {} orderlyCalls).1 (replay after {} orderlyCalls).2 :=
    System.run_replay orderlyCalls (by decide +kernel)
  have hord : ∀ p ∈ (replay after {} orderlyCalls).1, p.1.Orderly p.2 := by
    refine forall_mem_cons.2 ⟨nofun, ?_⟩
    refine forall_mem_cons.2 ⟨trivial, ?_⟩
    refine forall_mem_cons.2 ⟨⟨rfl, rfl⟩, ?_⟩
    refine forall_mem_cons.2 ⟨fun _ => .inr (.inr ⟨rfl, _, rfl, 0, rfl⟩), ?_⟩
    refine forall_mem_cons.2 ⟨.inl rfl, ?_⟩
    refine forall_mem_cons.2 ⟨trivial, ?_⟩
    refine forall_mem_cons.2 ⟨trivial, ?_⟩
    refine forall_mem_cons.2 ⟨trivial, ?_⟩
    exact forall_mem_singleton.2 trivial
  have hfin : ∀ offer ∈ (replay after {} orderlyCalls).2.offers, offer.stage.returned = true := by decide +kernel
  have hfin' : ∀ offer ∈ (replay after {} orderlyCalls).2.offers, (replay after {} orderlyCalls).2.Finished offer :=
    fun offer hoffer => .inl (hfin offer hoffer)
  refine ⟨_, _, hrun, replay_labels .., hfin', ?_, ?_, ?_⟩
  · exact (one_peer hrun hord).1 _ (end_mem_states _ _) hfin'
  · decide +kernel
  · decide +kernel

def overlappingCalls : List Action :=
  [.handleSdpOffer (some "a") "b", .handleSdpOffer (some "c") "d"] ++
    [.settled 0 true, .settled 1 true, .settled 1 true, .settled 0 true] ++
      [.settled 0 true, .settled 0 true, .settled 0 true, .settled 1 true, .settled 1 true, .settled 1 true]

/-- The peer of the first offer is installed over that of the second, which nothing closes. -/
theorem overlappingCalls_two_peers : ∃ tr s, system.Run {} tr s ∧ tr.map Prod.snd = overlappingCalls ∧
    (∀ offer ∈ s.offers, s.Finished offer) ∧ s.closedSince = false ∧ ¬ s.OnePeer := by
  have hrun : system.Run {} (replay after {} overlappingCalls).1 (replay after {} overlappingCalls).2 :=
    System.run_replay overlappingCalls (by decide +kernel)
  have hfin : ∀ offer ∈ (replay after {} overlappingCalls).2.offers, offer.stage.returned = true := by
    decide +kernel
  refine ⟨_, _, hrun, replay_labels .., fun offer hoffer => .inl (hfin offer hoffer), by decide +kernel, ?_⟩
  intro h
  obtain ⟨offer, p, peer, -, -, hpc, hp, ho⟩ := h.installed (by decide +kernel)
  have hpc' : (replay after {} overlappingCalls).2.pc = some 1 := by decide +kernel
  have hpeer : (replay after {} overlappingCalls).2.peers[1]?.map Peer.offer = some 0 := by decide +kernel
  have hlen : (replay after {} overlappingCalls).2.offers.length = 2 := by decide +kernel
  cases Option.some.inj (hpc'.symm.trans hpc)
  rw [hp] at hpeer
  have hoffer : peer.offer = 0 := Option.some.inj hpeer
  rw [hoffer, hlen] at ho
  cases ho

end Provider
end Trakrai.WebRtc
