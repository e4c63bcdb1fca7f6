import Trakrai.Edge.Bridge
import Trakrai.Gateway.Sessions

namespace Trakrai.Edge
open Option List Lib

section
variable {s : Bridge} {action : Action} {deviceId id : String}

/-- A broadcast that names a session goes to nobody but the client to which the session is bound. -/
def SentToSessionOwner (deviceId : String) (s : Bridge) (action : Action) : Prop :=
  ∀ t service subtopic envelope client, action = .broadcast t service subtopic envelope →
    shouldSuppressOutboundICE subtopic envelope = false →
    s.sessions.owner (edgeEnvelopeIDs envelope).2 = some client →
    (after deviceId s action).tasks t =
      .writing (outboundPacket deviceId service subtopic envelope) [client]

/-- A broadcast that names a session and a request that has an owner finds the session unbound or
bound to that owner. -/
def SessionsAgree (s : Bridge) (action : Action) : Prop :=
  ∀ t service subtopic envelope client id, action = .broadcast t service subtopic envelope →
    shouldSuppressOutboundICE subtopic envelope = false →
    boundSession s envelope = some (client, id) →
    ∀ client', s.sessions.owner id = some client' → client' = client

/-- Until its owner is removed, a session stays with it and nobody else gets its packets. -/
def SessionsKept (deviceId : String) (tr : List (Bridge × Action)) : Prop :=
  (∀ id client, (system deviceId).Unless tr (fun s => s.sessions.owner id = some client)
    fun p => ∃ n next, p.2 = .remove n client next) ∧
  ∀ p ∈ tr, SentToSessionOwner deviceId p.1 p.2

inductive SessionsStep (s : Bridge) (action : Action) (t : Bridge) : Prop where
  | remove (n : Nat) (client : Client) (next : Task) (ha : action = .remove n client next)
    (hsessions : t.sessions = s.sessions.release client)
  | bind (n : Nat) (service subtopic : String) (envelope : Envelope) (client : Client) (id : String)
    (ha : action = .broadcast n service subtopic envelope)
    (hice : shouldSuppressOutboundICE subtopic envelope = false)
    (hb : boundSession s envelope = some (client, id))
    (hsessions : t.sessions = s.sessions.claim client id)
  /-- Another step forgets at most what it knows of a client that comes. -/
  | keep (ha : ∀ n client next, action ≠ .remove n client next)
    (howner : t.sessions.owner = s.sessions.owner)
    (howned : ∀ client, t.sessions.owned client = s.sessions.owned client ∨
      t.sessions.owned client = [])

theorem sessionsStep (deviceId : String) (s : Bridge) (action : Action) :
    SessionsStep s action (after deviceId s action) := by
  cases action with
  | connect t client =>
    refine .keep (by rintro _ _ _ ⟨⟩) rfl fun client' => ?_
    by_cases hc : client' = client
    · exact .inr (by simp [after, run, addClient, Bridge.goOn, hc])
    · exact .inl (by simp [after, run, addClient, Bridge.goOn, hc])
  | message t client frame stamp =>
    obtain ⟨-, task, hs | hs⟩ | ⟨requestId, task, -, hs⟩ :=
      message_cases deviceId s t client frame stamp <;>
    · rw [after, run, hs]
      exact .keep (by rintro _ _ _ ⟨⟩) rfl fun _ => .inl rfl
  | broadcast t service subtopic envelope =>
    obtain hs | ⟨task, ⟨-, hs⟩ | ⟨owner, sessionId, hice, hb, hs⟩⟩ :=
      broadcast_cases deviceId s t service subtopic envelope
    · rw [hs]
      exact .keep (by rintro _ _ _ ⟨⟩) rfl fun _ => .inl rfl
    · rw [hs]
      exact .keep (by rintro _ _ _ ⟨⟩) rfl fun _ => .inl rfl
    · rw [hs]
      exact .bind t service subtopic envelope owner sessionId rfl hice hb rfl
  | remove t client next => exact .remove t client next rfl rfl
  | check t client route envelope =>
    simp only [after, run]
    split <;> exact .keep (by rintro _ _ _ ⟨⟩) rfl fun _ => .inl rfl
  | write t packet client targets ok =>
    cases ok <;> exact .keep (by rintro _ _ _ ⟨⟩) rfl fun _ => .inl rfl
  | _ => exact .keep (by rintro _ _ _ ⟨⟩) rfl fun _ => .inl rfl

/-- What the bridge knows of a client is right, and no session has an empty id. -/
structure Guarded (s : Bridge) : Prop where
  tight : s.sessions.Tight
  named : s.sessions.owner "" = none

theorem boundSession_ne (h : boundSession s envelope = some (client, id)) : id ≠ "" := by
  simp only [boundSession] at h
  split at h
  · cases h
  · rename_i hne
    obtain ⟨_, -, hpair⟩ := map_eq_some_iff.1 h
    rw [← (Prod.mk.inj hpair).2]
    exact fun he => hne (.inr he)

theorem Guarded.step (h : Guarded s) (ha : SessionsAgree s action) :
    Guarded (after deviceId s action) := by
  cases sessionsStep deviceId s action with
  | remove n client next hact hsessions =>
    refine ⟨hsessions ▸ h.tight.release, ?_⟩
    rw [hsessions, Routes.release]
    simp only [h.named, ite_self]
  | bind n service subtopic envelope client id hact hice hb hsessions =>
    refine ⟨?_, ?_⟩
    · rw [hsessions]
      refine h.tight.claim ?_
      cases ho : s.sessions.owner id with
      | none => exact .inl rfl
      | some client' =>
        exact .inr (by rw [ha n service subtopic envelope client id hact hice hb client' ho])
    · rw [hsessions, Routes.claim_owner_of_ne (Ne.symm (boundSession_ne hb)), h.named]
  | keep hact howner howned =>
    refine ⟨?_, howner ▸ h.named⟩
    intro id client hm
    rw [howner]
    rcases howned client with hsame | hnone
    · exact h.tight id client (hsame ▸ hm)
    · rw [hnone] at hm
      cases hm

theorem sessionOwner_step (h : Guarded s) (ha : SessionsAgree s action)
    (ho : s.sessions.owner id = some client) (hne : ∀ n next, action ≠ .remove n client next) :
    (after deviceId s action).sessions.owner id = some client := by
  cases sessionsStep deviceId s action with
  | remove n client' next hact hsessions =>
    rw [hsessions, Routes.release_owner_of_not_mem, ho]
    intro hm
    obtain rfl : client = client' := some.inj (ho.symm.trans (h.tight id client' hm))
    exact hne n next hact
  | bind n service subtopic envelope client' id' hact hice hb hsessions =>
    rw [hsessions]
    by_cases hid : id = id'
    · subst hid
      rw [Routes.claim_owner_self, ha n service subtopic envelope client' id hact hice hb client ho]
    · rw [Routes.claim_owner_of_ne hid, ho]
  | keep hact howner howned => rw [howner, ho]

theorem packetOwner_owner (s : Bridge) (packet : OutboundPacket) : (packetOwner s packet).2 =
      ((if (edgeEnvelopeIDs packet.envelope).1 = "" then none
        else s.requests.owner (edgeEnvelopeIDs packet.envelope).1).or
      (if (edgeEnvelopeIDs packet.envelope).2 = "" then none
        else s.sessions.owner (edgeEnvelopeIDs packet.envelope).2)) := by
  simp only [packetOwner]
  split
  · rfl
  · split
    · rename_i ho
      rw [ho]
      rfl
    · rename_i ho
      rw [ho]
      rfl

theorem Guarded.sentToSessionOwner (h : Guarded s) (ha : SessionsAgree s action) :
    SentToSessionOwner deviceId s action := by
  rintro t service subtopic envelope client rfl hice ho
  have hsid : (edgeEnvelopeIDs envelope).2 ≠ "" := by
    intro he
    rw [he, h.named] at ho
    cases ho
  have howner : (packetOwner s (outboundPacket deviceId service subtopic envelope)).2 =
      some client := by
    have henv : (outboundPacket deviceId service subtopic envelope).envelope = envelope := rfl
    rw [packetOwner_owner, henv, if_neg hsid, ho]
    by_cases hrid : (edgeEnvelopeIDs envelope).1 = ""
    · rw [if_pos hrid]
      rfl
    · rw [if_neg hrid]
      cases hreq : s.requests.owner (edgeEnvelopeIDs envelope).1 with
      | none => rfl
      | some client' =>
        have hb : boundSession s envelope = some (client', (edgeEnvelopeIDs envelope).2) := by
          simp [boundSession, hrid, hsid, hreq]
        rw [ha t service subtopic envelope client' _ rfl hice hb client ho]
        rfl
  simp only [after, run, hice, howner]
  simp [Bridge.goOn, broadcastTargets]

theorem after_broadcast_sessions (hice : shouldSuppressOutboundICE subtopic envelope = false)
    (hb : boundSession s envelope = some (client, id)) :
    (after deviceId s (.broadcast t service subtopic envelope)).sessions =
      s.sessions.claim client id := by
  have henv : (outboundPacket deviceId service subtopic envelope).envelope = envelope := rfl
  simp only [after, run, hice, packetOwner_tables, henv, hb]
  rfl

theorem sessionsAgree_of_kept (h : ∀ id client, s.sessions.owner id = some client →
      (∀ n next, action ≠ .remove n client next) →
      (after deviceId s action).sessions.owner id = some client) : SessionsAgree s action := by
  rintro t service subtopic envelope client id rfl hice hb client' ho
  have hkept := h id client' ho (by nofun)
  rw [after_broadcast_sessions hice hb, Routes.claim_owner_self] at hkept
  exact (some.inj hkept).symm

theorem sessionsKept_iff (h : (system deviceId).Run .initial tr s) :
    SessionsKept deviceId tr ↔ ∀ p ∈ tr, SessionsAgree p.1 p.2 := by
  refine ⟨?_, ?_⟩
  · rintro ⟨hun, -⟩ p hp
    have hkept : ∀ id client, p.1.sessions.owner id = some client →
        (∀ n next, p.2 ≠ .remove n client next) →
        (after deviceId p.1 p.2).sessions.owner id = some client := by
      intro id client ho hne
      refine h.unless_iff.1 (hun id client) p hp ho ?_
      rintro ⟨n, next, hact⟩
      exact hne n next hact
    exact sessionsAgree_of_kept hkept
  · intro hall
    have hguarded : ∀ t ∈ states tr s, Guarded t := by
      refine h.forall_states ⟨Routes.tight_empty, rfl⟩ ?_
      rintro p hp hI u ⟨-, rfl⟩
      exact hI.step (hall p hp)
    refine ⟨fun id client => h.unless_iff.2 ?_, fun p hp => ?_⟩
    · intro p hp ho hne
      refine sessionOwner_step (hguarded _ (mem_states_of_mem hp)) (hall p hp) ho ?_
      intro n next hact
      exact hne ⟨n, next, hact⟩
    · exact (hguarded _ (mem_states_of_mem hp)).sentToSessionOwner (hall p hp)

end

/-- In every run of the gateway and in every run of the bridge, no session leaves its owner before
the owner does, and nobody else gets its packets, if and only if no packet of the device names a
session of one client and a request of another. -/
theorem no_takeover_iff {jwt : Gateway.Jwt Token}
    (hg : (Gateway.system jwt config).Run .initial gatewayTrace g)
    (he : (system deviceId).Run .initial edgeTrace e) :
    (Gateway.SessionsKept jwt config gatewayTrace ↔
      ∀ p ∈ gatewayTrace, Gateway.SessionsAgree p.1 p.2) ∧
    (SessionsKept deviceId edgeTrace ↔ ∀ p ∈ edgeTrace, SessionsAgree p.1 p.2) :=
  ⟨Gateway.sessionsKept_iff hg, sessionsKept_iff he⟩

theorem Orderly.sessionsAgree (h : Orderly s action) : SessionsAgree s action := by
  rintro t service subtopic envelope client id rfl hice hb client' ho
  exact h hice client id hb client' ho

def bothSessions : List (Gateway.Event Gateway.DeviceGatewayAccessTokenPayload) :=
  Gateway.twoViewers "a" "b" ++ [Gateway.candidate "b" "t", Gateway.candidate "a" "s"]

theorem no_takeover_two_viewers : ∃ gatewayTrace g edgeTrace e,
      (Gateway.system Gateway.plainJwt Gateway.sampleConfig).Run .initial gatewayTrace g ∧
      g.sessions.owner "s" = some 0 ∧ g.sessions.owner "t" = some 1 ∧
      (system "d1").Run .initial edgeTrace e ∧ e.sessions.owner "t" = some 1 ∧
      Gateway.SessionsKept Gateway.plainJwt Gateway.sampleConfig gatewayTrace ∧
      SessionsKept "d1" edgeTrace := by
  have henabled : ∀ p ∈ (Gateway.sampled bothSessions).1, Gateway.Enabled p.1 p.2 := by
    simp only [Gateway.sampled, bothSessions, Gateway.twoViewers, Gateway.startLive, Gateway.candidate,
      cons_append, nil_append, replay, forall_mem_cons, not_mem_nil, false_imp_iff, implies_true,
      and_true]
    exact ⟨⟨rfl, rfl⟩, ⟨rfl, rfl⟩, ⟨rfl, rfl⟩, ⟨rfl, rfl⟩, ⟨rfl, rfl⟩, ⟨rfl, .inl rfl⟩,
      ⟨rfl, trivial⟩, ⟨by decide +kernel, .inl (by decide +kernel)⟩, ⟨by decide +kernel, trivial⟩,
      by decide +kernel, trivial⟩
  have hagrees : ∀ p ∈ (Gateway.sampled bothSessions).1, Gateway.agrees p.1 p.2 = true := by
    decide +kernel
  have hg := Gateway.sampled_run henabled
  have he : (system "d1").Run .initial (replay (after "d1") .initial twoSessions).1
      (replay (after "d1") .initial twoSessions).2 :=
    System.run_replay twoSessions fun p hp => (twoSessions_orderly p hp).1
  have howners : let g := (Gateway.sampled bothSessions).2
      g.sessions.owner "s" = some 0 ∧ g.sessions.owner "t" = some 1 := by
    decide +kernel
  obtain ⟨hgateway, hedge⟩ := no_takeover_iff hg he
  exact ⟨_, _, _, _, hg, howners.1, howners.2, he, rfl,
    hgateway.2 fun p hp => Gateway.sessionsAgree_of_agrees (hagrees p hp),
    hedge.2 fun p hp => (twoSessions_orderly p hp).2.sessionsAgree⟩

def secondAsks : List Action :=
  [.connect 0 0, .connect 1 1] ++ session 0 "a" "s" ++
    [.message 1 1 (startLiveFrame "a") sampleStamp, .check 1 1 liveFeed (startLive "a"),
      .dispatch 1 1 liveFeed (startLive "a")]

def iceCandidate (requestId sessionId : String) : Envelope :=
  ⟨"3", "2026-01-01T00:00:00Z", "ice-candidate", some (.obj [("origin", .str "device"),
    ("sessionId", .str sessionId), ("requestId", .str requestId)])⟩

/-- The next candidate of the session goes to the second client, which owns the session from then
on. -/
theorem session_taken_over :
    (∃ tr s, (Gateway.system Gateway.plainJwt Gateway.sampleConfig).Run .initial tr s ∧
      Gateway.Enabled s (Gateway.candidate "a" "s") ∧ s.sessions.owner "s" = some 0 ∧
      (Gateway.after Gateway.plainJwt Gateway.sampleConfig s
        (Gateway.candidate "a" "s")).sessions.owner "s" = some 1 ∧
      Gateway.socketsSent (Gateway.outputs Gateway.plainJwt Gateway.sampleConfig s
        (Gateway.candidate "a" "s")) = [1]) ∧
    ∃ tr s, (system "d1").Run .initial tr s ∧
      Enabled s (.broadcast 2 "live-feed" "webrtc/ice" (iceCandidate "a" "s")) ∧ 0 ∈ s.clients ∧
      s.sessions.owner "s" = some 0 ∧
      (after "d1" s (.broadcast 2 "live-feed" "webrtc/ice" (iceCandidate "a" "s"))).sessions.owner "s" =
        some 1 ∧
      (after "d1" s (.broadcast 2 "live-feed" "webrtc/ice" (iceCandidate "a" "s"))).tasks 2 =
        .writing (outboundPacket "d1" "live-feed" "webrtc/ice" (iceCandidate "a" "s")) [1] := by
  have hg : ∀ p ∈ (Gateway.sampled (Gateway.twoViewers "a" "a")).1, Gateway.Enabled p.1 p.2 := by
    simp only [Gateway.sampled, Gateway.twoViewers, Gateway.startLive, Gateway.candidate, replay,
      forall_mem_cons, not_mem_nil, false_imp_iff, implies_true, and_true]
    exact ⟨⟨rfl, rfl⟩, ⟨rfl, rfl⟩, ⟨rfl, rfl⟩, ⟨rfl, rfl⟩, ⟨rfl, rfl⟩, ⟨rfl, .inl rfl⟩,
      ⟨rfl, trivial⟩, by decide +kernel, .inl (by decide +kernel)⟩
  have he : ∀ p ∈ (replay (after "d1") .initial secondAsks).1, Enabled p.1 p.2 := by
    simp only [secondAsks, session, cons_append, nil_append, replay,
      forall_mem_cons, not_mem_nil, false_imp_iff, implies_true, and_true]
    exact ⟨⟨rfl, by decide⟩, ⟨rfl, by decide⟩, rfl, rfl, rfl, rfl, rfl, rfl, rfl, rfl, rfl⟩
  have hviewers : let g := (Gateway.sampled (Gateway.twoViewers "a" "a")).2
      g.crashed = false ∧ g.sessions.owner "s" = some 0 ∧
      (Gateway.after Gateway.plainJwt Gateway.sampleConfig g
        (Gateway.candidate "a" "s")).sessions.owner "s" = some 1 ∧
      Gateway.socketsSent (Gateway.outputs Gateway.plainJwt Gateway.sampleConfig g
        (Gateway.candidate "a" "s")) = [1] := by
    decide +kernel
  obtain ⟨hcrashed, hfirst, hsecond, hsent⟩ := hviewers
  have hclients : let e := (replay (after "d1") .initial secondAsks).2
      0 ∈ e.clients ∧ e.sessions.owner "s" = some 0 ∧
      (after "d1" e (.broadcast 2 "live-feed" "webrtc/ice" (iceCandidate "a" "s"))).sessions.owner "s" =
        some 1 := by
    decide +kernel
  obtain ⟨hpresent, howner, htaken⟩ := hclients
  exact ⟨⟨_, _, Gateway.sampled_run hg, ⟨hcrashed, trivial⟩, hfirst, hsecond, hsent⟩, _, _,
    System.run_replay _ he, rfl, hpresent, howner, htaken, rfl⟩

end Trakrai.Edge
