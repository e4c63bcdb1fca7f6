import Trakrai.Gateway.Ownership

namespace Trakrai.Gateway
open Option Lib

section
variable {Token : Type} {s : Server Token} {jwt : Jwt Token} {config : Config} {id : String}

/-- A packet that names a session goes to nobody but the client to which the session is bound. -/
def SentToSessionOwner (jwt : Jwt Token) (config : Config) (s : Server Token)
    (event : Event Token) : Prop :=
  ∀ topic payload packet id ws, event = .mqtt topic payload →
    mqttPacket topic payload = some packet → (readRoutingIds packet.envelope).sessionId = some id →
    s.sessions.owner id = some ws →
    ∀ output ∈ outputs jwt config s event, ∃ filtered, output = .packet ws filtered

/-- A packet that names a session and a request that has an owner finds the session unbound or
bound to that owner. -/
def SessionsAgree (s : Server Token) (event : Event Token) : Prop :=
  ∀ topic payload packet ws id, event = .mqtt topic payload →
    mqttPacket topic payload = some packet → boundSession s packet = some (ws, id) →
    ∀ ws', s.sessions.owner id = some ws' → ws' = ws

/-- Until its owner leaves, a session stays with it and nobody else gets its packets. -/
def SessionsKept (jwt : Jwt Token) (config : Config) (tr : List (Server Token × Event Token)) :
    Prop :=
  (∀ id ws, (system jwt config).Unless tr (fun s => s.sessions.owner id = some ws)
    fun p => leaving config p.1 p.2 = some ws) ∧
  ∀ p ∈ tr, SentToSessionOwner jwt config p.1 p.2

theorem tight_step (h : s.sessions.Tight) (he : Enabled s event) (ha : SessionsAgree s event) :
    (after jwt config s event).sessions.Tight := by
  cases tablesStep jwt config he with
  | leave ws hl hclients hrequests hsessions => exact hsessions ▸ h.release
  | bind topic payload packet ws id hev hp hb hclients hrequests hsessions =>
    rw [hsessions]
    refine h.claim ?_
    cases ho : s.sessions.owner id with
    | none => exact .inl rfl
    | some ws' => exact .inr (by rw [ha topic payload packet ws id hev hp hb ws' ho])
  | join ws context hl hstage hclients hrequests hsessions => exact hsessions ▸ h
  | register ws context id hl hclient hclients hrequests hsessions => exact hsessions ▸ h
  | keep hl hclients hrequests hsessions => exact hsessions ▸ h

theorem sessionOwner_step (h : s.sessions.Tight) (he : Enabled s event)
    (ha : SessionsAgree s event) (ho : s.sessions.owner id = some ws)
    (hl : leaving config s event ≠ some ws) :
    (after jwt config s event).sessions.owner id = some ws := by
  cases tablesStep jwt config he with
  | leave ws' hl' hclients hrequests hsessions =>
    rw [hsessions, Routes.release_owner_of_not_mem, ho]
    intro hm
    obtain rfl : ws = ws' := some.inj (ho.symm.trans (h id ws' hm))
    exact hl hl'
  | bind topic payload packet ws' id' hev hp hb hclients hrequests hsessions =>
    rw [hsessions]
    by_cases hid : id = id'
    · subst hid
      rw [Routes.claim_owner_self, ha topic payload packet ws' id hev hp hb ws ho]
    · rw [Routes.claim_owner_of_ne hid, ho]
  | join ws' context hl' hstage hclients hrequests hsessions => rw [hsessions, ho]
  | register ws' context id' hl' hclient hclients hrequests hsessions => rw [hsessions, ho]
  | keep hl' hclients hrequests hsessions => rw [hsessions, ho]

theorem boundSession_eq (hr : (readRoutingIds packet.envelope).requestId = some requestId)
    (ho : s.requests.owner requestId = some ws)
    (hs : (readRoutingIds packet.envelope).sessionId = some id) :
    boundSession s packet = some (ws, id) := by
  simp [boundSession, hr, ho, hs]

theorem sentToSessionOwner (ha : SessionsAgree s event) :
    SentToSessionOwner jwt config s event := by
  rintro topic payload packet id ws rfl hp hid ho output hm
  obtain ⟨statuses, hr⟩ := rememberStatus_eq s packet
  have htarget : packetTarget (rememberStatus s packet) packet = some ws := by
    rw [hr]
    simp only [packetTarget, hid, bind_some]
    cases hreq : (readRoutingIds packet.envelope).requestId with
    | none => exact ho
    | some requestId =>
      simp only [bind_some]
      cases hown : s.requests.owner requestId with
      | none => exact ho
      | some ws' =>
        rw [ha topic payload packet ws' id rfl hp (boundSession_eq hreq hown hid) ws ho]
        rfl
  simp only [outputs, handle, mqttMessage_eq, hp, htarget] at hm
  obtain ⟨ws', context, filtered, -, -, honly, -, -, rfl⟩ := mem_deliver hm
  rw [honly ws rfl]
  exact ⟨filtered, rfl⟩

theorem after_mqtt_sessions (hp : mqttPacket topic payload = some packet)
    (hb : boundSession s packet = some (ws, id)) :
    (after jwt config s (.mqtt topic payload)).sessions = s.sessions.claim ws id := by
  obtain ⟨statuses, hr⟩ := rememberStatus_eq s packet
  have hsame : boundSession (rememberStatus s packet) packet = some (ws, id) := by
    rw [hr]
    exact hb
  simp only [after, handle, mqttMessage_eq, hp, bindSession, hsame]
  rw [hr]

theorem sessionsAgree_of_kept
    (h : ∀ id ws, s.sessions.owner id = some ws → leaving config s event ≠ some ws →
      (after jwt config s event).sessions.owner id = some ws) : SessionsAgree s event := by
  rintro topic payload packet ws id rfl hp hb ws' ho
  have hkept := h id ws' ho (by nofun)
  rw [after_mqtt_sessions hp hb, Routes.claim_owner_self] at hkept
  exact (some.inj hkept).symm

theorem sessionsKept_iff (h : (system jwt config).Run .initial tr s) :
    SessionsKept jwt config tr ↔ ∀ p ∈ tr, SessionsAgree p.1 p.2 := by
  refine ⟨?_, ?_⟩
  · rintro ⟨hun, -⟩ p hp
    have hkept : ∀ id ws, p.1.sessions.owner id = some ws → leaving config p.1 p.2 ≠ some ws →
        (after jwt config p.1 p.2).sessions.owner id = some ws :=
      fun id ws => h.unless_iff.1 (hun id ws) p hp
    exact sessionsAgree_of_kept hkept
  · intro hall
    have htight : ∀ t ∈ states tr s, t.sessions.Tight := by
      refine h.forall_states Routes.tight_empty ?_
      rintro p hp hI u ⟨he, rfl⟩
      exact tight_step hI he (hall p hp)
    refine ⟨fun id ws => h.unless_iff.2 ?_, fun p hp => sentToSessionOwner (hall p hp)⟩
    intro p hp ho hl
    exact sessionOwner_step (htight _ (mem_states_of_mem hp)) (h.enabled p hp) (hall p hp) ho hl

def agrees (s : Server Token) : Event Token → Bool
  | .mqtt topic payload => (mqttPacket topic payload).all fun packet =>
    (boundSession s packet).all fun bound => (s.sessions.owner bound.2).all (· == bound.1)
  | _ => true

theorem sessionsAgree_of_agrees (h : agrees s event = true) : SessionsAgree s event := by
  rintro topic payload packet ws id rfl hp hb ws' ho
  rw [agrees, hp, all_some, hb, all_some, ho, all_some] at h
  exact beq_iff_eq.1 h

end

def liveToken (userId : String) : DeviceGatewayAccessTokenPayload :=
  ⟨["start-live"], ["live-feed"], "d1", userId⟩

def liveContext (userId : String) : ClientContext := ⟨["start-live"], ["live-feed"], "d1", userId⟩

def startLive (ws : Socket) (requestId : String) : Event DeviceGatewayAccessTokenPayload :=
  .message ws (some (sampleFrame "live-feed" "start-live" requestId)) 0 sampleStamp

def candidate (requestId sessionId : String) : Event DeviceGatewayAccessTokenPayload :=
  .mqtt "trakrai/device/d1/service/live-feed/webrtc/ice"
    (some (.obj [("type", .str "ice-candidate"), ("payload", .obj [("origin", .str "device"),
      ("sessionId", .str sessionId), ("requestId", .str requestId)])]))

def twoViewers (first second : String) : List (Event DeviceGatewayAccessTokenPayload) :=
  [.connection 0 (some (liveToken "u1")) none, .verified 0 (liveToken "u1") none sampleStamp,
   .subscribed 0 (liveContext "u1") false none sampleStamp,
   .connection 1 (some (liveToken "u2")) none,
   .verified 1 (liveToken "u2") none sampleStamp,
   startLive 0 first, candidate first "s", startLive 1 second]

end Trakrai.Gateway
