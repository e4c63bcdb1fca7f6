import Trakrai.Gateway.Handler

namespace Trakrai.Gateway
open List Lib

def Permitted (context : ClientContext) (packet : Packet) : Prop :=
  packet.deviceId = context.deviceId ∧
  match packet.service with
  | some service => service ∈ context.allowedServiceNames ∧
    ((∃ selector, createTransportActionSelector service packet.subtopic
        (envelopeType packet.envelope) = some selector ∧ selector ∈ context.allowedSelectors) ∨
      envelopeType packet.envelope ∈ context.allowedSelectors)
  | none => packet.subtopic = "command" ∧ (envelopeType packet.envelope = "get-status" ∨
      envelopeType packet.envelope ∈ context.allowedSelectors)

def servicesMap (envelope : Json) : List String :=
  match (envelope.field "payload").bind (Json.field "services") with
  | some (.obj services) => services.map Prod.fst
  | _ => []

def Shown (context : ClientContext) (packet : Packet) : Prop :=
  packet.deviceId = context.deviceId ∧
  (∀ service, packet.service = some service → service ∈ context.allowedServiceNames) ∧
  (packet.isStatus → ∀ service ∈ servicesMap packet.envelope, service ∈ context.allowedServiceNames)

/-- The gateway's own error answer to a socket. The service that it names is the one of the frame
that it answers. -/
def Refusal (event : Event Token) (ws : Socket) (context : ClientContext) (packet : Packet) : Prop :=
  ∃ stamp message options, packet = gatewayError stamp context.deviceId message options ∧
    ∀ service, options.service = some service → ∃ data nowMs stamp',
      event = .message ws (some data) nowMs stamp' ∧ readString data "service" = some service

/-- What may be sent on an event, where `entitled` says which tokens the sockets have shown. -/
def Output.Allowed (entitled : Socket → ClientContext → Prop) (event : Event Token) : Output → Prop
  | .publish ws topic sent => ∃ context, entitled ws context ∧ Permitted context sent ∧
    ∃ rest, topic = "trakrai/device/" ++ context.deviceId ++ "/" ++ rest
  | .packet ws sent => ∃ context, entitled ws context ∧
    (Shown context sent ∨ Refusal event ws context sent)
  | .sessionInfo ws deviceId => ∃ context, entitled ws context ∧ deviceId = context.deviceId
  | .close _ _ => True

theorem permitted_of_canClientPublishPacket (hd : packet.deviceId = context.deviceId)
    (h : canClientPublishPacket packet.header context) : Permitted context packet := by
  obtain ⟨deviceId, envelope, service, subtopic⟩ := packet
  refine ⟨hd, ?_⟩
  cases service with
  | some service =>
    have hs : (Packet.header ⟨deviceId, envelope, some service, subtopic⟩).service =
        some service := rfl
    have hc := (canClientPublishPacket_iff hs).1 h
    simp only [Packet.header] at hc
    exact hc
  | none =>
    simp only [canClientPublishPacket, Packet.header, Bool.and_eq_true, Bool.or_eq_true,
      beq_iff_eq, contains_iff_mem] at h
    exact h

theorem servicesMap_sanitize (envelope : Json) (allowed : List String) :
    ∀ service ∈ servicesMap (sanitizeStatusEnvelope envelope allowed), service ∈ allowed := by
  intro service hs
  cases envelope with
  | obj fields =>
    cases hp : fields.lookup "payload" with
    | none => simp [sanitizeStatusEnvelope, servicesMap, Json.field, hp] at hs
    | some payload =>
      cases payload with
      | obj inner =>
        cases hv : inner.lookup "services" with
        | none =>
          simp [sanitizeStatusEnvelope, sanitizeStatusPayload, servicesMap, Json.field, hp, hv,
            lookup_setKey] at hs
        | some value =>
          cases value with
          | obj services =>
            simp only [sanitizeStatusEnvelope, sanitizeStatusPayload, servicesMap, Json.field, hp,
              hv, lookup_setKey, if_true, Option.bind_some, mem_map, mem_filter] at hs
            obtain ⟨entry, ⟨-, ha⟩, rfl⟩ := hs
            exact contains_iff_mem.1 ha
          | _ =>
            simp [sanitizeStatusEnvelope, sanitizeStatusPayload, servicesMap, Json.field, hp, hv,
              lookup_setKey] at hs
      | _ =>
        simp [sanitizeStatusEnvelope, sanitizeStatusPayload, servicesMap, Json.field, hp,
          lookup_setKey] at hs
  | _ => simp [sanitizeStatusEnvelope, servicesMap, Json.field] at hs

theorem shown_of_filter (hd : packet.deviceId = context.deviceId)
    (h : filterPacketForClient packet context = some filtered) : Shown context filtered := by
  simp only [filterPacketForClient] at h
  split at h
  case isTrue => cases h
  case isFalse hs =>
    have hservice : ∀ service, packet.service = some service →
        service ∈ context.allowedServiceNames := by
      intro service he
      simpa [he] using hs
    split at h
    case isTrue =>
      cases h
      exact ⟨hd, hservice, fun _ => servicesMap_sanitize packet.envelope _⟩
    case isFalse hst =>
      cases h
      exact ⟨hd, hservice, fun h => (hst h).elim⟩

structure Vetted (jwt : Jwt Token) (entitled : Socket → ClientContext → Prop)
    (s : Server Token) : Prop where
  client : ∀ entry ∈ s.clients, entitled entry.1 entry.2
  subscribing : ∀ ws context overtaken, s.stages ws = .subscribing context overtaken →
    entitled ws context
  verifying : ∀ ws token requested, s.stages ws = .verifying token requested →
    ∀ context, connect jwt token = some context → entitled ws context
  status : ∀ deviceId packet, s.lastKnownStatuses deviceId = some packet →
    packet.deviceId = deviceId

section
variable {Token : Type} {jwt : Jwt Token} {entitled : Socket → ClientContext → Prop}
  {s : Server Token}

theorem mem_of_client (h : s.client ws = some context) : (ws, context) ∈ s.clients := by
  rw [Server.client, List.lookup_eq_some_iff] at h
  obtain ⟨before, rest, he, -⟩ := h
  rw [he]
  exact mem_append_right _ (mem_cons_self ..)

theorem topicBase_of_device (htrim : jsTrim deviceId = deviceId) (service : Option String)
    (subtopic : String) :
    ∃ rest, topicBase deviceId service ++ "/" ++ subtopic =
      "trakrai/device/" ++ deviceId ++ "/" ++ rest := by
  simp only [topicBase, htrim]
  split
  · have hseg : "/service/" = "/" ++ "service/" := by decide
    refine ⟨"service/" ++ jsTrim (service.getD "") ++ "/" ++ subtopic, ?_⟩
    simp only [hseg, String.append_assoc]
  · exact ⟨subtopic, rfl⟩

theorem Vetted.mono (h : Vetted jwt entitled s)
    (hmono : ∀ ws context, entitled ws context → entitled' ws context) :
    Vetted jwt entitled' s :=
  ⟨fun entry he => hmono _ _ (h.client entry he), fun ws c o hs => hmono _ _ (h.subscribing ws c o hs),
    fun ws t r hs c hc => hmono _ _ (h.verifying ws t r hs c hc), h.status⟩

theorem Vetted.setStage (h : Vetted jwt entitled s)
    (hsub : ∀ context overtaken, stage = .subscribing context overtaken → entitled ws context)
    (hver : ∀ token requested, stage = .verifying token requested →
      ∀ context, connect jwt token = some context → entitled ws context) :
    Vetted jwt entitled (s.setStage ws stage) := by
  refine ⟨h.client, ?_, ?_, h.status⟩
  · intro ws' context overtaken hs
    by_cases hw : ws' = ws
    · subst hw
      exact hsub context overtaken (by simpa [Server.setStage] using hs)
    · exact h.subscribing ws' context overtaken (by simpa [Server.setStage, hw] using hs)
  · intro ws' token requested hs
    by_cases hw : ws' = ws
    · subst hw
      exact hver token requested (by simpa [Server.setStage] using hs)
    · exact h.verifying ws' token requested (by simpa [Server.setStage, hw] using hs)

theorem Vetted.setReadyState (h : Vetted jwt entitled s) (ws : Socket) (state : ReadyState) :
    Vetted jwt entitled (s.setReadyState ws state) :=
  ⟨h.client, h.subscribing, h.verifying, h.status⟩

theorem Vetted.setLimiter (h : Vetted jwt entitled s) (ws : Socket) (limiter : Limiter) :
    Vetted jwt entitled (s.setLimiter ws limiter) :=
  ⟨h.client, h.subscribing, h.verifying, h.status⟩

theorem Vetted.closeSocket (h : Vetted jwt entitled s) (ws : Socket) (reason : String) :
    Vetted jwt entitled (closeSocket s ws reason).1 := by
  unfold Gateway.closeSocket
  split
  · exact h.setReadyState ws .closing
  · exact h

theorem Vetted.cleanupClient (h : Vetted jwt entitled s) (ws : Socket) :
    Vetted jwt entitled (cleanupClient s ws) := by
  obtain ⟨refs, broker, stages, hstages, he⟩ := cleanupClient_eq s ws
  rw [he]
  refine ⟨fun entry hm => h.client entry (mem_filter.1 hm).1, ?_, ?_, h.status⟩
  · intro ws' context overtaken hs
    rcases hstages ws' with hsame | ⟨deviceId, hover⟩
    · exact h.subscribing ws' context overtaken (hsame.symm.trans hs)
    · obtain ⟨overtaken', hs'⟩ := Stage.overtake_eq_subscribing (hover.symm.trans hs)
      exact h.subscribing ws' context overtaken' hs'
  · intro ws' token requested hs
    rcases hstages ws' with hsame | ⟨deviceId, hover⟩
    · exact h.verifying ws' token requested (hsame.symm.trans hs)
    · exact h.verifying ws' token requested
        (Stage.overtake_eq_verifying (hover.symm.trans hs))

theorem Vetted.subscribeClient (h : Vetted jwt entitled s) (hc : entitled ws context)
    (stamp : Stamp) : Vetted jwt entitled (subscribeClient s ws context stamp).1 := by
  have hadded : ∀ refs, Vetted jwt entitled
      { s with clients := s.clients ++ [(ws, context)], subscriptionRefs := refs } := by
    intro refs
    refine ⟨?_, h.subscribing, h.verifying, h.status⟩
    intro entry hm
    rcases mem_append.1 hm with hm | hm
    · exact h.client entry hm
    · rw [mem_singleton.1 hm]
      exact hc
  simp only [Gateway.subscribeClient]
  split
  · rw [welcome_eq]
    exact (hadded _).setStage nofun nofun
  · refine (hadded _).setStage ?_ nofun
    intro context' overtaken he
    cases he
    exact hc

theorem Vetted.message (h : Vetted jwt entitled s) (config : Config) (ws : Socket)
    (data : Option Json) (nowMs : Int) (stamp : Stamp) :
    Vetted jwt entitled (message config s ws data nowMs stamp).1 := by
  obtain ⟨limiter, ⟨reason, -, he⟩ | ⟨requests, crashed, he⟩⟩ :=
    message_state config s ws data nowMs stamp
  · rw [he]
    exact ((h.setLimiter ws limiter).cleanupClient ws).closeSocket ws reason
  · rw [he]
    exact ⟨h.client, h.subscribing, h.verifying, h.status⟩

theorem Vetted.rememberStatus (h : Vetted jwt entitled s) (packet : Packet) :
    Vetted jwt entitled (rememberStatus s packet) := by
  unfold Gateway.rememberStatus
  split
  · refine ⟨h.client, h.subscribing, h.verifying, ?_⟩
    intro deviceId cached hcached
    by_cases hd : deviceId = packet.deviceId
    · subst hd
      rw [← show packet = cached by simpa using hcached]
    · exact h.status deviceId cached (by simpa [hd] using hcached)
  · exact h

theorem Vetted.bindSession (h : Vetted jwt entitled s) (packet : Packet) :
    Vetted jwt entitled (bindSession s packet) := by
  obtain ⟨sessions, he⟩ := bindSession_eq s packet
  rw [he]
  exact ⟨h.client, h.subscribing, h.verifying, h.status⟩

theorem Vetted.mqttMessage (h : Vetted jwt entitled s) (topic : String) (payload : Option Json) :
    Vetted jwt entitled (mqttMessage s topic payload).1 := by
  rw [mqttMessage_eq]
  cases mqttPacket topic payload with
  | none => exact h
  | some packet => exact (h.rememberStatus packet).bindSession packet

theorem allowed_statusRequest (hc : entitled ws context)
    (htrim : jsTrim context.deviceId = context.deviceId) (event : Event Token) (stamp : Stamp) :
    Output.Allowed entitled event (.publish ws (topicBase context.deviceId none ++ "/" ++ "command")
      (statusRequest context.deviceId stamp)) :=
  ⟨context, hc, ⟨rfl, rfl, .inl rfl⟩, topicBase_of_device htrim none "command"⟩

theorem allowed_welcome (hc : entitled ws context)
    (htrim : jsTrim context.deviceId = context.deviceId)
    (hstatus : ∀ deviceId packet, s.lastKnownStatuses deviceId = some packet →
      packet.deviceId = deviceId) (event : Event Token) (stamp : Stamp) :
    ∀ output ∈ (welcome s ws context stamp).2, output.Allowed entitled event := by
  intro output ho
  rw [welcome_eq] at ho
  rcases mem_append.1 ho with ho | ho
  · rcases mem_append.1 ho with ho | ho
    · rw [mem_sendSessionInfo ho]
      exact ⟨context, hc, rfl⟩
    · unfold sendCachedStatus at ho
      split at ho
      case h_1 packet hp =>
        obtain ⟨cached, hcached, hf⟩ := Option.bind_eq_some_iff.1 hp
        rw [(mem_sendPacket ho).1]
        exact ⟨context, hc, .inl (shown_of_filter (hstatus _ _ hcached) hf)⟩
      case h_2 => cases ho
  · rw [mem_singleton.1 ho]
    exact allowed_statusRequest hc htrim event stamp

theorem allowed_closeSocket (event : Event Token) :
    ∀ output ∈ (closeSocket s ws reason).2, output.Allowed entitled event := by
  intro output ho
  unfold closeSocket at ho
  split at ho
  · rw [mem_singleton.1 ho]
    trivial
  · cases ho

theorem service_of_readFrame (h : readFrame value = .packet (some service) subtopic envelope) :
    readString value "service" = some service := by
  simp only [readFrame] at h
  split at h
  · cases h
  · split at h
    · split at h
      · simp only [InboundFrame.packet.injEq] at h
        exact h.1
      · cases h
    · cases h

theorem allowed_message (h : Vetted jwt entitled s)
    (htrim : ∀ ws context, entitled ws context → jsTrim context.deviceId = context.deviceId)
    (config : Config) (ws : Socket) (data : Option Json) (nowMs : Int) (stamp : Stamp) :
    ∀ output ∈ (message config s ws data nowMs stamp).2,
      output.Allowed entitled (.message ws data nowMs stamp : Event Token) := by
  obtain ⟨limiter, ⟨reason, -, he⟩ | ⟨-, he⟩ | ⟨value, context, -, rfl, hclient, he⟩⟩ :=
    message_cases config s ws data nowMs stamp
  · rw [he]
    exact allowed_closeSocket _
  · rw [he]
    exact nofun
  · have hc : entitled ws context := h.client _ (mem_of_client hclient)
    rw [he]
    obtain ⟨message, options, ho, he⟩ | he | he | ⟨service, subtopic, envelope, -, -, hp, he⟩ :=
      handleFrame_cases config (s.setLimiter ws limiter) ws context (readFrame value) stamp
    · rw [he]
      intro output hm
      rw [(mem_sendPacket hm).1]
      refine ⟨context, hc, .inr ⟨stamp, message, options, rfl, ?_⟩⟩
      intro service hs
      obtain ⟨subtopic, envelope, hf⟩ := ho service hs
      exact ⟨value, nowMs, stamp, rfl, service_of_readFrame hf⟩
    · rw [he]
      exact nofun
    · rw [he]
      refine allowed_welcome hc (htrim _ _ hc) ?_ _ stamp
      exact h.status
    · rw [he]
      intro output hm
      unfold publishPacket publishMqtt at hm
      split at hm
      case isFalse => cases hm
      split at hm
      case h_1 topic ht =>
        rw [mem_singleton.1 hm]
        refine ⟨context, hc, permitted_of_canClientPublishPacket rfl hp, ?_⟩
        simp only [buildDeviceTopic] at ht
        split at ht
        · cases ht
        · rw [← Option.some.inj ht]
          exact topicBase_of_device (htrim _ _ hc) service _
      case h_2 => cases hm

theorem allowed_subscribeClient (h : Vetted jwt entitled s) (hc : entitled ws context)
    (htrim : jsTrim context.deviceId = context.deviceId) (event : Event Token) (stamp : Stamp) :
    ∀ output ∈ (subscribeClient s ws context stamp).2, output.Allowed entitled event := by
  simp only [subscribeClient]
  split
  · refine allowed_welcome hc htrim ?_ event stamp
    exact h.status
  · exact nofun

theorem allowed_outputs (h : Vetted jwt entitled s)
    (htrim : ∀ ws context, entitled ws context → jsTrim context.deviceId = context.deviceId)
    (he : Enabled s event) :
    ∀ output ∈ outputs jwt config s event, output.Allowed entitled event := by
  cases event with
  | connection ws token requested =>
    cases token with
    | none => exact allowed_closeSocket _
    | some token => exact nofun
  | verified ws token requested stamp =>
    simp only [outputs, handle, verified]
    split
    · exact allowed_closeSocket _
    case h_2 context hconn =>
      split
      · exact allowed_closeSocket _
      · have hc : entitled ws context := h.verifying ws token requested he.2 context hconn
        exact allowed_subscribeClient h hc (htrim _ _ hc) _ stamp
  | subscribed ws context overtaken error stamp =>
    have hc : entitled ws context := h.subscribing ws context overtaken he.2
    cases error with
    | none =>
      simp only [outputs, handle, subscribed]
      refine allowed_welcome hc (htrim _ _ hc) ?_ _ stamp
      cases overtaken <;> exact h.status
    | some message =>
      intro output ho
      simp only [outputs, handle, subscribed] at ho
      rw [(mem_sendPacket ho).1]
      exact ⟨context, hc, .inr ⟨stamp, message, _, rfl, nofun⟩⟩
  | message ws data nowMs stamp =>
    simp only [outputs, handle]
    split
    · exact allowed_message h htrim config ws data nowMs stamp
    · exact nofun
  | close ws => exact nofun
  | error ws => exact nofun
  | mqtt topic payload =>
    intro output ho
    simp only [outputs, handle, mqttMessage_eq] at ho
    cases hp : mqttPacket topic payload with
    | none =>
      rw [hp] at ho
      cases ho
    | some packet =>
      rw [hp] at ho
      obtain ⟨ws, context, filtered, hmem, hd, -, hf, -, rfl⟩ := mem_deliver ho
      obtain ⟨sessions, hb⟩ := bindSession_eq (rememberStatus s packet) packet
      obtain ⟨statuses, hr⟩ := rememberStatus_eq s packet
      rw [hb, hr] at hmem
      exact ⟨context, h.client _ hmem, .inl (shown_of_filter hd.symm hf)⟩

theorem Vetted.step (h : Vetted jwt entitled s)
    (hnew : ∀ ws token requested context, event = .connection ws (some token) requested →
      connect jwt token = some context → entitled ws context)
    (he : Enabled s event) : Vetted jwt entitled (after jwt config s event) := by
  cases event with
  | connection ws token requested =>
    have hs : Vetted jwt entitled (s.setReadyState ws .open) := h.setReadyState ws .open
    cases token with
    | none => exact (hs.setStage (by nofun) (by nofun)).closeSocket ws _
    | some token =>
      refine hs.setStage nofun ?_
      intro token' requested' htoken context hconn
      cases htoken
      exact hnew ws token requested context rfl hconn
  | verified ws token requested stamp =>
    simp only [after, handle, verified]
    split
    · exact (h.setStage (by nofun) (by nofun)).closeSocket ws _
    case h_2 context hconn =>
      split
      · exact (h.setStage (by nofun) (by nofun)).closeSocket ws _
      · exact h.subscribeClient (h.verifying ws token requested he.2 context hconn) stamp
  | subscribed ws context overtaken error stamp =>
    simp only [after, handle, subscribed]
    split
    · rw [welcome_eq]
      refine Vetted.setStage ?_ nofun nofun
      cases overtaken <;> exact ⟨h.client, h.subscribing, h.verifying, h.status⟩
    · refine Vetted.setStage ?_ nofun nofun
      exact ⟨h.client, h.subscribing, h.verifying, h.status⟩
  | message ws data nowMs stamp =>
    simp only [after, handle]
    split
    · exact h.message config ws data nowMs stamp
    · exact h
  | close ws =>
    have hs : Vetted jwt entitled (s.setReadyState ws .closed) := h.setReadyState ws .closed
    simp only [after, handle]
    split
    · exact hs.cleanupClient ws
    · exact hs
  | error ws =>
    have hs : Vetted jwt entitled (s.setReadyState ws .closing) := h.setReadyState ws .closing
    simp only [after, handle]
    split
    · exact hs.cleanupClient ws
    · exact ⟨hs.client, hs.subscribing, hs.verifying, hs.status⟩
  | mqtt topic payload => exact h.mqttMessage topic payload

end

def TokenOf (jwt : Jwt Token) (tr : List (Server Token × Event Token)) (ws : Socket)
    (context : ClientContext) : Prop :=
  ∃ token requested, (∃ p ∈ tr, p.2 = .connection ws (some token) requested) ∧
    connect jwt token = some context

theorem TokenOf.mono (h : TokenOf jwt tr ws context) (hsub : tr ⊆ tr') :
    TokenOf jwt tr' ws context := by
  obtain ⟨token, requested, ⟨p, hp, he⟩, hc⟩ := h
  exact ⟨token, requested, ⟨p, hsub hp, he⟩, hc⟩

theorem Output.Allowed.mono (h : Output.Allowed entitled event output)
    (hmono : ∀ ws context, entitled ws context → entitled' ws context) :
    Output.Allowed entitled' event output := by
  cases output with
  | publish ws topic packet | packet ws packet | sessionInfo ws deviceId =>
    obtain ⟨context, hc, h⟩ := h
    exact ⟨context, hmono _ _ hc, h⟩
  | close ws reason => trivial

theorem jsTrim_deviceId_of_connect (h : connect jwt token = some context) :
    jsTrim context.deviceId = context.deviceId := by
  obtain ⟨payload, hp, rfl⟩ := Option.map_eq_some_iff.1 h
  unfold verifyDeviceGatewayAccessToken at hp
  split at hp
  · cases hp
  · simp only at hp
    split at hp
    · cases hp
    · cases hp
      exact jsTrim_idem _

/-- In every run, what is published on behalf of a client is permitted by its token and goes to a
topic of its device, and what is sent to a client may be shown to it or is the gateway's own
refusal of its frame. -/
theorem outputs_allowed {jwt : Jwt Token} (h : (system jwt config).Run .initial tr s) :
    ∀ p ∈ tr, ∀ output ∈ outputs jwt config p.1 p.2, output.Allowed (TokenOf jwt tr) p.2 := by
  have hinit : Vetted jwt (TokenOf jwt []) (Server.initial : Server Token) :=
    ⟨nofun, nofun, nofun, nofun⟩
  refine (h.trace_invariant (I := fun tr s => Vetted jwt (TokenOf jwt tr) s ∧
    ∀ p ∈ tr, ∀ output ∈ outputs jwt config p.1 p.2, output.Allowed (TokenOf jwt tr) p.2) ?_
    ⟨hinit, forall_mem_nil _⟩).2
  rintro tr s event t ⟨hv, ho⟩ ⟨he, rfl⟩
  have hsub : ∀ ws context, TokenOf jwt tr ws context →
      TokenOf jwt (tr ++ [(s, event)]) ws context :=
    fun ws context hc => hc.mono (subset_append_left _ _)
  have hv' : Vetted jwt (TokenOf jwt (tr ++ [(s, event)])) s := hv.mono hsub
  refine ⟨hv'.step ?_ he, ?_⟩
  · rintro ws token requested context rfl hc
    exact ⟨token, requested, ⟨_, mem_append_right _ (mem_singleton_self _), rfl⟩, hc⟩
  · intro p hp output hm
    rcases mem_append.1 hp with hp | hp
    · exact (ho p hp output hm).mono hsub
    · rw [mem_singleton.1 hp] at hm ⊢
      refine allowed_outputs hv' ?_ he output hm
      rintro ws context ⟨token, requested, -, hc⟩
      exact jsTrim_deviceId_of_connect hc

def sampleConfig : Config := ⟨"default", ⟨40, 120, 5000⟩, fun _ => true⟩

def sampleStamp : Stamp := ⟨"m", "2026-01-01T00:00:00.000Z"⟩

def sampleToken (deviceId userId : String) : DeviceGatewayAccessTokenPayload :=
  ⟨["get-frame"], ["camera"], deviceId, userId⟩

def sampleContext (deviceId userId : String) : ClientContext :=
  ⟨["get-frame"], ["camera"], deviceId, userId⟩

def sampleFrame (service type requestId : String) : Json :=
  .obj [("kind", .str "packet"), ("service", .str service), ("subtopic", .str "command"),
    ("envelope", .obj [("type", .str type), ("payload", .obj [("requestId", .str requestId)])])]

def joinFirst (ws : Socket) (deviceId userId : String) :
    List (Event DeviceGatewayAccessTokenPayload) :=
  [.connection ws (some (sampleToken deviceId userId)) none,
   .verified ws (sampleToken deviceId userId) none sampleStamp,
   .subscribed ws (sampleContext deviceId userId) false none sampleStamp]

def sampleRun : List (Event DeviceGatewayAccessTokenPayload) :=
  joinFirst 0 "d1" "u1" ++ [.message 0 (some (sampleFrame "camera" "get-frame" "r1")) 0 sampleStamp,
    .message 0 (some (sampleFrame "audio" "get-level" "r2")) 1 sampleStamp]

def sampled (events : List (Event DeviceGatewayAccessTokenPayload)) :=
  replay (after plainJwt sampleConfig) .initial events

theorem sampled_run (h : ∀ p ∈ (sampled events).1, Enabled p.1 p.2) :
    (system plainJwt sampleConfig).Run .initial (sampled events).1 (sampled events).2 :=
  System.run_replay events h

theorem sampleRun_enabled : ∀ p ∈ (sampled sampleRun).1, Enabled p.1 p.2 := by
  simp only [sampled, sampleRun, joinFirst, cons_append, nil_append, replay, forall_mem_cons,
    not_mem_nil, false_imp_iff, implies_true, and_true]
  exact ⟨⟨rfl, rfl⟩, ⟨rfl, rfl⟩, ⟨rfl, rfl⟩, ⟨rfl, .inl rfl⟩, ⟨rfl, .inl rfl⟩⟩

def servicesSent (ws : Socket) (outputs : List Output) : List String :=
  outputs.filterMap fun
    | .packet ws' packet => if ws' = ws then packet.service else none
    | _ => none

def topicsPublished (outputs : List Output) : List String :=
  outputs.filterMap fun
    | .publish _ topic _ => some topic
    | _ => none

theorem outputs_allowed_sampleRun : ∃ tr s, (system plainJwt sampleConfig).Run .initial tr s ∧
      (tr.flatMap fun p => topicsPublished (outputs plainJwt sampleConfig p.1 p.2)) =
        ["trakrai/device/d1/command", "trakrai/device/d1/service/camera/command"] ∧
      ∀ p ∈ tr, ∀ output ∈ outputs plainJwt sampleConfig p.1 p.2,
        output.Allowed (TokenOf plainJwt tr) p.2 := by
  have hrun := sampled_run sampleRun_enabled
  exact ⟨_, _, hrun, by decide +kernel, outputs_allowed hrun⟩

/-- The refusal of a frame is a packet of a service that the token does not allow. -/
theorem refusal_names_service : ∃ tr s, (system plainJwt sampleConfig).Run .initial tr s ∧
      (tr.flatMap fun p => servicesSent 0 (outputs plainJwt sampleConfig p.1 p.2)) = ["audio"] ∧
      ∀ context, TokenOf plainJwt tr 0 context → "audio" ∉ context.allowedServiceNames := by
  refine ⟨_, _, System.run_replay sampleRun sampleRun_enabled, by decide +kernel, ?_⟩
  rintro context ⟨token, requested, ⟨p, hp, he⟩, hc⟩
  simp only [sampleRun, joinFirst, cons_append, nil_append, replay, mem_cons,
    not_mem_nil, or_false] at hp
  obtain rfl | rfl | rfl | rfl | rfl := hp
  · cases he
    obtain rfl : sampleContext "d1" "u1" = context := Option.some.inj hc
    decide
  all_goals cases he

end Trakrai.Gateway
