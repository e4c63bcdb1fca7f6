import Trakrai.Gateway.Packets
import Trakrai.Lib.Ownership
import Trakrai.Lib.Transition

namespace Trakrai.Gateway
open Function Lib

abbrev Socket := Nat

inductive ReadyState where
  /-- Not connected yet. -/
  | absent
  | open
  | closing
  | closed
deriving DecidableEq

/-- How far the connection handler of a socket is. -/
inductive Stage (Token : Type) where
  | absent
  /-- The token is being verified. -/
  | verifying (token : Token) (requestedDeviceId : Option String)
  /-- The broker has been asked to subscribe; `overtaken` if it has been asked to unsubscribe
  since. -/
  | subscribing (context : ClientContext) (overtaken : Bool)
  /-- The handlers of messages, close and error are attached; whether the subscription
  succeeded. -/
  | attached (succeeded : Bool)
  /-- The connection was refused. -/
  | refused

structure Server (Token : Type) where
  clients : List (Socket × ClientContext)
  /-- `requestOwners` and `clientRequests`. -/
  requests : Routes String Socket
  /-- `sessionOwners` and `clientSessions`. -/
  sessions : Routes String Socket
  lastKnownStatuses : String → Option Packet
  inboundRateLimits : Socket → Limiter
  subscriptionRefs : String → Option Nat
  /-- The devices to which the broker has a subscription of the gateway. -/
  broker : String → Bool
  stages : Socket → Stage Token
  readyStates : Socket → ReadyState
  /-- An exception was not caught. -/
  crashed : Bool

structure Config where
  defaultDeviceId : String
  rateLimit : GatewayWebSocketRateLimit
  /-- Whether `JSON.stringify` writes a value. It throws where the stack has no room for the nesting. -/
  stringifies : Json → Bool

inductive Output where
  | packet (ws : Socket) (packet : Packet)
  | sessionInfo (ws : Socket) (deviceId : String)
  | publish (ws : Socket) (topic : String) (packet : Packet)
  | close (ws : Socket) (reason : String)

section
variable {Token : Type}

def Server.initial : Server Token where
  clients := []
  requests := .empty
  sessions := .empty
  lastKnownStatuses _ := none
  inboundRateLimits _ := .empty
  subscriptionRefs _ := none
  broker _ := false
  stages _ := .absent
  readyStates _ := .absent
  crashed := false

section
variable (s : Server Token)

section
variable (ws : Socket)

def Server.client : Option ClientContext := s.clients.lookup ws

def Server.setStage (stage : Stage Token) : Server Token :=
  { s with stages := update s.stages ws stage }

def Server.setReadyState (state : ReadyState) : Server Token :=
  { s with readyStates := update s.readyStates ws state }

def Server.setLimiter (limiter : Limiter) : Server Token :=
  { s with inboundRateLimits := update s.inboundRateLimits ws limiter }

def sendPacket (packet : Packet) : List Output :=
  if s.readyStates ws = .open then [.packet ws packet] else []

def sendSessionInfo (deviceId : String) : List Output :=
  if s.readyStates ws = .open then [.sessionInfo ws deviceId] else []

/-- `ws.close(1008, reason)`. -/
def closeSocket (reason : String) : Server Token × List Output :=
  if s.readyStates ws = .open then (s.setReadyState ws .closing, [.close ws reason]) else (s, [])

end

/-- The stage of a subscription to a device that the broker is asked to end. -/
def Stage.overtake (deviceId : String) : Stage Token → Stage Token
  | .subscribing context overtaken =>
    .subscribing context (overtaken || context.deviceId == deviceId)
  | stage => stage

def unsubscribeFromDevice (deviceId : String) : Server Token :=
  match s.subscriptionRefs deviceId with
  | none => s
  | some count =>
    if 1 < count then
      { s with subscriptionRefs := update s.subscriptionRefs deviceId (some (count - 1)) }
    else
      { s with
        subscriptionRefs := update s.subscriptionRefs deviceId none
        broker := update s.broker deviceId false
        stages := fun ws => (s.stages ws).overtake deviceId }

section
variable (ws : Socket)

def clearClientRoutes : Server Token :=
  { s with requests := s.requests.release ws, sessions := s.sessions.release ws }

def cleanupClient : Server Token :=
  let s := match s.client ws with
    | some context => unsubscribeFromDevice s context.deviceId
    | none => s
  let s := clearClientRoutes s ws
  { s with
    clients := s.clients.filter (·.1 != ws)
    inboundRateLimits := update s.inboundRateLimits ws .empty }

def closeForRateLimit (reason : String) : Server Token × List Output :=
  closeSocket (cleanupClient s ws) ws reason

/-- `publishMqtt` on behalf of a socket; without a topic it throws. -/
def publishMqtt (packet : Packet) : Server Token × List Output :=
  match buildDeviceTopic packet.deviceId packet.subtopic packet.service with
  | some topic => (s, [.publish ws topic packet])
  | none => ({ s with crashed := true }, [])

/-- What the handler of messages publishes. The envelope is written first, and nothing catches an exception. -/
def publishPacket (config : Config) (s : Server Token) (ws : Socket) (packet : Packet) :
    Server Token × List Output :=
  if config.stringifies packet.envelope then publishMqtt s ws packet
  else ({ s with crashed := true }, [])

def requestDeviceStatus (deviceId : String) (stamp : Stamp) :
    Server Token × List Output :=
  publishMqtt s ws ⟨deviceId, buildEnvelope stamp "get-status" (.obj []) none none, none, "command"⟩

def sendCachedStatus (context : ClientContext) : List Output :=
  match (s.lastKnownStatuses context.deviceId).bind (filterPacketForClient · context) with
  | some packet => sendPacket s ws packet
  | none => []

/-- What follows a subscription in the connection handler, and `syncClientDevice`. -/
def welcome (context : ClientContext) (stamp : Stamp) : Server Token × List Output :=
  let (s, published) := requestDeviceStatus s ws context.deviceId stamp
  (s, sendSessionInfo s ws context.deviceId ++ sendCachedStatus s ws context ++ published)

def registerRequestOwner (requestId : Option String) : Server Token :=
  match requestId with
  | some requestId => { s with requests := s.requests.claim ws requestId }
  | none => s

/-- The sockets to which a packet is to go, if they are known, and the session that is bound. -/
def packetTargets (packet : Packet) : Server Token × Option Socket :=
  let ids := readRoutingIds packet.envelope
  match ids.requestId.bind s.requests.owner with
  | some owner =>
    match ids.sessionId with
    | some sessionId => ({ s with sessions := s.sessions.claim owner sessionId }, some owner)
    | none => (s, some owner)
  | none => (s, ids.sessionId.bind s.sessions.owner)

def clientOwnsSession (sessionId : Option String) : Bool :=
  match sessionId.bind s.sessions.owner with
  | none => true
  | some owner => owner == ws

def connection (token : Option Token)
    (requestedDeviceId : Option String) : Server Token × List Output :=
  let s := s.setReadyState ws .open
  match token with
  | none => closeSocket (s.setStage ws .refused) ws "missing gateway access token"
  | some token => (s.setStage ws (.verifying token requestedDeviceId), [])

/-- `clients.set(ws, context)` and `subscribeToDevice`, which resolves at once if the device is
subscribed to already. -/
def subscribeClient (context : ClientContext) (stamp : Stamp) :
    Server Token × List Output :=
  let count := (s.subscriptionRefs context.deviceId).getD 0 + 1
  let s := { s with
    clients := s.clients ++ [(ws, context)]
    subscriptionRefs := update s.subscriptionRefs context.deviceId (some count) }
  if 1 < count then welcome (s.setStage ws (.attached true)) ws context stamp
  else (s.setStage ws (.subscribing context false), [])

def verified (jwt : Jwt Token) (s : Server Token) (ws : Socket) (token : Token)
    (requestedDeviceId : Option String) (stamp : Stamp) : Server Token × List Output :=
  match connect jwt token with
  | none => closeSocket (s.setStage ws .refused) ws "invalid gateway access token"
  | some context =>
    if requestedDeviceId.any (· != context.deviceId) then
      closeSocket (s.setStage ws .refused) ws "device mismatch"
    else subscribeClient s ws context stamp

def subscribed (context : ClientContext) (overtaken : Bool)
    (error : Option String) (stamp : Stamp) : Server Token × List Output :=
  match error with
  | none =>
    let s := if overtaken then s
      else { s with broker := update s.broker context.deviceId true }
    welcome (s.setStage ws (.attached true)) ws context stamp
  | some message =>
    let s := { s with
      subscriptionRefs := update s.subscriptionRefs context.deviceId none }
    (s.setStage ws (.attached false), sendPacket s ws
      (gatewayError stamp context.deviceId message { requestType := some "set-device" }))

end

/-- The message handler on a frame that is within the limits. -/
def handleFrame (config : Config) (s : Server Token) (ws : Socket) (context : ClientContext)
    (frame : InboundFrame) (stamp : Stamp) : Server Token × List Output :=
  match frame with
  | .setDevice deviceId =>
    if deviceId.getD config.defaultDeviceId ≠ context.deviceId then
      (s, sendPacket s ws (gatewayError stamp context.deviceId
        "Device switching is not allowed for this session." { requestType := some "set-device" }))
    else welcome s ws context stamp
  | .invalid =>
    (s, sendPacket s ws (gatewayError stamp context.deviceId "invalid transport packet frame" {}))
  | .packet service subtopic envelope =>
    if !clientOwnsSession s ws (readRoutingIds envelope).sessionId then (s, [])
    else
      let packet : Packet :=
        ⟨context.deviceId, normalizeIncomingEnvelope stamp envelope, service, subtopic⟩
      if !canClientPublishPacket packet.header context then
        (s, sendPacket s ws (gatewayError stamp context.deviceId
          "You do not have permission to publish this device app action." {
            requestType := some (envelopeType packet.envelope)
            service := packet.service
            subtopic := some packet.subtopic }))
      else
        publishPacket config (registerRequestOwner s ws (readRoutingIds packet.envelope).requestId)
          ws packet

def message (config : Config) (s : Server Token) (ws : Socket) (data : Option Json) (nowMs : Int)
    (stamp : Stamp) : Server Token × List Output :=
  let (limiter, violation) := recordInboundMessage (s.inboundRateLimits ws) nowMs config.rateLimit
  let s := s.setLimiter ws limiter
  match violation, data, s.client ws with
  | some reason, _, _ => closeForRateLimit s ws reason
  | none, none, _ => (s, [])
  | none, some _, none => (s, [])
  | none, some data, some context =>
    let frame := readFrame data
    if inboundMessageCountsAsCommand frame then
      let (limiter, violation) := recordInboundCommand limiter nowMs config.rateLimit
      let s := s.setLimiter ws limiter
      match violation with
      | some reason => closeForRateLimit s ws reason
      | none => handleFrame config s ws context frame stamp
    else handleFrame config s ws context frame stamp

def deliver (packet : Packet) (target : Option Socket) : List Output :=
  s.clients.flatMap fun (ws, context) =>
    if context.deviceId ≠ packet.deviceId || target.any (· != ws) then []
    else
      match filterPacketForClient packet context with
      | some filtered => sendPacket s ws filtered
      | none => []

def rememberStatus (packet : Packet) : Server Token :=
  if packet.isStatus then
    { s with
      lastKnownStatuses := update s.lastKnownStatuses packet.deviceId (some packet) }
  else s

/-- The handler of MQTT messages; a payload that is no JSON text is none. -/
def mqttMessage (topic : String) (payload : Option Json) : Server Token × List Output :=
  match parseDeviceTopic topic, payload with
  | some parsed, some payload =>
    if !isTransportEnvelope payload ||
        parsed.subtopic == "webrtc/ice" && readEnvelopeField payload "origin" == some "browser" then
      (s, [])
    else
      let packet : Packet := ⟨parsed.deviceId, payload, parsed.service, parsed.subtopic⟩
      let (s, target) := packetTargets (rememberStatus s packet) packet
      (s, deliver s packet target)
  | _, _ => (s, [])

end

end

inductive Event (Token : Type) where
  | connection (ws : Socket) (token : Option Token) (requestedDeviceId : Option String)
  | verified (ws : Socket) (token : Token) (requestedDeviceId : Option String) (stamp : Stamp)
  | subscribed (ws : Socket) (context : ClientContext) (overtaken : Bool) (error : Option String)
    (stamp : Stamp)
  | message (ws : Socket) (data : Option Json) (nowMs : Int) (stamp : Stamp)
  | close (ws : Socket)
  | error (ws : Socket)
  | mqtt (topic : String) (payload : Option Json)

section
variable {Token : Type}

section
variable (s : Server Token)

def Server.live (ws : Socket) : Prop :=
  s.readyStates ws = .open ∨ s.readyStates ws = .closing

def Server.isAttached (ws : Socket) : Bool :=
  match s.stages ws with
  | .attached _ => true
  | _ => false

@[simp] theorem isAttached_setReadyState (ws ws' : Socket) (state : ReadyState) :
    (s.setReadyState ws state).isAttached ws' = s.isAttached ws' := rfl

def Enabled (event : Event Token) : Prop :=
  s.crashed = false ∧
  match event with
  | .connection ws _ _ => s.readyStates ws = .absent
  | .verified ws token requestedDeviceId _ => s.stages ws = .verifying token requestedDeviceId
  | .subscribed ws context overtaken _ _ => s.stages ws = .subscribing context overtaken
  | .message ws _ _ _ => s.live ws
  | .close ws => s.live ws
  | .error ws => s.live ws
  | .mqtt _ _ => True

/-- The gateway after an event, and what it sends. Events of a socket without handlers are lost,
and an error without a handler is not caught. -/
def handle (jwt : Jwt Token) (config : Config) (s : Server Token) :
    Event Token → Server Token × List Output
  | .connection ws token requestedDeviceId => connection s ws token requestedDeviceId
  | .verified ws token requestedDeviceId stamp => verified jwt s ws token requestedDeviceId stamp
  | .subscribed ws context overtaken error stamp => subscribed s ws context overtaken error stamp
  | .message ws data nowMs stamp =>
    if s.isAttached ws then message config s ws data nowMs stamp else (s, [])
  | .close ws =>
    let s := s.setReadyState ws .closed
    (if s.isAttached ws then cleanupClient s ws else s, [])
  | .error ws =>
    let s := s.setReadyState ws .closing
    (if s.isAttached ws then cleanupClient s ws else { s with crashed := true }, [])
  | .mqtt topic payload => mqttMessage s topic payload

def after (jwt : Jwt Token) (config : Config) (s : Server Token) (event : Event Token) :
    Server Token :=
  (handle jwt config s event).1

def outputs (jwt : Jwt Token) (config : Config) (s : Server Token) (event : Event Token) :
    List Output :=
  (handle jwt config s event).2

def system (jwt : Jwt Token) (config : Config) : System (Server Token) (Event Token) :=
  .guarded (· = .initial) Enabled (after jwt config)

theorem unsubscribeFromDevice_eq (deviceId : String) :
    ∃ refs broker, unsubscribeFromDevice s deviceId =
      { s with subscriptionRefs := refs, broker := broker } ∨
    unsubscribeFromDevice s deviceId = { s with
        subscriptionRefs := refs
        broker := broker
        stages := fun ws => (s.stages ws).overtake deviceId } := by
  unfold unsubscribeFromDevice
  split
  · exact ⟨_, _, .inl rfl⟩
  · split
    · exact ⟨_, _, .inl rfl⟩
    · exact ⟨_, _, .inr rfl⟩

theorem cleanupClient_eq (ws : Socket) : ∃ refs broker stages, (∀ ws', stages ws' = s.stages ws' ∨
        ∃ deviceId, stages ws' = (s.stages ws').overtake deviceId) ∧
      cleanupClient s ws = { s with
        clients := s.clients.filter (·.1 != ws)
        requests := s.requests.release ws
        sessions := s.sessions.release ws
        inboundRateLimits := update s.inboundRateLimits ws .empty
        subscriptionRefs := refs
        broker := broker
        stages := stages } := by
  unfold cleanupClient
  cases s.client ws with
  | none => exact ⟨_, _, _, fun _ => .inl rfl, rfl⟩
  | some context =>
    obtain ⟨refs, broker, he | he⟩ := unsubscribeFromDevice_eq s context.deviceId
    · exact ⟨refs, broker, s.stages, fun _ => .inl rfl, by simp only [he]; rfl⟩
    · exact ⟨refs, broker, _, fun _ => .inr ⟨context.deviceId, rfl⟩, by simp only [he]; rfl⟩

theorem cleanupClient_states (ws : Socket) : (cleanupClient s ws).readyStates = s.readyStates := by
  obtain ⟨_, _, _, -, he⟩ := cleanupClient_eq s ws
  rw [he]

theorem Stage.overtake_eq_subscribing {stage : Stage Token}
    (h : stage.overtake deviceId = .subscribing context overtaken) :
    ∃ overtaken', stage = .subscribing context overtaken' := by
  cases stage with
  | subscribing context' overtaken' =>
    simp only [Stage.overtake, Stage.subscribing.injEq] at h
    exact ⟨overtaken', by rw [h.1]⟩
  | _ => cases h

theorem Stage.overtake_eq_verifying {stage : Stage Token}
    (h : stage.overtake deviceId = .verifying token requested) :
    stage = .verifying token requested := by
  cases stage with
  | subscribing context' overtaken' => cases h
  | _ => exact h

theorem buildDeviceTopic_command (deviceId : String) :
    buildDeviceTopic deviceId "command" none = some (topicBase deviceId none ++ "/" ++ "command") := by
  have hsub : normalizeTopicSubtopic "command" = "command" := by decide
  have hne : "command" ≠ "" := by decide
  simp only [buildDeviceTopic, hsub, if_neg hne]

def statusRequest (deviceId : String) (stamp : Stamp) : Packet :=
  ⟨deviceId, buildEnvelope stamp "get-status" (.obj []) none none, none, "command"⟩

theorem requestDeviceStatus_eq (ws : Socket) (deviceId : String)
    (stamp : Stamp) :
    requestDeviceStatus s ws deviceId stamp = (s, [.publish ws
      (topicBase deviceId none ++ "/" ++ "command") (statusRequest deviceId stamp)]) := by
  simp only [requestDeviceStatus, publishMqtt, buildDeviceTopic_command, statusRequest]

theorem welcome_eq (ws : Socket) (context : ClientContext) (stamp : Stamp) :
    welcome s ws context stamp =
      (s, sendSessionInfo s ws context.deviceId ++ sendCachedStatus s ws context ++
        [.publish ws (topicBase context.deviceId none ++ "/" ++ "command")
          (statusRequest context.deviceId stamp)]) := by
  simp only [welcome, requestDeviceStatus_eq]

section
variable (packet : Packet)

def boundSession : Option (Socket × String) :=
  let ids := readRoutingIds packet.envelope
  (ids.requestId.bind s.requests.owner).bind fun owner => ids.sessionId.map fun id => (owner, id)

def packetTarget : Option Socket :=
  let ids := readRoutingIds packet.envelope
  (ids.requestId.bind s.requests.owner).or (ids.sessionId.bind s.sessions.owner)

def bindSession : Server Token :=
  match boundSession s packet with
  | some (owner, sessionId) => { s with sessions := s.sessions.claim owner sessionId }
  | none => s

theorem packetTargets_eq :
    packetTargets s packet = (bindSession s packet, packetTarget s packet) := by
  simp only [packetTargets, bindSession, boundSession, packetTarget]
  cases (readRoutingIds packet.envelope).requestId.bind s.requests.owner with
  | none => rfl
  | some owner => cases (readRoutingIds packet.envelope).sessionId <;> rfl

theorem rememberStatus_eq :
    ∃ statuses, rememberStatus s packet = { s with lastKnownStatuses := statuses } := by
  unfold rememberStatus
  split <;> exact ⟨_, rfl⟩

end

def mqttPacket (topic : String) (payload : Option Json) : Option Packet :=
  match parseDeviceTopic topic, payload with
  | some parsed, some payload =>
    if !isTransportEnvelope payload ||
        parsed.subtopic == "webrtc/ice" && readEnvelopeField payload "origin" == some "browser" then
      none
    else some ⟨parsed.deviceId, payload, parsed.service, parsed.subtopic⟩
  | _, _ => none

theorem mqttMessage_eq (topic : String) (payload : Option Json) : mqttMessage s topic payload =
      match mqttPacket topic payload with
      | none => (s, [])
      | some packet => (bindSession (rememberStatus s packet) packet,
        deliver (bindSession (rememberStatus s packet) packet) packet
          (packetTarget (rememberStatus s packet) packet)) := by
  simp only [mqttMessage, mqttPacket, packetTargets_eq]
  split
  · split <;> rfl
  · rfl

theorem bindSession_eq (packet : Packet) :
    ∃ sessions, bindSession s packet = { s with sessions := sessions } := by
  unfold bindSession
  split <;> exact ⟨_, rfl⟩

end

theorem mem_sendPacket (h : output ∈ sendPacket s ws packet) :
    output = .packet ws packet ∧ s.readyStates ws = .open := by
  unfold sendPacket at h
  split at h
  · exact ⟨List.mem_singleton.1 h, by assumption⟩
  · cases h

theorem mem_sendSessionInfo (h : output ∈ sendSessionInfo s ws deviceId) :
    output = .sessionInfo ws deviceId := by
  unfold sendSessionInfo at h
  split at h
  · exact List.mem_singleton.1 h
  · cases h

theorem mem_deliver (h : output ∈ deliver s packet target) :
    ∃ ws context filtered, (ws, context) ∈ s.clients ∧ context.deviceId = packet.deviceId ∧
      (∀ ws', target = some ws' → ws' = ws) ∧
      filterPacketForClient packet context = some filtered ∧ s.readyStates ws = .open ∧
      output = .packet ws filtered := by
  obtain ⟨⟨ws, context⟩, hmem, ho⟩ := List.mem_flatMap.1 h
  simp only at ho
  split at ho
  case isTrue => cases ho
  case isFalse hd =>
    simp only [ne_eq, decide_not, Bool.or_eq_true, Bool.not_eq_true', decide_eq_false_iff_not,
      not_or, not_not, Option.any_eq_true, bne_iff_ne, not_exists, not_and] at hd
    split at ho
    case h_1 filtered hf =>
      obtain ⟨rfl, hopen⟩ := mem_sendPacket ho
      exact ⟨ws, context, filtered, hmem, hd.1, hd.2, hf, hopen, rfl⟩
    case h_2 => cases ho

section
variable (config : Config)

section
variable (s : Server Token)

def breaksLimit (ws : Socket) (data : Option Json) (nowMs : Int) : Bool :=
  let (limiter, violation) := recordInboundMessage (s.inboundRateLimits ws) nowMs config.rateLimit
  violation.isSome ||
    (s.client ws).isSome && data.any (inboundMessageCountsAsCommand ∘ readFrame) &&
      (recordInboundCommand limiter nowMs config.rateLimit).2.isSome

/-- The socket for which an event runs `cleanupClient`. -/
def leaving : Event Token → Option Socket
  | .close ws => if s.isAttached ws then some ws else none
  | .error ws => if s.isAttached ws then some ws else none
  | .message ws data nowMs _ =>
    if s.isAttached ws && breaksLimit config s ws data nowMs then some ws else none
  | _ => none

theorem message_cases (ws : Socket) (data : Option Json)
    (nowMs : Int) (stamp : Stamp) :
    ∃ limiter, (∃ reason, breaksLimit config s ws data nowMs = true ∧
        message config s ws data nowMs stamp =
          closeForRateLimit (s.setLimiter ws limiter) ws reason) ∨
      (breaksLimit config s ws data nowMs = false ∧
        message config s ws data nowMs stamp = (s.setLimiter ws limiter, [])) ∨
      ∃ value context, breaksLimit config s ws data nowMs = false ∧ data = some value ∧
        s.client ws = some context ∧
        message config s ws data nowMs stamp =
          handleFrame config (s.setLimiter ws limiter) ws context (readFrame value) stamp := by
  have hclient : ∀ limiter, (s.setLimiter ws limiter).client ws = s.client ws := fun _ => rfl
  have hlimiter : ∀ limiter limiter',
      (s.setLimiter ws limiter).setLimiter ws limiter' = s.setLimiter ws limiter' := by
    intro limiter limiter'
    simp [Server.setLimiter]
  simp only [message, hclient, breaksLimit]
  split
  case h_1 _ _ reason hv => exact ⟨_, .inl ⟨reason, by simp [hv], rfl⟩⟩
  case h_2 hv => exact ⟨_, .inr (.inl ⟨by simp [hv], rfl⟩)⟩
  case h_3 hv hc => exact ⟨_, .inr (.inl ⟨by simp [hv, hc], rfl⟩)⟩
  case h_4 _ value context hv hc =>
    split
    case isTrue hcommand =>
      rw [hlimiter]
      split
      case h_1 reason hcv => exact ⟨_, .inl ⟨reason, by simp [hv, hc, hcommand, hcv], rfl⟩⟩
      case h_2 hcv =>
        exact ⟨_, .inr (.inr ⟨value, context, by simp [hv, hcv], rfl, hc, rfl⟩)⟩
    case isFalse hcommand =>
      exact ⟨_, .inr (.inr ⟨value, context, by simp [hv, hcommand], rfl, hc, rfl⟩)⟩

theorem publishPacket_eq (ws : Socket) (packet : Packet) :
    publishPacket config s ws packet = publishMqtt s ws packet ∨
      publishPacket config s ws packet = ({ s with crashed := true }, []) := by
  rw [publishPacket]
  split
  · exact .inl rfl
  · exact .inr rfl

theorem publishPacket_state (ws : Socket) (packet : Packet) :
    ∃ crashed, (publishPacket config s ws packet).1 = { s with crashed := crashed } := by
  obtain he | he := publishPacket_eq config s ws packet
  · rw [he, publishMqtt]
    split
    all_goals exact ⟨_, rfl⟩
  · exact ⟨true, by rw [he]⟩

/-- A frame is answered with an error, ignored, answered with the state of the device, or
published. -/
theorem handleFrame_cases (ws : Socket)
    (context : ClientContext) (frame : InboundFrame) (stamp : Stamp) :
    (∃ message options, (∀ service, options.service = some service →
        ∃ subtopic envelope, frame = .packet (some service) subtopic envelope) ∧
      handleFrame config s ws context frame stamp =
        (s, sendPacket s ws (gatewayError stamp context.deviceId message options))) ∨
    handleFrame config s ws context frame stamp = (s, []) ∨
    handleFrame config s ws context frame stamp = welcome s ws context stamp ∨
    ∃ service subtopic envelope, frame = .packet service subtopic envelope ∧
      clientOwnsSession s ws (readRoutingIds envelope).sessionId ∧
      canClientPublishPacket (Packet.header ⟨context.deviceId,
        normalizeIncomingEnvelope stamp envelope, service, subtopic⟩) context ∧
      handleFrame config s ws context frame stamp = publishPacket config (registerRequestOwner s ws
          (readRoutingIds (normalizeIncomingEnvelope stamp envelope)).requestId) ws
          ⟨context.deviceId, normalizeIncomingEnvelope stamp envelope, service, subtopic⟩ := by
  cases frame with
  | setDevice deviceId =>
    simp only [handleFrame]
    split
    · exact .inl ⟨_, { requestType := some "set-device" }, nofun, rfl⟩
    · exact .inr (.inr (.inl rfl))
  | invalid => exact .inl ⟨_, {}, nofun, rfl⟩
  | packet service subtopic envelope =>
    simp only [handleFrame]
    split
    case isTrue => exact .inr (.inl rfl)
    case isFalse hs =>
      split
      case isTrue =>
        refine .inl ⟨_, _, ?_, rfl⟩
        rintro service' rfl
        exact ⟨subtopic, envelope, rfl⟩
      case isFalse hp =>
        exact .inr (.inr (.inr ⟨service, subtopic, envelope, rfl, by simpa using hs,
          by simpa using hp, rfl⟩))

theorem message_state (ws : Socket) (data : Option Json)
    (nowMs : Int) (stamp : Stamp) :
    ∃ limiter, (∃ reason, breaksLimit config s ws data nowMs = true ∧
        message config s ws data nowMs stamp =
          closeForRateLimit (s.setLimiter ws limiter) ws reason) ∨
      ∃ requests crashed, (message config s ws data nowMs stamp).1 =
        { s.setLimiter ws limiter with requests := requests, crashed := crashed } := by
  obtain ⟨limiter, hbreaks | ⟨-, he⟩ | ⟨value, context, -, -, -, he⟩⟩ :=
    message_cases config s ws data nowMs stamp
  · exact ⟨limiter, .inl hbreaks⟩
  · exact ⟨limiter, .inr ⟨s.requests, s.crashed, by rw [he]; rfl⟩⟩
  · refine ⟨limiter, .inr ?_⟩
    obtain ⟨_, _, -, hf⟩ | hf | hf | ⟨service, subtopic, envelope, -, -, -, hf⟩ :=
      handleFrame_cases config (s.setLimiter ws limiter) ws context (readFrame value) stamp
    · exact ⟨s.requests, s.crashed, by rw [he, hf]; rfl⟩
    · exact ⟨s.requests, s.crashed, by rw [he, hf]; rfl⟩
    · exact ⟨s.requests, s.crashed, by rw [he, hf, welcome_eq]; rfl⟩
    · rw [he, hf]
      obtain ⟨crashed, hp⟩ := publishPacket_state config (registerRequestOwner (s.setLimiter ws limiter) ws
        (readRoutingIds (normalizeIncomingEnvelope stamp envelope)).requestId) ws
        ⟨context.deviceId, normalizeIncomingEnvelope stamp envelope, service, subtopic⟩
      rw [hp]
      unfold registerRequestOwner
      split
      all_goals exact ⟨_, _, rfl⟩

end

end

theorem mqttMessage_state (s : Server Token) (topic : String) (payload : Option Json) :
    ∃ statuses sessions, (mqttMessage s topic payload).1 =
      { s with lastKnownStatuses := statuses, sessions := sessions } := by
  rw [mqttMessage_eq]
  cases mqttPacket topic payload with
  | none => exact ⟨_, _, rfl⟩
  | some packet =>
    obtain ⟨statuses, hr⟩ := rememberStatus_eq s packet
    obtain ⟨sessions, hb⟩ := bindSession_eq (rememberStatus s packet) packet
    rw [hr] at hb
    exact ⟨statuses, sessions, by simp only [hr, hb]⟩

end

end Trakrai.Gateway
