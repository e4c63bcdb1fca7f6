import Trakrai.Gateway.Publish
import Trakrai.Lib.Json

namespace Trakrai.Gateway
open Lib

structure Packet where
  deviceId : String
  envelope : Json
  service : Option String
  subtopic : String

/-- `crypto.randomUUID()` and the current time. -/
structure Stamp where
  msgId : String
  timestamp : String

section
variable (value : Json)

/-- A string property of an object, trimmed; none if it is blank or no string. -/
def readString (name : String) : Option String :=
  normalizeOptionalString ((value.field name).bind Json.string?)

def envelopeType (envelope : Json) : String := ((envelope.field "type").bind Json.string?).getD ""

def isTransportEnvelope : Bool := jsTrim (envelopeType value) != ""

def unwrapEnvelopePayload : Json := (value.field "payload").getD value

structure RoutingIds where
  requestId : Option String
  sessionId : Option String

def readRoutingIds : RoutingIds where
  requestId := readString (unwrapEnvelopePayload value) "requestId"
  sessionId := readString (unwrapEnvelopePayload value) "sessionId"

def readEnvelopeField (field : String) : Option String :=
  readString (unwrapEnvelopePayload value) field

end

def buildEnvelope (stamp : Stamp) (type : String) (payload : Json)
    (msgId timestamp : Option String) : Json :=
  .obj [("msgId", .str (msgId.getD stamp.msgId)), ("payload", payload),
    ("timestamp", .str (timestamp.getD stamp.timestamp)), ("type", .str type)]

def normalizeIncomingEnvelope (stamp : Stamp) (envelope : Json) : Json :=
  let payload := match envelope.field "payload" with
    | none | some .null => .obj []
    | some payload => payload
  buildEnvelope stamp (jsTrim (envelopeType envelope)) payload (readString envelope "msgId")
    (readString envelope "timestamp")

inductive InboundFrame where
  | setDevice (deviceId : Option String)
  | packet (service : Option String) (subtopic : String) (envelope : Json)
  | invalid

/-- `isSetDeviceFrame` and `isPacketFrame` on a parsed message. -/
def readFrame (message : Json) : InboundFrame :=
  if ((message.field "kind").bind Json.string?) = some "set-device" then
    .setDevice (readString message "deviceId")
  else
    match (message.field "kind").bind Json.string?, (message.field "subtopic").bind Json.string?,
      message.field "envelope" with
    | some "packet", some subtopic, some envelope =>
      if jsTrim subtopic != "" && isTransportEnvelope envelope then
        .packet (readString message "service") (jsTrim subtopic) envelope
      else .invalid
    | _, _, _ => .invalid

def inboundMessageCountsAsCommand : InboundFrame → Bool
  | .setDevice _ => true
  | .packet _ subtopic _ => subtopic == "command"
  | .invalid => false

/-- The part of a packet that decides whether it may be published. -/
def Packet.header (packet : Packet) : TransportPacket where
  deviceId := packet.deviceId
  service := packet.service
  subtopic := packet.subtopic
  type := envelopeType packet.envelope

def Packet.isStatus (packet : Packet) : Bool :=
  packet.service == none && (packet.subtopic == "status" ||
      packet.subtopic == "response" && envelopeType packet.envelope == "status")

def sanitizeStatusPayload (payload : Json) (allowedServiceNames : List String) : Json :=
  match payload with
  | .obj fields =>
    match fields.lookup "services" with
    | some (.obj services) =>
      .obj (setKey fields "services"
        (.obj (services.filter fun entry => allowedServiceNames.contains entry.1)))
    | _ => payload
  | _ => payload

/-- The envelope with its payload sanitized; one without a payload stays as it is. -/
def sanitizeStatusEnvelope (envelope : Json) (allowedServiceNames : List String) : Json :=
  match envelope with
  | .obj fields =>
    match fields.lookup "payload" with
    | some payload => .obj (setKey fields "payload" (sanitizeStatusPayload payload allowedServiceNames))
    | none => envelope
  | _ => envelope

def filterPacketForClient (packet : Packet) (context : ClientContext) : Option Packet :=
  if packet.service.any fun service => !context.allowedServiceNames.contains service then none
  else if packet.isStatus then
    some { packet with
      envelope := sanitizeStatusEnvelope packet.envelope context.allowedServiceNames }
  else some packet

def topicBase (deviceId : String) (service : Option String) : String :=
  let service := jsTrim (service.getD "")
  if service ≠ "" then "trakrai/device/" ++ jsTrim deviceId ++ "/service/" ++ service
  else "trakrai/device/" ++ jsTrim deviceId

def normalizeTopicSubtopic (subtopic : String) : String :=
  jsTrim (String.ofList (subtopic.toList.dropWhile (· == '/')))

def buildDeviceTopic (deviceId subtopic : String) (service : Option String) : Option String :=
  let subtopic := normalizeTopicSubtopic subtopic
  if subtopic = "" then none else some (topicBase deviceId service ++ "/" ++ subtopic)

structure ParsedDeviceTopic where
  deviceId : String
  service : Option String
  subtopic : String

def parseSubtopic : List String → Option String
  | ["command"] => some "command"
  | ["response"] => some "response"
  | ["status"] => some "status"
  | ["webrtc", "offer"] => some "webrtc/offer"
  | ["webrtc", "answer"] => some "webrtc/answer"
  | ["webrtc", "ice"] => some "webrtc/ice"
  | _ => none

/-- The regular expression on the segments of a topic. -/
def parseDeviceTopic (topic : String) : Option ParsedDeviceTopic :=
  match jsSplit '/' topic with
  | "trakrai" :: "device" :: deviceId :: rest =>
    if deviceId = "" then none
    else
      match rest with
      | "service" :: service :: rest =>
        if service = "" then none
        else (parseSubtopic rest).map fun subtopic => ⟨deviceId, some service, subtopic⟩
      | rest => (parseSubtopic rest).map fun subtopic => ⟨deviceId, none, subtopic⟩
  | _ => none

/-- What `sendGatewayError` reports besides the message. -/
structure ErrorOptions where
  requestType : Option String := none
  service : Option String := none
  subtopic : Option String := none

def nullable (value : Option String) : Json := (value.map Json.str).getD .null

def gatewayError (stamp : Stamp) (deviceId message : String) (options : ErrorOptions) : Packet where
  deviceId := deviceId
  service := options.service
  subtopic := options.subtopic.getD "response"
  envelope := buildEnvelope stamp "service-unavailable"
    (.obj ([("error", .str message)] ++
      (options.requestType.map fun type => ("requestType", Json.str type)).toList ++
      [("service", nullable options.service), ("subtopic", nullable options.subtopic)]))
    none none

structure GatewayWebSocketRateLimit where
  maxCommandMessages : Nat
  maxMessages : Nat
  windowMs : Int

structure Limiter where
  commandTimestamps : List Int
  messageTimestamps : List Int

def Limiter.empty : Limiter := ⟨[], []⟩

def pruneExpiredTimestamps (timestamps : List Int) (cutoffMs : Int) : List Int :=
  timestamps.dropWhile (· < cutoffMs)

def recordInboundMessage (limiter : Limiter) (nowMs : Int)
    (rateLimit : GatewayWebSocketRateLimit) : Limiter × Option String :=
  let active := pruneExpiredTimestamps limiter.messageTimestamps (nowMs - rateLimit.windowMs)
  if rateLimit.maxMessages ≤ active.length then
    ({ limiter with messageTimestamps := active }, some "too many websocket messages")
  else ({ limiter with messageTimestamps := active ++ [nowMs] }, none)

def recordInboundCommand (limiter : Limiter) (nowMs : Int)
    (rateLimit : GatewayWebSocketRateLimit) : Limiter × Option String :=
  let active := pruneExpiredTimestamps limiter.commandTimestamps (nowMs - rateLimit.windowMs)
  if rateLimit.maxCommandMessages ≤ active.length then
    ({ limiter with commandTimestamps := active }, some "too many websocket commands")
  else ({ limiter with commandTimestamps := active ++ [nowMs] }, none)

end Trakrai.Gateway
