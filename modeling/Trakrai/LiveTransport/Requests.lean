import Mathlib.Data.List.Dedup
import Trakrai.Edge.Bridge

namespace Trakrai.LiveTransport
open List Lib Edge

structure PublishMessageRequest where
  service : String := ""
  subtopic : String
  type : String
  payload : Json

/-- A character of a key of JSON, up to what Go takes for the same letter. -/
def foldChar (c : Char) : Char :=
  if c.toNat = 0x17f then 's' else if c.toNat = 0x212a then 'k' else c.toLower

/-- A key that Go decodes into the field `requestId`. -/
def isRequestIdKey (key : String) : Bool := key.toList.map foldChar == "requestid".toList

/-- The last entry counts, and an entry that is no text spoils the whole. -/
def readEnvelopeRequestID (env : Envelope) : String :=
  match env.payload with
  | some (.obj fields) =>
    let values := (fields.filter fun field => isRequestIdKey field.1).map Prod.snd
    if values.all fun value => value matches .str _ | .null then
      goTrimSpace ((values.filterMap Json.string?).getLast?.getD "")
    else ""
  | _ => ""

/-- What `handleInbound` comes to. -/
inductive Inbound where
  | delivered
  | dropped
  | publish (request : PublishMessageRequest)
  | failed (error : String)

/-- `notified` is the answer of `NotifyService`. -/
def handleInbound (statusPayload : Json) (notified : Except String Unit) (route : TopicRoute) (env : Envelope) :
    Inbound :=
  let requestID := readEnvelopeRequestID env
  if route.service = "" ∧ route.subtopic = "command" ∧ env.type = "get-status" then
    .publish { subtopic := "response", type := "status", payload := statusPayload }
  else if route.service = "" then
    if route.subtopic ≠ "command" then .dropped
    else
      .publish {
        subtopic := "response"
        type := "service-unavailable"
        payload := .obj [ ("error", .str "service is required for device command routing"),
          ("requestId", .str requestID),
          ("requestType", .str env.type)] }
  else
    match notified with
    | .ok () => .delivered
    | .error error =>
      if route.subtopic = "command" then
        .publish {
          service := route.service
          subtopic := "response"
          type := "service-unavailable"
          payload := .obj [ ("error", .str error), ("requestId", .str requestID),
            ("requestType", .str env.type),
            ("service", .str route.service)] }
      else .failed error

structure TransportPacket where
  service : Option String
  subtopic : String
  envelope : List (String × Json)

def PublishMessageRequest.packet (request : PublishMessageRequest) (stamp : Stamp) : TransportPacket where
  service := if request.service = "" then none else some request.service
  subtopic := request.subtopic
  envelope := [("msgId", .str stamp.msgId), ("timestamp", .str stamp.timestamp), ("type", .str request.type),
    ("payload", request.payload)]

def getEnvelopeType (envelope : List (String × Json)) : Option String :=
  (envelope.lookup "type").bind Json.string?

def unwrapPayload (envelope : List (String × Json)) : Json := (envelope.lookup "payload").getD (.obj envelope)

def normalizeOptionalString (value : Option String) : Option String := (value.map jsTrim).filter (· ≠ "")

def normalizeServiceName (service : Option String) : Option String := normalizeOptionalString service

/-- A payload `null` throws in the source, and the packet is dropped as well. -/
def readPacketRequestId (packet : TransportPacket) : Option String :=
  normalizeOptionalString (((unwrapPayload packet.envelope).field "requestId").bind Json.string?)

def isErrorResponseType (responseType : Option String) : Bool :=
  match responseType with
  | none => false
  | some type => type == "service-unavailable" || type == "error" || "-error".toList.isSuffixOf type.toList

def readRequestErrorMessage (requestId : String) (packet : TransportPacket) (responseType : Option String) : String :=
  let fallback := "Device request " ++ requestId ++ " failed" ++ (responseType.map (" with " ++ ·)).getD ""
  match ((unwrapPayload packet.envelope).field "error").bind Json.string? with
  | some error => if jsTrim error ≠ "" then error else fallback
  | none => fallback

structure PendingRequest where
  responseSubtopics : List String
  responseTypes : Option (List String)
  service : Option String
deriving DecidableEq

inductive Settlement where
  | resolved (payload : Json) (responseType : Option String)
  | rejected (message : String)

structure Requests where
  pending : List (String × PendingRequest) := []
  settled : List (String × Settlement) := []

/-- The part of `dispatchPacket` that settles requests. -/
def dispatchPacket (s : Requests) (packet : TransportPacket) : Requests :=
  match readPacketRequestId packet with
  | none => s
  | some requestId =>
    match s.pending.lookup requestId with
    | none => s
    | some pendingRequest =>
      let responseType := getEnvelopeType packet.envelope
      if normalizeServiceName packet.service ≠ pendingRequest.service then s
      else if ¬ packet.subtopic ∈ pendingRequest.responseSubtopics then s
      else if pendingRequest.responseTypes.any (fun types => responseType.all (· ∉ types)) then s
      else
        { pending := s.pending.filter (·.1 != requestId)
          settled :=
            (requestId, if isErrorResponseType responseType then
                .rejected (readRequestErrorMessage requestId packet responseType)
              else .resolved (unwrapPayload packet.envelope) responseType) :: s.settled }

/-- `DeviceProtocolRequestOptions`. -/
structure RequestOptions where
  command : String
  payload : List (String × Json) := []
  requestId : Option String := none
  responseSubtopics : Option (List String) := none
  responseTypes : Option (List String) := none
  service : Option String := none
  subtopic : Option String := none

def pendingRequest (options : RequestOptions) : PendingRequest where
  responseSubtopics :=
    let subtopics := ((options.responseSubtopics.getD ["response"]).map jsTrim).filter (· ≠ "")
    if subtopics.length = 0 then ["response"] else subtopics
  responseTypes :=
    match options.responseTypes with
    | some (type :: types) => some (((type :: types).map jsTrim).filter (· ≠ ""))
    | _ => none
  service := normalizeServiceName options.service

structure ServiceContractOutput where
  messageType : String
  subtopic : String

structure ServiceContractMethod where
  outputs : List ServiceContractOutput
  subtopic : String

structure ServiceContract where
  name : String
  methods : List (String × ServiceContractMethod)

section
variable (contract : ServiceContract)

def getServiceContractMethod (method : String) :
    Except String ServiceContractMethod :=
  match contract.methods.lookup method with
  | none => .error ("Unknown service contract method: " ++ method)
  | some definition => .ok definition

def getServiceContractResponseOutputs (method : String) :
    Except String (List ServiceContractOutput) := do
  let definition ← getServiceContractMethod contract method
  .ok (definition.outputs.filter (·.subtopic == "response"))

/-- The request of `useTypedDeviceService`, as it is passed on to the transport. -/
def typedRequest (serviceName : Option String) (method : String)
    (input : List (String × Json)) (requestId : Option String) : Except String RequestOptions := do
  let resolvedServiceName := (serviceName.map jsTrim).getD contract.name
  let methodDefinition ← getServiceContractMethod contract method
  let responseOutputs ← getServiceContractResponseOutputs contract method
  let responseSubtopics := (responseOutputs.map (·.subtopic)).dedup
  .ok {
    command := method
    payload := input
    requestId := requestId
    responseSubtopics := some (if responseSubtopics.length > 0 then responseSubtopics else ["response"])
    responseTypes := some (responseOutputs.map (·.messageType))
    service := some (jsTrim resolvedServiceName)
    subtopic := some methodDefinition.subtopic }

end

def Requests.Rejects (s : Requests) (requestId : String) (packet : TransportPacket) : Prop :=
  ∃ message, (dispatchPacket s packet).settled = (requestId, .rejected message) :: s.settled

structure ErrorPacket (service : Option String) (requestId type : String) (packet : TransportPacket) : Prop where
  type_eq : getEnvelopeType packet.envelope = some type
  isError : isErrorResponseType (some type) = true
  requestId_eq : readPacketRequestId packet = some requestId
  service_eq : normalizeServiceName packet.service = service
  subtopic_eq : packet.subtopic = "response"

/-- The contract names the type among the method's responses, or names no response at all. -/
def ServiceContractMethod.Expects (definition : ServiceContractMethod) (type : String) : Prop :=
  let responseTypes := (definition.outputs.filter (·.subtopic == "response")).map (jsTrim ·.messageType)
  responseTypes = [] ∨ type ∈ responseTypes

section
variable {s : Requests} {requestId type : String} {packet : TransportPacket} {entry : PendingRequest}

theorem rejects_iff (hpending : s.pending.lookup requestId = some entry)
    (h : ErrorPacket entry.service requestId type packet) (hsubtopic : "response" ∈ entry.responseSubtopics) :
    s.Rejects requestId packet ↔ ∀ types, entry.responseTypes = some types → type ∈ types := by
  have hdispatch : dispatchPacket s packet =
      if entry.responseTypes.any (fun types => decide (type ∉ types)) then s
      else
        { pending := s.pending.filter (·.1 != requestId)
          settled :=
            (requestId, .rejected (readRequestErrorMessage requestId packet (some type))) :: s.settled } := by
    rw [dispatchPacket]
    simp only [h.requestId_eq, hpending, h.type_eq, h.service_eq, h.subtopic_eq, hsubtopic, ne_eq, not_true_eq_false,
      if_false, Option.all_some, h.isError, if_true]
  rw [Requests.Rejects, hdispatch]
  cases htypes : entry.responseTypes with
  | none => simp
  | some types =>
    by_cases hmem : type ∈ types
    · simp [hmem]
    · simp [hmem]

theorem error_ne_empty (h : isErrorResponseType (some type) = true) : type ≠ "" := by
  rintro rfl
  revert h
  decide

theorem unavailable_errorPacket (stamp : Stamp)
    (h : handleInbound statusPayload notified route env = .publish answer)
    (htype : answer.type = "service-unavailable")
    (hid : readPacketRequestId (answer.packet stamp) = some requestId) :
    ErrorPacket (normalizeServiceName (some route.service)) requestId "service-unavailable" (answer.packet stamp) := by
  have hanswer : answer.subtopic = "response" ∧ answer.service = route.service := by
    unfold handleInbound at h
    simp only at h
    split at h
    · cases h
      exact absurd htype (by decide : "status" ≠ "service-unavailable")
    · split at h
      · rename_i hservice
        split at h
        · cases h
        · cases h
          exact ⟨rfl, hservice.symm⟩
      · split at h
        · cases h
        · split at h
          · cases h
            exact ⟨rfl, rfl⟩
          · cases h
  refine ⟨?_, rfl, hid, ?_, hanswer.1⟩
  · rw [← htype]
    rfl
  · rw [PublishMessageRequest.packet, hanswer.2]
    split
    · rename_i hservice
      rw [hservice]
      rfl
    · rfl

theorem responseSubtopics_dedup (outputs : List ServiceContractOutput) :
    let subtopics := ((outputs.filter (·.subtopic == "response")).map (·.subtopic)).dedup
    (if subtopics.length > 0 then subtopics else ["response"]) = ["response"] := by
  have hall : (outputs.filter (·.subtopic == "response")).map (·.subtopic) =
      List.replicate (outputs.filter (·.subtopic == "response")).length "response" := by
    apply eq_replicate_iff.2
    refine ⟨length_map _, ?_⟩
    intro subtopic hsubtopic
    obtain ⟨output, houtput, rfl⟩ := mem_map.1 hsubtopic
    simpa using (mem_filter.1 houtput).2
  rw [hall]
  cases (outputs.filter (·.subtopic == "response")).length with
  | zero => rfl
  | succ n =>
    rw [replicate_dedup (Nat.succ_ne_zero n)]
    rfl

theorem typedRequest_pending {contract : ServiceContract} {serviceName : Option String} {method : String}
    {input : List (String × Json)} {id : Option String} {options : RequestOptions}
    {definition : ServiceContractMethod} (h : typedRequest contract serviceName method input id = .ok options)
    (hmethod : contract.methods.lookup method = some definition) :
    "response" ∈ (pendingRequest options).responseSubtopics ∧ (type ≠ "" →
      ((∀ types, (pendingRequest options).responseTypes = some types → type ∈ types) ↔ definition.Expects type)) := by
  have hmethod' : getServiceContractMethod contract method = .ok definition := by
    rw [getServiceContractMethod, hmethod]
  rw [typedRequest, getServiceContractResponseOutputs, hmethod'] at h
  have hoptions := Except.ok.inj h
  have hsubtopics : options.responseSubtopics = some ["response"] := by
    rw [← hoptions]
    exact congrArg some (responseSubtopics_dedup definition.outputs)
  have htypes : options.responseTypes =
      some ((definition.outputs.filter (·.subtopic == "response")).map (·.messageType)) := by
    rw [← hoptions]
  constructor
  · have hkept : (((some ["response"]).getD ["response"]).map jsTrim).filter (· ≠ "") = ["response"] := by
      decide +kernel
    simp only [pendingRequest, hsubtopics, hkept]
    exact mem_singleton_self _
  · intro hne
    rw [pendingRequest, htypes, ServiceContractMethod.Expects]
    cases definition.outputs.filter (·.subtopic == "response") with
    | nil => simp
    | cons output outputs => simp [hne]

end

section
variable {contract : ServiceContract} {serviceName : Option String} {method : String} {input : List (String × Json)}
  {id : Option String} {options : RequestOptions} {definition : ServiceContractMethod} {s : Requests}
  {requestId : String}

/-- A pending typed request is rejected by exactly those errors of the device whose type its contract names; that a
service is not there is one of the errors. -/
theorem errorPacket_rejects_iff (h : typedRequest contract serviceName method input id = .ok options)
    (hmethod : contract.methods.lookup method = some definition)
    (hpending : s.pending.lookup requestId = some (pendingRequest options)) :
    (∀ packet type, ErrorPacket (pendingRequest options).service requestId type packet →
      (s.Rejects requestId packet ↔ definition.Expects type)) ∧
    ∀ statusPayload notified route env answer stamp,
      handleInbound statusPayload notified route env = .publish answer → answer.type = "service-unavailable" →
      normalizeServiceName (some route.service) = (pendingRequest options).service →
      readPacketRequestId (answer.packet stamp) = some requestId →
      (s.Rejects requestId (answer.packet stamp) ↔ definition.Expects "service-unavailable") := by
  have herror {packet : TransportPacket} {type : String}
      (hpacket : ErrorPacket (pendingRequest options).service requestId type packet) :
      s.Rejects requestId packet ↔ definition.Expects type := by
    obtain ⟨hsubtopic, hexpects⟩ := typedRequest_pending h hmethod
    rw [rejects_iff hpending hpacket hsubtopic, hexpects (error_ne_empty hpacket.isError)]
  refine ⟨fun packet type => herror, ?_⟩
  intro statusPayload notified route env answer stamp hanswer htype hservice hid
  apply herror
  rw [← hservice]
  exact unavailable_errorPacket stamp hanswer htype hid

end

def cloudTransferContract : ServiceContract where
  name := "cloud-transfer"
  methods := [("get-status", {
    outputs := [⟨"cloud-transfer-status", "response"⟩, ⟨"cloud-transfer-error", "response"⟩]
    subtopic := "command" })]

def statusRequest : RequestOptions where
  command := "get-status"
  responseSubtopics := some ["response"]
  responseTypes := some ["cloud-transfer-status", "cloud-transfer-error"]
  service := some "cloud-transfer"
  subtopic := some "command"

def statusPending : Requests where
  pending := [("r1", pendingRequest statusRequest)]

def transferError : TransportPacket where
  service := some "cloud-transfer"
  subtopic := "response"
  envelope := [("type", .str "cloud-transfer-error"),
    ("payload", .obj [("requestId", .str "r1"), ("error", .str "no storage")])]

theorem errorPacket_rejects_iff_transferError : statusPending.Rejects "r1" transferError := by
  have htyped : typedRequest cloudTransferContract none "get-status" [] none = .ok statusRequest := by
    rfl
  have herror : ErrorPacket (pendingRequest statusRequest).service "r1" "cloud-transfer-error" transferError :=
    ⟨rfl, by decide +kernel, by decide +kernel, by decide +kernel, rfl⟩
  refine ((errorPacket_rejects_iff htyped rfl rfl).1 transferError _ herror).2 (.inr ?_)
  decide +kernel

def transferUnavailable : PublishMessageRequest where
  service := "cloud-transfer"
  subtopic := "response"
  type := "service-unavailable"
  payload := .obj [("error", .str "service \"cloud-transfer\" is not registered"), ("requestId", .str "r1"),
    ("requestType", .str "get-status"), ("service", .str "cloud-transfer")]

/-- The request goes on waiting. -/
theorem transferUnavailable_ignored :
    handleInbound .null (.error "service \"cloud-transfer\" is not registered") ⟨"cloud-transfer", "command"⟩
      ⟨"m0", "t0", "get-status", some (.obj [("requestId", .str "r1")])⟩ = .publish transferUnavailable ∧
    typedRequest cloudTransferContract none "get-status" [] none = .ok statusRequest ∧
    ¬ statusPending.Rejects "r1" (transferUnavailable.packet ⟨"m1", "t1"⟩) := by
  refine ⟨rfl, rfl, ?_⟩
  rintro ⟨message, h⟩
  have hnone : (dispatchPacket statusPending (transferUnavailable.packet ⟨"m1", "t1"⟩)).settled.length = 0 := by
    decide +kernel
  rw [h] at hnone
  cases hnone

end Trakrai.LiveTransport
