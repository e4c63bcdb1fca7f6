import Trakrai.Lib.Json
import Trakrai.Lib.Text
import Trakrai.Lib.Ownership
import Trakrai.Lib.Transition

namespace Trakrai.Edge
open Function List Lib

abbrev Client := Nat

/-- `ipc.MQTTEnvelope`; an empty payload is none. -/
structure Envelope where
  msgId : String
  timestamp : String
  type : String
  payload : Option Json

/-- The id and the time of an envelope that the bridge makes up. -/
structure Stamp where
  msgId : String
  timestamp : String

structure InboundFrame where
  deviceId : String
  envelope : Envelope
  kind : String
  service : Option String
  subtopic : String

structure OutboundPacket where
  deviceId : String
  envelope : Envelope
  service : Option String
  subtopic : String

structure TopicRoute where
  service : String
  subtopic : String

def readEdgeString : Option Json → String
  | some (.str value) => goTrimSpace value
  | _ => ""

def edgeEnvelopeString (env : Envelope) (name : String) : String :=
  readEdgeString (env.payload.bind (Json.field name))

def edgeEnvelopeIDs (env : Envelope) : String × String :=
  (edgeEnvelopeString env "requestId", edgeEnvelopeString env "sessionId")

def edgeEnvelopeRequestID (env : Envelope) : String := (edgeEnvelopeIDs env).1

def edgeEnvelopeOrigin (env : Envelope) : String := edgeEnvelopeString env "origin"

def normalizeEdgeSubtopic (subtopic : String) : String :=
  trimWith (· == '/') (goTrimSpace subtopic)

def normalizeInboundService (service : Option String) : String := goTrimSpace (service.getD "")

def edgeServicePointer (service : String) : Option String :=
  let normalized := goTrimSpace service
  if normalized = "" then none else some normalized

def shouldSuppressOutboundICE (subtopic : String) (env : Envelope) : Bool :=
  normalizeEdgeSubtopic subtopic == "webrtc/ice" && edgeEnvelopeOrigin env == "browser"

def buildEnvelope (stamp : Stamp) (type : String) (payload : Json) : Envelope :=
  ⟨stamp.msgId, stamp.timestamp, type, some payload⟩

def normalizeEdgeEnvelope (stamp : Stamp) (env : Envelope) : Except String Envelope :=
  let type := goTrimSpace env.type
  if type = "" then .error "envelope type is required"
  else
    let msgId := goTrimSpace env.msgId
    let timestamp := goTrimSpace env.timestamp
    .ok {
      msgId := if msgId = "" then stamp.msgId else msgId
      timestamp := if timestamp = "" then stamp.timestamp else timestamp
      type := type
      payload := some (env.payload.getD (.obj [])) }

inductive Task where
  | idle
  /-- The reader of a client, between two messages. -/
  | reading (client : Client)
  /-- `handleWebSocketMessage` after the request is registered. -/
  | checking (client : Client) (route : TopicRoute) (envelope : Envelope)
  | dispatching (client : Client) (route : TopicRoute) (envelope : Envelope)
  /-- `Broadcast` of a packet without an owner. -/
  | snapshotting (packet : OutboundPacket)
  | writing (packet : OutboundPacket) (targets : List Client)
  /-- `removeClient` comes next, then the task after it. -/
  | removing (client : Client) (next : Task)
  /-- The sessions that `removeClient` has yet to stop. -/
  | stopping (sessionIds : List String) (next : Task)

structure Bridge where
  clients : List Client
  /-- `requestOwners` and `clientRequests`. -/
  requests : Routes String Client
  /-- `sessionOwners` and `clientSessions`. -/
  sessions : Routes String Client
  /-- The clients that were ever added. -/
  joined : List Client
  tasks : Nat → Task

def Bridge.initial : Bridge := ⟨[], .empty, .empty, [], fun _ => .idle⟩

section
variable (s : Bridge)

def Bridge.goOn (t : Nat) (task : Task) : Bridge :=
  { s with tasks := update s.tasks t task }

section
variable (client : Client)

def addClient : Bridge :=
  { s with
    clients := client :: s.clients
    joined := client :: s.joined
    requests := { s.requests with owned := update s.requests.owned client [] }
    sessions := { s.sessions with owned := update s.sessions.owned client [] } }

def removeClient : Bridge :=
  { s with
    clients := s.clients.filter (· != client)
    requests := s.requests.release client
    sessions := s.sessions.release client }

def registerRequestOwner (requestId : String) : Bridge :=
  let requestId := goTrimSpace requestId
  if requestId = "" then s else { s with requests := s.requests.claim client requestId }

def bindSessionOwner (sessionId : String) : Bridge :=
  let sessionId := goTrimSpace sessionId
  if sessionId = "" then s else { s with sessions := s.sessions.claim client sessionId }

def clientOwnsSession (sessionId : String) : Bool :=
  match s.sessions.owner (goTrimSpace sessionId) with
  | none => true
  | some owner => owner == client

end

def packetOwner (packet : OutboundPacket) : Bridge × Option Client :=
  let (requestId, sessionId) := edgeEnvelopeIDs packet.envelope
  let bySession := if sessionId = "" then none else s.sessions.owner sessionId
  if requestId = "" then (s, bySession)
  else
    match s.requests.owner requestId with
    | some owner => (if sessionId = "" then s else bindSessionOwner s owner sessionId, some owner)
    | none => (s, bySession)

def outboundPacket (deviceId service subtopic : String) (envelope : Envelope) : OutboundPacket :=
  ⟨deviceId, envelope, edgeServicePointer service, normalizeEdgeSubtopic subtopic⟩

/-- `Broadcast` writes to the owner of a packet, or else to all clients. -/
def broadcastTargets (packet : OutboundPacket) : Option Client → Task
  | some owner => .writing packet [owner]
  | none => .snapshotting packet

inductive Output where
  | packet (client : Client) (packet : OutboundPacket)
  | sessionInfo (client : Client) (deviceId : String)
  | status (client : Client) (deviceId : String)
  | immediateError (client : Client) (route : TopicRoute) (requestId requestType message : String)
  | dispatch (route : TopicRoute) (envelope : Envelope)

section
variable (deviceId : String)

def handleSetDevice (client : Client) (requested : String) : List Output :=
  let requested := goTrimSpace requested
  if requested = "" ∨ requested = deviceId then
    [.sessionInfo client deviceId, .status client deviceId]
  else
    [.immediateError client ⟨"", ""⟩ "" "set-device"
      "requested device is not available on this edge runtime"]

/-- `handleWebSocketMessage` up to the check of the session. -/
def handleWebSocketMessage (s : Bridge) (t : Nat) (client : Client)
    (message : InboundFrame) (stamp : Stamp) : Bridge × List Output :=
  let kind := goTrimSpace message.kind
  if kind = "set-device" then (s, handleSetDevice deviceId client message.deviceId)
  else if kind ≠ "packet" then
    (s, [.immediateError client ⟨"", ""⟩ "" "" "message kind is required"])
  else
    let subtopic := normalizeEdgeSubtopic message.subtopic
    let requestId := edgeEnvelopeRequestID message.envelope
    let route := ⟨normalizeInboundService message.service, subtopic⟩
    if subtopic = "" then
      (s, [.immediateError client ⟨"", ""⟩ requestId message.envelope.type "subtopic is required"])
    else
      match normalizeEdgeEnvelope stamp message.envelope with
      | .error error => (s, [.immediateError client route requestId "" error])
      | .ok envelope =>
        let requestId := edgeEnvelopeRequestID envelope
        ((if requestId = "" then s else registerRequestOwner s client requestId).goOn t
          (.checking client route envelope), [])

def stopLive (sessionId : String) (stamp : Stamp) : List Output :=
  let sessionId := goTrimSpace sessionId
  if sessionId = "" then []
  else
    [.dispatch ⟨"live-feed", "command"⟩
      (buildEnvelope stamp "stop-live" (.obj [("sessionId", .str sessionId)]))]

inductive Action where
  | connect (t : Nat) (client : Client)
  | message (t : Nat) (client : Client) (frame : InboundFrame) (stamp : Stamp)
  | check (t : Nat) (client : Client) (route : TopicRoute) (envelope : Envelope)
  | dispatch (t : Nat) (client : Client) (route : TopicRoute) (envelope : Envelope)
  /-- The reader ends: the connection is closed or breaks a limit. -/
  | leave (t : Nat) (client : Client)
  | broadcast (t : Nat) (service subtopic : String) (envelope : Envelope)
  | snapshot (t : Nat) (packet : OutboundPacket) (targets : List Client)
  | write (t : Nat) (packet : OutboundPacket) (client : Client) (targets : List Client) (ok : Bool)
  | written (t : Nat) (packet : OutboundPacket)
  | remove (t : Nat) (client : Client) (next : Task)
  | stop (t : Nat) (sessionId : String) (sessionIds : List String) (next : Task) (stamp : Stamp)
  | stopped (t : Nat) (next : Task)

def Enabled : Action → Prop
  | .connect t client => s.tasks t = .idle ∧ client ∉ s.joined
  | .message t client _ _ => s.tasks t = .reading client
  | .check t client route envelope => s.tasks t = .checking client route envelope
  | .dispatch t client route envelope => s.tasks t = .dispatching client route envelope
  | .leave t client => s.tasks t = .reading client
  | .broadcast t _ _ _ => s.tasks t = .idle
  | .snapshot t packet targets => s.tasks t = .snapshotting packet ∧ targets.Perm s.clients
  | .write t packet client targets _ => s.tasks t = .writing packet (client :: targets)
  | .written t packet => s.tasks t = .writing packet []
  | .remove t client next => s.tasks t = .removing client next
  | .stop t sessionId sessionIds next _ => s.tasks t = .stopping (sessionId :: sessionIds) next
  | .stopped t next => s.tasks t = .stopping [] next

/-- The bridge after a step, and what it sends. The order of the targets and of the sessions to
stop is the order in which Go walks over its maps. -/
def run (s : Bridge) : Action → Bridge × List Output
  | .connect t client => ((addClient s client).goOn t (.reading client), [])
  | .message t client frame stamp => handleWebSocketMessage deviceId s t client frame stamp
  | .check t client route envelope =>
    let sessionId := (edgeEnvelopeIDs envelope).2
    if sessionId ≠ "" ∧ !clientOwnsSession s client sessionId then (s.goOn t (.reading client), [])
    else (s.goOn t (.dispatching client route envelope), [])
  | .dispatch t client route envelope => (s.goOn t (.reading client), [.dispatch route envelope])
  | .leave t client => (s.goOn t (.removing client .idle), [])
  | .broadcast t service subtopic envelope =>
    if shouldSuppressOutboundICE subtopic envelope then (s, [])
    else
      let packet := outboundPacket deviceId service subtopic envelope
      let (s, owner) := packetOwner s packet
      (s.goOn t (broadcastTargets packet owner), [])
  | .snapshot t packet targets => (s.goOn t (.writing packet targets), [])
  | .write t packet client targets true => (s.goOn t (.writing packet targets), [.packet client packet])
  | .write t packet client targets false =>
    (s.goOn t (.removing client (.writing packet targets)), [])
  | .written t _ => (s.goOn t .idle, [])
  | .remove t client next =>
    ((removeClient s client).goOn t (.stopping (s.sessions.owned client) next), [])
  | .stop t sessionId sessionIds next stamp =>
    (s.goOn t (.stopping sessionIds next), stopLive sessionId stamp)
  | .stopped t next => (s.goOn t next, [])

def after (s : Bridge) (action : Action) : Bridge := (run deviceId s action).1

def system : System Bridge Action :=
  .guarded (· = .initial) Enabled (after deviceId)

def registeredRequest (frame : InboundFrame) : Option String :=
  if goTrimSpace frame.kind = "packet" ∧ normalizeEdgeSubtopic frame.subtopic ≠ "" ∧
      goTrimSpace frame.envelope.type ≠ "" ∧ edgeEnvelopeRequestID frame.envelope ≠ "" then
    some (edgeEnvelopeRequestID frame.envelope)
  else none

def boundSession (envelope : Envelope) : Option (Client × String) :=
  let (requestId, sessionId) := edgeEnvelopeIDs envelope
  if requestId = "" ∨ sessionId = "" then none
  else (s.requests.owner requestId).map fun owner => (owner, sessionId)

theorem goTrimSpace_edgeEnvelopeString (env : Envelope) (name : String) :
    goTrimSpace (edgeEnvelopeString env name) = edgeEnvelopeString env name := by
  unfold edgeEnvelopeString readEdgeString
  split
  · exact trimWith_idem isGoSpace _
  · rfl

theorem edgeEnvelopeIDs_normalize (h : normalizeEdgeEnvelope stamp env = .ok envelope) :
    edgeEnvelopeIDs envelope = edgeEnvelopeIDs env := by
  simp only [normalizeEdgeEnvelope] at h
  split at h
  · cases h
  · cases h
    cases hp : env.payload <;> simp [edgeEnvelopeIDs, edgeEnvelopeString, hp, Json.field]

theorem normalizeEdgeEnvelope_ok (stamp : Stamp) (h : goTrimSpace env.type ≠ "") :
    ∃ envelope, normalizeEdgeEnvelope stamp env = .ok envelope :=
  ⟨_, if_neg h⟩

theorem message_cases (s : Bridge) (t : Nat) (client : Client)
    (frame : InboundFrame) (stamp : Stamp) :
    registeredRequest frame = none ∧
      (∃ task, (handleWebSocketMessage deviceId s t client frame stamp).1 = s.goOn t task ∨
        (handleWebSocketMessage deviceId s t client frame stamp).1 = s) ∨
    ∃ requestId task, registeredRequest frame = some requestId ∧
      (handleWebSocketMessage deviceId s t client frame stamp).1 =
        Bridge.goOn { s with requests := s.requests.claim client requestId } t task := by
  by_cases hset : goTrimSpace frame.kind = "set-device"
  · have hnone : registeredRequest frame = none := by
      refine if_neg fun h => ?_
      rw [hset] at h
      exact absurd h.1 (by decide)
    exact .inl ⟨hnone, .idle, .inr (by simp [handleWebSocketMessage, hset])⟩
  by_cases hkind : goTrimSpace frame.kind = "packet"
  case neg =>
    have hnone : registeredRequest frame = none := if_neg fun h => hkind h.1
    exact .inl ⟨hnone, .idle, .inr (by simp [handleWebSocketMessage, hset, hkind])⟩
  by_cases hsub : normalizeEdgeSubtopic frame.subtopic = ""
  · have hnone : registeredRequest frame = none := if_neg fun h => h.2.1 hsub
    exact .inl ⟨hnone, .idle, .inr (by simp [handleWebSocketMessage, hkind, hsub])⟩
  by_cases htype : goTrimSpace frame.envelope.type = ""
  · have hnone : registeredRequest frame = none := if_neg fun h => h.2.2.1 htype
    have herror : normalizeEdgeEnvelope stamp frame.envelope =
        .error "envelope type is required" := if_pos htype
    exact .inl ⟨hnone, .idle, .inr (by simp [handleWebSocketMessage, hkind, hsub, herror])⟩
  obtain ⟨envelope, hok⟩ := normalizeEdgeEnvelope_ok stamp htype
  have hids : edgeEnvelopeRequestID envelope = edgeEnvelopeRequestID frame.envelope := by
    rw [edgeEnvelopeRequestID, edgeEnvelopeIDs_normalize hok, edgeEnvelopeRequestID]
  by_cases hid : edgeEnvelopeRequestID frame.envelope = ""
  · have hnone : registeredRequest frame = none := if_neg fun h => h.2.2.2 hid
    exact .inl ⟨hnone, _, .inl (by simp [handleWebSocketMessage, hkind, hsub, hok, hids, hid]; rfl)⟩
  · have hsome : registeredRequest frame = some (edgeEnvelopeRequestID frame.envelope) :=
      if_pos ⟨hkind, hsub, htype, hid⟩
    have htrim : goTrimSpace (edgeEnvelopeRequestID frame.envelope) =
        edgeEnvelopeRequestID frame.envelope := goTrimSpace_edgeEnvelopeString _ _
    refine .inr ⟨_, .checking client ⟨normalizeInboundService frame.service,
      normalizeEdgeSubtopic frame.subtopic⟩ envelope, hsome, ?_⟩
    simp [handleWebSocketMessage, hkind, hsub, hok, hids, hid, registerRequestOwner, htrim]

theorem packetOwner_tables (packet : OutboundPacket) : (packetOwner s packet).1 =
      match boundSession s packet.envelope with
      | some (owner, sessionId) => { s with sessions := s.sessions.claim owner sessionId }
      | none => s := by
  have htrim : goTrimSpace (edgeEnvelopeIDs packet.envelope).2 =
      (edgeEnvelopeIDs packet.envelope).2 := goTrimSpace_edgeEnvelopeString _ _
  by_cases hr : (edgeEnvelopeIDs packet.envelope).1 = ""
  · simp [packetOwner, boundSession, hr]
  · cases ho : s.requests.owner (edgeEnvelopeIDs packet.envelope).1 with
    | none => simp [packetOwner, boundSession, hr, ho]
    | some owner =>
      by_cases hs : (edgeEnvelopeIDs packet.envelope).2 = ""
      · simp [packetOwner, boundSession, hr, hs, ho]
      · simp [packetOwner, boundSession, hr, hs, ho, bindSessionOwner, htrim]

theorem broadcast_cases (s : Bridge) (t : Nat) (service subtopic : String)
    (envelope : Envelope) :
    after deviceId s (.broadcast t service subtopic envelope) = s ∨
    ∃ task, (boundSession s envelope = none ∧
        after deviceId s (.broadcast t service subtopic envelope) = s.goOn t task) ∨
      ∃ owner sessionId, shouldSuppressOutboundICE subtopic envelope = false ∧
        boundSession s envelope = some (owner, sessionId) ∧
        after deviceId s (.broadcast t service subtopic envelope) =
          Bridge.goOn { s with sessions := s.sessions.claim owner sessionId } t task := by
  simp only [after, run]
  split
  case isTrue => exact .inl rfl
  case isFalse hice =>
    refine .inr ⟨broadcastTargets (outboundPacket deviceId service subtopic envelope)
      (packetOwner s (outboundPacket deviceId service subtopic envelope)).2, ?_⟩
    rw [packetOwner_tables]
    have henv : (outboundPacket deviceId service subtopic envelope).envelope = envelope := rfl
    rw [henv]
    cases boundSession s envelope with
    | none => exact .inl ⟨rfl, rfl⟩
    | some bound => exact .inr ⟨bound.1, bound.2, Bool.eq_false_iff.2 hice, rfl, rfl⟩

end

/-- The entries of a table and of its inverse sets belong together, and every owner is a
client. -/
structure Matched (clients : List Client) (routes : Routes String Client) : Prop where
  owner_iff : ∀ id client, routes.owner id = some client ↔ id ∈ routes.owned client
  owner_client : ∀ id client, routes.owner id = some client → client ∈ clients

/-- `requestOwners`, `sessionOwners` and their inverses are right. -/
def Consistent : Prop := Matched s.clients s.requests ∧ Matched s.clients s.sessions

/-- A request id is registered only by a present client and only if no other client has it, and a
session is bound only if no other client has it. -/
def Orderly : Action → Prop
  | .message _ client frame _ => ∀ requestId, registeredRequest frame = some requestId →
    client ∈ s.clients ∧ ∀ owner, s.requests.owner requestId = some owner → owner = client
  | .broadcast _ _ subtopic envelope => shouldSuppressOutboundICE subtopic envelope = false →
    ∀ owner sessionId, boundSession s envelope = some (owner, sessionId) →
      ∀ owner', s.sessions.owner sessionId = some owner' → owner' = owner
  | _ => True

end

/-- A removal drops no route of another client, and stops only sessions of the removed one. -/
def Exact (deviceId : String) (s : Bridge) (action : Action) : Prop :=
  ∀ t client next, action = .remove t client next →
    (∀ requestId owner, owner ≠ client → s.requests.owner requestId = some owner →
      (after deviceId s action).requests.owner requestId = some owner) ∧
    (∀ sessionId owner, owner ≠ client → s.sessions.owner sessionId = some owner →
      (after deviceId s action).sessions.owner sessionId = some owner) ∧
    ∃ sessionIds, (after deviceId s action).tasks t = .stopping sessionIds next ∧
      ∀ sessionId ∈ sessionIds, s.sessions.owner sessionId = some client

section
variable {clients : List Client} {routes : Routes String Client} {id : String}

theorem matched_of (hr : routes.Reflects) (ht : routes.Tight)
    (hc : ∀ id client, routes.owner id = some client → client ∈ clients) :
    Matched clients routes :=
  ⟨fun id client => ⟨hr id client, ht id client⟩, hc⟩

theorem Matched.reflects (h : Matched clients routes) : routes.Reflects :=
  fun id client => (h.owner_iff id client).1

theorem Matched.tight (h : Matched clients routes) : routes.Tight :=
  fun id client => (h.owner_iff id client).2

theorem Matched.claim (h : Matched clients routes) (hc : client ∈ clients)
    (ho : ∀ owner, routes.owner id = some owner → owner = client) :
    Matched clients (routes.claim client id) := by
  refine matched_of h.reflects.claim (h.tight.claim ?_) ?_
  · cases hid : routes.owner id with
    | none => exact .inl rfl
    | some owner => exact .inr (by rw [ho owner hid])
  · intro id' owner hown
    rcases Routes.claim_owner_cases hown with rfl | hown
    · exact hc
    · exact h.owner_client id' owner hown

theorem Matched.release (h : Matched clients routes) (client : Client) :
    Matched (clients.filter (· != client)) (routes.release client) := by
  refine matched_of h.reflects.release h.tight.release ?_
  intro id owner hown
  obtain ⟨hne, hown, -⟩ := h.reflects.owner_release hown
  exact mem_filter.2 ⟨h.owner_client id owner hown, by simpa using hne⟩

theorem Matched.owned_eq_nil (h : Matched clients routes) (hc : client ∉ clients) :
    routes.owned client = [] := by
  refine eq_nil_iff_forall_not_mem.2 fun id hid => hc ?_
  exact h.owner_client id client ((h.owner_iff id client).2 hid)

theorem Matched.add (h : Matched clients routes) (hc : client ∉ clients) :
    Matched (client :: clients)
      { routes with owned := update routes.owned client [] } := by
  have hsame : update routes.owned client [] = routes.owned := by
    rw [← h.owned_eq_nil hc, update_eq_self]
  rw [hsame]
  exact ⟨h.owner_iff, fun id owner hown => mem_cons_of_mem _ (h.owner_client id owner hown)⟩

theorem Matched.release_other (h : Matched clients routes) (hne : owner ≠ client)
    (ho : routes.owner id = some owner) : (routes.release client).owner id = some owner := by
  rw [Routes.release_owner_of_not_mem, ho]
  intro hid
  exact hne (Option.some.inj (ho.symm.trans ((h.owner_iff id client).2 hid)))

end

theorem joined_step (h : ∀ client ∈ s.clients, client ∈ s.joined) :
    ∀ client ∈ (after deviceId s action).clients, client ∈ (after deviceId s action).joined := by
  cases action with
  | connect t client =>
    intro c hc
    rcases mem_cons.1 hc with rfl | hc
    · exact mem_cons_self ..
    · exact mem_cons_of_mem _ (h c hc)
  | message t client frame stamp =>
    obtain ⟨-, task, hs | hs⟩ | ⟨requestId, task, -, hs⟩ :=
      message_cases deviceId s t client frame stamp <;>
    · rw [after, run, hs]
      exact h
  | broadcast t service subtopic envelope =>
    obtain hs | ⟨task, ⟨-, hs⟩ | ⟨owner, sessionId, -, -, hs⟩⟩ :=
      broadcast_cases deviceId s t service subtopic envelope <;>
    · rw [hs]
      exact h
  | remove t client next =>
    intro c hc
    exact h c (mem_filter.1 hc).1
  | check t client route envelope =>
    simp only [after, run]
    split <;> exact h
  | write t packet client targets ok => cases ok <;> exact h
  | _ => exact h

theorem Consistent.step (h : Consistent s) (hj : ∀ client ∈ s.clients, client ∈ s.joined)
    (ho : Orderly s action) (he : Enabled s action) : Consistent (after deviceId s action) := by
  obtain ⟨hr, hs⟩ := h
  cases action with
  | connect t client =>
    have hc : client ∉ s.clients := fun hc => he.2 (hj client hc)
    exact ⟨hr.add hc, hs.add hc⟩
  | message t client frame stamp =>
    obtain ⟨-, task, heq | heq⟩ | ⟨requestId, task, hreg, heq⟩ :=
      message_cases deviceId s t client frame stamp
    · rw [after, run, heq]
      exact ⟨hr, hs⟩
    · rw [after, run, heq]
      exact ⟨hr, hs⟩
    · rw [after, run, heq]
      obtain ⟨hc, hown⟩ := ho requestId hreg
      exact ⟨hr.claim hc hown, hs⟩
  | broadcast t service subtopic envelope =>
    obtain heq | ⟨task, ⟨-, heq⟩ | ⟨owner, sessionId, hice, hb, heq⟩⟩ :=
      broadcast_cases deviceId s t service subtopic envelope
    · rw [heq]
      exact ⟨hr, hs⟩
    · rw [heq]
      exact ⟨hr, hs⟩
    · rw [heq]
      have hc : owner ∈ s.clients := by
        simp only [boundSession] at hb
        split at hb
        · cases hb
        · obtain ⟨owner', hown, heq'⟩ := Option.map_eq_some_iff.1 hb
          obtain ⟨rfl, -⟩ := Prod.mk.inj heq'
          exact hr.owner_client _ _ hown
      exact ⟨hr, hs.claim hc (ho hice owner sessionId hb)⟩
  | remove t client next => exact ⟨hr.release client, hs.release client⟩
  | check t client route envelope =>
    simp only [after, run]
    split <;> exact ⟨hr, hs⟩
  | write t packet client targets ok => cases ok <;> exact ⟨hr, hs⟩
  | _ => exact ⟨hr, hs⟩

theorem Consistent.exact (h : Consistent s) : Exact deviceId s action := by
  rintro t client next rfl
  refine ⟨fun id owner hne ho => h.1.release_other hne ho,
    fun id owner hne ho => h.2.release_other hne ho, s.sessions.owned client, ?_, ?_⟩
  · simp [after, run, Bridge.goOn]
  · intro sessionId hid
    exact (h.2.owner_iff sessionId client).2 hid

/-- In a run of orderly steps, the two tables and their inverse sets agree, every owner is a client,
and a removal takes away and stops what the removed client owns and nothing else. -/
theorem consistent_of_orderly (h : (system deviceId).Run .initial tr s)
    (ho : ∀ p ∈ tr, Orderly p.1 p.2) :
    (∀ u ∈ states tr s, Consistent u) ∧ ∀ p ∈ tr, Exact deviceId p.1 p.2 := by
  have hinit : Matched [] .empty := matched_of Routes.reflects_empty Routes.tight_empty nofun
  have hall : ∀ u ∈ states tr s, Consistent u ∧ ∀ client ∈ u.clients, client ∈ u.joined := by
    refine h.forall_states ⟨⟨hinit, hinit⟩, nofun⟩ ?_
    rintro p hp ⟨hc, hj⟩ u ⟨he, rfl⟩
    exact ⟨hc.step hj (ho p hp) he, joined_step hj⟩
  exact ⟨fun u hu => (hall u hu).1, fun p hp => (hall _ (mem_states_of_mem hp)).1.exact⟩

def sampleStamp : Stamp := ⟨"1", "2026-01-01T00:00:00Z"⟩

def startLive (requestId : String) : Envelope :=
  ⟨"1", "2026-01-01T00:00:00Z", "start-live", some (.obj [("requestId", .str requestId)])⟩

def startLiveFrame (requestId : String) : InboundFrame :=
  ⟨"", startLive requestId, "packet", some "live-feed", "command"⟩

def liveFeed : TopicRoute := ⟨"live-feed", "command"⟩

def offer (requestId sessionId : String) : Envelope :=
  ⟨"2", "2026-01-01T00:00:00Z", "sdp-offer",
    some (.obj [("requestId", .str requestId), ("sessionId", .str sessionId)])⟩

def offerPacket (requestId sessionId : String) : OutboundPacket :=
  ⟨"d1", offer requestId sessionId, some "live-feed", "webrtc/offer"⟩

def session (client : Client) (requestId sessionId : String) : List Action :=
  [.message client client (startLiveFrame requestId) sampleStamp,
   .check client client liveFeed (startLive requestId),
   .dispatch client client liveFeed (startLive requestId),
   .broadcast 2 "live-feed" "webrtc/offer" (offer requestId sessionId),
   .write 2 (offerPacket requestId sessionId) client [] true,
   .written 2 (offerPacket requestId sessionId)]

def twoSessions : List Action :=
  [.connect 0 0, .connect 1 1] ++ session 0 "a" "s" ++ session 1 "b" "t" ++
    [.leave 0 0, .remove 0 0 .idle]

theorem twoSessions_orderly : ∀ p ∈ (replay (after "d1") .initial twoSessions).1,
    Enabled p.1 p.2 ∧ Orderly p.1 p.2 := by
  simp only [twoSessions, session, cons_append, nil_append, replay,
    forall_mem_cons, not_mem_nil, false_imp_iff, implies_true, and_true]
  refine ⟨⟨⟨rfl, by decide⟩, trivial⟩, ⟨⟨rfl, by decide⟩, trivial⟩, ⟨rfl, ?_⟩, ⟨rfl, trivial⟩,
    ⟨rfl, trivial⟩, ⟨rfl, ?_⟩, ⟨rfl, trivial⟩, ⟨rfl, trivial⟩, ⟨rfl, ?_⟩, ⟨rfl, trivial⟩,
    ⟨rfl, trivial⟩, ⟨rfl, ?_⟩, ⟨rfl, trivial⟩, ⟨rfl, trivial⟩, ⟨rfl, trivial⟩, rfl, trivial⟩
  · rintro _ ⟨⟩
    exact ⟨by decide, nofun⟩
  · rintro - _ _ ⟨⟩
    exact nofun
  · rintro _ ⟨⟩
    exact ⟨by decide, nofun⟩
  · rintro - _ _ ⟨⟩
    exact nofun

theorem consistent_of_orderly_two_sessions :
    ∃ tr s, (system "d1").Run .initial tr s ∧ s.requests.owner "a" = none ∧
      s.requests.owner "b" = some 1 ∧ s.sessions.owner "t" = some 1 ∧ Consistent s := by
  have hrun : (system "d1").Run .initial (replay (after "d1") .initial twoSessions).1
      (replay (after "d1") .initial twoSessions).2 :=
    System.run_replay twoSessions fun p hp => (twoSessions_orderly p hp).1
  exact ⟨_, _, hrun, rfl, rfl, rfl,
    (consistent_of_orderly hrun fun p hp => (twoSessions_orderly p hp).2).1 _ (end_mem_states _ _)⟩

def takeover : List Action :=
  [.connect 0 0, .connect 1 1] ++ session 0 "a" "s" ++ session 1 "a" "s" ++ [.leave 0 0]

theorem takeover_not_consistent :
    ∃ tr s, (system "d1").Run .initial tr s ∧ Enabled s (.remove 0 0 .idle) ∧ ¬ Consistent s ∧
      s.requests.owner "a" = some 1 ∧ s.sessions.owner "s" = some 1 ∧
      (after "d1" s (.remove 0 0 .idle)).requests.owner "a" = none ∧
      (after "d1" s (.remove 0 0 .idle)).sessions.owner "s" = none ∧
      (after "d1" s (.remove 0 0 .idle)).tasks 0 = .stopping ["s"] .idle := by
  have hmem : ∀ p ∈ (replay (after "d1") .initial takeover).1, Enabled p.1 p.2 := by
    simp only [takeover, session, cons_append, nil_append, replay,
      forall_mem_cons, not_mem_nil, false_imp_iff, implies_true, and_true]
    exact ⟨⟨rfl, by decide⟩, ⟨rfl, by decide⟩, rfl, rfl, rfl, rfl, rfl, rfl, rfl, rfl, rfl, rfl, rfl,
      rfl, rfl⟩
  refine ⟨_, _, System.run_replay takeover hmem, rfl, ?_, rfl, rfl, rfl, rfl, rfl⟩
  intro h
  have howner := (h.1.owner_iff "a" 0).2 (by decide +kernel)
  revert howner
  decide +kernel

end Trakrai.Edge
