import Trakrai.Gateway.Ownership
import Trakrai.Lib.Unwinding

namespace Trakrai.Gateway
open Function List Lib

section
variable {Token : Type}

section
variable (jwt : Jwt Token)

def arrival (deviceId : String) : Event Token → Option Socket
  | .connection ws (some token) _ =>
    if (connect jwt token).any (·.deviceId == deviceId) then some ws else none
  | _ => none

def socketsOf (deviceId : String) (events : List (Event Token)) : List Socket :=
  events.filterMap (arrival jwt deviceId)

def concerns (mine : Socket → Bool) (deviceId : String) : Event Token → Bool
  | .connection ws _ _ => mine ws
  | .verified ws _ _ _ => mine ws
  | .subscribed ws _ _ _ _ => mine ws
  | .message ws _ _ _ => mine ws
  | .close ws => mine ws
  | .error ws => mine ws
  | .mqtt topic _ => (parseDeviceTopic topic).any (·.deviceId == deviceId)

def Output.concerns (mine : Socket → Bool) (deviceId : String) : Output → Bool
  | .packet ws _ => mine ws
  | .sessionInfo ws _ => mine ws
  | .close ws _ => mine ws
  | .publish _ _ sent => sent.deviceId == deviceId

/-- The socket belongs to a client of the device in a run. -/
def ofDevice (deviceId : String) (tr : List (Server Token × Event Token))
    (ws : Socket) : Bool :=
  (socketsOf jwt deviceId (tr.map Prod.snd)).contains ws

/-- The connects, frames and disconnects of the clients of a device, and its messages. -/
def eventsOf (deviceId : String) (tr : List (Server Token × Event Token)) :
    List (Event Token) :=
  ownLabels (concerns (ofDevice jwt deviceId tr) deviceId) tr

/-- What is sent to the clients of a device and published to it. -/
def outputsOf (config : Config) (deviceId : String)
    (tr : List (Server Token × Event Token)) : List Output :=
  observed (fun s event => (outputs jwt config s event).filter
    (Output.concerns (ofDevice jwt deviceId tr) deviceId)) tr

end

def harmless (mine : Socket → Bool) (s : Server Token) (ws : Socket) : Bool :=
  ((s.requests.owned ws).all fun id => (s.requests.owner id).all (!mine ·)) &&
    (s.sessions.owned ws).all fun id => (s.sessions.owner id).all (!mine ·)

def registeredRequest (config : Config) (s : Server Token) (ws : Socket) (data : Option Json)
    (nowMs : Int) (stamp : Stamp) : Option String :=
  if !s.isAttached ws || breaksLimit config s ws data nowMs then none
  else
    match s.client ws, data.map readFrame with
    | some context, some (.packet service subtopic envelope) =>
      let packet : Packet :=
        ⟨context.deviceId, normalizeIncomingEnvelope stamp envelope, service, subtopic⟩
      if clientOwnsSession s ws (readRoutingIds envelope).sessionId &&
          canClientPublishPacket packet.header context then
        (readRoutingIds packet.envelope).requestId
      else none
    | _, _ => none

def namedSession (data : Option Json) : Option String :=
  match data.map readFrame with
  | some (.packet _ _ envelope) => (readRoutingIds envelope).sessionId
  | _ => none

/-- The sockets of the device and the others do not meet in the tables of owners: others register
and bind no id of theirs, leave with none of it, and frames and packets of the device do not find
an owner among the others. -/
def apart (config : Config) (mine : Socket → Bool) (deviceId : String) (s : Server Token)
    (event : Event Token) : Bool :=
  ((leaving config s event).all fun ws => mine ws || harmless mine s ws) &&
  match event with
  | .message ws data nowMs stamp =>
    if mine ws then (namedSession data).all fun id => (s.sessions.owner id).all mine
    else (registeredRequest config s ws data nowMs stamp).all fun id =>
      (s.requests.owner id).all (!mine ·)
  | .mqtt topic payload => (mqttPacket topic payload).all fun packet =>
    if packet.deviceId == deviceId then (packetTarget s packet).all mine
    else (boundSession s packet).all fun bound =>
      !mine bound.1 && (s.sessions.owner bound.2).all (!mine ·)
  | _ => true

/-- Two states that look alike to some sockets and to the device. -/
structure Alike (mine : Socket → Bool) (deviceId : String) (s t : Server Token) : Prop where
  clients : s.clients.filter (fun entry => mine entry.1) = t.clients.filter fun entry => mine entry.1
  requests : s.requests.restrict mine = t.requests.restrict mine
  sessions : s.sessions.restrict mine = t.sessions.restrict mine
  status : s.lastKnownStatuses deviceId = t.lastKnownStatuses deviceId
  limiter : ∀ ws, mine ws = true → s.inboundRateLimits ws = t.inboundRateLimits ws
  refs : s.subscriptionRefs deviceId = t.subscriptionRefs deviceId
  stage : ∀ ws, mine ws = true → s.stages ws = t.stages ws
  state : ∀ ws, mine ws = true → s.readyStates ws = t.readyStates ws

variable {mine : Socket → Bool} {deviceId : String} {s t u : Server Token}

theorem Alike.refl (s : Server Token) : Alike mine deviceId s s :=
  ⟨rfl, rfl, rfl, rfl, fun _ _ => rfl, rfl, fun _ _ => rfl, fun _ _ => rfl⟩

theorem Alike.symm (h : Alike mine deviceId s t) : Alike mine deviceId t s :=
  ⟨h.clients.symm, h.requests.symm, h.sessions.symm, h.status.symm,
    fun ws hw => (h.limiter ws hw).symm, h.refs.symm, fun ws hw => (h.stage ws hw).symm,
    fun ws hw => (h.state ws hw).symm⟩

theorem Alike.trans (h : Alike mine deviceId s t) (h' : Alike mine deviceId t u) :
    Alike mine deviceId s u :=
  ⟨h.clients.trans h'.clients, h.requests.trans h'.requests, h.sessions.trans h'.sessions,
    h.status.trans h'.status, fun ws hw => (h.limiter ws hw).trans (h'.limiter ws hw),
    h.refs.trans h'.refs, fun ws hw => (h.stage ws hw).trans (h'.stage ws hw),
    fun ws hw => (h.state ws hw).trans (h'.state ws hw)⟩

/-- Two answers that look alike, with what they send. -/
def SameView (mine : Socket → Bool) (deviceId : String) (x y : Server Token × List Output) : Prop :=
  Alike mine deviceId x.1 y.1 ∧
    x.2.filter (Output.concerns mine deviceId) = y.2.filter (Output.concerns mine deviceId)

def Unseen (mine : Socket → Bool) (deviceId : String) (s : Server Token)
    (x : Server Token × List Output) : Prop :=
  Alike mine deviceId s x.1 ∧ x.2.filter (Output.concerns mine deviceId) = []

theorem update_congr (h : ∀ ws, mine ws = true → f ws = g ws)
    (ws : Socket) :
    ∀ ws', mine ws' = true → update f ws value ws' = update g ws value ws' := by
  intro ws' hw
  by_cases he : ws' = ws
  · subst he
    rw [update_self, update_self]
  · rw [update_of_ne he, update_of_ne he, h ws' hw]

theorem update_foreign (h : mine ws = false) :
    ∀ ws', mine ws' = true → f ws' = update f ws value ws' := by
  intro ws' hw
  rw [update_of_ne]
  rintro rfl
  cases h.symm.trans hw

theorem Alike.setStage (h : Alike mine deviceId s t) (ws : Socket) (stage : Stage Token) :
    Alike mine deviceId (s.setStage ws stage) (t.setStage ws stage) :=
  { h with stage := update_congr h.stage ws }

theorem Alike.setReadyState (h : Alike mine deviceId s t) (ws : Socket) (state : ReadyState) :
    Alike mine deviceId (s.setReadyState ws state) (t.setReadyState ws state) :=
  { h with state := update_congr h.state ws }

theorem Alike.setLimiter (h : Alike mine deviceId s t) (ws : Socket) (limiter : Limiter) :
    Alike mine deviceId (s.setLimiter ws limiter) (t.setLimiter ws limiter) :=
  { h with limiter := update_congr h.limiter ws }

theorem alike_setStage (hw : mine ws = false) (s : Server Token) (stage : Stage Token) :
    Alike mine deviceId s (s.setStage ws stage) :=
  { Alike.refl s with stage := update_foreign hw }

theorem alike_setReadyState (hw : mine ws = false) (s : Server Token) (state : ReadyState) :
    Alike mine deviceId s (s.setReadyState ws state) :=
  { Alike.refl s with state := update_foreign hw }

theorem alike_setLimiter (hw : mine ws = false) (s : Server Token) (limiter : Limiter) :
    Alike mine deviceId s (s.setLimiter ws limiter) :=
  { Alike.refl s with limiter := update_foreign hw }

theorem SameView.closeSocket (h : Alike mine deviceId s t) (hw : mine ws = true) (reason : String) :
    SameView mine deviceId (closeSocket s ws reason) (closeSocket t ws reason) := by
  unfold Gateway.closeSocket
  rw [h.state ws hw]
  split
  · exact ⟨h.setReadyState ws .closing, rfl⟩
  · exact ⟨h, rfl⟩

theorem Unseen.closeSocket (hw : mine ws = false) (s : Server Token) (reason : String) :
    Unseen mine deviceId s (closeSocket s ws reason) := by
  unfold Gateway.closeSocket
  split
  · exact ⟨alike_setReadyState hw s .closing, by simp [Output.concerns, hw]⟩
  · exact ⟨.refl s, rfl⟩

theorem sendPacket_congr (h : Alike mine deviceId s t) (hw : mine ws = true) (packet : Packet) :
    sendPacket s ws packet = sendPacket t ws packet := by
  unfold sendPacket
  rw [h.state ws hw]

theorem sendPacket_unseen (hw : mine ws = false) (s : Server Token) (packet : Packet) :
    (sendPacket s ws packet).filter (Output.concerns mine deviceId) = [] := by
  unfold sendPacket
  split <;> simp [Output.concerns, hw]

theorem SameView.welcome (h : Alike mine deviceId s t)
    (hw : mine ws = true) (hd : context.deviceId = deviceId) (stamp : Stamp) :
    SameView mine deviceId (welcome s ws context stamp) (welcome t ws context stamp) := by
  have hinfo : sendSessionInfo s ws context.deviceId = sendSessionInfo t ws context.deviceId := by
    unfold sendSessionInfo
    rw [h.state ws hw]
  have hcached : sendCachedStatus s ws context = sendCachedStatus t ws context := by
    unfold sendCachedStatus
    rw [hd, h.status]
    split
    · exact sendPacket_congr h hw _
    · rfl
  rw [welcome_eq, welcome_eq, hinfo, hcached]
  exact ⟨h, rfl⟩

theorem Unseen.welcome (hw : mine ws = false)
    (hd : context.deviceId ≠ deviceId) (s : Server Token) (stamp : Stamp) :
    Unseen mine deviceId s (welcome s ws context stamp) := by
  have hinfo : (sendSessionInfo s ws context.deviceId).filter (Output.concerns mine deviceId) =
      [] := by
    unfold sendSessionInfo
    split <;> simp [Output.concerns, hw]
  have hcached : (sendCachedStatus s ws context).filter (Output.concerns mine deviceId) = [] := by
    unfold sendCachedStatus
    split
    · exact sendPacket_unseen hw s _
    · rfl
  rw [welcome_eq]
  refine ⟨.refl s, ?_⟩
  rw [filter_append, filter_append, hinfo, hcached]
  simp [Output.concerns, statusRequest, hd]

theorem lookup_filter_key {entries : List (Socket × α)} (hw : mine ws = true) :
    (entries.filter fun entry => mine entry.1).lookup ws = entries.lookup ws := by
  induction entries with
  | nil => rfl
  | cons entry entries ih =>
    by_cases he : ws = entry.1
    · rw [filter_cons_of_pos (by rwa [← he]), lookup_cons, lookup_cons, ih]
    · have hne : (ws == entry.1) = false := by simpa using he
      rw [filter_cons]
      split
      · rw [lookup_cons, lookup_cons, hne, ih]
      · rw [lookup_cons, hne, ih]

theorem Alike.client (h : Alike mine deviceId s t) (hw : mine ws = true) :
    s.client ws = t.client ws := by
  unfold Server.client
  rw [← lookup_filter_key hw, h.clients, lookup_filter_key hw]

theorem Alike.unsubscribe (h : Alike mine deviceId s t) :
    Alike mine deviceId (unsubscribeFromDevice s deviceId) (unsubscribeFromDevice t deviceId) := by
  unfold unsubscribeFromDevice
  rw [h.refs]
  split
  · exact h
  · split
    · exact { h with refs := by simp }
    · refine { h with refs := by simp, stage := ?_ }
      intro ws hw
      exact congrArg (Stage.overtake deviceId) (h.stage ws hw)

theorem Alike.release (h : Alike mine deviceId s t) (hw : mine ws = true) :
    Alike mine deviceId (clearClientRoutes s ws) (clearClientRoutes t ws) := by
  refine { h with requests := ?_, sessions := ?_ }
  · simp only [clearClientRoutes, Routes.restrict_release hw, h.requests]
  · simp only [clearClientRoutes, Routes.restrict_release hw, h.sessions]

theorem Alike.drop (h : Alike mine deviceId s t) (ws : Socket) : Alike mine deviceId { s with
        clients := s.clients.filter (·.1 != ws)
        inboundRateLimits := update s.inboundRateLimits ws .empty }
      { t with
        clients := t.clients.filter (·.1 != ws)
        inboundRateLimits := update t.inboundRateLimits ws .empty } := by
  refine { h with clients := ?_, limiter := update_congr h.limiter ws }
  have hcomm : ∀ entries : List (Socket × ClientContext),
      (entries.filter (·.1 != ws)).filter (fun entry => mine entry.1) =
        (entries.filter fun entry => mine entry.1).filter (·.1 != ws) := by
    intro entries
    rw [filter_comm]
  simp only [hcomm, h.clients]

def Known (jwt : Jwt Token) (mine : Socket → Bool) (deviceId : String) (s : Server Token) : Prop :=
  Vetted jwt (fun ws context => mine ws = true ↔ context.deviceId = deviceId) s

theorem ne_device {context : ClientContext} (h : mine ws = true ↔ context.deviceId = deviceId)
    (hw : mine ws = false) : context.deviceId ≠ deviceId := by
  intro hd
  cases (h.2 hd).symm.trans hw

theorem Alike.cleanupClient (h : Alike mine deviceId s t) (hk : Known jwt mine deviceId s)
    (hw : mine ws = true) :
    Alike mine deviceId (cleanupClient s ws) (cleanupClient t ws) := by
  unfold Gateway.cleanupClient
  rw [← h.client hw]
  cases hc : s.client ws with
  | none => exact (h.release hw).drop ws
  | some context =>
    obtain rfl : context.deviceId = deviceId := (hk.client _ (mem_of_client hc)).1 hw
    exact (h.unsubscribe.release hw).drop ws

theorem filter_eq_none_of_all {o : Option Socket} (h : o.all (!mine ·) = true) :
    o.filter mine = none := by
  cases o with
  | none => rfl
  | some ws => simpa using h

theorem alike_unsubscribe (hk : Known jwt mine deviceId s) (hd : other ≠ deviceId) :
    Alike mine deviceId s (unsubscribeFromDevice s other) := by
  have hover : ∀ ws, mine ws = true → s.stages ws = (s.stages ws).overtake other := by
    intro ws hw
    cases hs : s.stages ws with
    | subscribing context overtaken =>
      have hc : context.deviceId = deviceId := (hk.subscribing ws context overtaken hs).1 hw
      simp [Stage.overtake, hc, Ne.symm hd]
    | _ => rfl
  unfold unsubscribeFromDevice
  split
  · exact .refl s
  · split
    · exact { Alike.refl s with refs := by simp [Ne.symm hd] }
    · exact { Alike.refl s with refs := by simp [Ne.symm hd], stage := hover }

theorem alike_release (hw : mine ws = false) (hh : harmless mine s ws = true) :
    Alike mine deviceId s (clearClientRoutes s ws) := by
  simp only [harmless, Bool.and_eq_true, all_eq_true] at hh
  refine { Alike.refl s with requests := ?_, sessions := ?_ }
  · refine (Routes.restrict_release_of_not hw ?_).symm
    intro id hid
    exact filter_eq_none_of_all (hh.1 id hid)
  · refine (Routes.restrict_release_of_not hw ?_).symm
    intro id hid
    exact filter_eq_none_of_all (hh.2 id hid)

theorem alike_drop (hw : mine ws = false) (s : Server Token) : Alike mine deviceId s { s with
      clients := s.clients.filter (·.1 != ws)
      inboundRateLimits := update s.inboundRateLimits ws .empty } := by
  refine { Alike.refl s with clients := ?_, limiter := update_foreign hw }
  simp only [filter_filter]
  refine filter_congr fun entry _ => ?_
  cases hm : mine entry.1 with
  | false => rfl
  | true =>
    have hne : entry.1 ≠ ws := by
      intro he
      cases (he ▸ hm).symm.trans hw
    simp [hne]

theorem unsubscribe_routes (s : Server Token) (other : String) :
    (unsubscribeFromDevice s other).requests = s.requests ∧
      (unsubscribeFromDevice s other).sessions = s.sessions := by
  obtain ⟨refs, broker, he | he⟩ := unsubscribeFromDevice_eq s other
  · rw [he]
    exact ⟨rfl, rfl⟩
  · rw [he]
    exact ⟨rfl, rfl⟩

theorem alike_cleanupClient (hk : Known jwt mine deviceId s) (hw : mine ws = false)
    (hh : harmless mine s ws = true) : Alike mine deviceId s (cleanupClient s ws) := by
  unfold Gateway.cleanupClient
  cases hc : s.client ws with
  | none => exact (alike_release hw hh).trans (alike_drop hw _)
  | some context =>
    have hd : context.deviceId ≠ deviceId := ne_device (hk.client _ (mem_of_client hc)) hw
    have hh' : harmless mine (unsubscribeFromDevice s context.deviceId) ws = true := by
      obtain ⟨hr, hs⟩ := unsubscribe_routes s context.deviceId
      rw [harmless, hr, hs]
      exact hh
    exact ((alike_unsubscribe hk hd).trans (alike_release hw hh')).trans (alike_drop hw _)

theorem SameView.subscribeClient (h : Alike mine deviceId s t)
    (hw : mine ws = true) (hd : context.deviceId = deviceId) (stamp : Stamp) :
    SameView mine deviceId (subscribeClient s ws context stamp)
      (subscribeClient t ws context stamp) := by
  subst hd
  have hadded : ∀ refs refs' : String → Option Nat, refs context.deviceId = refs' context.deviceId →
      Alike mine context.deviceId
        { s with clients := s.clients ++ [(ws, context)], subscriptionRefs := refs }
        { t with clients := t.clients ++ [(ws, context)], subscriptionRefs := refs' } := by
    intro refs refs' hr
    exact { h with clients := by simp only [filter_append, h.clients], refs := hr }
  unfold Gateway.subscribeClient
  simp only [h.refs]
  split
  · exact SameView.welcome ((hadded _ _ (by simp)).setStage ws _) hw rfl stamp
  · exact ⟨(hadded _ _ (by simp)).setStage ws _, rfl⟩

theorem Unseen.of_alike (h : Alike mine deviceId s t) (hx : Unseen mine deviceId t x) :
    Unseen mine deviceId s x :=
  ⟨h.trans hx.1, hx.2⟩

theorem Unseen.subscribeClient (hw : mine ws = false)
    (hd : context.deviceId ≠ deviceId) (s : Server Token) (stamp : Stamp) :
    Unseen mine deviceId s (subscribeClient s ws context stamp) := by
  have hadded : ∀ count, Alike mine deviceId s { s with
      clients := s.clients ++ [(ws, context)]
      subscriptionRefs := update s.subscriptionRefs context.deviceId count } := by
    intro count
    refine { Alike.refl s with clients := ?_, refs := by simp [Ne.symm hd] }
    simp [hw]
  unfold Gateway.subscribeClient
  simp only
  split
  · exact Unseen.of_alike ((hadded _).trans (alike_setStage hw _ _)) (.welcome hw hd _ stamp)
  · exact ⟨(hadded _).trans (alike_setStage hw _ _), rfl⟩

theorem SameView.refuse (h : Alike mine deviceId s t) (hw : mine ws = true) (reason : String) :
    SameView mine deviceId (Gateway.closeSocket (s.setStage ws .refused) ws reason)
      (Gateway.closeSocket (t.setStage ws .refused) ws reason) :=
  .closeSocket (h.setStage ws .refused) hw reason

theorem Unseen.refuse (hw : mine ws = false) (s : Server Token) (reason : String) :
    Unseen mine deviceId s (Gateway.closeSocket (s.setStage ws .refused) ws reason) :=
  .of_alike (alike_setStage hw s .refused) (.closeSocket hw _ reason)

theorem owner_congr {r r' : Routes String Socket} {id : String}
    (h : r.restrict mine = r'.restrict mine) (hr : (r.owner id).all mine = true)
    (hr' : (r'.owner id).all mine = true) : r.owner id = r'.owner id := by
  have hfilter : ∀ o : Option Socket, o.all mine = true → o.filter mine = o := by
    intro o ho
    cases o with
    | none => rfl
    | some ws => simpa using ho
  have howner : (r.owner id).filter mine = (r'.owner id).filter mine :=
    congrFun (congrArg Routes.owner h) id
  rwa [hfilter _ hr, hfilter _ hr'] at howner

theorem clientOwnsSession_congr {sessionId : Option String} (h : Alike mine deviceId s t)
    (hs : sessionId.all (fun id => (s.sessions.owner id).all mine) = true)
    (ht : sessionId.all (fun id => (t.sessions.owner id).all mine) = true) (ws : Socket) :
    clientOwnsSession s ws sessionId = clientOwnsSession t ws sessionId := by
  cases sessionId with
  | none => rfl
  | some id =>
    simp only [clientOwnsSession, Option.bind_some]
    rw [owner_congr h.sessions hs ht]

theorem publishPacket_alike (s : Server Token) (ws : Socket) (packet : Packet) :
    Alike mine deviceId s (publishPacket config s ws packet).1 := by
  obtain ⟨crashed, he⟩ := publishPacket_state config s ws packet
  rw [he]
  exact { Alike.refl s with }

theorem publishPacket_outputs (s t : Server Token) (ws : Socket) (packet : Packet) :
    (publishPacket config s ws packet).2 = (publishPacket config t ws packet).2 := by
  unfold publishPacket publishMqtt
  split
  · split <;> rfl
  · rfl

theorem SameView.publishPacket (h : Alike mine deviceId s t) (ws : Socket) (packet : Packet) :
    SameView mine deviceId (publishPacket config s ws packet) (publishPacket config t ws packet) :=
  ⟨((publishPacket_alike s ws packet).symm.trans h).trans (publishPacket_alike t ws packet),
    by rw [publishPacket_outputs s t]⟩

theorem Unseen.publishPacket (hd : packet.deviceId ≠ deviceId) (s : Server Token)
    (ws : Socket) : Unseen mine deviceId s (publishPacket config s ws packet) := by
  refine ⟨publishPacket_alike s ws packet, ?_⟩
  unfold Gateway.publishPacket publishMqtt
  split
  · split
    · simp [Output.concerns, hd]
    · rfl
  · rfl

theorem Alike.register (h : Alike mine deviceId s t) (hw : mine ws = true)
    (requestId : Option String) :
    Alike mine deviceId (registerRequestOwner s ws requestId)
      (registerRequestOwner t ws requestId) := by
  cases requestId with
  | none => exact h
  | some id =>
    refine { h with requests := ?_ }
    simp only [registerRequestOwner, Routes.restrict_claim hw, h.requests]

theorem alike_register {requestId : Option String} (hw : mine ws = false)
    (ha : requestId.all (fun id => (s.requests.owner id).all (!mine ·)) = true) :
    Alike mine deviceId s (registerRequestOwner s ws requestId) := by
  cases requestId with
  | none => exact .refl s
  | some id =>
    refine { Alike.refl s with requests := ?_ }
    exact (Routes.restrict_claim_of_not hw (filter_eq_none_of_all ha)).symm

theorem SameView.handleFrame (h : Alike mine deviceId s t)
    (hw : mine ws = true) (hd : context.deviceId = deviceId)
    (hsession : ∀ service subtopic envelope, frame = .packet service subtopic envelope →
      clientOwnsSession s ws (readRoutingIds envelope).sessionId =
        clientOwnsSession t ws (readRoutingIds envelope).sessionId) (stamp : Stamp) :
    SameView mine deviceId (handleFrame config s ws context frame stamp)
      (handleFrame config t ws context frame stamp) := by
  cases frame with
  | setDevice requested =>
    simp only [Gateway.handleFrame]
    split
    · exact ⟨h, by rw [sendPacket_congr h hw]⟩
    · exact .welcome h hw hd stamp
  | invalid => exact ⟨h, by simp only [Gateway.handleFrame, sendPacket_congr h hw]⟩
  | packet service subtopic envelope =>
    simp only [Gateway.handleFrame, hsession service subtopic envelope rfl]
    split
    · exact ⟨h, rfl⟩
    · split
      · exact ⟨h, by rw [sendPacket_congr h hw]⟩
      · exact .publishPacket (h.register hw _) ws _

theorem SameView.message (h : Alike mine deviceId s t) (hk : Known jwt mine deviceId s)
    (hw : mine ws = true)
    (hs : (namedSession data).all (fun id => (s.sessions.owner id).all mine) = true)
    (ht : (namedSession data).all (fun id => (t.sessions.owner id).all mine) = true)
    (nowMs : Int) (stamp : Stamp) :
    SameView mine deviceId (message config s ws data nowMs stamp)
      (message config t ws data nowMs stamp) := by
  have hclient : ∀ limiter, (s.setLimiter ws limiter).client ws = s.client ws := fun _ => rfl
  have hclient' : ∀ limiter, (t.setLimiter ws limiter).client ws = s.client ws :=
    fun _ => (h.client hw).symm
  have hclose : ∀ limiter reason, SameView mine deviceId
      (closeForRateLimit (s.setLimiter ws limiter) ws reason)
      (closeForRateLimit (t.setLimiter ws limiter) ws reason) := by
    intro limiter reason
    exact .closeSocket ((h.setLimiter ws limiter).cleanupClient (Vetted.setLimiter hk ws limiter) hw)
      hw reason
  have hframe : ∀ limiter value context, data = some value → s.client ws = some context →
      SameView mine deviceId
        (Gateway.handleFrame config (s.setLimiter ws limiter) ws context (readFrame value) stamp)
        (Gateway.handleFrame config (t.setLimiter ws limiter) ws context (readFrame value)
          stamp) := by
    intro limiter value context hdata hc
    have hd : context.deviceId = deviceId := (hk.client _ (mem_of_client hc)).1 hw
    refine .handleFrame (h.setLimiter ws limiter) hw hd ?_ stamp
    intro service subtopic envelope hf
    simp only [namedSession, hdata, Option.map_some, hf] at hs ht
    exact clientOwnsSession_congr (h.setLimiter ws limiter) hs ht ws
  have htwice : ∀ (x : Server Token) limiter limiter',
      (x.setLimiter ws limiter).setLimiter ws limiter' = x.setLimiter ws limiter' := by
    intro x limiter limiter'
    simp [Server.setLimiter]
  simp only [Gateway.message, ← h.limiter ws hw, hclient, hclient']
  split
  case h_1 reason hv => exact hclose _ reason
  case h_2 => exact ⟨h.setLimiter ws _, rfl⟩
  case h_3 => exact ⟨h.setLimiter ws _, rfl⟩
  case h_4 value context hv hc =>
    split
    · simp only [htwice]
      split
      · exact hclose _ _
      · exact hframe _ value context rfl hc
    · exact hframe _ value context rfl hc

theorem Unseen.message (hk : Known jwt mine deviceId s) (hw : mine ws = false)
    (hatt : s.isAttached ws = true)
    (hl : breaksLimit config s ws data nowMs = true → harmless mine s ws = true)
    (hr : (registeredRequest config s ws data nowMs stamp).all
      (fun id => (s.requests.owner id).all (!mine ·)) = true) :
    Unseen mine deviceId s (message config s ws data nowMs stamp) := by
  obtain ⟨limiter, ⟨reason, hbreaks, he⟩ | ⟨-, he⟩ | ⟨value, context, hb, rfl, hc, he⟩⟩ :=
    message_cases config s ws data nowMs stamp
  · rw [he]
    exact .of_alike ((alike_setLimiter hw s limiter).trans
      (alike_cleanupClient (Vetted.setLimiter hk ws limiter) hw (hl hbreaks)))
      (.closeSocket hw _ reason)
  · rw [he]
    exact ⟨alike_setLimiter hw s limiter, rfl⟩
  · have hd : context.deviceId ≠ deviceId := ne_device (hk.client _ (mem_of_client hc)) hw
    rw [he]
    refine .of_alike (alike_setLimiter hw s limiter) ?_
    obtain ⟨message, options, -, hf⟩ | hf | hf | ⟨service, subtopic, envelope, hp, hown, hcan, hf⟩ :=
      handleFrame_cases config (s.setLimiter ws limiter) ws context (readFrame value) stamp
    · rw [hf]
      exact ⟨.refl _, sendPacket_unseen hw _ _⟩
    · rw [hf]
      exact ⟨.refl _, rfl⟩
    · rw [hf]
      exact .welcome hw hd _ stamp
    · rw [hf]
      have hid : registeredRequest config s ws (some value) nowMs stamp =
          (readRoutingIds (normalizeIncomingEnvelope stamp envelope)).requestId := by
        have hown' : clientOwnsSession s ws (readRoutingIds envelope).sessionId = true := hown
        simp only [registeredRequest, hatt, hb, hc, Option.map_some, hp, hown', hcan]
        rfl
      rw [hid] at hr
      exact .of_alike (alike_register hw hr) (.publishPacket hd _ ws)

theorem mqttPacket_device (h : mqttPacket topic payload = some packet) :
    ∃ parsed, parseDeviceTopic topic = some parsed ∧ packet.deviceId = parsed.deviceId := by
  unfold mqttPacket at h
  split at h
  case h_1 parsed payload hp =>
    split at h
    · cases h
    · cases h
      exact ⟨parsed, hp, rfl⟩
  case h_2 => cases h

theorem deliver_filter (hk : Known jwt mine packet.deviceId s)
    (target : Option Socket) :
    deliver s packet target =
      (s.clients.filter fun entry => mine entry.1).flatMap fun (ws, context) =>
        if context.deviceId ≠ packet.deviceId || target.any (· != ws) then []
        else
          match filterPacketForClient packet context with
          | some filtered => sendPacket s ws filtered
          | none => [] := by
  refine (flatMap_filter_of_nil ?_).symm
  intro entry hm hmine
  have hd : entry.2.deviceId ≠ packet.deviceId := ne_device (hk.client entry hm) hmine
  simp [hd]

theorem deliver_congr (h : Alike mine packet.deviceId s t)
    (hs : Known jwt mine packet.deviceId s) (ht : Known jwt mine packet.deviceId t)
    (target : Option Socket) : deliver s packet target = deliver t packet target := by
  rw [deliver_filter hs, deliver_filter ht, h.clients]
  refine flatMap_congr fun entry hm => ?_
  have hw : mine entry.1 = true := (mem_filter.1 hm).2
  simp only
  split
  · rfl
  · split
    · exact sendPacket_congr h hw _
    · rfl

theorem deliver_unseen (hk : Known jwt mine deviceId s)
    (hd : packet.deviceId ≠ deviceId) (target : Option Socket) :
    (deliver s packet target).filter (Output.concerns mine deviceId) = [] := by
  rw [filter_eq_nil_iff]
  intro output hm
  obtain ⟨ws, context, filtered, hmem, hc, -, -, -, rfl⟩ := mem_deliver hm
  intro hw
  exact hd (hc.symm.trans ((hk.client _ hmem).1 hw))

theorem Alike.rememberStatus (h : Alike mine packet.deviceId s t) :
    Alike mine packet.deviceId (rememberStatus s packet) (rememberStatus t packet) := by
  unfold Gateway.rememberStatus
  split
  · exact { h with status := by simp }
  · exact h

theorem alike_rememberStatus (hd : packet.deviceId ≠ deviceId)
    (s : Server Token) : Alike mine deviceId s (rememberStatus s packet) := by
  unfold Gateway.rememberStatus
  split
  · exact { Alike.refl s with status := by simp [Ne.symm hd] }
  · exact .refl s

theorem packetTarget_remember (s : Server Token) (packet : Packet) :
    packetTarget (rememberStatus s packet) packet = packetTarget s packet := by
  obtain ⟨statuses, hr⟩ := rememberStatus_eq s packet
  rw [hr]
  rfl

theorem boundSession_remember (s : Server Token) (packet : Packet) :
    boundSession (rememberStatus s packet) packet = boundSession s packet := by
  obtain ⟨statuses, hr⟩ := rememberStatus_eq s packet
  rw [hr]
  rfl

theorem requestOwner_congr {packet : Packet} (h : Alike mine deviceId s t)
    (hs : (packetTarget s packet).all mine = true) (ht : (packetTarget t packet).all mine = true) :
    (readRoutingIds packet.envelope).requestId.bind s.requests.owner =
      (readRoutingIds packet.envelope).requestId.bind t.requests.owner := by
  cases hr : (readRoutingIds packet.envelope).requestId with
  | none => rfl
  | some id =>
    have hall : ∀ x : Server Token, (packetTarget x packet).all mine = true →
        (x.requests.owner id).all mine = true := by
      intro x hx
      cases ho : x.requests.owner id with
      | none => rfl
      | some owner => simpa [packetTarget, hr, ho] using hx
    exact owner_congr h.requests (hall s hs) (hall t ht)

theorem packetTarget_congr {packet : Packet} (h : Alike mine deviceId s t)
    (hs : (packetTarget s packet).all mine = true) (ht : (packetTarget t packet).all mine = true) :
    packetTarget s packet = packetTarget t packet := by
  have hreq := requestOwner_congr h hs ht
  simp only [packetTarget] at hs ht ⊢
  rw [← hreq] at ht ⊢
  cases ho : (readRoutingIds packet.envelope).requestId.bind s.requests.owner with
  | some owner => rfl
  | none =>
    rw [ho, Option.none_or] at hs ht
    rw [Option.none_or, Option.none_or]
    cases hid : (readRoutingIds packet.envelope).sessionId with
    | none => rfl
    | some id =>
      rw [hid] at hs ht
      exact owner_congr h.sessions hs ht

theorem Alike.bindSession (h : Alike mine deviceId s t)
    (hs : (packetTarget s packet).all mine = true) (ht : (packetTarget t packet).all mine = true) :
    Alike mine deviceId (bindSession s packet) (bindSession t packet) := by
  have hbound : boundSession s packet = boundSession t packet := by
    simp only [boundSession, requestOwner_congr h hs ht]
  unfold Gateway.bindSession
  rw [← hbound]
  cases hb : boundSession s packet with
  | none => exact h
  | some bound =>
    have hw : mine bound.1 = true := by
      obtain ⟨owner, ho, hid⟩ := Option.bind_eq_some_iff.1 hb
      obtain ⟨id, -, rfl⟩ := Option.map_eq_some_iff.1 hid
      simpa [packetTarget, ho] using hs
    refine { h with sessions := ?_ }
    simp only [Routes.restrict_claim hw, h.sessions]

theorem alike_bindSession {packet : Packet} (h : (boundSession s packet).all (fun bound =>
      !mine bound.1 && (s.sessions.owner bound.2).all (!mine ·)) = true) :
    Alike mine deviceId s (bindSession s packet) := by
  unfold Gateway.bindSession
  cases hb : boundSession s packet with
  | none => exact .refl s
  | some bound =>
    rw [hb] at h
    simp only [Option.all_some, Bool.and_eq_true, Bool.not_eq_true'] at h
    refine { Alike.refl s with sessions := ?_ }
    exact (Routes.restrict_claim_of_not h.1 (filter_eq_none_of_all h.2)).symm

theorem SameView.mqttMessage (h : Alike mine deviceId s t) (hks : Known jwt mine deviceId s)
    (hkt : Known jwt mine deviceId t)
    (hs : ∀ packet, mqttPacket topic payload = some packet →
      packet.deviceId = deviceId ∧ (packetTarget s packet).all mine = true)
    (ht : ∀ packet, mqttPacket topic payload = some packet →
      (packetTarget t packet).all mine = true) :
    SameView mine deviceId (mqttMessage s topic payload) (mqttMessage t topic payload) := by
  rw [mqttMessage_eq, mqttMessage_eq]
  cases hp : mqttPacket topic payload with
  | none => exact ⟨h, rfl⟩
  | some packet =>
    obtain ⟨rfl, htarget⟩ := hs packet hp
    have htarget' := ht packet hp
    rw [← packetTarget_remember] at htarget htarget'
    have hr := h.rememberStatus
    have hb := hr.bindSession htarget htarget'
    simp only [packetTarget_congr hr htarget htarget']
    refine ⟨hb, ?_⟩
    have hks' := (Vetted.rememberStatus hks packet).bindSession packet
    have hkt' := (Vetted.rememberStatus hkt packet).bindSession packet
    simp only [deliver_congr hb hks' hkt']

theorem Unseen.mqttMessage (hk : Known jwt mine deviceId s)
    (h : ∀ packet, mqttPacket topic payload = some packet → packet.deviceId ≠ deviceId ∧
      (boundSession s packet).all (fun bound =>
        !mine bound.1 && (s.sessions.owner bound.2).all (!mine ·)) = true) :
    Unseen mine deviceId s (mqttMessage s topic payload) := by
  rw [mqttMessage_eq]
  cases hp : mqttPacket topic payload with
  | none => exact ⟨.refl s, rfl⟩
  | some packet =>
    obtain ⟨hd, hb⟩ := h packet hp
    have hsame : (rememberStatus s packet).sessions = s.sessions := by
      obtain ⟨statuses, hr⟩ := rememberStatus_eq s packet
      rw [hr]
    rw [← boundSession_remember, ← hsame] at hb
    refine ⟨(alike_rememberStatus hd s).trans (alike_bindSession hb), ?_⟩
    exact deliver_unseen ((Vetted.rememberStatus hk packet).bindSession packet) hd _

theorem isAttached_congr (h : Alike mine deviceId s t) (hw : mine ws = true) :
    s.isAttached ws = t.isAttached ws := by
  unfold Server.isAttached
  rw [h.stage ws hw]

theorem sameView_handle (h : Alike mine deviceId s t) (he : Enabled s event)
    (hks : Known jwt mine deviceId s) (hkt : Known jwt mine deviceId t)
    (has : apart config mine deviceId s event = true)
    (hat : apart config mine deviceId t event = true)
    (hc : concerns mine deviceId event = true) :
    SameView mine deviceId (handle jwt config s event) (handle jwt config t event) := by
  simp only [apart, Bool.and_eq_true] at has hat
  cases event with
  | connection ws token requested =>
    have hopen := h.setReadyState ws .open
    cases token with
    | none => exact .refuse hopen hc _
    | some token => exact ⟨hopen.setStage ws _, rfl⟩
  | verified ws token requested stamp =>
    simp only [handle, verified]
    split
    · exact .refuse h hc _
    case h_2 context hconn =>
      split
      · exact .refuse h hc _
      · have hd : context.deviceId = deviceId :=
          (hks.verifying ws token requested he.2 context hconn).1 hc
        exact .subscribeClient h hc hd stamp
  | subscribed ws context overtaken error stamp =>
    obtain rfl : context.deviceId = deviceId := (hks.subscribing ws context overtaken he.2).1 hc
    cases error with
    | none =>
      simp only [handle, subscribed]
      refine .welcome (Alike.setStage ?_ ws _) hc rfl stamp
      cases overtaken
      · exact { h with }
      · exact h
    | some message =>
      have hnone : Alike mine context.deviceId
          { s with subscriptionRefs := update s.subscriptionRefs context.deviceId none }
          { t with subscriptionRefs := update t.subscriptionRefs context.deviceId none } :=
        { h with refs := by simp }
      exact ⟨hnone.setStage ws _, congrArg _ (sendPacket_congr hnone hc _)⟩
  | message ws data nowMs stamp =>
    simp only [handle, ← isAttached_congr h hc]
    split
    · have hw : mine ws = true := hc
      simp only [hw, if_true] at has hat
      exact .message h hks hw has.2 hat.2 nowMs stamp
    · exact ⟨h, rfl⟩
  | close ws =>
    have hs := h.setReadyState ws .closed
    have hk' := Vetted.setReadyState hks ws .closed
    have hsame := isAttached_congr h hc
    cases hatt : s.isAttached ws with
    | true =>
      simp only [handle, isAttached_setReadyState, ← hsame, hatt, if_true]
      exact ⟨hs.cleanupClient hk' hc, rfl⟩
    | false =>
      simp only [handle, isAttached_setReadyState, ← hsame, hatt]
      exact ⟨hs, rfl⟩
  | error ws =>
    have hs := h.setReadyState ws .closing
    have hk' := Vetted.setReadyState hks ws .closing
    have hsame := isAttached_congr h hc
    cases hatt : s.isAttached ws with
    | true =>
      simp only [handle, isAttached_setReadyState, ← hsame, hatt, if_true]
      exact ⟨hs.cleanupClient hk' hc, rfl⟩
    | false =>
      simp only [handle, isAttached_setReadyState, ← hsame, hatt]
      exact ⟨{ hs with }, rfl⟩
  | mqtt topic payload =>
    have hown : ∀ packet, mqttPacket topic payload = some packet → packet.deviceId = deviceId := by
      intro packet hp
      obtain ⟨parsed, hparsed, hd⟩ := mqttPacket_device hp
      simp only [concerns, hparsed, Option.any_some, beq_iff_eq] at hc
      exact hd.trans hc
    have htarget : ∀ x : Server Token, ((mqttPacket topic payload).all fun packet =>
        if packet.deviceId == deviceId then (packetTarget x packet).all mine
        else (boundSession x packet).all fun bound =>
          !mine bound.1 && (x.sessions.owner bound.2).all (!mine ·)) = true →
        ∀ packet, mqttPacket topic payload = some packet →
          (packetTarget x packet).all mine = true := by
      intro x hx packet hp
      simpa [hp, hown packet hp] using hx
    exact .mqttMessage h hks hkt
      (fun packet hp => ⟨hown packet hp, htarget s has.2 packet hp⟩) (htarget t hat.2)

theorem unseen_handle (he : Enabled s event) (hk : Known jwt mine deviceId s)
    (ha : apart config mine deviceId s event = true) (hc : concerns mine deviceId event = false) :
    Unseen mine deviceId s (handle jwt config s event) := by
  simp only [apart, Bool.and_eq_true] at ha
  obtain ⟨hleave, ha⟩ := ha
  have hgone : ∀ ws state, mine ws = false → leaving config s event = some ws →
      Alike mine deviceId s (cleanupClient (s.setReadyState ws state) ws) := by
    intro ws state hw hl
    have hk' := Vetted.setReadyState hk ws state
    have hh : harmless mine s ws = true := by simpa [hl, hw] using hleave
    exact (alike_setReadyState hw s state).trans (alike_cleanupClient hk' hw hh)
  cases event with
  | connection ws token requested =>
    have hopen : Alike mine deviceId s (s.setReadyState ws .open) :=
      alike_setReadyState hc s .open
    cases token with
    | none => exact .of_alike hopen (.refuse hc _ _)
    | some token => exact ⟨hopen.trans (alike_setStage hc _ _), rfl⟩
  | verified ws token requested stamp =>
    simp only [handle, verified]
    split
    · exact .refuse hc s _
    case h_2 context hconn =>
      split
      · exact .refuse hc s _
      · have hd : context.deviceId ≠ deviceId :=
          ne_device (hk.verifying ws token requested he.2 context hconn) hc
        exact .subscribeClient hc hd s stamp
  | subscribed ws context overtaken error stamp =>
    have hd : context.deviceId ≠ deviceId :=
      ne_device (hk.subscribing ws context overtaken he.2) hc
    cases error with
    | none =>
      simp only [handle, subscribed]
      refine .of_alike (Alike.trans ?_ (alike_setStage hc _ _)) (.welcome hc hd _ stamp)
      cases overtaken
      · exact { Alike.refl s with }
      · exact .refl s
    | some message =>
      have hnone : Alike mine deviceId s
          { s with subscriptionRefs := update s.subscriptionRefs context.deviceId none } :=
        { Alike.refl s with refs := by simp [Ne.symm hd] }
      exact ⟨hnone.trans (alike_setStage hc _ _), sendPacket_unseen hc _ _⟩
  | message ws data nowMs stamp =>
    have hw : mine ws = false := hc
    simp only [handle]
    split
    case isTrue hatt =>
      refine .message hk hw hatt ?_ (by simpa [hw] using ha)
      intro hb
      simpa [leaving, hatt, hb, hw] using hleave
    case isFalse => exact ⟨.refl s, rfl⟩
  | close ws =>
    have hw : mine ws = false := hc
    cases hatt : s.isAttached ws with
    | true =>
      simp only [handle, isAttached_setReadyState, hatt, if_true]
      exact ⟨hgone ws .closed hw (by simp [leaving, hatt]), rfl⟩
    | false =>
      simp only [handle, isAttached_setReadyState, hatt]
      exact ⟨alike_setReadyState hw s .closed, rfl⟩
  | error ws =>
    have hw : mine ws = false := hc
    cases hatt : s.isAttached ws with
    | true =>
      simp only [handle, isAttached_setReadyState, hatt, if_true]
      exact ⟨hgone ws .closing hw (by simp [leaving, hatt]), rfl⟩
    | false =>
      simp only [handle, isAttached_setReadyState, hatt]
      exact ⟨{ alike_setReadyState hw s .closing with }, rfl⟩
  | mqtt topic payload =>
    refine .mqttMessage hk ?_
    intro packet hp
    obtain ⟨parsed, hparsed, hd⟩ := mqttPacket_device hp
    have hother : packet.deviceId ≠ deviceId := by
      simp only [concerns, hparsed, Option.any_some, beq_eq_false_iff_ne] at hc
      rw [hd]
      exact hc
    refine ⟨hother, ?_⟩
    simpa [hp, hother] using ha

theorem handler_unwinding (jwt : Jwt Token) (config : Config) (mine : Socket → Bool)
    (deviceId : String) :
    Unwinding (Alike mine deviceId) (concerns mine deviceId)
      (fun s event => Enabled s event ∧ Known jwt mine deviceId s ∧
        apart config mine deviceId s event = true)
      (after jwt config)
      (fun s event => (outputs jwt config s event).filter (Output.concerns mine deviceId)) where
  equivalence := ⟨Alike.refl, Alike.symm, Alike.trans⟩
  foreign hok hc := unseen_handle hok.1 hok.2.1 hok.2.2 hc
  step h hs ht hc := sameView_handle h hs.1 hs.2.1 ht.2.1 hs.2.2 ht.2.2 hc

theorem setReadyState_present (hstate : state ≠ .absent) (h : s.readyStates ws ≠ .absent) :
    (s.setReadyState ws' state).readyStates ws ≠ .absent := by
  unfold Server.setReadyState
  by_cases hw : ws = ws'
  · simpa [hw] using hstate
  · simpa [hw] using h

theorem closeSocket_present (h : s.readyStates ws ≠ .absent) :
    (closeSocket s ws' reason).1.readyStates ws ≠ .absent := by
  unfold closeSocket
  split
  · exact setReadyState_present (by nofun) h
  · exact h

theorem present_step (h : s.readyStates ws ≠ .absent) :
    (after jwt config s event).readyStates ws ≠ .absent := by
  cases event with
  | connection ws' token requested =>
    have hopen : (s.setReadyState ws' .open).readyStates ws ≠ .absent :=
      setReadyState_present (by rintro ⟨⟩) h
    cases token with
    | none => exact closeSocket_present hopen
    | some token => exact hopen
  | verified ws' token requested stamp =>
    simp only [after, handle, verified]
    split
    · exact closeSocket_present h
    · split
      · exact closeSocket_present h
      · simp only [subscribeClient]
        split
        · rw [welcome_eq]
          exact h
        · exact h
  | subscribed ws' context overtaken error stamp =>
    cases error with
    | none =>
      simp only [after, handle, subscribed, welcome_eq]
      cases overtaken <;> exact h
    | some message => exact h
  | message ws' data nowMs stamp =>
    simp only [after, handle]
    split
    · obtain ⟨limiter, ⟨reason, -, he⟩ | ⟨requests, crashed, he⟩⟩ :=
        message_state config s ws' data nowMs stamp
      · rw [he]
        refine closeSocket_present ?_
        rw [cleanupClient_states]
        exact h
      · rw [he]
        exact h
    · exact h
  | close ws' =>
    have hclosed : (s.setReadyState ws' .closed).readyStates ws ≠ .absent :=
      setReadyState_present (by rintro ⟨⟩) h
    simp only [after, handle]
    split
    · rw [cleanupClient_states]
      exact hclosed
    · exact hclosed
  | error ws' =>
    have hclosing : (s.setReadyState ws' .closing).readyStates ws ≠ .absent :=
      setReadyState_present (by rintro ⟨⟩) h
    simp only [after, handle]
    split
    · rw [cleanupClient_states]
      exact hclosing
    · exact hclosing
  | mqtt topic payload =>
    obtain ⟨statuses, sessions, hm⟩ := mqttMessage_state s topic payload
    rw [after, handle, hm]
    exact h

theorem present_connection (jwt : Jwt Token) (config : Config) (s : Server Token) (ws : Socket)
    (token : Option Token) (requested : Option String) :
    (after jwt config s (.connection ws token requested)).readyStates ws ≠ .absent := by
  have hopen : (s.setReadyState ws .open).readyStates ws ≠ .absent := by
    simp [Server.setReadyState]
  cases token with
  | none => exact closeSocket_present hopen
  | some token => exact hopen

theorem connects_once (h : (system jwt config).Run .initial tr s) :
    ∀ p ∈ tr, ∀ q ∈ tr, ∀ ws token requested token' requested',
      p.2 = .connection ws token requested → q.2 = .connection ws token' requested' →
      p.2 = q.2 := by
  refine (h.trace_invariant (I := fun tr s =>
    (∀ p ∈ tr, ∀ ws token requested, p.2 = .connection ws token requested →
      s.readyStates ws ≠ .absent) ∧
    ∀ p ∈ tr, ∀ q ∈ tr, ∀ ws token requested token' requested',
      p.2 = .connection ws token requested → q.2 = .connection ws token' requested' →
      p.2 = q.2) ?_ ⟨forall_mem_nil _, forall_mem_nil _⟩).2
  rintro tr s event t ⟨hpresent, honce⟩ ⟨he, rfl⟩
  have hnew : ∀ p ∈ tr, ∀ ws token requested token' requested',
      p.2 = .connection ws token requested → event ≠ .connection ws token' requested' := by
    rintro p hp ws token requested token' requested' hpe rfl
    exact hpresent p hp ws token requested hpe he.2
  refine ⟨?_, ?_⟩
  · intro p hp ws token requested hpe
    rcases mem_append.1 hp with hp | hp
    · exact present_step (hpresent p hp ws token requested hpe)
    · rw [mem_singleton.1 hp] at hpe
      rw [show event = .connection ws token requested from hpe]
      exact present_connection jwt config s ws token requested
  · intro p hp q hq ws token requested token' requested' hpe hqe
    rcases mem_append.1 hp with hp | hp
    · rcases mem_append.1 hq with hq | hq
      · exact honce p hp q hq ws token requested token' requested' hpe hqe
      · rw [mem_singleton.1 hq] at hqe
        exact (hnew p hp ws token requested token' requested' hpe hqe).elim
    · rw [mem_singleton.1 hp] at hpe
      rcases mem_append.1 hq with hq | hq
      · exact (hnew q hq ws token' requested' token requested hqe hpe).elim
      · rw [mem_singleton.1 hp, mem_singleton.1 hq]

theorem ofDevice_iff : ofDevice jwt deviceId tr ws = true ↔
    ∃ p ∈ tr, ∃ token requested context, p.2 = .connection ws (some token) requested ∧
      connect jwt token = some context ∧ context.deviceId = deviceId := by
  simp only [ofDevice, contains_iff_mem, socketsOf, mem_filterMap, mem_map]
  refine ⟨?_, ?_⟩
  · rintro ⟨event, ⟨p, hp, rfl⟩, ha⟩
    unfold arrival at ha
    split at ha
    case h_1 ws' token requested he =>
      split at ha
      case isTrue hany =>
        obtain ⟨context, hc, hd⟩ := (Option.any_eq_true ..).1 hany
        cases ha
        exact ⟨p, hp, token, requested, context, he, hc, by simpa using hd⟩
      case isFalse => cases ha
    case h_2 => cases ha
  · rintro ⟨p, hp, token, requested, context, he, hc, hd⟩
    exact ⟨p.2, ⟨p, hp, rfl⟩, by simp [he, arrival, hc, hd]⟩

theorem known_of_run (deviceId : String) (h : (system jwt config).Run .initial tr s) :
    ∀ t ∈ states tr s, Known jwt (ofDevice jwt deviceId tr) deviceId t := by
  have hinit : Known jwt (ofDevice jwt deviceId tr) deviceId .initial := ⟨nofun, nofun, nofun, nofun⟩
  refine h.forall_states hinit ?_
  rintro p hp hk u ⟨he, rfl⟩
  refine Vetted.step hk ?_ he
  intro ws token requested context hev hconn
  rw [ofDevice_iff]
  refine ⟨?_, fun hd => ⟨p, hp, token, requested, context, hev, hconn, hd⟩⟩
  rintro ⟨q, hq, token', requested', context', hev', hconn', hd⟩
  have hsame := connects_once h p hp q hq ws _ _ _ _ hev hev'
  rw [hev, hev'] at hsame
  cases hsame
  cases hconn.symm.trans hconn'
  exact hd

theorem socketsOf_eventsOf (jwt : Jwt Token) (deviceId : String)
    (tr : List (Server Token × Event Token)) :
    socketsOf jwt deviceId (eventsOf jwt deviceId tr) =
      socketsOf jwt deviceId (tr.map Prod.snd) := by
  simp only [socketsOf, eventsOf, ownLabels, filterMap_filter]
  refine filterMap_congr fun event he => ?_
  split
  case isTrue => rfl
  case isFalse hc =>
    cases ha : arrival jwt deviceId event with
    | none => rfl
    | some ws =>
      refine (hc ?_).elim
      have hmine : ofDevice jwt deviceId tr ws = true := by
        rw [ofDevice, contains_iff_mem, socketsOf, mem_filterMap]
        exact ⟨event, he, ha⟩
      cases event with
      | connection ws' token requested =>
        obtain rfl : ws' = ws := by
          unfold arrival at ha
          split at ha
          case h_1 hev =>
            split at ha
            · cases hev
              exact Option.some.inj ha
            · cases ha
          case h_2 => cases ha
        exact hmine
      | _ => cases ha

/-- Two runs with the same events of a device, in which the clients of the device and the others do
not meet in the tables of owners, send the same to the clients of the device and publish the same
to it. -/
theorem outputsOf_eq_of_apart {jwt : Jwt Token}
    (h₁ : (system jwt config).Run .initial tr₁ s₁) (h₂ : (system jwt config).Run .initial tr₂ s₂)
    (hevents : eventsOf jwt deviceId tr₁ = eventsOf jwt deviceId tr₂)
    (ha₁ : ∀ p ∈ tr₁, apart config (ofDevice jwt deviceId tr₁) deviceId p.1 p.2 = true)
    (ha₂ : ∀ p ∈ tr₂, apart config (ofDevice jwt deviceId tr₂) deviceId p.1 p.2 = true) :
    outputsOf jwt config deviceId tr₁ = outputsOf jwt config deviceId tr₂ := by
  have hmine : ofDevice jwt deviceId tr₁ = ofDevice jwt deviceId tr₂ := by
    funext ws
    rw [ofDevice, ofDevice, ← socketsOf_eventsOf, ← socketsOf_eventsOf, hevents]
  have hk₁ := known_of_run deviceId h₁
  have hk₂ := known_of_run deviceId h₂
  simp only [eventsOf, outputsOf, hmine] at hevents hk₁ ha₁ ⊢
  refine (handler_unwinding jwt config (ofDevice jwt deviceId tr₂) deviceId).observed_eq h₁ h₂
    (.refl _) ?_ ?_ hevents
  · intro p hp
    exact ⟨h₁.enabled p hp, hk₁ _ (mem_states_of_mem hp), ha₁ p hp⟩
  · intro p hp
    exact ⟨h₂.enabled p hp, hk₂ _ (mem_states_of_mem hp), ha₂ p hp⟩

end

def alone : List (Event DeviceGatewayAccessTokenPayload) :=
  joinFirst 0 "d1" "u1" ++ [askFrame 0 "r1", frameAnswer "d1" "r1"]

def besides (requestId : String) : List (Event DeviceGatewayAccessTokenPayload) :=
  joinFirst 0 "d1" "u1" ++ joinFirst 1 "d2" "u2" ++
    [askFrame 0 "r1", askFrame 1 requestId, frameAnswer "d1" "r1"]

theorem alone_enabled : ∀ p ∈ (sampled alone).1, Enabled p.1 p.2 := by
  simp only [sampled, alone, joinFirst, askFrame, frameAnswer, cons_append, nil_append, replay,
    forall_mem_cons, not_mem_nil, false_imp_iff, implies_true, and_true]
  exact ⟨⟨rfl, rfl⟩, ⟨rfl, rfl⟩, ⟨rfl, rfl⟩, ⟨rfl, .inl rfl⟩, rfl, trivial⟩

theorem besides_enabled (h : requestId = "r1" ∨ requestId = "r2") :
    ∀ p ∈ (sampled (besides requestId)).1, Enabled p.1 p.2 := by
  simp only [sampled, besides, joinFirst, askFrame, frameAnswer, cons_append, nil_append, replay,
    forall_mem_cons, not_mem_nil, false_imp_iff, implies_true, and_true]
  rcases h with rfl | rfl <;>
  exact ⟨⟨rfl, rfl⟩, ⟨rfl, rfl⟩, ⟨rfl, rfl⟩, ⟨rfl, rfl⟩, ⟨rfl, rfl⟩, ⟨rfl, rfl⟩, ⟨rfl, .inl rfl⟩,
    ⟨rfl, .inl rfl⟩, rfl, trivial⟩

theorem eventsOf_besides (requestId : String) :
    eventsOf plainJwt "d1" (sampled alone).1 = eventsOf plainJwt "d1" (sampled (besides requestId)).1 := by
  simp only [sampled, eventsOf, ownLabels, replay_labels]
  rfl

theorem outputsOf_eq_besides : ∃ tr₁ s₁ tr₂ s₂, (system plainJwt sampleConfig).Run .initial tr₁ s₁ ∧
      (system plainJwt sampleConfig).Run .initial tr₂ s₂ ∧
      eventsOf plainJwt "d1" tr₁ = eventsOf plainJwt "d1" tr₂ ∧ tr₁.length + 4 = tr₂.length ∧
      outputsOf plainJwt sampleConfig "d1" tr₁ = outputsOf plainJwt sampleConfig "d1" tr₂ := by
  have h₁ := sampled_run alone_enabled
  have h₂ := sampled_run (besides_enabled (.inr rfl))
  refine ⟨_, _, _, _, h₁, h₂, eventsOf_besides "r2", rfl, ?_⟩
  exact outputsOf_eq_of_apart h₁ h₂ (eventsOf_besides "r2") (by decide +kernel) (by decide +kernel)

/-- A client of another device uses the request id of a client of the device: the answer is lost. -/
theorem outputsOf_ne_besides : ∃ tr₁ s₁ tr₂ s₂, (system plainJwt sampleConfig).Run .initial tr₁ s₁ ∧
      (system plainJwt sampleConfig).Run .initial tr₂ s₂ ∧
      eventsOf plainJwt "d1" tr₁ = eventsOf plainJwt "d1" tr₂ ∧
      socketsSent (outputsOf plainJwt sampleConfig "d1" tr₁) = [0] ∧
      socketsSent (outputsOf plainJwt sampleConfig "d1" tr₂) = [] :=
  ⟨_, _, _, _, System.run_replay alone alone_enabled,
    System.run_replay (besides "r1") (besides_enabled (.inl rfl)), eventsOf_besides "r1",
    by decide +kernel, by decide +kernel⟩

end Trakrai.Gateway
