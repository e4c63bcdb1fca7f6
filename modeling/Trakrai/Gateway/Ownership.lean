import Trakrai.Gateway.Subscriptions

namespace Trakrai.Gateway
open Function List Lib

section
variable {Token : Type} {s : Server Token}

inductive TablesStep (config : Config) (s : Server Token) (event : Event Token) (t : Server Token) :
    Prop where
  /-- A client goes. -/
  | leave (ws : Socket) (hl : leaving config s event = some ws)
    (hclients : t.clients = s.clients.filter (·.1 != ws))
    (hrequests : t.requests = s.requests.release ws) (hsessions : t.sessions = s.sessions.release ws)
  /-- A socket with a token becomes a client. -/
  | join (ws : Socket) (context : ClientContext) (hl : leaving config s event = none)
    (hstage : ∃ token requested, s.stages ws = .verifying token requested)
    (hclients : t.clients = s.clients ++ [(ws, context)])
    (hrequests : t.requests = s.requests) (hsessions : t.sessions = s.sessions)
  /-- A frame of a client registers its request. -/
  | register (ws : Socket) (context : ClientContext) (id : String)
    (hl : leaving config s event = none) (hclient : s.client ws = some context)
    (hclients : t.clients = s.clients) (hrequests : t.requests = s.requests.claim ws id)
    (hsessions : t.sessions = s.sessions)
  /-- A packet of a device binds its session to the owner of its request. -/
  | bind (topic : String) (payload : Option Json) (packet : Packet) (ws : Socket) (id : String)
    (he : event = .mqtt topic payload) (hp : mqttPacket topic payload = some packet)
    (hb : boundSession s packet = some (ws, id))
    (hclients : t.clients = s.clients) (hrequests : t.requests = s.requests)
    (hsessions : t.sessions = s.sessions.claim ws id)
  | keep (hl : leaving config s event = none) (hclients : t.clients = s.clients)
    (hrequests : t.requests = s.requests) (hsessions : t.sessions = s.sessions)

theorem closeSocket_tables (s : Server Token) (ws : Socket) (reason : String) :
    (closeSocket s ws reason).1.clients = s.clients ∧
      (closeSocket s ws reason).1.requests = s.requests ∧
      (closeSocket s ws reason).1.sessions = s.sessions := by
  obtain ⟨_, he, -, -⟩ := closeSocket_eq s ws reason
  rw [he]
  exact ⟨rfl, rfl, rfl⟩

theorem cleanupClient_tables (s : Server Token) (ws : Socket) :
    (cleanupClient s ws).clients = s.clients.filter (·.1 != ws) ∧
      (cleanupClient s ws).requests = s.requests.release ws ∧
      (cleanupClient s ws).sessions = s.sessions.release ws := by
  obtain ⟨_, _, _, -, he⟩ := cleanupClient_eq s ws
  rw [he]
  exact ⟨rfl, rfl, rfl⟩

theorem tablesStep_message (hatt : s.isAttached ws = true) :
    TablesStep config s (.message ws data nowMs stamp)
      (after jwt config s (.message ws data nowMs stamp)) := by
  have hafter : after jwt config s (.message ws data nowMs stamp) =
      (message config s ws data nowMs stamp).1 := by
    simp only [after, handle, hatt, if_true]
  have hkeep : breaksLimit config s ws data nowMs = false →
      leaving config s (.message ws data nowMs stamp) = none := by
    intro hb
    simp [leaving, hb]
  obtain ⟨limiter, ⟨reason, hbreaks, he⟩ | ⟨hb, he⟩ | ⟨value, context, hb, -, hclient, he⟩⟩ :=
    message_cases config s ws data nowMs stamp
  · obtain ⟨hc, hr, hs⟩ := closeSocket_tables (cleanupClient (s.setLimiter ws limiter) ws) ws reason
    obtain ⟨hc', hr', hs'⟩ := cleanupClient_tables (s.setLimiter ws limiter) ws
    rw [hafter, he, closeForRateLimit]
    exact .leave ws (by simp [leaving, hatt, hbreaks]) (hc.trans hc') (hr.trans hr') (hs.trans hs')
  · rw [hafter, he]
    exact .keep (hkeep hb) rfl rfl rfl
  · obtain ⟨_, _, -, hf⟩ | hf | hf | ⟨service, subtopic, envelope, -, -, -, hf⟩ :=
      handleFrame_cases config (s.setLimiter ws limiter) ws context (readFrame value) stamp
    · rw [hafter, he, hf]
      exact .keep (hkeep hb) rfl rfl rfl
    · rw [hafter, he, hf]
      exact .keep (hkeep hb) rfl rfl rfl
    · rw [hafter, he, hf, welcome_eq]
      exact .keep (hkeep hb) rfl rfl rfl
    · rw [hafter, he, hf]
      obtain ⟨crashed, hp⟩ := publishPacket_state config (registerRequestOwner (s.setLimiter ws limiter) ws
        (readRoutingIds (normalizeIncomingEnvelope stamp envelope)).requestId) ws
        ⟨context.deviceId, normalizeIncomingEnvelope stamp envelope, service, subtopic⟩
      rw [hp]
      cases (readRoutingIds (normalizeIncomingEnvelope stamp envelope)).requestId with
      | none => exact .keep (hkeep hb) rfl rfl rfl
      | some id => exact .register ws context id (hkeep hb) hclient rfl rfl rfl

theorem tablesStep_gone (state : ReadyState) (hl : leaving config s event = some ws)
    (he : after jwt config s event = cleanupClient (s.setReadyState ws state) ws) :
    TablesStep config s event (after jwt config s event) := by
  obtain ⟨hc, hr, hs⟩ := cleanupClient_tables (s.setReadyState ws state) ws
  rw [he]
  exact .leave ws hl hc hr hs

theorem tablesStep (jwt : Jwt Token) (config : Config) (he : Enabled s event) :
    TablesStep config s event (after jwt config s event) := by
  cases event with
  | connection ws token requested =>
    cases token with
    | none =>
      obtain ⟨hc, hr, hs⟩ := closeSocket_tables ((s.setReadyState ws .open).setStage ws .refused) ws
        "missing gateway access token"
      exact .keep rfl hc hr hs
    | some token => exact .keep rfl rfl rfl rfl
  | verified ws token requested stamp =>
    simp only [after, handle, verified]
    split
    · obtain ⟨hc, hr, hs⟩ := closeSocket_tables (s.setStage ws .refused) ws
        "invalid gateway access token"
      exact .keep rfl hc hr hs
    case h_2 context hconn =>
      split
      · obtain ⟨hc, hr, hs⟩ := closeSocket_tables (s.setStage ws .refused) ws "device mismatch"
        exact .keep rfl hc hr hs
      · simp only [subscribeClient]
        split
        · rw [welcome_eq]
          exact .join ws context rfl ⟨token, requested, he.2⟩ rfl rfl rfl
        · exact .join ws context rfl ⟨token, requested, he.2⟩ rfl rfl rfl
  | subscribed ws context overtaken error stamp =>
    cases error with
    | none =>
      simp only [after, handle, subscribed, welcome_eq]
      cases overtaken <;> exact .keep rfl rfl rfl rfl
    | some message => exact .keep rfl rfl rfl rfl
  | message ws data nowMs stamp =>
    cases hatt : s.isAttached ws with
    | true => exact tablesStep_message hatt
    | false =>
      simp only [after, handle, hatt]
      exact .keep (by simp [leaving, hatt]) rfl rfl rfl
  | close ws =>
    cases hatt : s.isAttached ws with
    | true =>
      have hl : leaving config s (.close ws) = some ws := by simp [leaving, hatt]
      exact tablesStep_gone .closed hl
        (by simp only [after, handle, isAttached_setReadyState, hatt, if_true])
    | false =>
      simp only [after, handle, isAttached_setReadyState, hatt]
      exact .keep (by simp [leaving, hatt]) rfl rfl rfl
  | error ws =>
    cases hatt : s.isAttached ws with
    | true =>
      have hl : leaving config s (.error ws) = some ws := by simp [leaving, hatt]
      exact tablesStep_gone .closing hl
        (by simp only [after, handle, isAttached_setReadyState, hatt, if_true])
    | false =>
      simp only [after, handle, isAttached_setReadyState, hatt]
      exact .keep (by simp [leaving, hatt]) rfl rfl rfl
  | mqtt topic payload =>
    simp only [after, handle, mqttMessage_eq]
    cases hp : mqttPacket topic payload with
    | none => exact .keep rfl rfl rfl rfl
    | some packet =>
      obtain ⟨statuses, hr⟩ := rememberStatus_eq s packet
      have hsame : boundSession (rememberStatus s packet) packet = boundSession s packet := by
        rw [hr]
        rfl
      simp only [bindSession, hsame]
      cases hb : boundSession s packet with
      | none =>
        rw [hr]
        exact .keep rfl rfl rfl rfl
      | some bound =>
        rw [hr]
        exact .bind topic payload packet bound.1 bound.2 rfl hp hb rfl rfl rfl

/-- The connection handler has registered the socket. -/
def Stage.registered : Stage Token → Bool
  | .subscribing _ _ => true
  | .attached _ => true
  | _ => false

theorem Stage.registered_overtake (stage : Stage Token) (deviceId : String) :
    (stage.overtake deviceId).registered = stage.registered := by
  cases stage <;> rfl

theorem Stage.overtake_absent {stage : Stage Token} (h : stage = .absent) :
    stage.overtake deviceId = .absent := by
  rw [h]
  rfl

/-- Every socket is registered at most once, by its connection handler. -/
structure Registered (s : Server Token) : Prop where
  nodup : (s.clients.map Prod.fst).Nodup
  staged : ∀ entry ∈ s.clients, (s.stages entry.1).registered = true
  absent : ∀ ws, s.readyStates ws = .absent → s.stages ws = .absent

theorem Registered.not_mem (h : Registered s) (hs : (s.stages ws).registered = false) :
    ws ∉ s.clients.map Prod.fst := by
  intro hk
  obtain ⟨entry, hm, rfl⟩ := mem_map.1 hk
  rw [h.staged entry hm] at hs
  cases hs

theorem Registered.update (h : Registered s) (hclients : t.clients = s.clients)
    (hother : ∀ ws', ws' ≠ ws → t.stages ws' = s.stages ws' ∧ t.readyStates ws' = s.readyStates ws')
    (hself : (s.stages ws).registered = true → (t.stages ws).registered = true)
    (hpresent : t.readyStates ws ≠ .absent) : Registered t := by
  refine ⟨hclients ▸ h.nodup, ?_, ?_⟩
  · intro entry hm
    rw [hclients] at hm
    by_cases hw : entry.1 = ws
    · rw [hw]
      exact hself (hw ▸ h.staged entry hm)
    · rw [(hother _ hw).1]
      exact h.staged entry hm
  · intro ws' ha
    by_cases hw : ws' = ws
    · rw [hw] at ha
      exact (hpresent ha).elim
    · rw [(hother _ hw).1]
      exact h.absent ws' ((hother _ hw).2.symm.trans ha)

theorem Registered.join (h : Registered s)
    (hs : (s.stages ws).registered = false) (hpresent : s.readyStates ws ≠ .absent)
    (hclients : t.clients = s.clients ++ [(ws, context)])
    (hother : ∀ ws', ws' ≠ ws → t.stages ws' = s.stages ws')
    (hself : (t.stages ws).registered = true) (hstates : t.readyStates = s.readyStates) :
    Registered t := by
  refine ⟨?_, ?_, ?_⟩
  · rw [hclients]
    exact nodup_keys_append h.nodup (h.not_mem hs) context
  · intro entry hm
    rcases mem_append.1 (hclients ▸ hm) with hm | hm
    · have hw : entry.1 ≠ ws := fst_ne_of_not_mem (h.not_mem hs) entry hm
      rw [hother _ hw]
      exact h.staged entry hm
    · rw [mem_singleton.1 hm]
      exact hself
  · intro ws' ha
    rw [hstates] at ha
    have hw : ws' ≠ ws := by
      rintro rfl
      exact hpresent ha
    rw [hother _ hw]
    exact h.absent ws' ha

theorem Registered.cleanupClient (h : Registered s) (ws : Socket) :
    Registered (cleanupClient s ws) := by
  obtain ⟨refs, broker, stages, hstages, he⟩ := cleanupClient_eq s ws
  rw [he]
  refine ⟨h.nodup.sublist (filter_sublist.map _), ?_, ?_⟩
  · intro entry hm
    have hr : (s.stages entry.1).registered = true := h.staged entry (mem_filter.1 hm).1
    rcases hstages entry.1 with hsame | ⟨deviceId, hover⟩
    · exact (congrArg _ hsame).trans hr
    · exact (congrArg _ hover).trans ((Stage.registered_overtake _ _).trans hr)
  · intro ws' ha
    rcases hstages ws' with hsame | ⟨deviceId, hover⟩
    · exact hsame.trans (h.absent ws' ha)
    · exact hover.trans (Stage.overtake_absent (h.absent ws' ha))

theorem Registered.setStage (h : Registered s) (hp : s.readyStates ws ≠ .absent)
    (hself : (s.stages ws).registered = true → stage.registered = true) :
    Registered (s.setStage ws stage) := by
  refine h.update rfl (fun ws' hw => ⟨update_of_ne hw .., rfl⟩) ?_ hp
  intro hr
  simpa [Server.setStage] using hself hr

theorem Registered.setReadyState (h : Registered s) (hstate : state ≠ .absent) :
    Registered (s.setReadyState ws state) := by
  refine h.update rfl (fun ws' hw => ⟨rfl, update_of_ne hw ..⟩) (fun hr => hr) ?_
  simpa [Server.setReadyState] using hstate

theorem Registered.closeSocket (h : Registered s) (ws : Socket) (reason : String) :
    Registered (closeSocket s ws reason).1 := by
  unfold Gateway.closeSocket
  split
  · exact h.setReadyState (by nofun)
  · exact h

theorem Registered.present (h : Registered s) (hs : s.stages ws ≠ .absent) :
    s.readyStates ws ≠ .absent :=
  fun ha => hs (h.absent ws ha)

theorem Registered.message (h : Registered s) :
    Registered (message config s ws data nowMs stamp).1 := by
  obtain ⟨limiter, ⟨reason, -, he⟩ | ⟨requests, crashed, he⟩⟩ :=
    message_state config s ws data nowMs stamp
  · have hs : Registered (s.setLimiter ws limiter) := ⟨h.nodup, h.staged, h.absent⟩
    rw [he]
    exact (hs.cleanupClient ws).closeSocket ws reason
  · rw [he]
    exact ⟨h.nodup, h.staged, h.absent⟩

theorem Registered.step (h : Registered s) (he : Enabled s event) :
    Registered (after jwt config s event) := by
  cases event with
  | connection ws token requested =>
    have hs : (s.stages ws).registered = false := by
      rw [h.absent ws he.2]
      rfl
    have hopen : Registered (s.setReadyState ws .open) := h.setReadyState (by rintro ⟨⟩)
    have hp : (s.setReadyState ws .open).readyStates ws ≠ .absent := by
      simp [Server.setReadyState]
    have hnone : ∀ stage : Stage Token, ((s.setReadyState ws .open).stages ws).registered = true →
        stage.registered = true := by
      intro stage hr
      cases hs.symm.trans hr
    cases token with
    | none => exact (hopen.setStage hp (hnone .refused)).closeSocket ws _
    | some token => exact hopen.setStage hp (hnone _)
  | verified ws token requested stamp =>
    have hstage : s.stages ws = .verifying token requested := he.2
    have hs : (s.stages ws).registered = false := by
      rw [hstage]
      rfl
    have hp : s.readyStates ws ≠ .absent := by
      refine h.present ?_
      rw [hstage]
      rintro ⟨⟩
    have hrefused : Registered (s.setStage ws .refused) := by
      refine h.setStage hp ?_
      intro hr
      cases hs.symm.trans hr
    simp only [after, handle, verified]
    split
    · exact hrefused.closeSocket ws _
    · split
      · exact hrefused.closeSocket ws _
      · simp only [subscribeClient]
        split
        · rw [welcome_eq]
          refine h.join hs hp rfl (fun ws' hw => update_of_ne hw ..) ?_ rfl
          simp [Server.setStage, Stage.registered]
        · refine h.join hs hp rfl (fun ws' hw => update_of_ne hw ..) ?_ rfl
          simp [Server.setStage, Stage.registered]
  | subscribed ws context overtaken error stamp =>
    have hp : s.readyStates ws ≠ .absent := by
      refine h.present ?_
      rw [show s.stages ws = .subscribing context overtaken from he.2]
      rintro ⟨⟩
    have hset : ∀ succeeded, Registered (s.setStage ws (.attached succeeded)) :=
      fun succeeded => h.setStage hp fun _ => rfl
    cases error with
    | none =>
      simp only [after, handle, subscribed, welcome_eq]
      cases overtaken <;> exact ⟨(hset true).nodup, (hset true).staged, (hset true).absent⟩
    | some message => exact ⟨(hset false).nodup, (hset false).staged, (hset false).absent⟩
  | message ws data nowMs stamp =>
    simp only [after, handle]
    split
    · exact h.message
    · exact h
  | close ws =>
    have hs : Registered (s.setReadyState ws .closed) := h.setReadyState (by rintro ⟨⟩)
    simp only [after, handle]
    split
    · exact hs.cleanupClient ws
    · exact hs
  | error ws =>
    have hs : Registered (s.setReadyState ws .closing) := h.setReadyState (by rintro ⟨⟩)
    simp only [after, handle]
    split
    · exact hs.cleanupClient ws
    · exact ⟨hs.nodup, hs.staged, hs.absent⟩
  | mqtt topic payload =>
    obtain ⟨statuses, sessions, hm⟩ := mqttMessage_state s topic payload
    rw [after, handle, hm]
    exact ⟨h.nodup, h.staged, h.absent⟩

def OwnersConnected (s : Server Token) : Prop :=
  (∀ id ws, s.requests.owner id = some ws → ws ∈ s.clients.map Prod.fst) ∧
  ∀ id ws, s.sessions.owner id = some ws → ws ∈ s.clients.map Prod.fst

structure Routed (s : Server Token) : Prop where
  requests : s.requests.Reflects
  sessions : s.sessions.Reflects
  connected : OwnersConnected s

theorem owner_of_boundSession {id : String} (h : boundSession s packet = some (ws, id)) :
    ∃ requestId, s.requests.owner requestId = some ws := by
  obtain ⟨owner, howner, hid⟩ := Option.bind_eq_some_iff.1 h
  obtain ⟨requestId, -, howner⟩ := Option.bind_eq_some_iff.1 howner
  obtain ⟨_, -, hpair⟩ := Option.map_eq_some_iff.1 hid
  obtain ⟨rfl, -⟩ := Prod.mk.inj hpair
  exact ⟨requestId, howner⟩

theorem mem_keys_of_client (h : s.client ws = some context) : ws ∈ s.clients.map Prod.fst :=
  mem_map_of_mem (mem_of_client h)

theorem Routed.step {jwt : Jwt Token} (h : Routed s) (he : Enabled s event) :
    Routed (after jwt config s event) := by
  obtain ⟨hreq, hses, hcr, hcs⟩ := h
  cases tablesStep jwt config he with
  | leave ws hl hclients hrequests hsessions =>
    have hkeep : ∀ ws', ws' ∈ s.clients.map Prod.fst → ws' ≠ ws →
        ws' ∈ (s.clients.filter (·.1 != ws)).map Prod.fst := by
      rintro _ hk hne
      obtain ⟨entry, hm, rfl⟩ := mem_map.1 hk
      exact mem_map_of_mem (mem_filter.2 ⟨hm, by simpa using hne⟩)
    refine ⟨hrequests ▸ hreq.release, hsessions ▸ hses.release, ?_, ?_⟩
    · intro id ws' ho
      rw [hrequests] at ho
      obtain ⟨hne, ho, -⟩ := hreq.owner_release ho
      exact hclients ▸ hkeep ws' (hcr id ws' ho) hne
    · intro id ws' ho
      rw [hsessions] at ho
      obtain ⟨hne, ho, -⟩ := hses.owner_release ho
      exact hclients ▸ hkeep ws' (hcs id ws' ho) hne
  | join ws context hl hstage hclients hrequests hsessions =>
    have hmore : ∀ ws', ws' ∈ s.clients.map Prod.fst →
        ws' ∈ (s.clients ++ [(ws, context)]).map Prod.fst := by
      intro ws' hk
      rw [map_append]
      exact mem_append_left _ hk
    refine ⟨hrequests ▸ hreq, hsessions ▸ hses, ?_, ?_⟩
    · rw [hclients, hrequests]
      exact fun id ws' ho => hmore ws' (hcr id ws' ho)
    · rw [hclients, hsessions]
      exact fun id ws' ho => hmore ws' (hcs id ws' ho)
  | register ws context id hl hclient hclients hrequests hsessions =>
    refine ⟨hrequests ▸ hreq.claim, hsessions ▸ hses, ?_, ?_⟩
    · intro id' ws' ho
      rw [hrequests] at ho
      rw [hclients]
      rcases Routes.claim_owner_cases ho with rfl | ho
      · exact mem_keys_of_client hclient
      · exact hcr id' ws' ho
    · rw [hclients, hsessions]
      exact hcs
  | bind topic payload packet ws id hev hp hb hclients hrequests hsessions =>
    refine ⟨hrequests ▸ hreq, hsessions ▸ hses.claim, ?_, ?_⟩
    · rw [hclients, hrequests]
      exact hcr
    · intro id' ws' ho
      rw [hsessions] at ho
      rw [hclients]
      rcases Routes.claim_owner_cases ho with rfl | ho
      · obtain ⟨requestId, hr⟩ := owner_of_boundSession hb
        exact hcr requestId _ hr
      · exact hcs id' ws' ho
  | keep hl hclients hrequests hsessions =>
    refine ⟨hrequests ▸ hreq, hsessions ▸ hses, ?_, ?_⟩
    · rw [hclients, hrequests]
      exact hcr
    · rw [hclients, hsessions]
      exact hcs

/-- `cleanupClient` deletes the entries of the leaving client and no others. -/
def DeletesOwn (jwt : Jwt Token) (config : Config) (s : Server Token) (event : Event Token) : Prop :=
  ∀ ws, leaving config s event = some ws → ∀ id, (after jwt config s event).requests.owner id =
      (if s.requests.owner id = some ws then none else s.requests.owner id) ∧
    (after jwt config s event).sessions.owner id =
      (if s.sessions.owner id = some ws then none else s.sessions.owner id)

/-- A packet whose request is owned by an open client of its device goes to that client, as the
filter shows it, and to nobody else. -/
def DeliversToOwner (jwt : Jwt Token) (config : Config) (s : Server Token) (event : Event Token) :
    Prop :=
  ∀ topic payload packet id ws context, event = .mqtt topic payload →
    mqttPacket topic payload = some packet → (readRoutingIds packet.envelope).requestId = some id →
    s.requests.owner id = some ws → s.client ws = some context →
    context.deviceId = packet.deviceId → s.readyStates ws = .open →
    outputs jwt config s event = ((filterPacketForClient packet context).map (.packet ws)).toList

/-- Of the ids that a leaving client has registered or been bound to, none is owned by another
client. -/
def NothingTaken (config : Config) (s : Server Token) (event : Event Token) : Prop :=
  ∀ ws, leaving config s event = some ws →
    (∀ id ∈ s.requests.owned ws, ∀ owner, s.requests.owner id = some owner → owner = ws) ∧
    ∀ id ∈ s.sessions.owned ws, ∀ owner, s.sessions.owner id = some owner → owner = ws

theorem after_of_leaving (jwt : Jwt Token) (he : Enabled s event)
    (hl : leaving config s event = some ws) :
    (after jwt config s event).requests = s.requests.release ws ∧
      (after jwt config s event).sessions = s.sessions.release ws := by
  cases tablesStep jwt config he with
  | leave ws' hl' hclients hrequests hsessions =>
    obtain rfl : ws' = ws := Option.some.inj (hl'.symm.trans hl)
    exact ⟨hrequests, hsessions⟩
  | join ws' context hl' => cases hl'.symm.trans hl
  | register ws' context id hl' => cases hl'.symm.trans hl
  | bind topic payload packet ws' id he => rw [he] at hl; cases hl
  | keep hl' => cases hl'.symm.trans hl

theorem Routed.deletesOwn_iff (h : Routed s) (jwt : Jwt Token) (he : Enabled s event) :
    DeletesOwn jwt config s event ↔ NothingTaken config s event := by
  refine forall₂_congr fun ws hl => ?_
  obtain ⟨hrequests, hsessions⟩ := after_of_leaving jwt he hl
  rw [hrequests, hsessions, forall_and, h.requests.release_exact_iff, h.sessions.release_exact_iff]

theorem deliver_target (hn : (s.clients.map Prod.fst).Nodup)
    (hclient : s.client ws = some context) (hd : context.deviceId = packet.deviceId)
    (hopen : s.readyStates ws = .open) :
    deliver s packet (some ws) =
      ((filterPacketForClient packet context).map (Output.packet ws)).toList := by
  rw [deliver, flatMap_key hn (mem_of_client hclient)]
  swap
  · intro entry _ hne
    simp [Ne.symm hne]
  simp only [hd, ne_eq, not_true_eq_false, decide_false, Option.any_some, bne_self_eq_false,
    Bool.or_self, Bool.false_eq_true, if_false, sendPacket, hopen, if_true]
  cases filterPacketForClient packet context <;> rfl

theorem deliversToOwner (h : Registered s) (jwt : Jwt Token) (config : Config)
    (event : Event Token) : DeliversToOwner jwt config s event := by
  rintro topic payload packet id ws context rfl hp hid howner hclient hd hopen
  obtain ⟨statuses, hr⟩ := rememberStatus_eq s packet
  obtain ⟨sessions, hb⟩ := bindSession_eq (rememberStatus s packet) packet
  have htarget : packetTarget (rememberStatus s packet) packet = some ws := by
    rw [hr]
    simp [packetTarget, hid, howner]
  simp only [outputs, handle, mqttMessage_eq, hp, htarget]
  rw [hb, hr]
  exact deliver_target h.nodup hclient hd hopen

/-- In every run, the owners of requests and sessions are clients, leaving clients take their own
entries and no others, and the packets of a request go to its owner alone, if and only if no client
leaves while another one owns an id that it had. -/
theorem routes_exact_iff {jwt : Jwt Token} (h : (system jwt config).Run .initial tr s) :
    ((∀ t ∈ states tr s, OwnersConnected t) ∧
      ∀ p ∈ tr, DeletesOwn jwt config p.1 p.2 ∧ DeliversToOwner jwt config p.1 p.2) ↔
    ∀ p ∈ tr, NothingTaken config p.1 p.2 := by
  have hregistered : ∀ t ∈ states tr s, Registered t := by
    refine h.forall_states ⟨nodup_nil, nofun, fun _ _ => rfl⟩ ?_
    rintro p - hI u ⟨he, rfl⟩
    exact hI.step he
  have hrouted : ∀ t ∈ states tr s, Routed t := by
    refine h.forall_states ⟨Routes.reflects_empty, Routes.reflects_empty, nofun, nofun⟩ ?_
    rintro p - hI u ⟨he, rfl⟩
    exact hI.step he
  have henabled : ∀ p ∈ tr, Enabled p.1 p.2 := h.enabled
  refine ⟨?_, ?_⟩
  · rintro ⟨-, hall⟩ p hp
    exact ((hrouted _ (mem_states_of_mem hp)).deletesOwn_iff jwt (henabled p hp)).1 (hall p hp).1
  · intro hall
    refine ⟨fun t ht => (hrouted t ht).connected, fun p hp => ⟨?_, ?_⟩⟩
    · exact ((hrouted _ (mem_states_of_mem hp)).deletesOwn_iff jwt (henabled p hp)).2 (hall p hp)
    · exact deliversToOwner (hregistered _ (mem_states_of_mem hp)) jwt config p.2

end

def joinNext (ws : Socket) (deviceId userId : String) :
    List (Event DeviceGatewayAccessTokenPayload) :=
  [.connection ws (some (sampleToken deviceId userId)) none,
   .verified ws (sampleToken deviceId userId) none sampleStamp]

def askFrame (ws : Socket) (requestId : String) : Event DeviceGatewayAccessTokenPayload :=
  .message ws (some (sampleFrame "camera" "get-frame" requestId)) 0 sampleStamp

def frameAnswer (deviceId requestId : String) : Event DeviceGatewayAccessTokenPayload :=
  .mqtt ("trakrai/device/" ++ deviceId ++ "/service/camera/response")
    (some (.obj [("type", .str "frame"), ("payload", .obj [("requestId", .str requestId)])]))

def socketsSent (outputs : List Output) : List Socket :=
  outputs.filterMap fun
    | .packet ws _ => some ws
    | _ => none

def twoAsk (first second : String) : List (Event DeviceGatewayAccessTokenPayload) :=
  joinFirst 0 "d1" "u1" ++ joinNext 1 "d1" "u2" ++ joinNext 2 "d1" "u3" ++
    [askFrame 0 first, askFrame 1 second]

theorem owner_of_all {r : Routes String Socket}
    (h : (r.owned ws).all (fun id => (r.owner id).all (· == ws)) = true) :
    ∀ id ∈ r.owned ws, ∀ owner, r.owner id = some owner → owner = ws := by
  intro id hid owner ho
  have hall := all_eq_true.1 h id hid
  rw [ho] at hall
  exact beq_iff_eq.1 hall

/-- The first client leaves, and the answer to the second one goes to it alone. -/
theorem routes_exact_two_requests : ∃ tr s, (system plainJwt sampleConfig).Run .initial tr s ∧
      (∀ p ∈ tr, NothingTaken sampleConfig p.1 p.2) ∧
      (tr.getLast?.map fun p => socketsSent (outputs plainJwt sampleConfig p.1 p.2)) = some [1] ∧
      (∀ t ∈ states tr s, OwnersConnected t) ∧ ∀ p ∈ tr, DeletesOwn plainJwt sampleConfig p.1 p.2 ∧
        DeliversToOwner plainJwt sampleConfig p.1 p.2 := by
  have hmem : ∀ p ∈ (sampled (twoAsk "r1" "r2" ++ [.close 0, frameAnswer "d1" "r2"])).1,
      Enabled p.1 p.2 ∧ NothingTaken sampleConfig p.1 p.2 := by
    simp only [sampled, twoAsk, joinFirst, joinNext, askFrame, frameAnswer, cons_append,
      nil_append, replay, forall_mem_cons, not_mem_nil, false_imp_iff, implies_true,
      and_true]
    refine ⟨⟨⟨rfl, rfl⟩, by rintro _ ⟨⟩⟩, ⟨⟨rfl, rfl⟩, by rintro _ ⟨⟩⟩, ⟨⟨rfl, rfl⟩, by rintro _ ⟨⟩⟩, ⟨⟨rfl, rfl⟩, by rintro _ ⟨⟩⟩,
      ⟨⟨rfl, rfl⟩, by rintro _ ⟨⟩⟩, ⟨⟨rfl, rfl⟩, by rintro _ ⟨⟩⟩, ⟨⟨rfl, rfl⟩, by rintro _ ⟨⟩⟩, ⟨⟨rfl, .inl rfl⟩, by rintro _ ⟨⟩⟩,
      ⟨⟨rfl, .inl rfl⟩, by rintro _ ⟨⟩⟩, ⟨⟨rfl, .inl rfl⟩, ?_⟩, ⟨rfl, trivial⟩, by rintro _ ⟨⟩⟩
    intro ws hl
    obtain rfl : 0 = ws := Option.some.inj hl
    exact ⟨owner_of_all (by decide +kernel), owner_of_all (by decide +kernel)⟩
  have hrun := sampled_run fun p hp => (hmem p hp).1
  have hnothing := fun p hp => (hmem p hp).2
  exact ⟨_, _, hrun, hnothing, by decide +kernel, (routes_exact_iff hrun).2 hnothing⟩

/-- The second client uses the request id of the first one, whose leave deletes its entry: the
answer goes to everybody. -/
theorem reused_request_not_exact :
    ∃ tr s, (system plainJwt sampleConfig).Run .initial tr s ∧ Enabled s (.close 0) ∧
      leaving sampleConfig s (.close 0) = some 0 ∧ s.requests.owner "r1" = some 1 ∧
      (after plainJwt sampleConfig s (.close 0)).requests.owner "r1" = none ∧
      ¬ DeletesOwn plainJwt sampleConfig s (.close 0) ∧
      socketsSent (outputs plainJwt sampleConfig (after plainJwt sampleConfig s (.close 0))
        (frameAnswer "d1" "r1")) = [1, 2] := by
  have henabled : ∀ p ∈ (sampled (twoAsk "r1" "r1")).1, Enabled p.1 p.2 := by
    simp only [sampled, twoAsk, joinFirst, joinNext, askFrame, cons_append, nil_append, replay,
      forall_mem_cons, not_mem_nil, false_imp_iff, implies_true, and_true]
    exact ⟨⟨rfl, rfl⟩, ⟨rfl, rfl⟩, ⟨rfl, rfl⟩, ⟨rfl, rfl⟩, ⟨rfl, rfl⟩, ⟨rfl, rfl⟩, ⟨rfl, rfl⟩,
      ⟨rfl, .inl rfl⟩, ⟨rfl, .inl rfl⟩⟩
  refine ⟨_, _, sampled_run henabled, ⟨rfl, .inl rfl⟩, rfl, by decide +kernel,
    by decide +kernel, ?_, by decide +kernel⟩
  intro h
  have hkept := (h 0 rfl "r1").1
  revert hkept
  decide +kernel

end Trakrai.Gateway
