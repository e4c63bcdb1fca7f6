import Trakrai.Gateway.Authorization

namespace Trakrai.Gateway
open Lib

section
variable {Token : Type}

def countedLimiter (config : Config) (s : Server Token) (ws : Socket) (data : Option Json)
    (nowMs : Int) : Limiter :=
  let limiter := (recordInboundMessage (s.inboundRateLimits ws) nowMs config.rateLimit).1
  if (s.client ws).isSome && data.any (inboundMessageCountsAsCommand ∘ readFrame) then
    (recordInboundCommand limiter nowMs config.rateLimit).1
  else limiter

/-- What becomes of a message that is within the limits. -/
def answer (config : Config) (s : Server Token) (ws : Socket) (data : Option Json) (stamp : Stamp) :
    Server Token × List Output :=
  match data, s.client ws with
  | some value, some context => handleFrame config s ws context (readFrame value) stamp
  | _, _ => (s, [])

theorem message_eq (config : Config) (s : Server Token) (ws : Socket) (data : Option Json)
    (nowMs : Int) (stamp : Stamp) :
    (breaksLimit config s ws data nowMs = true ∧ ∃ limiter reason,
      message config s ws data nowMs stamp =
        closeForRateLimit (s.setLimiter ws limiter) ws reason) ∨
    (breaksLimit config s ws data nowMs = false ∧ message config s ws data nowMs stamp =
        answer config (s.setLimiter ws (countedLimiter config s ws data nowMs)) ws data stamp) := by
  have hclient : ∀ limiter, (s.setLimiter ws limiter).client ws = s.client ws := fun _ => rfl
  have hlimiter : ∀ limiter limiter',
      (s.setLimiter ws limiter).setLimiter ws limiter' = s.setLimiter ws limiter' := by
    intro limiter limiter'
    simp [Server.setLimiter]
  simp only [message, hclient, breaksLimit, countedLimiter, answer]
  split
  case h_1 _ _ reason hv => exact .inl ⟨by simp [hv], _, reason, rfl⟩
  case h_2 hv => exact .inr ⟨by simp [hv], by simp⟩
  case h_3 hv hc => exact .inr ⟨by simp [hv, hc], by simp [hc]⟩
  case h_4 _ value context hv hc =>
    split
    case isTrue hcommand =>
      rw [hlimiter]
      split
      case h_1 reason hcv => exact .inl ⟨by simp [hv, hc, hcommand, hcv], _, reason, rfl⟩
      case h_2 hcv => exact .inr ⟨by simp [hv, hcv], by simp [hc, hcommand]⟩
    case isFalse hcommand => exact .inr ⟨by simp [hv, hcommand], by simp [hc, hcommand]⟩

structure Publishes (s : Server Token) (ws : Socket) (context : ClientContext) (stamp : Stamp)
    (frame : InboundFrame) (service : Option String) (subtopic : String) (envelope : Json) : Prop where
  frame : frame = .packet service subtopic envelope
  session : clientOwnsSession s ws (readRoutingIds envelope).sessionId = true
  permitted : canClientPublishPacket (Packet.header ⟨context.deviceId,
    normalizeIncomingEnvelope stamp envelope, service, subtopic⟩) context = true

inductive Answered (config : Config) (s : Server Token) (ws : Socket) (context : ClientContext) (stamp : Stamp)
    (frame : InboundFrame) : Server Token × List Output → Prop where
  | refused (outputs : List Output)
      (hframe : ∀ service subtopic envelope,
        ¬ Publishes s ws context stamp frame service subtopic envelope)
      (houtputs : ∀ output ∈ outputs, ∃ packet, output = .packet ws packet) :
      Answered config s ws context stamp frame (s, outputs)
  | welcomed (deviceId : Option String) (hframe : frame = .setDevice deviceId) :
      Answered config s ws context stamp frame (welcome s ws context stamp)
  | published (service : Option String) (subtopic : String) (envelope : Json)
      (h : Publishes s ws context stamp frame service subtopic envelope) :
      Answered config s ws context stamp frame (publishPacket config (registerRequestOwner s ws
        (readRoutingIds (normalizeIncomingEnvelope stamp envelope)).requestId) ws
        ⟨context.deviceId, normalizeIncomingEnvelope stamp envelope, service, subtopic⟩)

variable {s : Server Token} {ws : Socket} {context : ClientContext} {stamp : Stamp}
  {frame : InboundFrame}

section
variable (config : Config)

theorem answered : Answered config s ws context stamp frame
    (handleFrame config s ws context frame stamp) := by
  have hpacket (packet : Packet) : ∀ output ∈ sendPacket s ws packet,
      ∃ packet, output = .packet ws packet := fun output ho => ⟨_, (mem_sendPacket ho).1⟩
  cases frame with
  | setDevice deviceId =>
    rw [handleFrame]
    split
    · exact .refused _ (fun _ _ _ h => by cases h.frame) (hpacket _)
    · exact .welcomed deviceId rfl
  | invalid => exact .refused _ (fun _ _ _ h => by cases h.frame) (hpacket _)
  | packet service subtopic envelope =>
    simp only [handleFrame]
    split
    case isTrue hsession =>
      refine .refused _ ?_ (by rintro _ ⟨⟩)
      rintro _ _ _ ⟨⟨⟩, howned, -⟩
      simp [howned] at hsession
    case isFalse hsession =>
      split
      case isTrue hpermitted =>
        refine .refused _ ?_ (hpacket _)
        rintro _ _ _ ⟨⟨⟩, -, hallowed⟩
        simp [hallowed] at hpermitted
      case isFalse hpermitted =>
        exact .published service subtopic envelope ⟨rfl, by simpa using hsession, by simpa using hpermitted⟩

theorem publishes_setLimiter (limiter : Limiter) :
    Publishes (s.setLimiter ws limiter) ws context stamp frame service subtopic envelope ↔
      Publishes s ws context stamp frame service subtopic envelope :=
  ⟨fun h => ⟨h.frame, h.session, h.permitted⟩, fun h => ⟨h.frame, h.session, h.permitted⟩⟩

theorem registerRequestOwner_crashed (s : Server Token) (ws : Socket) (requestId : Option String) :
    (registerRequestOwner s ws requestId).crashed = s.crashed := by
  cases requestId <;> rfl

theorem publishPacket_crashed (s : Server Token) (ws : Socket) (packet : Packet) :
    (publishPacket config s ws packet).1.crashed = true ↔ s.crashed = true ∨
      config.stringifies packet.envelope = false ∨ normalizeTopicSubtopic packet.subtopic = "" := by
  rw [publishPacket, publishMqtt, buildDeviceTopic]
  cases config.stringifies packet.envelope with
  | false => simp
  | true =>
    by_cases hsubtopic : normalizeTopicSubtopic packet.subtopic = ""
    · simp [hsubtopic]
    · simp [hsubtopic]

theorem closeForRateLimit_crashed (s : Server Token) (ws : Socket) (reason : String) :
    (closeForRateLimit s ws reason).1.crashed = s.crashed := by
  obtain ⟨refs, broker, stages, -, he⟩ := cleanupClient_eq s ws
  rw [closeForRateLimit, closeSocket]
  split
  · rw [he]
    rfl
  · rw [he]

theorem handleFrame_crashed :
    (handleFrame config s ws context frame stamp).1.crashed = true ↔ s.crashed = true ∨
      ∃ service subtopic envelope, Publishes s ws context stamp frame service subtopic envelope ∧
        (config.stringifies (normalizeIncomingEnvelope stamp envelope) = false ∨
          normalizeTopicSubtopic subtopic = "") := by
  have hanswered : Answered config s ws context stamp frame _ := answered config
  generalize handleFrame config s ws context frame stamp = result at hanswered ⊢
  cases hanswered with
  | refused outputs hframe houtputs =>
    constructor
    · exact .inl
    · rintro (hcrashed | ⟨service, subtopic, envelope, h, -⟩)
      · exact hcrashed
      · exact absurd h (hframe service subtopic envelope)
  | welcomed deviceId hframe =>
    rw [welcome_eq]
    constructor
    · exact .inl
    · rintro (hcrashed | ⟨service, subtopic, envelope, h, -⟩)
      · exact hcrashed
      · exact nomatch hframe.symm.trans h.frame
  | published service subtopic envelope h =>
    rw [publishPacket_crashed, registerRequestOwner_crashed]
    apply or_congr_right
    constructor
    · exact fun hthrows => ⟨service, subtopic, envelope, h, hthrows⟩
    · rintro ⟨service', subtopic', envelope', h', hthrows⟩
      obtain ⟨-, rfl, rfl⟩ := InboundFrame.packet.inj (h.frame.symm.trans h'.frame)
      exact hthrows

/-- The message is a packet within the limits that its client may publish, with an envelope that is
nested too deeply for `JSON.stringify`, or to a subtopic of slashes and white space alone. -/
def Throws (s : Server Token) (ws : Socket) (data : Option Json) (nowMs : Int)
    (stamp : Stamp) : Prop :=
  breaksLimit config s ws data nowMs = false ∧ ∃ value context, data = some value ∧
    s.client ws = some context ∧ ∃ service subtopic envelope,
      Publishes s ws context stamp (readFrame value) service subtopic envelope ∧
        (config.stringifies (normalizeIncomingEnvelope stamp envelope) = false ∨
          normalizeTopicSubtopic subtopic = "")

/-- The handler of messages returns exactly where it can write the packet and has a topic for it. -/
theorem message_returns_iff {s : Server Token} (h : s.crashed = false)
    (ws : Socket) (data : Option Json) (nowMs : Int) (stamp : Stamp) :
    (message config s ws data nowMs stamp).1.crashed = false ↔
      ¬ Throws config s ws data nowMs stamp := by
  rw [← Bool.not_eq_true, not_iff_not]
  obtain ⟨hbreaks, limiter, reason, he⟩ | ⟨hbreaks, he⟩ :=
    message_eq config s ws data nowMs stamp
  · have hcrashed : (s.setLimiter ws limiter).crashed = false := h
    rw [he, closeForRateLimit_crashed, hcrashed, Throws, hbreaks]
    simp
  · have hcrashed (limiter : Limiter) : (s.setLimiter ws limiter).crashed = false := h
    have hclient (limiter : Limiter) : (s.setLimiter ws limiter).client ws = s.client ws := rfl
    rw [he, Throws, hbreaks]
    simp only [answer, hclient, true_and]
    cases data with
    | none => simp [hcrashed]
    | some value =>
      cases hc : s.client ws with
      | none => simp [hcrashed]
      | some context =>
        simp only [handleFrame_crashed, hcrashed, publishes_setLimiter, Bool.false_eq_true, false_or,
          Option.some.injEq, exists_and_left, exists_eq_left']

end

end

def joined : Server DeviceGatewayAccessTokenPayload :=
  (replay (after plainJwt sampleConfig) .initial (joinFirst 0 "d1" "u1")).2

def slashFrame : Json :=
  .obj [("kind", .str "packet"), ("service", .str "camera"), ("subtopic", .str "/"),
    ("envelope", .obj [("type", .str "get-frame")])]

theorem message_returns_joined :
    (message sampleConfig joined 0 (some slashFrame) 0 sampleStamp).1.crashed = false ↔
      ¬ Throws sampleConfig joined 0 (some slashFrame) 0 sampleStamp :=
  message_returns_iff sampleConfig rfl 0 (some slashFrame) 0 sampleStamp

theorem slash_not_caught : ¬ ∀ tr (s : Server DeviceGatewayAccessTokenPayload),
      (system plainJwt sampleConfig).Run .initial tr s → ∀ ws data nowMs stamp,
        s.isAttached ws = true → s.crashed = false →
          (message sampleConfig s ws data nowMs stamp).1.crashed = false := by
  intro h
  have hrun : (system plainJwt sampleConfig).Run .initial
      (replay (after plainJwt sampleConfig) .initial (joinFirst 0 "d1" "u1")).1 joined := by
    apply System.run_replay
    simp only [joinFirst, replay, List.forall_mem_cons]
    exact ⟨⟨rfl, rfl⟩, ⟨rfl, rfl⟩, ⟨rfl, rfl⟩, by rintro _ ⟨⟩⟩
  have hcrashed := h _ _ hrun 0 (some slashFrame) 0 sampleStamp rfl rfl
  exact absurd hcrashed (by decide +kernel)

end Trakrai.Gateway
