import Trakrai.Gateway.Exceptions
import Trakrai.Gateway.Ownership
import Trakrai.Lib.SlidingWindow

namespace Trakrai.Gateway
open Bool Function List Lib

def endsInCommand (text : String) : Bool := "/command".toList.isSuffixOf text.toList

def Output.isCommand : Output → Bool
  | .publish _ topic _ => endsInCommand topic
  | _ => false

/-- The subtopic gives a topic that ends in `/command`. -/
def CommandSubtopic (subtopic : String) : Prop :=
  normalizeTopicSubtopic subtopic = "command" ∨ endsInCommand (normalizeTopicSubtopic subtopic) = true

section
variable {Token : Type}

/-- The message goes through `recordInboundCommand` and is within the limits. -/
def Counted (config : Config) (s : Server Token) : Event Token → Prop
  | .message ws data nowMs _ =>
    data.any (inboundMessageCountsAsCommand ∘ readFrame) = true ∧
      breaksLimit config s ws data nowMs = false
  | _ => False

/-- The message is a packet that is published to a command topic under another subtopic. -/
def Bypasses (config : Config) (s : Server Token) : Event Token → Prop
  | .message ws data nowMs stamp =>
    s.isAttached ws = true ∧ breaksLimit config s ws data nowMs = false ∧
      ∃ value context, data = some value ∧ s.client ws = some context ∧ ∃ service subtopic envelope,
          Publishes s ws context stamp (readFrame value) service subtopic envelope ∧
            CommandSubtopic subtopic ∧ subtopic ≠ "command"
  | _ => False

def messageTimes (ws : Socket) (tr : List (Server Token × Event Token)) : List Int :=
  tr.filterMap fun
    | (_, .message ws' _ nowMs _) => if ws' = ws then some nowMs else none
    | _ => none

/-- What is published to command topics on the messages of a socket, by the times of these. -/
def commandTimes (jwt : Jwt Token) (config : Config) (ws : Socket)
    (tr : List (Server Token × Event Token)) : List Int :=
  tr.flatMap fun p =>
    match p.2 with
    | .message ws' _ nowMs _ =>
      if ws' = ws then ((outputs jwt config p.1 p.2).filter Output.isCommand).map fun _ => nowMs
      else []
    | _ => []

end

theorem append_slash_suffix (hword : '/' ∉ word) :
    '/' :: word <:+ base ++ '/' :: rest ↔ rest = word ∨ '/' :: word <:+ rest := by
  constructor
  · rintro ⟨before, heq⟩
    rcases append_eq_append_iff.1 heq with ⟨part, -, hpart⟩ | ⟨part, -, hpart⟩
    · cases part with
      | nil =>
        rw [nil_append, List.cons.injEq] at hpart
        exact .inl hpart.2.symm
      | cons c part =>
        rw [cons_append, List.cons.injEq] at hpart
        exact absurd (hpart.2 ▸ mem_append_right part (mem_cons_self ..)) hword
    · cases part with
      | nil =>
        rw [nil_append, List.cons.injEq] at hpart
        exact .inl hpart.2
      | cons c part =>
        rw [cons_append, List.cons.injEq] at hpart
        exact .inr ⟨part, hpart.2.symm⟩
  · rintro (rfl | ⟨before, rfl⟩)
    · exact ⟨base, rfl⟩
    · exact ⟨base ++ '/' :: before, by simp⟩

theorem endsInCommand_topic (base subtopic : String) :
    endsInCommand (base ++ "/" ++ subtopic) = true ↔
      subtopic = "command" ∨ endsInCommand subtopic = true := by
  have hmark : "/command".toList = '/' :: "command".toList := by decide
  have htext : (base ++ "/" ++ subtopic).toList = base.toList ++ '/' :: subtopic.toList := by simp
  rw [endsInCommand, endsInCommand, isSuffixOf_iff_suffix, isSuffixOf_iff_suffix, hmark,
    htext, append_slash_suffix (by decide), String.toList_inj]

section
variable {Token : Type} {jwt : Jwt Token} {config : Config} {s : Server Token} {ws : Socket}

theorem isCommand_publish
    (h : output ∈ (publishPacket config s ws packet).2) (hcommand : output.isCommand = true) :
    CommandSubtopic packet.subtopic := by
  rw [publishPacket, publishMqtt, buildDeviceTopic] at h
  split at h
  case isFalse => cases h
  by_cases hsubtopic : normalizeTopicSubtopic packet.subtopic = ""
  · simp [hsubtopic] at h
  · simp only [hsubtopic, if_false, mem_singleton] at h
    rw [h] at hcommand
    exact (endsInCommand_topic _ _).1 hcommand

theorem publishPacket_length (s : Server Token) (ws : Socket) (packet : Packet) :
    ((publishPacket config s ws packet).2.filter Output.isCommand).length ≤ 1 := by
  rw [publishPacket, publishMqtt]
  split
  · split
    · rename_i topic _
      exact length_filter_le Output.isCommand [.publish ws topic packet]
    · exact Nat.zero_le _
  · exact Nat.zero_le _

theorem filter_packets {outputs : List Output}
    (h : ∀ output ∈ outputs, ∃ ws packet, output = .packet ws packet) :
    outputs.filter Output.isCommand = [] := by
  rw [filter_eq_nil_iff]
  intro output ho
  obtain ⟨ws, packet, rfl⟩ := h output ho
  exact Bool.false_ne_true

theorem welcome_commands (s : Server Token) (ws : Socket) (context : ClientContext) (stamp : Stamp) :
    ((welcome s ws context stamp).2.filter Output.isCommand).length ≤ 1 := by
  have hinfo : (sendSessionInfo s ws context.deviceId).filter Output.isCommand = [] := by
    rw [filter_eq_nil_iff]
    intro output ho
    rw [mem_sendSessionInfo ho]
    exact Bool.false_ne_true
  have hstatus : (sendCachedStatus s ws context).filter Output.isCommand = [] := by
    rw [sendCachedStatus]
    split
    · exact filter_packets fun output ho => ⟨ws, _, (mem_sendPacket ho).1⟩
    · rfl
  rw [welcome_eq, filter_append, filter_append, hinfo, hstatus, nil_append, nil_append]
  exact length_filter_le Output.isCommand [_]

/-- A frame brings at most one publication to a command topic. If it does not count as a command, it
is a packet under another subtopic. -/
theorem Answered.commands {context : ClientContext} {stamp : Stamp} {frame : InboundFrame}
    {result : Server Token × List Output} (h : Answered config s ws context stamp frame result) :
    (result.2.filter Output.isCommand).length ≤ 1 ∧ (∀ output ∈ result.2, output.isCommand = true →
        inboundMessageCountsAsCommand frame = true ∨ ∃ service subtopic envelope,
          Publishes s ws context stamp frame service subtopic envelope ∧
            CommandSubtopic subtopic ∧ subtopic ≠ "command") := by
  cases h with
  | refused outputs hframe houtputs =>
    have hnone : outputs.filter Output.isCommand = [] :=
      filter_packets fun output ho => ⟨ws, houtputs output ho⟩
    constructor
    · change (outputs.filter Output.isCommand).length ≤ 1
      rw [hnone]
      exact Nat.zero_le _
    · intro output ho hcommand
      exact absurd hcommand (filter_eq_nil_iff.1 hnone output ho)
  | welcomed deviceId hframe =>
    refine ⟨welcome_commands s ws context stamp, fun _ _ _ => .inl ?_⟩
    rw [hframe]
    rfl
  | published service subtopic envelope h =>
    refine ⟨publishPacket_length _ ws _, fun output ho hcommand => ?_⟩
    by_cases hsubtopic : subtopic = "command"
    · left
      rw [h.frame, hsubtopic]
      rfl
    · have hcommandSubtopic := isCommand_publish ho hcommand
      exact .inr ⟨service, subtopic, envelope, h, hcommandSubtopic, hsubtopic⟩

theorem Answered.state (h : Answered config s ws context stamp frame result) :
    result.1.clients = s.clients ∧ result.1.inboundRateLimits = s.inboundRateLimits ∧
      result.1.stages = s.stages := by
  have hregister (requestId : Option String) :
      (registerRequestOwner s ws requestId).clients = s.clients ∧
      (registerRequestOwner s ws requestId).inboundRateLimits = s.inboundRateLimits ∧
      (registerRequestOwner s ws requestId).stages = s.stages := by
    cases requestId <;> exact ⟨rfl, rfl, rfl⟩
  cases h with
  | refused outputs hframe houtputs => exact ⟨rfl, rfl, rfl⟩
  | welcomed deviceId hframe =>
    rw [welcome_eq]
    exact ⟨rfl, rfl, rfl⟩
  | published service subtopic envelope h =>
    obtain ⟨crashed, hp⟩ := publishPacket_state config (registerRequestOwner s ws
      (readRoutingIds (normalizeIncomingEnvelope stamp envelope)).requestId) ws
      ⟨context.deviceId, normalizeIncomingEnvelope stamp envelope, service, subtopic⟩
    rw [hp]
    exact hregister _

theorem answer_commands (data : Option Json) (stamp : Stamp) :
    ((answer config s ws data stamp).2.filter Output.isCommand).length ≤ 1 ∧
      (∀ output ∈ (answer config s ws data stamp).2, output.isCommand = true →
        ∃ value context, data = some value ∧ s.client ws = some context ∧
          (inboundMessageCountsAsCommand (readFrame value) = true ∨ ∃ service subtopic envelope,
            Publishes s ws context stamp (readFrame value) service subtopic envelope ∧
              CommandSubtopic subtopic ∧ subtopic ≠ "command")) := by
  unfold answer
  split
  · rename_i value context hclient
    obtain ⟨hlength, hcommand⟩ : _ ∧ _ :=
      (answered config : Answered config s ws context stamp (readFrame value) _).commands
    exact ⟨hlength, fun output ho hc => ⟨value, context, rfl, hclient, hcommand output ho hc⟩⟩
  · exact ⟨Nat.zero_le _, nofun⟩

theorem answer_state (data : Option Json) (stamp : Stamp) :
    (answer config s ws data stamp).1.clients = s.clients ∧
      (answer config s ws data stamp).1.inboundRateLimits = s.inboundRateLimits ∧
      (answer config s ws data stamp).1.stages = s.stages := by
  unfold answer
  split
  · rename_i value context hclient
    exact (answered config : Answered config s ws context stamp (readFrame value) _).state
  · exact ⟨rfl, rfl, rfl⟩

def Server.commandTimestamps (s : Server Token) (ws : Socket) : List Int :=
  (s.inboundRateLimits ws).commandTimestamps

theorem countedLimiter_commands (h : breaksLimit config s ws data nowMs = false):
    ((s.client ws).isSome && data.any (inboundMessageCountsAsCommand ∘ readFrame)) = true ∧
      ((s.commandTimestamps ws).dropWhile (· < nowMs - config.rateLimit.windowMs)).length <
        config.rateLimit.maxCommandMessages ∧
      (countedLimiter config s ws data nowMs).commandTimestamps =
        (s.commandTimestamps ws).dropWhile (· < nowMs - config.rateLimit.windowMs) ++ [nowMs] ∨
    ((s.client ws).isSome && data.any (inboundMessageCountsAsCommand ∘ readFrame)) = false ∧
      (countedLimiter config s ws data nowMs).commandTimestamps = s.commandTimestamps ws := by
  have hmessage : (recordInboundMessage (s.inboundRateLimits ws) nowMs
      config.rateLimit).1.commandTimestamps = s.commandTimestamps ws := by
    rw [recordInboundMessage]
    split <;> rfl
  rw [countedLimiter]
  cases hcounts : (s.client ws).isSome && data.any (inboundMessageCountsAsCommand ∘ readFrame) with
  | true =>
    left
    simp only [breaksLimit, hcounts, Bool.true_and, or_eq_false_iff] at h
    have hcommand := h.2
    rw [recordInboundCommand, hmessage, pruneExpiredTimestamps] at hcommand
    rw [if_pos rfl, recordInboundCommand, hmessage, pruneExpiredTimestamps]
    split
    · rename_i hfull
      rw [if_pos hfull] at hcommand
      cases hcommand
    · rename_i hroom
      exact ⟨rfl, Nat.lt_of_not_le hroom, rfl⟩
  | false => exact .inr ⟨rfl, hmessage⟩

theorem cleanupClient_registered (s : Server Token) (ws ws' : Socket) :
    (((cleanupClient s ws).stages ws').registered = (s.stages ws').registered) := by
  obtain ⟨_, _, stages, hstages, he⟩ := cleanupClient_eq s ws
  rw [he]
  rcases hstages ws' with hsame | ⟨deviceId, hover⟩
  · exact congrArg _ hsame
  · exact (congrArg _ hover).trans (Stage.registered_overtake _ _)

theorem closeSocket_stages (s : Server Token) (ws : Socket) (reason : String) :
    (closeSocket s ws reason).1.stages = s.stages := by
  obtain ⟨_, he, -⟩ := closeSocket_eq s ws reason
  rw [he]

theorem closeSocket_limits (s : Server Token) (ws : Socket) (reason : String) :
    (closeSocket s ws reason).1.inboundRateLimits = s.inboundRateLimits := by
  obtain ⟨_, he, -⟩ := closeSocket_eq s ws reason
  rw [he]

theorem setStage_registered (hstage : stage.registered = true ∨ ws' ≠ ws)
    (h : (s.stages ws').registered = true) : ((s.setStage ws stage).stages ws').registered = true := by
  change (update s.stages ws stage ws').registered = true
  by_cases hw : ws' = ws
  · subst hw
    rw [update_self]
    exact hstage.resolve_right fun hne => hne rfl
  · rw [update_of_ne hw]
    exact h

theorem registered_step (hr : Registered s) (he : Enabled s event)
    (h : (s.stages ws).registered = true) :
    ((after jwt config s event).stages ws).registered = true := by
  have hne {stage : Stage Token} {ws' : Socket} (hstage : s.stages ws' = stage)
      (hno : stage.registered = false) : ws ≠ ws' := by
    rintro rfl
    rw [hstage, hno] at h
    cases h
  cases event with
  | connection ws' token requested =>
    have hws : ws ≠ ws' := hne (hr.absent ws' he.2) rfl
    cases token with
    | none =>
      simp only [after, handle, connection, closeSocket_stages]
      exact setStage_registered (.inr hws) h
    | some token => exact setStage_registered (.inr hws) h
  | verified ws' token requested stamp =>
    have hws : ws ≠ ws' := hne he.2 rfl
    simp only [after, handle, verified]
    split
    · rw [closeSocket_stages]
      exact setStage_registered (.inr hws) h
    · split
      · rw [closeSocket_stages]
        exact setStage_registered (.inr hws) h
      · simp only [subscribeClient]
        split
        · rw [welcome_eq]
          exact setStage_registered (.inr hws) h
        · exact setStage_registered (.inr hws) h
  | subscribed ws' context overtaken error stamp =>
    cases error with
    | none =>
      simp only [after, handle, subscribed, welcome_eq]
      cases overtaken with
      | false => exact setStage_registered (.inl rfl) h
      | true => exact setStage_registered (.inl rfl) h
    | some message => exact setStage_registered (.inl rfl) h
  | message ws' data nowMs stamp =>
    simp only [after, handle]
    split
    · obtain ⟨limiter, ⟨reason, -, hm⟩ | ⟨requests, crashed, hm⟩⟩ :=
        message_state config s ws' data nowMs stamp
      · rw [hm, closeForRateLimit, closeSocket_stages, cleanupClient_registered]
        exact h
      · rw [hm]
        exact h
    · exact h
  | close ws' | error ws' =>
    simp only [after, handle]
    split
    · rw [cleanupClient_registered]
      exact h
    · exact h
  | mqtt topic payload =>
    obtain ⟨statuses, sessions, hm⟩ := mqttMessage_state s topic payload
    rw [after, handle, hm]
    exact h

theorem cleanupClient_limits (s : Server Token) (hw : ws ≠ ws') :
    (cleanupClient s ws').inboundRateLimits ws = s.inboundRateLimits ws := by
  obtain ⟨_, _, _, -, he⟩ := cleanupClient_eq s ws'
  rw [he]
  exact update_of_ne hw ..

theorem limits_step (hmessage : ∀ data nowMs stamp, event ≠ .message ws data nowMs stamp)
    (hleave : leaving config s event ≠ some ws) :
    (after jwt config s event).inboundRateLimits ws = s.inboundRateLimits ws := by
  cases event with
  | connection ws' token requested =>
    cases token with
    | none =>
      simp only [after, handle, connection, closeSocket_limits]
      rfl
    | some token => rfl
  | verified ws' token requested stamp =>
    simp only [after, handle, verified]
    split
    · rw [closeSocket_limits]
      rfl
    · split
      · rw [closeSocket_limits]
        rfl
      · simp only [subscribeClient]
        split
        · rw [welcome_eq]
          rfl
        · rfl
  | subscribed ws' context overtaken error stamp =>
    cases error with
    | none =>
      simp only [after, handle, subscribed, welcome_eq]
      cases overtaken with
      | false => rfl
      | true => rfl
    | some message => rfl
  | message ws' data nowMs stamp =>
    have hw : ws ≠ ws' := by
      rintro rfl
      exact hmessage data nowMs stamp rfl
    simp only [after, handle]
    split
    · obtain ⟨limiter, ⟨reason, -, hm⟩ | ⟨requests, crashed, hm⟩⟩ :=
        message_state config s ws' data nowMs stamp
      · rw [hm, closeForRateLimit, closeSocket_limits, cleanupClient_limits _ hw]
        exact update_of_ne hw ..
      · rw [hm]
        exact update_of_ne hw ..
    · rfl
  | close ws' | error ws' =>
    simp only [after, handle]
    split
    · rename_i hatt
      have hw : ws ≠ ws' := by
        rintro rfl
        exact hleave (by simpa [leaving] using hatt)
      rw [cleanupClient_limits _ hw]
      rfl
    · rfl
  | mqtt topic payload =>
    obtain ⟨statuses, sessions, hm⟩ := mqttMessage_state s topic payload
    rw [after, handle, hm]

/-- What is published to command topics for a socket is limited, and its limiter knows what of it
still counts. -/
structure Limited (jwt : Jwt Token) (config : Config) (ws : Socket)
    (tr : List (Server Token × Event Token)) (s : Server Token) : Prop where
  bound : ∀ start, (inWindow start config.rateLimit.windowMs (commandTimes jwt config ws tr)).length ≤
    config.rateLimit.maxCommandMessages
  kept : ws ∈ s.clients.map Prod.fst → ∀ now, (∀ t ∈ messageTimes ws tr, t ≤ now) → ∃ log,
    Sliding config.rateLimit.windowMs config.rateLimit.maxCommandMessages log
      ((s.commandTimestamps ws).dropWhile (· < now - config.rateLimit.windowMs)) now ∧
    (commandTimes jwt config ws tr).Sublist log
  idle : (s.stages ws).registered = false → commandTimes jwt config ws tr = []

theorem limited_nil (ws : Socket) (s : Server Token) : Limited jwt config ws [] s where
  bound _ := Nat.zero_le _
  kept _ now _ := ⟨[], .nil _ now, nil_sublist _⟩
  idle _ := rfl

theorem messageTimes_append (ws : Socket) (tr : List (Server Token × Event Token))
    (p : Server Token × Event Token) :
    messageTimes ws (tr ++ [p]) = messageTimes ws tr ++ messageTimes ws [p] :=
  filterMap_append ..

theorem commandTimes_append (jwt : Jwt Token) (config : Config) (ws : Socket)
    (tr : List (Server Token × Event Token)) (p : Server Token × Event Token) :
    commandTimes jwt config ws (tr ++ [p]) =
      commandTimes jwt config ws tr ++ commandTimes jwt config ws [p] :=
  flatMap_append ..

theorem Limited.other (h : Limited jwt config ws tr s) (hr : Registered s) (he : Enabled s event)
    (hcommands : commandTimes jwt config ws [(s, event)] = [])
    (hlimits : leaving config s event ≠ some ws →
      (after jwt config s event).commandTimestamps ws = s.commandTimestamps ws) :
    Limited jwt config ws (tr ++ [(s, event)]) (after jwt config s event) where
  bound := by
    rw [commandTimes_append, hcommands, append_nil]
    exact h.bound
  kept := by
    intro hclient now hnow
    rw [messageTimes_append] at hnow
    rw [commandTimes_append, hcommands, append_nil]
    have hkept : ws ∈ s.clients.map Prod.fst → leaving config s event ≠ some ws → ∃ log,
        Sliding config.rateLimit.windowMs config.rateLimit.maxCommandMessages log
          (((after jwt config s event).commandTimestamps ws).dropWhile
            (· < now - config.rateLimit.windowMs)) now ∧
        (commandTimes jwt config ws tr).Sublist log := by
      intro hmem hleave
      rw [hlimits hleave]
      exact h.kept hmem now fun t ht => hnow t (mem_append_left _ ht)
    cases tablesStep jwt config he with
    | leave ws' hl hclients hrequests hsessions =>
      rw [hclients] at hclient
      obtain ⟨entry, hm, rfl⟩ := mem_map.1 hclient
      obtain ⟨hm, hne⟩ := mem_filter.1 hm
      apply hkept (mem_map_of_mem hm)
      rw [hl, ne_eq, Option.some.injEq]
      rintro rfl
      simp at hne
    | join ws' context hl hstage hclients hrequests hsessions =>
      rw [hclients, map_append, mem_append] at hclient
      rcases hclient with hold | hnew
      · exact hkept hold (by simp [hl])
      · obtain rfl : ws = ws' := by simpa using hnew
        obtain ⟨token, requested, hstage⟩ := hstage
        have hidle : commandTimes jwt config ws tr = [] := by
          apply h.idle
          rw [hstage]
          rfl
        rw [hidle]
        exact ⟨[], .nil _ now, nil_sublist _⟩
    | register ws' context id hl _ hclients hrequests hsessions =>
      exact hkept (hclients ▸ hclient) (by simp [hl])
    | bind topic payload packet ws' id hevent hp hb hclients hrequests hsessions =>
      apply hkept (hclients ▸ hclient)
      rw [hevent]
      exact nofun
    | keep hl hclients hrequests hsessions => exact hkept (hclients ▸ hclient) (by simp [hl])
  idle := by
    intro hstage
    rw [commandTimes_append, hcommands, append_nil]
    apply h.idle
    rw [← not_eq_true] at hstage ⊢
    exact mt (registered_step hr he) hstage

theorem handle_message (hatt : s.isAttached ws = true): handle jwt config s (.message ws data nowMs stamp) =
      message config s ws data nowMs stamp := by
  rw [handle, if_pos hatt]

theorem commandTimes_message (hatt : s.isAttached ws = true):
    commandTimes jwt config ws [(s, .message ws data nowMs stamp)] =
      (((message config s ws data nowMs stamp).2.filter Output.isCommand).map fun _ => nowMs) := by
  simp [commandTimes, outputs, handle_message hatt]

theorem closeForRateLimit_commands (s : Server Token) (ws : Socket) (reason : String) :
    (closeForRateLimit s ws reason).2.filter Output.isCommand = [] := by
  rw [closeForRateLimit, closeSocket]
  split <;> rfl

theorem counted_of_command
    (hatt : s.isAttached ws = true) (hplain : ¬ Bypasses config s (.message ws data nowMs stamp))
    (ho : output ∈ (message config s ws data nowMs stamp).2) (hcommand : output.isCommand = true) :
    breaksLimit config s ws data nowMs = false ∧
      ((s.client ws).isSome && data.any (inboundMessageCountsAsCommand ∘ readFrame)) = true := by
  obtain ⟨-, limiter, reason, hm⟩ | ⟨hbreaks, hm⟩ := message_eq config s ws data nowMs stamp
  · rw [hm] at ho
    have hnone := filter_eq_nil_iff.1 (closeForRateLimit_commands (s.setLimiter ws limiter) ws reason)
    exact absurd hcommand (hnone output ho)
  · refine ⟨hbreaks, ?_⟩
    rw [hm] at ho
    obtain ⟨value, context, rfl, hclient, hcounts | ⟨service, subtopic, envelope, hp, hsub⟩⟩ :=
      (answer_commands data stamp).2 output ho hcommand
    · have hclient : s.client ws = some context := hclient
      rw [hclient]
      exact hcounts
    · have hclient : s.client ws = some context := hclient
      exact absurd ⟨hatt, hbreaks, value, context, rfl, hclient, service, subtopic, envelope,
        (publishes_setLimiter _).1 hp, hsub⟩ hplain

theorem Limited.message (h : Limited jwt config ws tr s) (hr : Registered s)
    (he : Enabled s (.message ws data nowMs stamp)) (hatt : s.isAttached ws = true)
    (hnow : ∀ t ∈ messageTimes ws tr, t ≤ nowMs)
    (hplain : ¬ Bypasses config s (.message ws data nowMs stamp)) :
    Limited jwt config ws (tr ++ [(s, .message ws data nowMs stamp)])
      (after jwt config s (.message ws data nowMs stamp)) := by
  have hafter : after jwt config s (.message ws data nowMs stamp) =
      (Gateway.message config s ws data nowMs stamp).1 := congrArg Prod.fst (handle_message hatt)
  have hnone (hno : ∀ output ∈ (Gateway.message config s ws data nowMs stamp).2,
      output.isCommand ≠ true) : commandTimes jwt config ws [(s, .message ws data nowMs stamp)] = [] := by
    rw [commandTimes_message hatt, filter_eq_nil_iff.2 hno]
    rfl
  obtain ⟨hbreaks, limiter, reason, hm⟩ | ⟨hbreaks, hm⟩ := message_eq config s ws data nowMs stamp
  · apply h.other hr he
    · apply hnone
      intro output ho hcommand
      rw [(counted_of_command hatt hplain ho hcommand).1] at hbreaks
      cases hbreaks
    · intro hleave
      exact absurd (by simp [leaving, hatt, hbreaks]) hleave
  obtain ⟨hclients, hlimits, -⟩ : _ ∧ _ ∧ _ :=
    (answer_state data stamp : (answer config
      (s.setLimiter ws (countedLimiter config s ws data nowMs)) ws data stamp).1.clients = _ ∧ _)
  have hkept : (after jwt config s (.message ws data nowMs stamp)).commandTimestamps ws =
      (countedLimiter config s ws data nowMs).commandTimestamps := by
    rw [hafter, hm, Server.commandTimestamps, hlimits]
    exact congrArg Limiter.commandTimestamps (update_self ..)
  obtain ⟨hcounts, hroom, hrecorded⟩ | ⟨hcounts, hsame⟩ := countedLimiter_commands hbreaks
  · have hclient : ws ∈ s.clients.map Prod.fst := by
      rw [and_eq_true, Option.isSome_iff_exists] at hcounts
      obtain ⟨⟨context, hc⟩, -⟩ := hcounts
      exact mem_keys_of_client hc
    have hlength : ((Gateway.message config s ws data nowMs stamp).2.filter Output.isCommand).length ≤ 1 := by
      rw [hm]
      exact (answer_commands data stamp).1
    have hnew : (commandTimes jwt config ws [(s, .message ws data nowMs stamp)]).Sublist [nowMs] := by
      rw [commandTimes_message hatt, map_const']
      exact (replicate_sublist_replicate nowMs).2 hlength
    obtain ⟨log, hlog, hsub⟩ := h.kept hclient nowMs hnow
    have hrecord := hlog.record hroom
    have hsublist : (commandTimes jwt config ws (tr ++ [(s, .message ws data nowMs stamp)])).Sublist
        (log ++ [nowMs]) := by
      rw [commandTimes_append]
      exact hsub.append hnew
    constructor
    · intro start
      exact (hsublist.filter _).length_le.trans (hrecord.bound start)
    · intro _ now hall
      have hle : nowMs ≤ now := by
        apply hall
        rw [messageTimes_append]
        exact mem_append_right _ (by simp [messageTimes])
      refine ⟨log ++ [nowMs], ?_, hsublist⟩
      rw [hkept, hrecorded]
      exact hrecord.advance hle
    · intro hstage
      have hregistered : (s.stages ws).registered = true := by
        obtain ⟨succeeded, hstage⟩ := isAttached_iff.1 hatt
        rw [hstage]
        rfl
      rw [registered_step hr he hregistered] at hstage
      cases hstage
  · apply h.other hr he
    · apply hnone
      intro output ho hcommand
      rw [(counted_of_command hatt hplain ho hcommand).2] at hcounts
      cases hcounts
    · exact fun _ => hkept.trans hsame

/-- The times of the messages of a socket do not go back, and no message bypasses the limit. -/
structure Plain (config : Config) (ws : Socket) (tr : List (Server Token × Event Token)) : Prop where
  clock : (messageTimes ws tr).Pairwise (· ≤ ·)
  plain : ∀ p ∈ tr, ¬ Bypasses config p.1 p.2

theorem registered_initial : Registered (Server.initial : Server Token) :=
  ⟨nodup_nil, nofun, fun _ _ => rfl⟩

theorem Plain.of_append (h : Plain config ws (tr ++ [p])):
    Plain config ws tr ∧ ¬ Bypasses config p.1 p.2 ∧
      ∀ t ∈ messageTimes ws tr, ∀ now ∈ messageTimes ws [p], t ≤ now := by
  have hclock := h.clock
  rw [messageTimes_append, pairwise_append] at hclock
  exact ⟨⟨hclock.1, fun q hq => h.plain q (mem_append_left _ hq)⟩,
    h.plain p (mem_append_right _ (mem_singleton_self p)), hclock.2.2⟩

theorem Limited.step (h : Limited jwt config ws tr s)
    (hr : Registered s) (he : Enabled s event) (hplain : ¬ Bypasses config s event)
    (hclock : ∀ t ∈ messageTimes ws tr, ∀ now ∈ messageTimes ws [(s, event)], t ≤ now) :
    Limited jwt config ws (tr ++ [(s, event)]) (after jwt config s event) := by
  by_cases hevent : ∃ data nowMs stamp, event = .message ws data nowMs stamp
  · obtain ⟨data, nowMs, stamp, rfl⟩ := hevent
    cases hatt : s.isAttached ws with
    | true =>
      apply h.message hr he hatt ?_ hplain
      intro t ht
      exact hclock t ht nowMs (by simp [messageTimes])
    | false =>
      have hafter : handle jwt config s (.message ws data nowMs stamp) = (s, []) := by
        rw [handle, if_neg (by simp [hatt])]
      apply h.other hr he
      · simp [commandTimes, outputs, hafter]
      · intro _
        rw [after, hafter]
  · have hother : ∀ data nowMs stamp, event ≠ .message ws data nowMs stamp :=
      fun data nowMs stamp heq => hevent ⟨data, nowMs, stamp, heq⟩
    apply h.other hr he
    · cases event with
      | message ws' data nowMs stamp =>
        have hw : ws' ≠ ws := by
          rintro rfl
          exact hother data nowMs stamp rfl
        simp [commandTimes, hw]
      | _ => rfl
    · exact fun hleave => congrArg Limiter.commandTimestamps (limits_step hother hleave)

theorem limited_run (h : (system jwt config).Run .initial tr s) (hplain : Plain config ws tr):
    Limited jwt config ws tr s := by
  have hrun : Registered s ∧ (Plain config ws ([] ++ tr) → Limited jwt config ws ([] ++ tr) s) := by
    refine h.trace_invariant (I := fun tr s =>
      Registered s ∧ (Plain config ws tr → Limited jwt config ws tr s)) ?_
      ⟨registered_initial, fun _ => limited_nil ws _⟩
    rintro tr s event _ ⟨hr, hlimited⟩ ⟨he, rfl⟩
    refine ⟨hr.step he, fun hplain => ?_⟩
    obtain ⟨hbefore, hstep, hclock⟩ := hplain.of_append
    exact (hlimited hbefore).step hr he hstep hclock
  exact hrun.2 hplain

/-- Where no message bypasses the limit, every publication to a command topic is counted, and there
are never more of them in a window than are allowed. -/
theorem commands_limited {tr : List (Server Token × Event Token)}
    (h : (system jwt config).Run .initial tr s) (hplain : Plain config ws tr) :
    (∀ p ∈ tr, ∀ data nowMs stamp, p.2 = .message ws data nowMs stamp →
      ∀ output ∈ outputs jwt config p.1 p.2, output.isCommand = true → Counted config p.1 p.2) ∧
    ∀ start, (inWindow start config.rateLimit.windowMs (commandTimes jwt config ws tr)).length ≤
      config.rateLimit.maxCommandMessages := by
  refine ⟨?_, (limited_run h hplain).bound⟩
  rintro ⟨u, event⟩ hp data nowMs stamp rfl output ho hcommand
  cases hatt : u.isAttached ws with
  | true =>
    rw [outputs, handle_message hatt] at ho
    obtain ⟨hbreaks, hcounts⟩ := counted_of_command hatt (hplain.plain _ hp) ho hcommand
    rw [and_eq_true] at hcounts
    exact ⟨hcounts.2, hbreaks⟩
  | false =>
    rw [outputs, handle, if_neg (by simp [hatt])] at ho
    cases ho

end

def pictureFrame (subtopic : String) : Json :=
  .obj [("kind", .str "packet"), ("service", .str "camera"), ("subtopic", .str subtopic),
    ("envelope", .obj [("type", .str "get-frame")])]

def pictureRun (subtopic : String) : List (Event DeviceGatewayAccessTokenPayload) :=
  joinFirst 0 "d1" "u1" ++ [.message 0 (some (pictureFrame subtopic)) 0 sampleStamp,
    .message 0 (some (pictureFrame subtopic)) 1 sampleStamp]

def twoCommands : Config := ⟨"default", ⟨2, 120, 5000⟩, fun _ => true⟩

def oneCommand : Config := ⟨"default", ⟨1, 120, 5000⟩, fun _ => true⟩

theorem pictureRun_plain :
    Plain twoCommands 0 (replay (after plainJwt twoCommands) .initial (pictureRun "command")).1 where
  clock := by decide +kernel
  plain := by
    have hframe : readFrame (pictureFrame "command") =
        .packet (some "camera") "command" (.obj [("type", .str "get-frame")]) := by rfl
    have hno {s : Server DeviceGatewayAccessTokenPayload} {nowMs : Int} : ¬ Bypasses twoCommands s
        (.message 0 (some (pictureFrame "command")) nowMs sampleStamp) := by
      rintro ⟨-, -, value, context, hv, -, service, subtopic, envelope, hp, -, hne⟩
      cases hv
      have hpacket := hframe.symm.trans hp.frame
      cases hpacket
      exact hne rfl
    simp only [pictureRun, joinFirst, cons_append, nil_append, replay, forall_mem_cons]
    exact ⟨by rintro ⟨⟩, by rintro ⟨⟩, by rintro ⟨⟩, hno, hno, by rintro _ ⟨⟩⟩

theorem commands_limited_pictures : ∃ tr s, (system plainJwt twoCommands).Run .initial tr s ∧
      commandTimes plainJwt twoCommands 0 tr = [0, 1] ∧
      (∀ p ∈ tr, ∀ data nowMs stamp, p.2 = .message 0 data nowMs stamp →
        ∀ output ∈ outputs plainJwt twoCommands p.1 p.2, output.isCommand = true →
          Counted twoCommands p.1 p.2) ∧
      ∀ start, (inWindow start 5000 (commandTimes plainJwt twoCommands 0 tr)).length ≤ 2 := by
  have hrun : (system plainJwt twoCommands).Run .initial
      (replay (after plainJwt twoCommands) .initial (pictureRun "command")).1
      (replay (after plainJwt twoCommands) .initial (pictureRun "command")).2 := by
    apply System.run_replay
    simp only [pictureRun, joinFirst, cons_append, nil_append, replay, forall_mem_cons]
    exact ⟨⟨rfl, rfl⟩, ⟨rfl, rfl⟩, ⟨rfl, rfl⟩, ⟨rfl, .inl rfl⟩, ⟨rfl, .inl rfl⟩, by rintro _ ⟨⟩⟩
  exact ⟨_, _, hrun, by decide +kernel, commands_limited hrun pictureRun_plain⟩

/-- Under the subtopic of a slash and `command`, two commands pass a limit of one. -/
theorem slash_command_bypasses : ¬ ∀ config tr (s : Server DeviceGatewayAccessTokenPayload) ws,
      (system plainJwt config).Run .initial tr s → (messageTimes ws tr).Pairwise (· ≤ ·) →
        (∀ p ∈ tr, ∀ data nowMs stamp, p.2 = .message ws data nowMs stamp →
          ∀ output ∈ outputs plainJwt config p.1 p.2, output.isCommand = true →
            Counted config p.1 p.2) ∧
        ∀ start, (inWindow start config.rateLimit.windowMs
          (commandTimes plainJwt config ws tr)).length ≤ config.rateLimit.maxCommandMessages := by
  intro h
  have hrun : (system plainJwt oneCommand).Run .initial
      (replay (after plainJwt oneCommand) .initial (pictureRun "/command")).1
      (replay (after plainJwt oneCommand) .initial (pictureRun "/command")).2 := by
    apply System.run_replay
    simp only [pictureRun, joinFirst, cons_append, nil_append, replay, forall_mem_cons]
    exact ⟨⟨rfl, rfl⟩, ⟨rfl, rfl⟩, ⟨rfl, rfl⟩, ⟨rfl, .inl rfl⟩, ⟨rfl, .inl rfl⟩, by rintro _ ⟨⟩⟩
  have hwindow := (h oneCommand _ _ 0 hrun (by decide +kernel)).2 0
  exact absurd hwindow (by decide +kernel)

end Trakrai.Gateway
