import Trakrai.Gateway.Packets
import Trakrai.Lib.GoPath

namespace Trakrai.CloudComm
open List hiding filter
open String Lib Gateway

/-- `strings.HasPrefix`. -/
def goHasPrefix (text head : String) : Bool := head.toList.isPrefixOf text.toList

/-- `strings.TrimPrefix`. -/
def goTrimPrefix (text head : String) : String :=
  if goHasPrefix text head then String.ofList (text.toList.drop head.length) else text

section
variable (deviceID : String)

def topicPrefix : String := "trakrai/device/" ++ deviceID

/-- The filters of `subscribe`. -/
def subscriptions : List String :=
  [topicPrefix deviceID ++ "/command", topicPrefix deviceID ++ "/service/+/command",
    topicPrefix deviceID ++ "/service/+/webrtc/answer",
    topicPrefix deviceID ++ "/service/+/webrtc/ice"]

structure TopicRoute where
  service : String
  subtopic : String
deriving DecidableEq

def routeTopic (topic : String) : Option TopicRoute :=
  if topic = topicPrefix deviceID ++ "/command" then some ⟨"", "command"⟩
  else if ¬ goHasPrefix topic (topicPrefix deviceID ++ "/service/") then none
  else
    match jsSplit '/' (goTrimPrefix topic (topicPrefix deviceID ++ "/service/")) with
    | service :: part :: parts => some ⟨service, jsJoin '/' (part :: parts)⟩
    | _ => none

def publishTopic (service subtopic : String) : String :=
  if service = "" then topicPrefix deviceID ++ "/" ++ goTrimPrefix subtopic "/"
  else topicPrefix deviceID ++ "/service/" ++ service ++ "/" ++ goTrimPrefix subtopic "/"

end

def levelsMatch : List String → List String → Bool
  | [], [] => true
  | ["#"], _ => true
  | "+" :: filter, _ :: levels => levelsMatch filter levels
  | level :: filter, level' :: levels => level == level' && levelsMatch filter levels
  | _, _ => false

/-- The broker passes what is published to the topic on to the device. -/
def Subscribed (deviceID topic : String) : Prop :=
  ∃ filter ∈ subscriptions deviceID, levelsMatch (jsSplit '/' filter) (jsSplit '/' topic) = true

def subtopics : List String :=
  ["command", "response", "status", "webrtc/offer", "webrtc/answer", "webrtc/ice"]

structure Name (name : String) : Prop where
  ne : name ≠ ""
  slash : '/' ∉ name.toList
  trimmed : jsTrim name = name

theorem goHasPrefix_append (head rest : String) : goHasPrefix (head ++ rest) head = true := by
  rw [goHasPrefix, toList_append, isPrefixOf_iff_prefix]
  exact prefix_append ..

theorem goTrimPrefix_append (head rest : String) : goTrimPrefix (head ++ rest) head = rest := by
  rw [goTrimPrefix, if_pos (goHasPrefix_append ..), toList_append, ← length_toList,
    drop_left, ofList_toList]

section
variable {subtopic : String}

theorem normalizeTopicSubtopic_known (h : subtopic ∈ subtopics) :
    normalizeTopicSubtopic subtopic = subtopic ∧ subtopic ≠ "" ∧
      goTrimPrefix subtopic "/" = subtopic := by
  revert subtopic
  decide

theorem levels_known (h : subtopic ∈ subtopics) :
    parseSubtopic (jsSplit '/' subtopic) = some subtopic ∧
      (∃ level levels, jsSplit '/' subtopic = level :: levels ∧ level ≠ "service") ∧
      jsJoin '/' (jsSplit '/' subtopic) = subtopic := by
  simp only [subtopics, mem_cons, not_mem_nil, or_false] at h
  rcases h with rfl | rfl | rfl | rfl | rfl | rfl
  · exact ⟨by decide, ⟨_, _, rfl, by decide⟩, by decide⟩
  · exact ⟨by decide, ⟨_, _, rfl, by decide⟩, by decide⟩
  · exact ⟨by decide, ⟨_, _, rfl, by decide⟩, by decide⟩
  · exact ⟨by decide, ⟨_, _, rfl, by decide⟩, by decide⟩
  · exact ⟨by decide, ⟨_, _, rfl, by decide⟩, by decide⟩
  · exact ⟨by decide, ⟨_, _, rfl, by decide⟩, by decide⟩

end

def topicOf (deviceId : String) (service : Option String) (subtopic : String) : String :=
  match service with
  | none => "trakrai/device/" ++ deviceId ++ "/" ++ subtopic
  | some service => "trakrai/device/" ++ deviceId ++ "/service/" ++ service ++ "/" ++ subtopic

section
variable {deviceId subtopic : String} {service : Option String}

theorem buildDeviceTopic_eq (hd : Name deviceId) (hs : ∀ name ∈ service, Name name)
    (h : subtopic ∈ subtopics) :
    buildDeviceTopic deviceId subtopic service = some (topicOf deviceId service subtopic) := by
  obtain ⟨hnormal, hne, -⟩ := normalizeTopicSubtopic_known h
  rw [buildDeviceTopic, hnormal, if_neg hne, topicBase, hd.trimmed]
  cases service with
  | none => rfl
  | some name =>
    have hname := hs name rfl
    rw [Option.getD_some, hname.trimmed, if_pos hname.ne]
    rfl

theorem publishTopic_eq (hs : ∀ name ∈ service, Name name) (h : subtopic ∈ subtopics) :
    publishTopic deviceId (service.getD "") subtopic = topicOf deviceId service subtopic := by
  obtain ⟨-, -, htrim⟩ := normalizeTopicSubtopic_known h
  rw [publishTopic, htrim]
  cases service with
  | none => rfl
  | some name =>
    rw [Option.getD_some, if_neg (hs name rfl).ne]
    rfl

theorem jsSplit_device (hd : Name deviceId) :
    jsSplit '/' ("trakrai/device/" ++ deviceId) = ["trakrai", "device", deviceId] := by
  have hbase : "trakrai/device/" ++ deviceId = "trakrai/device" ++ "/" ++ deviceId := by
    rw [show "trakrai/device/" = "trakrai/device" ++ "/" by decide]
  rw [hbase, jsSplit_append_slash, jsSplit_of_not_mem hd.slash,
    show jsSplit '/' "trakrai/device" = ["trakrai", "device"] by decide]
  rfl

theorem jsSplit_topicOf (hd : Name deviceId) (hs : ∀ name ∈ service, Name name) :
    jsSplit '/' (topicOf deviceId service subtopic) = "trakrai" :: "device" :: deviceId ::
        ((service.map fun name => ["service", name]).getD [] ++ jsSplit '/' subtopic) := by
  cases service with
  | none =>
    have htopic : topicOf deviceId none subtopic =
        "trakrai/device/" ++ deviceId ++ "/" ++ subtopic := rfl
    rw [htopic, jsSplit_append_slash, jsSplit_device hd]
    rfl
  | some name =>
    have htopic : topicOf deviceId (some name) subtopic =
        "trakrai/device/" ++ deviceId ++ "/" ++ "service" ++ "/" ++ name ++ "/" ++ subtopic :=
      calc topicOf deviceId (some name) subtopic
        _ = "trakrai/device/" ++ deviceId ++ ("/" ++ "service" ++ "/") ++ name ++ "/" ++ subtopic :=
          congrArg (fun mark => "trakrai/device/" ++ deviceId ++ mark ++ name ++ "/" ++ subtopic)
            (show "/service/" = "/" ++ "service" ++ "/" by decide)
        _ = _ := by simp only [String.append_assoc]
    have hservice : jsSplit '/' "service" = ["service"] := by decide
    rw [htopic, jsSplit_append_slash, jsSplit_append_slash, jsSplit_append_slash, jsSplit_device hd,
      jsSplit_of_not_mem (hs name rfl).slash, hservice]
    simp only [Option.map_some, Option.getD_some, cons_append, nil_append]

theorem parseDeviceTopic_topicOf (hd : Name deviceId) (hs : ∀ name ∈ service, Name name)
    (h : subtopic ∈ subtopics) :
    parseDeviceTopic (topicOf deviceId service subtopic) = some ⟨deviceId, service, subtopic⟩ := by
  obtain ⟨hparse, ⟨level, levels, hlevels, hlevel⟩, -⟩ := levels_known h
  rw [parseDeviceTopic, jsSplit_topicOf hd hs]
  cases service with
  | none =>
    rw [hlevels] at hparse ⊢
    simp [hd.ne, hparse, hlevel]
  | some name => simp [hd.ne, (hs name rfl).ne, hparse]

end

def filterLevels : List (List String) :=
  [["command"], ["service", "+", "command"], ["service", "+", "webrtc", "answer"],
    ["service", "+", "webrtc", "ice"]]

section
variable {deviceId subtopic : String} {service : Option String}

theorem jsSplit_below (hd : Name deviceId) (rest : String) (htext : text = "/" ++ rest): jsSplit '/' (topicPrefix deviceId ++ text) =
      "trakrai" :: "device" :: deviceId :: jsSplit '/' rest := by
  rw [htext, ← String.append_assoc, topicPrefix, jsSplit_append_slash, jsSplit_device hd]
  rfl

theorem jsSplit_subscriptions (hd : Name deviceId) : (subscriptions deviceId).map (jsSplit '/') =
    filterLevels.map fun levels => "trakrai" :: "device" :: deviceId :: levels := by
  simp only [subscriptions, filterLevels, map_cons, map_nil]
  rw [jsSplit_below hd "command" (by decide), jsSplit_below hd "service/+/command" (by decide),
    jsSplit_below hd "service/+/webrtc/answer" (by decide),
    jsSplit_below hd "service/+/webrtc/ice" (by decide)]
  have hlevels : [jsSplit '/' "command", jsSplit '/' "service/+/command",
      jsSplit '/' "service/+/webrtc/answer", jsSplit '/' "service/+/webrtc/ice"] = filterLevels := by
    decide
  simp only [filterLevels, List.cons.injEq] at hlevels
  obtain ⟨h₁, h₂, h₃, h₄, -⟩ := hlevels
  rw [h₁, h₂, h₃, h₄]

theorem levelsMatch_cons_self (hne : filter ≠ []) (level : String) :
    levelsMatch (level :: filter) (level :: levels) = levelsMatch filter levels := by
  obtain ⟨next, rest, rfl⟩ := exists_cons_of_ne_nil hne
  by_cases hplus : level = "+"
  · subst hplus
    rw [levelsMatch]
  · rw [levelsMatch]
    · simp
    · exact nofun
    · exact hplus

theorem subscribed_iff (hd : Name deviceId)
    (htopic : jsSplit '/' topic = "trakrai" :: "device" :: deviceId :: levels) :
    Subscribed deviceId topic ↔ ∃ filter ∈ filterLevels, levelsMatch filter levels = true := by
  have hmap : Subscribed deviceId topic ↔ ∃ filter ∈ (subscriptions deviceId).map (jsSplit '/'),
      levelsMatch filter (jsSplit '/' topic) = true := by
    simp only [Subscribed, mem_map, exists_exists_and_eq_and]
  have hne : ∀ filter ∈ filterLevels, filter ≠ [] := by decide
  rw [hmap, jsSplit_subscriptions hd, htopic]
  simp only [mem_map, exists_exists_and_eq_and]
  apply exists_congr
  intro filter
  apply and_congr_right
  intro hf
  rw [levelsMatch_cons_self (by simp), levelsMatch_cons_self (by simp),
    levelsMatch_cons_self (hne filter hf)]

theorem command_of_subscribed (h : subtopic ∈ subtopics)
    (hmatch : ∃ filter ∈ filterLevels, levelsMatch filter (jsSplit '/' subtopic) = true) :
    subtopic = "command" := by
  revert subtopic
  decide

theorem routeTopic_topicOf (hd : Name deviceId) (hs : ∀ name ∈ service, Name name)
    (h : subtopic ∈ subtopics) (hsub : Subscribed deviceId (topicOf deviceId service subtopic)) :
    routeTopic deviceId (topicOf deviceId service subtopic) = some ⟨service.getD "", subtopic⟩ := by
  rw [subscribed_iff hd (jsSplit_topicOf hd hs)] at hsub
  cases service with
  | none =>
    obtain rfl := command_of_subscribed h hsub
    have hcommand : topicOf deviceId none "command" = topicPrefix deviceId ++ "/command" :=
      calc topicOf deviceId none "command"
        _ = topicPrefix deviceId ++ "/" ++ "command" := rfl
        _ = topicPrefix deviceId ++ ("/" ++ "command") := String.append_assoc ..
        _ = _ := congrArg (topicPrefix deviceId ++ ·) (by decide)
    rw [routeTopic, if_pos hcommand]
    rfl
  | some name =>
    obtain ⟨-, ⟨level, levels, hlevels, -⟩, hjoin⟩ := levels_known h
    have hname := hs name rfl
    have htopic : topicOf deviceId (some name) subtopic =
        topicPrefix deviceId ++ "/service/" ++ (name ++ "/" ++ subtopic) :=
      calc topicOf deviceId (some name) subtopic
        _ = topicPrefix deviceId ++ "/service/" ++ name ++ "/" ++ subtopic := rfl
        _ = _ := by simp only [String.append_assoc]
    have hcommand : topicOf deviceId (some name) subtopic ≠ topicPrefix deviceId ++ "/command" := by
      intro heq
      have hsplit : jsSplit '/' (topicOf deviceId (some name) subtopic) = _ := jsSplit_topicOf hd hs
      rw [heq, jsSplit_below hd "command" (by decide)] at hsplit
      have hlevel : jsSplit '/' "command" = ["command"] := by decide
      rw [hlevel] at hsplit
      simp at hsplit
    rw [routeTopic, if_neg hcommand, htopic, goHasPrefix_append, goTrimPrefix_append,
      jsSplit_append_slash, jsSplit_of_not_mem hname.slash, hlevels]
    simp only [not_true, if_false, singleton_append]
    rw [← hlevels, hjoin]
    rfl

theorem topicOf_inj (hd : Name deviceId)
    (hs : ∀ name ∈ service, Name name) (h : subtopic ∈ subtopics) (hd' : Name deviceId')
    (hs' : ∀ name ∈ service', Name name) (h' : subtopic' ∈ subtopics)
    (heq : topicOf deviceId service subtopic = topicOf deviceId' service' subtopic') :
    (deviceId, service, subtopic) = (deviceId', service', subtopic') := by
  have hparse := parseDeviceTopic_topicOf hd hs h
  rw [heq, parseDeviceTopic_topicOf hd' hs' h', Option.some.injEq, ParsedDeviceTopic.mk.injEq] at hparse
  obtain ⟨rfl, rfl, rfl⟩ := hparse
  rfl

end

/-- The gateway and the device read each other's topics as they were meant, and no topic is meant
twice. -/
theorem topics_agree {deviceId subtopic : String} {service : Option String} (hd : Name deviceId)
    (hs : ∀ name ∈ service, Name name) (h : subtopic ∈ subtopics) :
    (∃ topic, buildDeviceTopic deviceId subtopic service = some topic ∧ (Subscribed deviceId topic →
        routeTopic deviceId topic = some ⟨service.getD "", subtopic⟩)) ∧
    parseDeviceTopic (publishTopic deviceId (service.getD "") subtopic) =
      some ⟨deviceId, service, subtopic⟩ ∧
    ∀ deviceId' service' subtopic', Name deviceId' → (∀ name ∈ service', Name name) →
      subtopic' ∈ subtopics → (deviceId, service, subtopic) ≠ (deviceId', service', subtopic') →
      buildDeviceTopic deviceId subtopic service ≠ buildDeviceTopic deviceId' subtopic' service' ∧
      publishTopic deviceId (service.getD "") subtopic ≠
        publishTopic deviceId' (service'.getD "") subtopic' ∧
      buildDeviceTopic deviceId subtopic service ≠
        some (publishTopic deviceId' (service'.getD "") subtopic') := by
  rw [buildDeviceTopic_eq hd hs h, publishTopic_eq hs h]
  refine ⟨⟨_, rfl, routeTopic_topicOf hd hs h⟩, parseDeviceTopic_topicOf hd hs h, ?_⟩
  intro deviceId' service' subtopic' hd' hs' h' hne
  have htopic : topicOf deviceId service subtopic ≠ topicOf deviceId' service' subtopic' :=
    fun heq => hne (topicOf_inj hd hs h hd' hs' h' heq)
  rw [buildDeviceTopic_eq hd' hs' h', publishTopic_eq hs' h', ne_eq, Option.some.injEq]
  exact ⟨htopic, htopic, htopic⟩

theorem topics_agree_command :
    (∃ topic, buildDeviceTopic "service" "webrtc/ice" (some "command") = some topic ∧
      Subscribed "service" topic ∧ routeTopic "service" topic = some ⟨"command", "webrtc/ice"⟩) ∧
    parseDeviceTopic (publishTopic "service" "command" "webrtc/ice") =
      some ⟨"service", some "command", "webrtc/ice"⟩ := by
  have hservice : ∀ name ∈ some "command", Name name := by
    rintro name ⟨⟩
    exact ⟨by decide, by decide, by decide⟩
  have hdevice : Name "service" := ⟨by decide, by decide, by decide⟩
  have hknown : "webrtc/ice" ∈ subtopics := by decide
  obtain ⟨⟨topic, htopic, hroute⟩, hparse, -⟩ := topics_agree hdevice hservice hknown
  have hsubscribed : Subscribed "service" topic := by
    rw [buildDeviceTopic_eq hdevice hservice hknown, Option.some.injEq] at htopic
    rw [← htopic, subscribed_iff hdevice (jsSplit_topicOf hdevice hservice)]
    decide
  exact ⟨⟨topic, htopic, hsubscribed, hroute hsubscribed⟩, hparse⟩

end Trakrai.CloudComm
