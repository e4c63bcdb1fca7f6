import Mathlib.Logic.Function.Basic
import Trakrai.Lib.Transition
import Trakrai.LiveTransport.Requests

namespace Trakrai.LiveTransport.Correlation
open Function List Lib

/-- A call of `request`: its options, the id that it makes if they have none, and what `JSON.stringify` makes of its
frame. A payload with a `bigint` or with a cycle throws. -/
structure RequestCall where
  options : RequestOptions
  fresh : String
  frame : Except String String

def RequestCall.requestId (call : RequestCall) : String :=
  (normalizeOptionalString call.options.requestId).getD call.fresh

def RequestCall.misconfigured (call : RequestCall) (hasValidTransportConfig : Bool) : Bool :=
  !hasValidTransportConfig || jsTrim call.options.command = "" || jsTrim (call.options.subtopic.getD "command") = ""

/-- How `resolve` or `reject` is called. -/
inductive Answer where
  | resolved (packet : TransportPacket)
  | rejected (message : String)

structure PendingEntry where
  call : Nat
  pendingRequest : PendingRequest

/-- The requests of a provider. A timer has the number of its call. -/
structure Provider where
  called : Nat → Bool
  pending : List (String × PendingEntry)
  timers : List Nat
  /-- The calls of `resolve` and `reject`, by the calls of `request` whose promises they settle. -/
  answers : List (Nat × Answer)
  activeDeviceId : String

namespace Provider

def initial : Provider := ⟨fun _ => false, [], [], [], ""⟩

def answer (s : Provider) (call : Nat) (answer : Answer) : Provider :=
  { s with answers := s.answers ++ [(call, answer)] }

def drop (s : Provider) (requestId : String) (call : Nat) : Provider :=
  { s with pending := s.pending.filter (·.1 ≠ requestId), timers := s.timers.filter (· ≠ call) }

/-- Every entry is taken out first, then their timers are cleared and their promises rejected. -/
def clearPendingRequests (s : Provider) (reason : String) : Provider :=
  { s with
    pending := []
    timers := s.timers.filter fun timer => s.pending.all (·.2.call ≠ timer)
    answers := s.answers ++ s.pending.map fun entry => (entry.2.call, .rejected reason) }

end Provider

def takes (pendingRequest : PendingRequest) (packet : TransportPacket) : Bool :=
  normalizeServiceName packet.service = pendingRequest.service &&
    packet.subtopic ∈ pendingRequest.responseSubtopics &&
    pendingRequest.responseTypes.all fun types => (getEnvelopeType packet.envelope).any (· ∈ types)

def answerOf (requestId : String) (packet : TransportPacket) : Answer :=
  let responseType := getEnvelopeType packet.envelope
  if isErrorResponseType responseType then .rejected (readRequestErrorMessage requestId packet responseType)
  else .resolved packet

inductive Action where
  | request (call : Nat) (hasValidTransportConfig : Bool)
  /-- A handler of packets that throws keeps the packet from the requests. -/
  | packet (packet : TransportPacket) (handlerThrows : Bool)
  | timeout (call : Nat)
  | setDevice (deviceId : String)
  | reset
  | unmount

section
variable (calls : Nat → RequestCall)

def rejectTimedOutRequest (s : Provider) (call : Nat) : Provider :=
  let options := (calls call).options
  { s.answer call (.rejected ("Timed out waiting for " ++ (normalizeServiceName options.service).getD "device" ++ ":" ++
      jsTrim options.command)) with
    pending := s.pending.filter (·.1 ≠ (calls call).requestId)
    timers := s.timers.filter (· ≠ call) }

def Enabled (s : Provider) : Action → Prop
  | .request call hasValidTransportConfig => s.called call = false ∧
    ((calls call).misconfigured hasValidTransportConfig = false → (calls call).requestId ∉ s.pending.map Prod.fst)
  | .timeout call => call ∈ s.timers
  | .setDevice deviceId => deviceId ≠ ""
  | .packet .. | .reset | .unmount => True

def after (s : Provider) : Action → Provider
  | .request call hasValidTransportConfig =>
    let s := { s with called := update s.called call true }
    if (calls call).misconfigured hasValidTransportConfig then
      s.answer call (.rejected "Device protocol request is not configured correctly.")
    else
      let s := {
        s with
        pending := s.pending ++ [((calls call).requestId, ⟨call, pendingRequest (calls call).options⟩)]
        timers := s.timers ++ [call] }
      match (calls call).frame with
      | .ok _ => s
      -- thrown in the executor, an error settles the promise
      | .error error => s.answer call (.rejected error)
  | .packet packet handlerThrows =>
    if handlerThrows then s
    else
      match readPacketRequestId packet with
      | none => s
      | some requestId =>
        match s.pending.lookup requestId with
        | none => s
        | some entry =>
          if takes entry.pendingRequest packet then
            (s.drop requestId entry.call).answer entry.call (answerOf requestId packet)
          else s
  | .timeout call => rejectTimedOutRequest calls s call
  | .setDevice deviceId =>
    let s' :=
      if s.activeDeviceId ≠ "" ∧ s.activeDeviceId ≠ deviceId ∧ s.pending ≠ [] then
        s.clearPendingRequests ("Device target changed from " ++ s.activeDeviceId ++ " to " ++ deviceId)
      else s
    { s' with activeDeviceId := deviceId }
  | .reset => s.clearPendingRequests "Transport connection was reset"
  | .unmount => s.clearPendingRequests "Transport provider was unmounted"

/-- Each callback of the page runs to its end before the next one. -/
def provider : System Provider Action := .guarded (· = .initial) (Enabled calls) (after calls)

/-- A packet that may settle the promise of a call. -/
structure Response (call : RequestCall) (packet : TransportPacket) : Prop where
  requestId : readPacketRequestId packet = some call.requestId
  service : normalizeServiceName packet.service = normalizeServiceName call.options.service
  subtopic : packet.subtopic ∈ (pendingRequest call.options).responseSubtopics
  type : ∀ types, (pendingRequest call.options).responseTypes = some types →
    ∃ type ∈ types, getEnvelopeType packet.envelope = some type

def Provider.settled (s : Provider) : List Nat := s.answers.map Prod.fst

def RequestCall.entry (call : Nat) : String × PendingEntry :=
  ((calls call).requestId, ⟨call, pendingRequest (calls call).options⟩)

/-- The promises of a provider are settled once, and until then the entry is there and the timer runs. -/
structure Correlated (s : Provider) : Prop where
  once : s.settled.Nodup
  waits : ∀ call, s.called call = true → call ∉ s.settled → RequestCall.entry calls call ∈ s.pending ∧ call ∈ s.timers
  cleared : ∀ call ∈ s.settled, call ∉ s.timers ∧ ∀ entry ∈ s.pending, entry.2.call ≠ call
  responses : ∀ call packet, (call, .resolved packet) ∈ s.answers → Response (calls call) packet

def FrameSent : Action → Prop
  | .request call hasValidTransportConfig =>
    (calls call).misconfigured hasValidTransportConfig = true ∨ ∃ frame, (calls call).frame = .ok frame
  | _ => True

/-- The entries, the timers and the promises of a provider belong together. -/
structure Matched (s : Provider) : Prop where
  ids : (s.pending.map Prod.fst).Nodup
  entries : ∀ entry ∈ s.pending, entry = RequestCall.entry calls entry.2.call
  timers : s.timers = s.pending.map (·.2.call)
  called : ∀ call, s.called call = true ↔ call ∈ s.settled ∨ call ∈ s.timers
  cleared : ∀ call ∈ s.settled, call ∉ s.timers
  once : s.settled.Nodup
  responses : ∀ call packet, (call, .resolved packet) ∈ s.answers → Response (calls call) packet

end

section
variable {calls : Nat → RequestCall} {s s' : Provider} {a : Action} {call : Nat} {requestId : String}
  {entry : PendingEntry} {packet : TransportPacket}

theorem initial_matched : Matched calls .initial where
  ids := nodup_nil
  entries := nofun
  timers := rfl
  called _ := by simp [Provider.initial, Provider.settled]
  cleared := nofun
  once := nodup_nil
  responses := nofun

theorem Matched.timers_nodup (h : Matched calls s) : s.timers.Nodup := by
  have hids : s.pending.map Prod.fst = s.timers.map fun call => (calls call).requestId := by
    rw [h.timers, map_map]
    apply map_congr_left
    intro entry hentry
    exact congrArg Prod.fst (h.entries entry hentry)
  have hnodup := h.ids
  rw [hids] at hnodup
  exact hnodup.of_map _

theorem Matched.correlated (h : Matched calls s) : Correlated calls s where
  once := h.once
  waits call hcalled hsettled := by
    have htimer : call ∈ s.timers := ((h.called call).1 hcalled).resolve_left hsettled
    refine ⟨?_, htimer⟩
    rw [h.timers] at htimer
    obtain ⟨entry, hentry, rfl⟩ := mem_map.1 htimer
    rw [← h.entries entry hentry]
    exact hentry
  cleared call hsettled := by
    have hcleared := h.cleared call hsettled
    refine ⟨hcleared, ?_⟩
    rintro entry hentry rfl
    apply hcleared
    rw [h.timers]
    exact mem_map_of_mem hentry
  responses := h.responses

/-- Promises are settled while their entries and timers are taken away. -/
theorem Matched.answered (h : Matched calls s) (hcalled : s'.called = s.called)
    (hpending : s'.pending.Sublist s.pending) (htimers : s'.timers = s'.pending.map (·.2.call))
    (hanswers : s'.answers = s.answers ++ answers) (hnodup : (answers.map Prod.fst).Nodup)
    (hgone : ∀ call, call ∈ answers.map Prod.fst ↔ call ∈ s.timers ∧ call ∉ s'.timers)
    (hresponses : ∀ call packet, (call, .resolved packet) ∈ answers → Response (calls call) packet) :
    Matched calls s' := by
  have hsettled : s'.settled = s.settled ++ answers.map Prod.fst := by
    rw [Provider.settled, hanswers, map_append]
    rfl
  have hkept : ∀ call ∈ s'.timers, call ∈ s.timers := by
    intro call hcall
    rw [htimers] at hcall
    rw [h.timers]
    exact (hpending.map _).subset hcall
  exact {
    ids := (hpending.map _).nodup h.ids
    entries := fun entry hentry => h.entries entry (hpending.subset hentry)
    timers := htimers
    called := by
      intro call
      rw [hcalled, hsettled, mem_append, hgone, h.called]
      have := hkept call
      tauto
    cleared := by
      intro call hcall htimer
      rw [hsettled, mem_append] at hcall
      cases hcall with
      | inl hcall => exact h.cleared call hcall (hkept call htimer)
      | inr hcall => exact ((hgone call).1 hcall).2 htimer
    once := by
      rw [hsettled]
      apply h.once.append hnodup
      intro call hcall hanswer
      exact h.cleared call hcall ((hgone call).1 hanswer).1
    responses := by
      intro call packet hmem
      rw [hanswers] at hmem
      cases mem_append.1 hmem with
      | inl hmem => exact h.responses call packet hmem
      | inr hmem => exact hresponses call packet hmem }

theorem Matched.drop_timers (h : Matched calls s) (hentry : (requestId, entry) ∈ s.pending) :
    (s.drop requestId entry.call).timers = (s.drop requestId entry.call).pending.map (·.2.call) := by
  have hcall : ∀ e ∈ s.pending, decide (e.2.call ≠ entry.call) = decide (e.1 ≠ requestId) := by
    intro e he
    apply decide_eq_decide.2
    apply not_congr
    have hid : e.1 = (calls e.2.call).requestId := congrArg Prod.fst (h.entries e he)
    have hid' : requestId = (calls entry.call).requestId := congrArg Prod.fst (h.entries _ hentry)
    constructor
    · intro heq
      rw [hid, hid', heq]
    · intro heq
      have : e = (requestId, entry) := inj_on_of_nodup_map h.ids he hentry heq
      rw [this]
  simp only [Provider.drop, h.timers, filter_map]
  exact congrArg _ (filter_congr hcall)

theorem Matched.drop (h : Matched calls s) (hentry : (requestId, entry) ∈ s.pending)
    (hanswer : ∀ packet, answer = .resolved packet → Response (calls entry.call) packet) :
    Matched calls ((s.drop requestId entry.call).answer entry.call answer) := by
  have htimer : entry.call ∈ s.timers := by
    rw [h.timers]
    exact mem_map_of_mem hentry
  have hcalled : ((s.drop requestId entry.call).answer entry.call answer).called = s.called := rfl
  apply h.answered hcalled filter_sublist (h.drop_timers hentry) rfl (nodup_singleton _)
  · intro call
    simp only [map_cons, map_nil, mem_singleton, Provider.answer, Provider.drop, mem_filter]
    constructor
    · rintro rfl
      exact ⟨htimer, by simp⟩
    · rintro ⟨hcall, hgone⟩
      by_contra hne
      exact hgone ⟨hcall, by simpa using hne⟩
  · intro call packet hmem
    cases mem_singleton.1 hmem
    exact hanswer packet rfl

theorem Matched.clear (h : Matched calls s) (reason : String) : Matched calls (s.clearPendingRequests reason) := by
  have htimers : (s.clearPendingRequests reason).timers = [] := by
    apply filter_eq_nil_iff.2
    intro call hcall hkept
    rw [h.timers] at hcall
    obtain ⟨entry, hentry, rfl⟩ := mem_map.1 hcall
    simpa using all_eq_true.1 hkept entry hentry
  have hanswers : (s.pending.map fun entry => (entry.2.call, Answer.rejected reason)).map Prod.fst = s.timers := by
    rw [h.timers, map_map]
    rfl
  have hcalled : (s.clearPendingRequests reason).called = s.called := rfl
  apply h.answered hcalled (nil_sublist _) htimers rfl
  · rw [hanswers]
    exact h.timers_nodup
  · intro call
    rw [hanswers, htimers]
    simp
  · intro call packet hmem
    obtain ⟨entry, -, heq⟩ := mem_map.1 hmem
    cases heq

theorem response_of_takes (hid : readPacketRequestId packet = some (calls call).requestId)
    (h : takes (pendingRequest (calls call).options) packet = true) : Response (calls call) packet := by
  simp only [takes, Bool.and_eq_true, decide_eq_true_eq] at h
  obtain ⟨⟨hservice, hsubtopic⟩, htypes⟩ := h
  refine ⟨hid, hservice, hsubtopic, ?_⟩
  intro types hsome
  rw [hsome, Option.all_some, Option.any_eq_true] at htypes
  obtain ⟨type, htype, hmem⟩ := htypes
  exact ⟨type, of_decide_eq_true hmem, htype⟩

theorem Matched.packet_taken (h : Matched calls s) (hid : readPacketRequestId packet = some requestId)
    (hentry : (requestId, entry) ∈ s.pending) (htakes : takes entry.pendingRequest packet = true) :
    Matched calls ((s.drop requestId entry.call).answer entry.call (answerOf requestId packet)) := by
  apply h.drop hentry
  intro packet' hanswer
  have heq := h.entries _ hentry
  have hrequestId : requestId = (calls entry.call).requestId := congrArg Prod.fst heq
  have hpending : entry.pendingRequest = pendingRequest (calls entry.call).options :=
    congrArg (PendingEntry.pendingRequest ∘ Prod.snd) heq
  simp only [answerOf] at hanswer
  split at hanswer
  · cases hanswer
  · cases hanswer
    rw [hrequestId] at hid
    rw [hpending] at htakes
    exact response_of_takes hid htakes

theorem Matched.dispatched (h : Matched calls s) (received : TransportPacket) (handlerThrows : Bool) :
    Matched calls (after calls s (.packet received handlerThrows)) := by
  simp only [after]
  split
  · exact h
  · split
    · exact h
    · rename_i requestId hid
      split
      · exact h
      · rename_i entry hlookup
        split
        · rename_i htakes
          exact h.packet_taken hid (mem_of_lookup hlookup) htakes
        · exact h

theorem Matched.timeout (h : Matched calls s) (htimer : call ∈ s.timers) :
    Matched calls (after calls s (.timeout call)) := by
  rw [h.timers] at htimer
  obtain ⟨entry, hentry, rfl⟩ := mem_map.1 htimer
  have hentry' : ((calls entry.2.call).requestId, entry.2) ∈ s.pending := by
    have hid : entry.1 = (calls entry.2.call).requestId := congrArg Prod.fst (h.entries entry hentry)
    rw [← hid]
    exact hentry
  exact h.drop hentry' nofun

theorem Matched.fresh (h : Matched calls s) (hcall : s.called call = false) : call ∉ s.settled ∧ call ∉ s.timers := by
  apply not_or.1
  rw [← h.called, hcall]
  exact Bool.false_ne_true

theorem update_called :
    update called call true other = true ↔ called other = true ∨ other = call := by
  by_cases hother : other = call
  · simp [hother]
  · simp [hother]

theorem Matched.misconfigured (h : Matched calls s) (hcall : s.called call = false) (message : String) :
    Matched calls ({ s with called := update s.called call true }.answer call (.rejected message)) := by
  obtain ⟨hsettled, htimer⟩ := h.fresh hcall
  have heq : ({ s with called := update s.called call true }.answer call (.rejected message)).settled =
      s.settled ++ [call] := map_append
  exact {
    ids := h.ids
    entries := h.entries
    timers := h.timers
    called := by
      intro other
      rw [heq, mem_append, mem_singleton, or_right_comm]
      exact update_called.trans (or_congr_left (h.called other))
    cleared := by
      intro other hother
      rw [heq, mem_append, mem_singleton] at hother
      rcases hother with hother | rfl
      · exact h.cleared other hother
      · exact htimer
    once := by
      rw [heq]
      exact h.once.append (nodup_singleton call) (disjoint_singleton.2 hsettled)
    responses := by
      intro other packet hmem
      cases mem_append.1 hmem with
      | inl hmem => exact h.responses other packet hmem
      | inr hmem => cases mem_singleton.1 hmem }

theorem Matched.sent (h : Matched calls s) (hcall : s.called call = false)
    (hid : (calls call).requestId ∉ s.pending.map Prod.fst) :
    Matched calls {
      s with
      called := update s.called call true
      pending := s.pending ++ [RequestCall.entry calls call]
      timers := s.timers ++ [call] } := by
  obtain ⟨hsettled, htimer⟩ := h.fresh hcall
  exact {
    ids := by
      rw [map_append]
      exact h.ids.append (nodup_singleton _) (disjoint_singleton.2 hid)
    entries := by
      intro entry hentry
      rw [mem_append, mem_singleton] at hentry
      rcases hentry with hentry | rfl
      · exact h.entries entry hentry
      · rfl
    timers := by
      rw [map_append, h.timers]
      rfl
    called := by
      intro other
      rw [mem_append, mem_singleton, ← or_assoc]
      exact update_called.trans (or_congr_left (h.called other))
    cleared := by
      intro other hother hmem
      rw [mem_append, mem_singleton] at hmem
      rcases hmem with hmem | rfl
      · exact h.cleared other hother hmem
      · exact hsettled hother
    once := h.once
    responses := h.responses }

theorem Matched.step (h : Matched calls s) (henabled : Enabled calls s a) (hframe : FrameSent calls a) :
    Matched calls (after calls s a) := by
  cases a with
  | request call hasValidTransportConfig =>
    obtain ⟨hcall, hid⟩ := henabled
    simp only [after]
    cases hmisconfigured : (calls call).misconfigured hasValidTransportConfig with
    | true => exact h.misconfigured hcall _
    | false =>
      obtain ⟨frame, hsent⟩ := hframe.resolve_left (by simp [hmisconfigured])
      rw [hsent]
      exact h.sent hcall (hid hmisconfigured)
  | packet received handlerThrows => exact h.dispatched received handlerThrows
  | timeout call => exact h.timeout henabled
  | setDevice deviceId =>
    have hset : ∀ {u : Provider}, Matched calls u → Matched calls { u with activeDeviceId := deviceId } := by
      intro u hu
      exact ⟨hu.ids, hu.entries, hu.timers, hu.called, hu.cleared, hu.once, hu.responses⟩
    simp only [after]
    apply hset
    split
    · exact h.clear _
    · exact h
  | reset => exact h.clear _
  | unmount => exact h.clear _

theorem frameSent_of_correlated (henabled : Enabled calls s a) (h : Correlated calls (after calls s a)) :
    FrameSent calls a := by
  cases a with
  | request call hasValidTransportConfig =>
    cases hmisconfigured : (calls call).misconfigured hasValidTransportConfig with
    | true => exact .inl hmisconfigured
    | false =>
      right
      cases hframe : (calls call).frame with
      | ok frame => exact ⟨frame, rfl⟩
      | error error =>
        have htimer : call ∈ (after calls s (.request call hasValidTransportConfig)).timers := by
          simp [after, hmisconfigured, hframe, Provider.answer]
        have hsettled : call ∈ (after calls s (.request call hasValidTransportConfig)).settled := by
          simp [after, hmisconfigured, hframe, Provider.answer, Provider.settled]
        exact absurd htimer (h.cleared call hsettled).1
  | packet received handlerThrows => trivial
  | timeout call => trivial
  | setDevice deviceId => trivial
  | reset => trivial
  | unmount => trivial

end

/-- Whatever happens in which order, each promise of a provider is settled once, by a timeout at the latest, and keeps
neither entry nor timer, just where every frame can be sent. -/
theorem correlated_iff (calls : Nat → RequestCall) {s₀ t : Provider} {tr : List (Provider × Action)}
    (hinit : (provider calls).init s₀) (hrun : (provider calls).Run s₀ tr t) :
    (∀ s ∈ states tr t, Correlated calls s) ↔ ∀ p ∈ tr, FrameSent calls p.2 := by
  have henabled := hrun.enabled
  constructor
  · intro h p hp
    obtain ⟨u, ⟨-, rfl⟩, hu⟩ := hrun.exists_mem_states hp
    exact frameSent_of_correlated (henabled p hp) (h _ hu)
  · intro hframes
    have hmatched₀ : Matched calls s₀ := by
      rw [hinit]
      exact initial_matched
    have hmatched : ∀ s ∈ states tr t, Matched calls s := by
      refine hrun.forall_states hmatched₀ ?_
      rintro p hp hmatched u ⟨henabled, rfl⟩
      exact hmatched.step henabled (hframes p hp)
    intro s hs
    exact (hmatched s hs).correlated

def statusCall : RequestCall where
  options := { statusRequest with requestId := some "r1" }
  fresh := ""
  frame := .ok "\x7b\"kind\":\"packet\"\x7d"

def statusActions : List Action := [.request 0 true, .packet transferError false, .packet transferError false]

theorem correlated_iff_status :
    (provider fun _ => statusCall).Run .initial (replay (after fun _ => statusCall) .initial statusActions).1
        (replay (after fun _ => statusCall) .initial statusActions).2 ∧
      ∀ s ∈ states (replay (after fun _ => statusCall) .initial statusActions).1
        (replay (after fun _ => statusCall) .initial statusActions).2, Correlated (fun _ => statusCall) s := by
  have hrun : (provider fun _ => statusCall).Run .initial (replay (after fun _ => statusCall) .initial statusActions).1
      (replay (after fun _ => statusCall) .initial statusActions).2 := by
    apply System.run_replay
    simp [statusActions, replay, Enabled, Provider.initial]
  refine ⟨hrun, (correlated_iff (fun _ => statusCall) rfl hrun).2 ?_⟩
  simp [statusActions, replay, FrameSent, statusCall]

def bigintCall : RequestCall where
  options := { statusRequest with requestId := some "r1" }
  fresh := ""
  frame := .error "Do not know how to serialize a BigInt"

/-- Its promise is rejected at once, while its entry waits for an answer. -/
theorem bigint_entry_left : ∃ tr t, (provider fun _ => bigintCall).Run .initial tr t ∧
      ¬ ∀ s ∈ states tr t, Correlated (fun _ => bigintCall) s := by
  have henabled : Enabled (fun _ => bigintCall) .initial (.request 0 true) := ⟨rfl, fun _ => not_mem_nil⟩
  refine ⟨[(.initial, .request 0 true)], _, .cons ⟨henabled, rfl⟩ (.nil _), ?_⟩
  intro h
  have hframe := frameSent_of_correlated henabled (h _ (end_mem_states _ _))
  have hconfigured : bigintCall.misconfigured true = false := by decide +kernel
  obtain ⟨frame, hsent⟩ := hframe.resolve_left (by simp [hconfigured])
  cases hsent

end Trakrai.LiveTransport.Correlation
