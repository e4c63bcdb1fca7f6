import Mathlib.Data.List.Nodup
import Mathlib.Logic.Function.Basic
import Trakrai.Lib.Json
import Trakrai.Lib.Text
import Trakrai.Lib.Transition

namespace Trakrai.ServiceRuntime
open Function List Lib

abbrev Fields := List (String × Json)

structure ServiceResponse where
  sourceService : String
  messageType : String
  payload : Fields

/-- The arguments of a call of `request`, and what `uuid4` gives it. -/
structure Call where
  targetService : String
  messageType : String
  payload : Fields
  expectedTypes : List String
  uuid : String

/-- What comes in through `handle_notification` or straight through `handle_service_notification`. -/
inductive Incoming where
  | notification (fields : Fields)
  | serviceNotification (sourceService subtopic : String) (envelope : Fields)

section
variable (text : Json → String)

/-- `str(value)`, by what it makes of numbers, lists and dictionaries. -/
def pyStr : Json → String
  | .str value => value
  | .null => "None"
  | .bool value => if value then "True" else "False"
  | value => text value

/-- `str(fields.get(key, "")).strip()`. -/
def strippedText (fields : Fields) (key : String) : String :=
  match fields.lookup key with
  | some value => pyStrip (pyStr text value)
  | none => ""

/-- The part of `handle_service_notification` before the lock: the id under which it looks for a waiter, and the
response that it puts. Without a payload there is no id. -/
def readServiceNotification (sourceService subtopic : String) (envelope : Fields) :
    Option (String × ServiceResponse) :=
  if pyStrip subtopic ≠ "response" then none
  else
    match envelope.lookup "payload" with
    | some (.obj payload) =>
      let requestId := strippedText text payload "requestId"
      if requestId = "" then none
      else some (requestId, ⟨pyStrip sourceService, strippedText text envelope "type", payload⟩)
    | _ => none

def readIncoming : Incoming → Option (String × ServiceResponse)
  | .serviceNotification sourceService subtopic envelope =>
    readServiceNotification text sourceService subtopic envelope
  | .notification fields =>
    if strippedText text fields "method" ≠ "service-message" then none
    else
      match fields.lookup "params" with
      | some (.obj params) =>
        match params.lookup "envelope" with
        | some (.obj envelope) =>
          readServiceNotification text (strippedText text params "sourceService") (strippedText text params "subtopic")
            envelope
        | _ => none
      | _ => none

def requestId (call : Call) : String :=
  let requestId := strippedText text call.payload "requestId"
  if requestId = "" then call.uuid else requestId

end

inductive Outcome where
  | returned (response : ServiceResponse)
  | raised (message : String)

/-- Where the thread of a call of `request` stands. -/
inductive Phase where
  | idle
  /-- Its waiter is in the table, the command not yet sent. -/
  | registered
  /-- Before the loop looks at the time. -/
  | waiting
  /-- In `waiter.get`. -/
  | getting
  /-- Before the `finally` block takes the lock. -/
  | leaving (outcome : Outcome)
  | ended (outcome : Outcome)

inductive Handling where
  | arrived
  /-- It has the waiter of a call. -/
  | found (call : Nat)
  | handled (result : Bool)

structure Arrival where
  notification : Nat
  response : ServiceResponse

/-- Each call has a waiter of its own, by whose number it goes. -/
structure State where
  requests : Nat → Phase
  notifications : Nat → Handling
  pending : List (String × Nat)
  queues : Nat → List Arrival
  /-- The notifications that were put, with the calls whose waiters they were put to. -/
  puts : List (Nat × Nat)

inductive Action where
  | register (call : Nat)
  /-- The command is sent, or sending raises an error. -/
  | send (call : Nat) (error : Option String)
  /-- The loop looks whether it is before the deadline. -/
  | check (call : Nat) (early : Bool)
  | get (call : Nat)
  /-- `queue.Empty`. -/
  | empty (call : Nat)
  | leave (call : Nat)
  | lookUp (notification : Nat)
  | put (notification : Nat)

def Action.call : Action → Option Nat
  | .register call | .send call _ | .check call _ | .get call | .empty call | .leave call => some call
  | .lookUp _ | .put _ => none

def Phase.inFlight : Phase → Bool
  | .registered | .waiting | .getting | .leaving _ => true
  | .idle | .ended _ => false

namespace State

def setRequest (s : State) (r : Nat) (phase : Phase) : State :=
  { s with requests := update s.requests r phase }

def setNotification (s : State) (k : Nat) (handling : Handling) : State :=
  { s with notifications := update s.notifications k handling }

def initial : State where
  requests _ := .idle
  notifications _ := .arrived
  pending := []
  queues _ := []
  puts := []

end State

section
variable (text : Json → String) (calls : Nat → Call) (incoming : Nat → Incoming)

def timedOut (call : Call) : Outcome :=
  .raised ("timed out waiting for " ++ call.targetService ++ " response to " ++ call.messageType ++ " (" ++
    requestId text call ++ ")")

def duplicate (call : Call) : Outcome := .raised ("duplicate service request id: " ++ requestId text call)

def accepts (call : Call) (response : ServiceResponse) : Bool :=
  call.expectedTypes.isEmpty || call.expectedTypes.contains response.messageType

def Enabled (s : State) : Action → Prop
  | .register r => s.requests r = .idle
  | .send r _ => s.requests r = .registered
  | .check r _ => s.requests r = .waiting
  | .get r => s.requests r = .getting ∧ s.queues r ≠ []
  | .empty r => s.requests r = .getting ∧ s.queues r = []
  | .leave r => ∃ outcome, s.requests r = .leaving outcome
  | .lookUp k => s.notifications k = .arrived
  | .put k => ∃ r, s.notifications k = .found r

def after (s : State) : Action → State
  | .register r =>
    let id := requestId text (calls r)
    if s.pending.any (·.1 == id) then s.setRequest r (.ended (duplicate text (calls r)))
    else { s.setRequest r .registered with pending := s.pending ++ [(id, r)] }
  | .send r none => s.setRequest r .waiting
  | .send r (some error) => s.setRequest r (.leaving (.raised error))
  | .check r true => s.setRequest r .getting
  | .check r false => s.setRequest r (.leaving (timedOut text (calls r)))
  | .get r =>
    match s.queues r with
    | [] => s
    | arrival :: rest =>
      { s.setRequest r (if accepts (calls r) arrival.response then .leaving (.returned arrival.response) else .waiting)
        with queues := update s.queues r rest }
  | .empty r => s.setRequest r (.leaving (timedOut text (calls r)))
  | .leave r =>
    match s.requests r with
    | .leaving outcome =>
      { s.setRequest r (.ended outcome) with pending := s.pending.filter (·.1 ≠ requestId text (calls r)) }
    | _ => s
  | .lookUp k =>
    match readIncoming text (incoming k) with
    | none => s.setNotification k (.handled false)
    | some (id, _) =>
      match s.pending.lookup id with
      | none => s.setNotification k (.handled false)
      | some r => s.setNotification k (.found r)
  | .put k =>
    match s.notifications k, readIncoming text (incoming k) with
    | .found r, some (_, response) =>
      { s.setNotification k (.handled true) with
        queues := update s.queues r (s.queues r ++ [⟨k, response⟩])
        puts := s.puts ++ [(k, r)] }
    | _, _ => s

/-- The threads of any number of calls and of any number of notifications, interleaved in any way. -/
def bridge : System State Action := .guarded (· = .initial) Enabled (after text calls incoming)

end

def Phase.response : Phase → Option ServiceResponse
  | .leaving (.returned response) | .ended (.returned response) => some response
  | _ => none

section
variable (text : Json → String) (calls : Nat → Call) (incoming : Nat → Incoming)

def Answers (k r : Nat) (response : ServiceResponse) : Prop :=
  readIncoming text (incoming k) = some (requestId text (calls r), response)

/-- The table holds the calls in flight under their ids, and what goes to a call is an answer to it. -/
structure Sound (s : State) : Prop where
  keys : (s.pending.map Prod.fst).Nodup
  entries : ∀ {id r}, (id, r) ∈ s.pending ↔ (s.requests r).inFlight ∧ id = requestId text (calls r)
  found : ∀ {k r}, s.notifications k = .found r → ∃ response, Answers text calls incoming k r response
  queued : ∀ {r arrival}, arrival ∈ s.queues r → Answers text calls incoming arrival.notification r arrival.response
  taken : ∀ {r response}, (s.requests r).response = some response →
    (∃ k, Answers text calls incoming k r response) ∧ accepts (calls r) response
  handled : ∀ {k r}, (k, r) ∈ s.puts → s.notifications k = .handled true
  once : (s.puts.map Prod.fst).Nodup

/-- What the callers of the bridge rely on. -/
structure Correlated (s : State) : Prop where
  onePending : ∀ {r r'}, (s.requests r).inFlight → (s.requests r').inFlight →
    requestId text (calls r) = requestId text (calls r') → r = r'
  entry : ∀ {id r}, (id, r) ∈ s.pending → (s.requests r).inFlight ∧ id = requestId text (calls r)
  own : ∀ {r response}, s.requests r = .ended (.returned response) →
    strippedText text response.payload "requestId" = requestId text (calls r) ∧
      ((calls r).expectedTypes ≠ [] → response.messageType ∈ (calls r).expectedTypes)
  once : ∀ {k r r'}, (k, r) ∈ s.puts → (k, r') ∈ s.puts → r = r'
  rejected : ∀ {r}, s.requests r = .idle → requestId text (calls r) ∈ s.pending.map Prod.fst →
    after text calls incoming s (.register r) = s.setRequest r (.ended (duplicate text (calls r)))
  noLeftover : ∀ {r outcome}, s.requests r = .ended outcome → ∀ id, (id, r) ∉ s.pending
  settled : ∀ {r outcome action}, s.requests r = .ended outcome → action.call = some r → ¬ Enabled s action

end

section
variable {text : Json → String} {calls : Nat → Call} {incoming : Nat → Incoming} {s t : State} {r k : Nat}
  {phase : Phase} {action : Action} {response : ServiceResponse} {id : String}

theorem requestId_of_readServiceNotification
    (h : readServiceNotification text sourceService subtopic envelope = some (id, response)) :
    strippedText text response.payload "requestId" = id := by
  rw [readServiceNotification] at h
  split at h
  · cases h
  · split at h
    · simp only at h
      split at h
      · cases h
      · cases h
        rfl
    · cases h

theorem requestId_of_readIncoming {incoming : Incoming} (h : readIncoming text incoming = some (id, response)) :
    strippedText text response.payload "requestId" = id := by
  cases incoming with
  | serviceNotification sourceService subtopic envelope => exact requestId_of_readServiceNotification h
  | notification fields =>
    rw [readIncoming] at h
    split at h
    · cases h
    · split at h
      · split at h
        · exact requestId_of_readServiceNotification h
        · cases h
      · cases h

theorem accepts_iff : accepts call response = true ↔
    (call.expectedTypes ≠ [] → response.messageType ∈ call.expectedTypes) := by
  rw [accepts, Bool.or_eq_true, List.isEmpty_iff, contains_iff_mem, or_iff_not_imp_left]

theorem requests_setRequest_self : (s.setRequest r phase).requests r = phase := update_self ..

theorem requests_setRequest_of_ne (h : r' ≠ r) : (s.setRequest r phase).requests r' = s.requests r' :=
  update_of_ne h ..

theorem notifications_setNotification (k' : Nat) :
    (s.setNotification k handling).notifications k' = if k' = k then handling else s.notifications k' := by
  exact update_apply ..

theorem Sound.move (h : Sound text calls incoming s) (hflight : phase.inFlight = (s.requests r).inFlight)
    (htaken : ∀ response, phase.response = some response →
      (∃ k, Answers text calls incoming k r response) ∧ accepts (calls r) response) :
    Sound text calls incoming (s.setRequest r phase) := by
  refine ⟨h.keys, ?_, h.found, h.queued, ?_, h.handled, h.once⟩
  · intro id r'
    by_cases hr : r' = r
    · subst hr
      rw [requests_setRequest_self, hflight]
      exact h.entries
    · rw [requests_setRequest_of_ne hr]
      exact h.entries
  · intro r' response hresponse
    by_cases hr : r' = r
    · subst hr
      rw [requests_setRequest_self] at hresponse
      exact htaken response hresponse
    · rw [requests_setRequest_of_ne hr] at hresponse
      exact h.taken hresponse

theorem Sound.register (h : Sound text calls incoming s) (hidle : s.requests r = .idle) :
    Sound text calls incoming (after text calls incoming s (.register r)) := by
  rw [after]
  simp only
  split
  · exact h.move (by rw [hidle]; rfl) nofun
  · rename_i hnew
    have hfresh : requestId text (calls r) ∉ s.pending.map Prod.fst := by
      intro hmem
      obtain ⟨entry, hentry, heq⟩ := mem_map.1 hmem
      exact hnew (any_eq_true.2 ⟨entry, hentry, beq_iff_eq.2 heq⟩)
    refine ⟨?_, ?_, h.found, h.queued, ?_, h.handled, h.once⟩
    · rw [map_append, nodup_append]
      refine ⟨h.keys, nodup_singleton _, ?_⟩
      intro id hid id' hid' heq
      obtain rfl : id' = requestId text (calls r) := mem_singleton.1 hid'
      exact hfresh (heq ▸ hid)
    · intro id r'
      rw [mem_append, mem_singleton, h.entries, Prod.mk.injEq]
      by_cases hr : r' = r
      · subst hr
        simp only [requests_setRequest_self, hidle]
        simp [Phase.inFlight]
      · simp only [requests_setRequest_of_ne hr, hr, and_false, or_false]
    · intro r' response hresponse
      by_cases hr : r' = r
      · subst hr
        rw [requests_setRequest_self] at hresponse
        cases hresponse
      · rw [requests_setRequest_of_ne hr] at hresponse
        exact h.taken hresponse

theorem Sound.leave (h : Sound text calls incoming s) (hleaving : s.requests r = .leaving outcome) :
    Sound text calls incoming (after text calls incoming s (.leave r)) := by
  have hown : (requestId text (calls r), r) ∈ s.pending := h.entries.2 ⟨by rw [hleaving]; rfl, rfl⟩
  rw [after, hleaving]
  simp only
  refine ⟨?_, ?_, h.found, h.queued, ?_, h.handled, h.once⟩
  · exact h.keys.sublist (filter_sublist.map _)
  · intro id r'
    rw [mem_filter, h.entries, decide_eq_true_eq]
    by_cases hr : r' = r
    · subst hr
      simp only [requests_setRequest_self]
      constructor
      · intro hboth
        exact absurd hboth.1.2 hboth.2
      · intro hflight
        cases hflight.1
    · simp only [requests_setRequest_of_ne hr]
      constructor
      · exact And.left
      · intro hentry
        refine ⟨hentry, ?_⟩
        intro heq
        have hother := h.entries.2 hentry
        rw [heq] at hother
        exact hr (congrArg Prod.snd (inj_on_of_nodup_map h.keys hother hown rfl))
  · intro r' response hresponse
    by_cases hr : r' = r
    · subst hr
      simp only [requests_setRequest_self] at hresponse
      have hsame : (Phase.leaving outcome).response = (Phase.ended outcome).response := by
        cases outcome <;> rfl
      apply h.taken
      rw [hleaving, hsame]
      exact hresponse
    · simp only [requests_setRequest_of_ne hr] at hresponse
      exact h.taken hresponse

theorem Sound.get (h : Sound text calls incoming s) (hgetting : s.requests r = .getting) :
    Sound text calls incoming (after text calls incoming s (.get r)) := by
  rw [after]
  split
  · exact h
  · rename_i arrival rest hqueue
    have hanswer : Answers text calls incoming arrival.notification r arrival.response :=
      h.queued (hqueue ▸ mem_cons_self ..)
    have hmoved : Sound text calls incoming (s.setRequest r
        (if accepts (calls r) arrival.response then .leaving (.returned arrival.response) else .waiting)) := by
      apply h.move
      · rw [hgetting]
        split
        · rfl
        · rfl
      · intro response hresponse
        split at hresponse
        · rename_i haccepts
          cases hresponse
          exact ⟨⟨_, hanswer⟩, haccepts⟩
        · cases hresponse
    refine ⟨hmoved.keys, hmoved.entries, hmoved.found, ?_, hmoved.taken, hmoved.handled, hmoved.once⟩
    intro r' arrival' harrival
    by_cases hr : r' = r
    · subst hr
      simp only [update_self] at harrival
      exact h.queued (hqueue ▸ mem_cons_of_mem _ harrival)
    · simp only [update_of_ne hr] at harrival
      exact h.queued harrival

theorem Sound.lookUp (h : Sound text calls incoming s) (harrived : s.notifications k = .arrived) :
    Sound text calls incoming (after text calls incoming s (.lookUp k)) := by
  have hset : ∀ {handling : Handling}, (∀ r, handling = .found r →
      ∃ response, Answers text calls incoming k r response) →
      Sound text calls incoming (s.setNotification k handling) := by
    intro handling hfound
    refine ⟨h.keys, h.entries, ?_, h.queued, h.taken, ?_, h.once⟩
    · intro k' r hk'
      rw [notifications_setNotification] at hk'
      split at hk'
      · rename_i heq
        rw [heq]
        exact hfound r hk'
      · exact h.found hk'
    · intro k' r hput
      have hhandled := h.handled hput
      rw [notifications_setNotification, if_neg, hhandled]
      rintro rfl
      rw [harrived] at hhandled
      cases hhandled
  rw [after]
  split
  · exact hset nofun
  · rename_i id response hread
    split
    · exact hset nofun
    · rename_i r hlookup
      apply hset
      intro r' heq
      cases heq
      have hentry := mem_of_lookup hlookup
      rw [(h.entries.1 hentry).2] at hread
      exact ⟨response, hread⟩

theorem Sound.put (h : Sound text calls incoming s) (hfound : s.notifications k = .found r) :
    Sound text calls incoming (after text calls incoming s (.put k)) := by
  obtain ⟨response, hanswer⟩ := h.found hfound
  have hread : readIncoming text (incoming k) = some (requestId text (calls r), response) := hanswer
  rw [after, hfound, hread]
  simp only
  refine ⟨h.keys, h.entries, ?_, ?_, h.taken, ?_, ?_⟩
  · intro k' r' hk'
    rw [notifications_setNotification] at hk'
    split at hk'
    · cases hk'
    · exact h.found hk'
  · intro r' arrival harrival
    by_cases hr : r' = r
    · subst hr
      simp only [update_self, mem_append, mem_singleton] at harrival
      rcases harrival with harrival | rfl
      · exact h.queued harrival
      · exact hanswer
    · simp only [update_of_ne hr] at harrival
      exact h.queued harrival
  · intro k' r' hput
    rw [notifications_setNotification]
    split
    · rfl
    · rename_i hne
      rcases mem_append.1 hput with hput | hput
      · exact h.handled hput
      · exact absurd (congrArg Prod.fst (mem_singleton.1 hput)) hne
  · rw [map_append, nodup_append]
    refine ⟨h.once, nodup_singleton _, ?_⟩
    intro k' hk' k'' hk'' heq
    obtain ⟨⟨put, r'⟩, hput, rfl⟩ := mem_map.1 hk'
    rw [map_singleton, mem_singleton] at hk''
    have hhandled := h.handled hput
    rw [show put = k from heq.trans hk'', hfound] at hhandled
    cases hhandled

theorem Sound.step (h : Sound text calls incoming s) (he : Enabled s action) :
    Sound text calls incoming (after text calls incoming s action) := by
  cases action with
  | register r => exact h.register he
  | send r error =>
    have hr : s.requests r = .registered := he
    cases error with
    | none => exact h.move (by rw [hr]; rfl) nofun
    | some error => exact h.move (by rw [hr]; rfl) nofun
  | check r early =>
    have hr : s.requests r = .waiting := he
    cases early with
    | true => exact h.move (by rw [hr]; rfl) nofun
    | false => exact h.move (by rw [hr]; rfl) nofun
  | get r => exact h.get he.1
  | empty r => exact h.move (by rw [he.1]; rfl) nofun
  | leave r =>
    obtain ⟨outcome, hr⟩ := he
    exact h.leave hr
  | lookUp k => exact h.lookUp he
  | put k =>
    obtain ⟨r, hk⟩ := he
    exact h.put hk

theorem sound_initial : Sound text calls incoming .initial := by
  constructor
  · exact nodup_nil
  · intro id r
    exact iff_of_false not_mem_nil (fun hflight => nomatch hflight.1)
  · exact nofun
  · exact fun harrival => nomatch harrival
  · exact fun hresponse => nomatch hresponse
  · exact fun hput => nomatch hput
  · exact nodup_nil

/-- In every state that is reached the bridge keeps requests and responses together. -/
theorem correlated_of_reachable (h : (bridge text calls incoming).Reachable s) : Correlated text calls incoming s := by
  have hsound : Sound text calls incoming s :=
    h.invariant (fun {s} (hinit : s = .initial) => hinit ▸ sound_initial) fun hs hstep => by
      obtain ⟨he, rfl⟩ := hstep
      exact hs.step he
  constructor
  · intro r r' hr hr' heq
    have hentry := hsound.entries.2 ⟨hr, rfl⟩
    have hentry' := hsound.entries.2 ⟨hr', rfl⟩
    rw [← heq] at hentry'
    exact congrArg Prod.snd (inj_on_of_nodup_map hsound.keys hentry hentry' rfl)
  · intro id r hentry
    exact hsound.entries.1 hentry
  · intro r response hover
    obtain ⟨⟨k, hanswer⟩, haccepts⟩ := hsound.taken (by rw [hover]; rfl)
    exact ⟨requestId_of_readIncoming hanswer, accepts_iff.1 haccepts⟩
  · intro k r r' hput hput'
    exact congrArg Prod.snd (inj_on_of_nodup_map hsound.once hput hput' rfl)
  · intro r _ hmem
    obtain ⟨entry, hentry, heq⟩ := mem_map.1 hmem
    have hany : s.pending.any (·.1 == requestId text (calls r)) := any_eq_true.2 ⟨entry, hentry, beq_iff_eq.2 heq⟩
    exact if_pos hany
  · intro r outcome hover id hentry
    have hflight := (hsound.entries.1 hentry).1
    rw [hover] at hflight
    cases hflight
  · intro r outcome action hover hcall he
    cases action with
    | lookUp k | put k => cases hcall
    | register r' | send r' _ | check r' _ =>
      cases hcall
      cases hover.symm.trans he
    | get r' | empty r' =>
      cases hcall
      cases hover.symm.trans he.1
    | leave r' =>
      cases hcall
      obtain ⟨outcome', he⟩ := he
      cases hover.symm.trans he

end

def statusCalls (r : Nat) : Call where
  targetService := "ptz-control"
  messageType := "get-status"
  payload := if r < 2 then [("requestId", .str "req-1")] else []
  expectedTypes := ["ptz-status"]
  uuid := "0f8fad5bd9cb469fa16570867728950e"

def statusNotifications (k : Nat) : Incoming :=
  .serviceNotification "ptz-control" "response"
    [("type", .str (if k = 0 then "ptz-position" else "ptz-status")), ("payload", .obj [("requestId", .str " req-1 ")])]

def statusActions : List Action :=
  [.register 0, .lookUp 0, .register 1, .send 0 none, .put 0, .lookUp 1, .check 0 true, .get 0, .check 0 true,
    .put 1, .get 0, .leave 0, .lookUp 2]

theorem correlated_of_reachable_status : ∃ s response,
    (bridge (fun _ => "") statusCalls statusNotifications).Reachable s ∧
    Correlated (fun _ => "") statusCalls statusNotifications s ∧
    s.requests 0 = .ended (.returned response) ∧ response.messageType = "ptz-status" ∧
    s.requests 1 = .ended (duplicate (fun _ => "") (statusCalls 1)) ∧ s.pending = [] := by
  have hreach : (bridge (fun _ => "") statusCalls statusNotifications).Reachable
      (replay (after (fun _ => "") statusCalls statusNotifications) .initial statusActions).2 := by
    refine ⟨.initial, _, rfl, System.run_replay statusActions ?_⟩
    simp only [statusActions, replay, forall_mem_cons]
    refine ⟨rfl, rfl, rfl, rfl, ⟨0, rfl⟩, rfl, rfl, ⟨rfl, by decide⟩, rfl, ⟨0, rfl⟩, ⟨rfl, by decide⟩, ⟨_, rfl⟩, rfl, ?_⟩
    exact forall_mem_nil _
  exact ⟨_, ⟨"ptz-control", "ptz-status", [("requestId", .str " req-1 ")]⟩, hreach, correlated_of_reachable hreach,
    rfl, rfl, rfl, rfl⟩

end Trakrai.ServiceRuntime
