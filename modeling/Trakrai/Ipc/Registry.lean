import Trakrai.Lib.Json
import Trakrai.Lib.Quote
import Trakrai.Lib.Text
import Trakrai.Lib.Transition

namespace Trakrai.Ipc
open List Lib

abbrev Conn := Nat

structure StatusReport where
  service : String
  status : String
  details : List (String × Json) := []

structure PublishMessageRequest where
  service : String
  subtopic : String
  type : String
  payload : Json

structure SendServiceMessageRequest where
  sourceService : String
  targetService : String
  subtopic : String
  type : String
  payload : Json

structure ErrorReport where
  service : String
  error : String
  fatal : Bool

/-- The method of a request, with its decoded parameters or the error of the decoder. -/
inductive Call where
  | registerService (params : Except String String)
  | publishMessage (params : Except String PublishMessageRequest)
  | sendServiceMessage (params : Except String SendServiceMessageRequest)
  | reportStatus (params : Except String StatusReport)
  | reportError (params : Except String ErrorReport)
  | unknown (method : String)

structure Request where
  id : String
  call : Call

structure IpcError where
  code : Int
  message : String

structure Response where
  id : String
  error : Option IpcError := none

structure ServiceMessage where
  sourceService : String
  service : String
  subtopic : String
  type : String
  payload : Json

inductive Stage where
  | absent
  | serving
  /-- `handleRequest` has set the name and is about to enter it in the map. -/
  | registering (request : Request)
  /-- `unregister` is over, the connection is about to be closed. -/
  | leaving
  | closed

structure Server where
  stages : Conn → Stage
  names : Conn → String
  services : String → Option Conn
  statuses : String → Option StatusReport

/-- The collaborators of the server: its publisher, if it is set, and the writes to connections,
which may fail. -/
structure Outside where
  publish : Option (PublishMessageRequest → Except String Unit)
  notify : Conn → ServiceMessage → Except String Unit
  print : GoPrint

def Server.initial : Server := ⟨fun _ => .absent, fun _ => "", fun _ => none, fun _ => none⟩

def Server.setStage (s : Server) (c : Conn) (stage : Stage) : Server :=
  { s with stages := fun c' => if c' = c then stage else s.stages c' }

def Server.setServiceName (s : Server) (c : Conn) (name : String) : Server :=
  { s with names := fun c' => if c' = c then name else s.names c' }

def Server.setStatus (s : Server) (service : String) (report : StatusReport) : Server :=
  { s with statuses := fun name => if name = service then some report else s.statuses name }

def Server.setService (s : Server) (service : String) (c : Option Conn) : Server :=
  { s with services := fun name => if name = service then c else s.services name }

def errorResponse (request : Request) (code : Int) (message : String) : Response :=
  ⟨request.id, some ⟨code, message⟩⟩

def okResponse (id : String) : Response := { id := id }

/-- `strings.Trim(s, "/")`. -/
def trimSlashes (s : String) : String := trimWith (· == '/') s

section
variable (outside : Outside)

section
variable (s : Server)

def publishMessage (c : Conn) (request : Request)
    (params : PublishMessageRequest) : Response :=
  if params.subtopic = "" ∨ params.type = "" then
    errorResponse request (-4) "subtopic and type are required"
  else
    let service := if params.service = "" then s.names c else params.service
    match outside.publish with
    | none => errorResponse request (-5) "MQTT publisher is not ready"
    | some publisher =>
      match publisher { params with service := service } with
      | .error message => errorResponse request (-6) message
      | .ok _ => okResponse request.id

/-- `NotifyLocalService`. -/
def notifyLocalService (message : ServiceMessage) : Except String Unit :=
  match s.services message.service with
  | none => .error ("service " ++ goQuote outside.print message.service ++ " is not registered")
  | some c => outside.notify c message

def sendServiceMessage (c : Conn) (request : Request)
    (params : SendServiceMessageRequest) : Response :=
  if goTrimSpace params.targetService = "" then
    errorResponse request (-7) "targetService is required"
  else if goTrimSpace params.subtopic = "" ∨ goTrimSpace params.type = "" then
    errorResponse request (-4) "subtopic and type are required"
  else
    let source := goTrimSpace params.sourceService
    let source := if source = "" then s.names c else source
    if source = "" then errorResponse request (-8) "source service is not registered"
    else
      let message : ServiceMessage := {
        sourceService := source
        service := goTrimSpace params.targetService
        subtopic := trimSlashes (goTrimSpace params.subtopic)
        type := goTrimSpace params.type
        payload := params.payload }
      match notifyLocalService outside s message with
      | .error message => errorResponse request (-9) message
      | .ok _ => okResponse request.id

/-- `handleRequest` up to its end or, for a registration, up to the section that enters the
service. -/
def handleRequest (c : Conn) (request : Request) : Server × Option Response :=
  match request.call with
  | .registerService (.error message) => (s, some (errorResponse request (-1) message))
  | .registerService (.ok service) =>
    if service = "" then (s, some (errorResponse request (-3) "service name is required"))
    else ((s.setServiceName c service).setStage c (.registering request), none)
  | .publishMessage (.error message) => (s, some (errorResponse request (-1) message))
  | .publishMessage (.ok params) => (s, some (publishMessage outside s c request params))
  | .sendServiceMessage (.error message) => (s, some (errorResponse request (-1) message))
  | .sendServiceMessage (.ok params) => (s, some (sendServiceMessage outside s c request params))
  | .reportStatus (.error message) => (s, some (errorResponse request (-1) message))
  | .reportStatus (.ok report) =>
    let service := if report.service = "" then s.names c else report.service
    (s.setStatus service { report with service := service }, some (okResponse request.id))
  | .reportError (.error message) => (s, some (errorResponse request (-1) message))
  | .reportError (.ok _) => (s, some (okResponse request.id))
  | .unknown method => (s, some (errorResponse request (-2) ("unknown method: " ++ method)))

/-- The section of `handleRequest` that enters the service. -/
def register (c : Conn) : Server :=
  let service := s.names c
  ((s.setService service (some c)).setStatus service ⟨service, "registered", []⟩).setStage c
    .serving

def unregister (c : Conn) : Server :=
  let service := s.names c
  let left := s.setStage c .leaving
  if service = "" then left
  else
    let left := if s.services service = some c then left.setService service none else left
    left.setStatus service ⟨service, "stopped", [("reason", .str "ipc disconnected")]⟩

inductive Action where
  | accept (c : Conn)
  | request (c : Conn) (request : Request)
  | register (c : Conn)
  | disconnect (c : Conn)
  | close (c : Conn)

/-- A connection is served by its own goroutine, one request at a time. -/
def Enabled : Action → Prop
  | .accept c => s.stages c = .absent
  | .request c _ => s.stages c = .serving
  | .register c => ∃ request, s.stages c = .registering request
  | .disconnect c => s.stages c = .serving
  | .close c => s.stages c = .leaving

def after : Action → Server
  | .accept c => s.setStage c .serving
  | .request c request => (handleRequest outside s c request).1
  | .register c => register s c
  | .disconnect c => unregister s c
  | .close c => s.setStage c .closed

def system : System Server Action :=
  .guarded (· = .initial) Enabled (after outside)

/-- A connection that the server has neither left nor closed. -/
def Server.isOpen (c : Conn) : Prop :=
  s.stages c = .serving ∨ ∃ request, s.stages c = .registering request

/-- Every entry is an open connection under its own name. -/
def Registered : Prop :=
  ∀ name c, s.services name = some c → s.isOpen c ∧ s.names c = name

/-- A connection does not take another name while it is entered under its name, and does not
disconnect while another one is. -/
def Orderly : Action → Prop
  | .request c ⟨_, .registerService (.ok service)⟩ =>
    service = "" ∨ service = s.names c ∨ s.services (s.names c) ≠ some c
  | .disconnect c => ∀ c', s.services (s.names c) = some c' → c' = c
  | _ => True

/-- The disconnect of a connection leaves a name that another open connection holds as it is. -/
def Undisturbed (action : Action) : Prop :=
  ∀ c, action = .disconnect c → ∀ t, (system outside).step s action t →
    ∀ name c', s.services name = some c' → s.isOpen c' → c' ≠ c →
      t.services name = some c' ∧ t.statuses name = s.statuses name

end

theorem Server.isOpen_setStage_of_ne {s : Server} (h : s.isOpen c) (hne : c ≠ c') :
    (s.setStage c' stage).isOpen c := by
  simpa only [Server.isOpen, Server.setStage, if_neg hne] using h

theorem Registered.setStage (h : Registered s)
    (hopen : s.services (s.names c) = some c → (s.setStage c stage).isOpen c) :
    Registered (s.setStage c stage) := by
  intro name c' hc'
  obtain ⟨ho, hname⟩ := h name c' hc'
  by_cases hc : c' = c
  · subst c'
    subst hname
    exact ⟨hopen hc', rfl⟩
  · exact ⟨Server.isOpen_setStage_of_ne ho hc, hname⟩

theorem handleRequest_cases (s : Server) (c : Conn) (request : Request) :
    (handleRequest outside s c request).1 = s ∨
    (∃ service, request.call = .registerService (.ok service) ∧ service ≠ "" ∧
      (handleRequest outside s c request).1 =
        (s.setServiceName c service).setStage c (.registering request)) ∨
    ∃ service report, (handleRequest outside s c request).1 = s.setStatus service report := by
  obtain ⟨id, call⟩ := request
  rcases call with (_ | service) | (_ | _) | (_ | _) | (_ | report) | (_ | _) | _
  case registerService.ok =>
    by_cases hs : service = ""
    · exact .inl (by simp [handleRequest, hs])
    · exact .inr (.inl ⟨service, rfl, hs, by simp [handleRequest, hs]⟩)
  case reportStatus.ok => exact .inr (.inr ⟨_, _, rfl⟩)
  all_goals exact .inl rfl

end

theorem Registered.setServiceName (h : Registered s)
    (hfree : service = s.names c ∨ s.services (s.names c) ≠ some c) :
    Registered (s.setServiceName c service) := by
  intro name c' hc'
  obtain ⟨ho, hname⟩ := h name c' hc'
  refine ⟨ho, ?_⟩
  by_cases hc : c' = c
  · subst c'
    rcases hfree with hs | hs
    · simpa [Server.setServiceName, hs] using hname
    · exact (hs (by rw [hname]; exact hc')).elim
  · simpa [Server.setServiceName, hc] using hname

theorem Registered.enter (h : Registered s) : Registered (register s c) := by
  have hopen : (register s c).isOpen c := .inl (by simp [register, Server.setStage])
  intro name c' hc'
  by_cases hname : name = s.names c
  · subst hname
    have he : c = c' := by simpa [register, Server.setStage, Server.setService,
      Server.setStatus] using hc'
    subst c'
    exact ⟨hopen, rfl⟩
  · have hs : s.services name = some c' := by
      simpa [register, Server.setStage, Server.setService, Server.setStatus, hname] using hc'
    obtain ⟨ho, hn⟩ := h name c' hs
    have hne : c' ≠ c := by
      rintro rfl
      exact hname hn.symm
    exact ⟨Server.isOpen_setStage_of_ne ho hne, hn⟩

theorem unregister_services (s : Server) (c : Conn) (name : String) :
    (unregister s c).services name =
      if s.names c = name ∧ name ≠ "" ∧ s.services name = some c then none
      else s.services name := by
  by_cases he : s.names c = ""
  · have hno : ¬ (s.names c = name ∧ name ≠ "" ∧ s.services name = some c) := by
      rintro ⟨rfl, hne, -⟩
      exact hne he
    rw [if_neg hno]
    simp [unregister, he, Server.setStage]
  · by_cases hs : s.services (s.names c) = some c
    · by_cases hn : s.names c = name
      · subst hn
        simp [unregister, he, hs, Server.setStage, Server.setService, Server.setStatus]
      · simp [unregister, he, hs, hn, Ne.symm hn, Server.setStage, Server.setService,
          Server.setStatus]
    · have hno : ¬ (s.names c = name ∧ name ≠ "" ∧ s.services name = some c) := by
        rintro ⟨rfl, -, hc⟩
        exact hs hc
      rw [if_neg hno]
      simp [unregister, he, hs, Server.setStage, Server.setStatus]

theorem unregister_statuses_of_ne (s : Server) (hn : s.names c ≠ name) :
    (unregister s c).statuses name = s.statuses name := by
  unfold unregister
  by_cases he : s.names c = ""
  · simp [he, Server.setStage]
  · by_cases hs : s.services (s.names c) = some c
    · simp [he, hs, hn.symm, Server.setStage, Server.setService, Server.setStatus]
    · simp [he, hs, hn.symm, Server.setStage, Server.setStatus]

theorem unregister_names (s : Server) (c : Conn) : (unregister s c).names = s.names := by
  simp only [unregister]
  split
  · rfl
  · split <;> rfl

theorem unregister_stages (s : Server) (c : Conn) :
    (unregister s c).stages = (s.setStage c .leaving).stages := by
  simp only [unregister]
  split
  · rfl
  · split <;> rfl

theorem services_of_unregister (h : (unregister s c).services name = some c') :
    s.services name = some c' ∧ ¬ (s.names c = name ∧ name ≠ "" ∧ s.services name = some c) := by
  rw [unregister_services] at h
  split at h
  · cases h
  · exact ⟨h, by assumption⟩

/-- The empty name is never entered. -/
def Named (s : Server) : Prop :=
  s.services "" = none ∧ ∀ c request, s.stages c = .registering request → s.names c ≠ ""

theorem Named.setStage (h : Named s) (hstage : ∀ request, stage ≠ .registering request) :
    Named (s.setStage c stage) := by
  refine ⟨h.1, ?_⟩
  intro c' request hc'
  by_cases hc : c' = c
  · exact (hstage request (by simpa [Server.setStage, hc] using hc')).elim
  · exact h.2 c' request (by simpa [Server.setStage, hc] using hc')

theorem Named.unregister (h : Named s) : Named (unregister s c) := by
  have hleft : Named (s.setStage c .leaving) := h.setStage (by intro request hc; cases hc)
  obtain ⟨he, hr⟩ := hleft
  refine ⟨?_, ?_⟩
  · rw [unregister_services, if_neg]
    · exact he
    · rintro ⟨-, hne, -⟩
      exact hne rfl
  · rw [unregister_stages, unregister_names]
    exact hr

theorem Named.step (h : Named s) (hstep : (system outside).step s action t) : Named t := by
  cases action with
  | accept c =>
    obtain ⟨-, rfl⟩ := hstep
    exact h.setStage (by intro request hc; cases hc)
  | request c request =>
    obtain ⟨-, rfl⟩ := hstep
    rw [after]
    obtain he | ⟨service, -, hne, he⟩ | ⟨service, report, he⟩ :=
      handleRequest_cases outside s c request
    · rw [he]
      exact h
    · rw [he]
      refine ⟨h.1, ?_⟩
      intro c' request' hc'
      by_cases hc : c' = c
      · simpa [Server.setStage, Server.setServiceName, hc] using hne
      · simpa [Server.setStage, Server.setServiceName, hc] using
          h.2 c' request' (by simpa [Server.setStage, Server.setServiceName, hc] using hc')
    · rw [he]
      exact h
  | register c =>
    obtain ⟨⟨request, hc⟩, rfl⟩ := hstep
    have hne : s.names c ≠ "" := h.2 c request hc
    have hserving : Named (s.setStage c .serving) := h.setStage (by intro request hc; cases hc)
    obtain ⟨-, hr⟩ := hserving
    exact ⟨by simpa [after, Ipc.register, Server.setStage, Server.setStatus,
      Server.setService, hne.symm]
      using h.1, hr⟩
  | disconnect c =>
    obtain ⟨-, rfl⟩ := hstep
    exact h.unregister
  | close c =>
    obtain ⟨-, rfl⟩ := hstep
    exact h.setStage (by intro request hc; cases hc)

theorem Registered.unregister (h : Registered s) (hn : Named s) : Registered (unregister s c) := by
  intro name c' hc'
  obtain ⟨hs, hno⟩ := services_of_unregister hc'
  obtain ⟨ho, hname⟩ := h name c' hs
  have hne : c' ≠ c := by
    rintro rfl
    refine hno ⟨hname, ?_, hs⟩
    rintro rfl
    rw [hn.1] at hs
    cases hs
  rw [unregister_names]
  refine ⟨?_, hname⟩
  simpa only [Server.isOpen, unregister_stages] using Server.isOpen_setStage_of_ne ho hne

theorem Registered.step (h : Registered s) (hn : Named s) (ho : Orderly s action)
    (hstep : (system outside).step s action t) : Registered t := by
  cases action with
  | accept c =>
    obtain ⟨-, rfl⟩ := hstep
    exact h.setStage fun _ => .inl (by simp [Server.setStage])
  | request c request =>
    obtain ⟨-, rfl⟩ := hstep
    rw [after]
    obtain he | ⟨service, hcall, hne, he⟩ | ⟨service, report, he⟩ :=
      handleRequest_cases outside s c request
    · rw [he]
      exact h
    · rw [he]
      obtain ⟨id, call⟩ := request
      subst hcall
      have hfree : service = s.names c ∨ s.services (s.names c) ≠ some c :=
        ho.resolve_left hne
      exact (h.setServiceName hfree).setStage fun _ => .inr ⟨_, by simp [Server.setStage]; rfl⟩
    · rw [he]
      exact h
  | register c =>
    obtain ⟨-, rfl⟩ := hstep
    exact h.enter
  | disconnect c =>
    obtain ⟨-, rfl⟩ := hstep
    exact h.unregister hn
  | close c =>
    obtain ⟨hc, rfl⟩ := hstep
    have hleft : s.stages c = .leaving := hc
    refine h.setStage fun hs => ?_
    rcases (h _ _ hs).1 with hopen | ⟨request, hopen⟩ <;> simp [hopen] at hleft

theorem Orderly.undisturbed (ho : Orderly s action) : Undisturbed outside s action := by
  rintro c rfl t ⟨-, rfl⟩ name c' hs - hne
  have hname : s.names c ≠ name := by
    rintro rfl
    exact hne (ho c' hs)
  refine ⟨?_, unregister_statuses_of_ne s hname⟩
  rw [after, unregister_services, if_neg]
  · exact hs
  · rintro ⟨hc, -⟩
    exact hname hc

/-- In a run of orderly steps, every entry is an open connection under its name and no disconnect
disturbs the service of another one. -/
theorem registered_of_orderly (h : (system outside).Run .initial tr s)
    (ho : ∀ p ∈ tr, Orderly p.1 p.2) :
    (∀ u ∈ states tr s, Registered u) ∧ ∀ p ∈ tr, Undisturbed outside p.1 p.2 := by
  have hinit : Registered .initial ∧ Named .initial := by
    refine ⟨?_, rfl, ?_⟩
    · intro name c hc
      cases hc
    · intro c request hc
      cases hc
  have hall : ∀ u ∈ states tr s, Registered u ∧ Named u :=
    h.forall_states (I := fun u => Registered u ∧ Named u) hinit fun p hp hI u hu =>
      ⟨hI.1.step hI.2 (ho p hp) hu, hI.2.step hu⟩
  exact ⟨fun u hu => (hall u hu).1, fun p hp => (ho p hp).undisturbed⟩

def offline : Outside := ⟨none, fun _ _ => .error "closed", asciiPrint⟩

def registration (service : String) : Request := ⟨"1", .registerService (.ok service)⟩

def handover : List Action :=
  [.accept 0, .request 0 (registration "live-feed"), .register 0,
   .accept 1, .request 1 (registration "live-feed"), .register 1,
   .request 0 (registration "ptz"), .register 0, .disconnect 1]

theorem registered_of_orderly_handover : let (tr, s) := replay (after offline) .initial handover
    (system offline).Run .initial tr s ∧ ∀ u ∈ states tr s, Registered u := by
  have hmem : ∀ p ∈ (replay (after offline) .initial handover).1,
      Enabled p.1 p.2 ∧ Orderly p.1 p.2 := by
    simp only [handover, replay, forall_mem_cons, not_mem_nil, false_imp_iff,
      implies_true, and_true]
    refine ⟨⟨rfl, trivial⟩, ⟨rfl, .inr (.inr (by decide))⟩, ⟨⟨_, rfl⟩, trivial⟩, ⟨rfl, trivial⟩,
      ⟨rfl, .inr (.inr (by decide))⟩, ⟨⟨_, rfl⟩, trivial⟩, ⟨rfl, .inr (.inr (by decide))⟩,
      ⟨⟨_, rfl⟩, trivial⟩, rfl, ?_⟩
    intro c' hc'
    exact (Option.some.inj hc').symm
  have hrun : (system offline).Run .initial (replay (after offline) .initial handover).1
      (replay (after offline) .initial handover).2 :=
    System.run_replay handover fun p hp => (hmem p hp).1
  exact ⟨hrun, (registered_of_orderly hrun fun p hp => (hmem p hp).2).1⟩

def renamed : List Action :=
  [.accept 0, .request 0 (registration "live-feed"), .register 0,
   .request 0 (registration "ptz"), .register 0, .disconnect 0, .close 0]

def superseded : List Action :=
  [.accept 0, .request 0 (registration "live-feed"), .register 0,
   .accept 1, .request 1 (registration "live-feed"), .register 1]

theorem not_registered_of_run : (∃ tr s, (system offline).Run .initial tr s ∧ ¬ Registered s) ∧
    ∃ tr s, (system offline).Run .initial tr s ∧ (system offline).step s (.disconnect 0)
      (unregister s 0) ∧ ¬ Undisturbed offline s (.disconnect 0) := by
  refine ⟨⟨_, _, System.run_replay renamed ?_, ?_⟩, _, _, System.run_replay superseded ?_,
    ⟨rfl, rfl⟩, ?_⟩
  · simp only [renamed, replay, forall_mem_cons, not_mem_nil, false_imp_iff, implies_true, and_true]
    exact ⟨rfl, rfl, ⟨_, rfl⟩, rfl, ⟨_, rfl⟩, rfl, rfl⟩
  · intro h
    obtain ⟨hclosed | ⟨request, hclosed⟩, -⟩ := h "live-feed" 0 rfl
    · cases hclosed
    · cases hclosed
  · simp only [superseded, replay, forall_mem_cons, not_mem_nil, false_imp_iff,
      implies_true, and_true]
    exact ⟨rfl, rfl, ⟨_, rfl⟩, rfl, rfl, ⟨_, rfl⟩⟩
  · intro h
    obtain ⟨-, hstatus⟩ := h 0 rfl _ ⟨rfl, rfl⟩ "live-feed" 1 rfl (.inl rfl) (by decide)
    have hmarked := congrArg (Option.map StatusReport.status) hstatus
    revert hmarked
    decide

end Trakrai.Ipc
