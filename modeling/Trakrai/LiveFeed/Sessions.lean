import Trakrai.Lib.Json
import Trakrai.Lib.Text
import Trakrai.Lib.Transition

namespace Trakrai.LiveFeed
open List Lib

/-- What the manager calls on a peer connection. A call that returns an error gives false. -/
structure PeerConnectionApi (P Candidate : Type) where
  remoteDescription : P → Option String
  setRemoteDescription : P → String → Bool × P
  addICECandidate : P → Candidate → Bool × P

/-- A remote description is reported exactly after a successful `SetRemoteDescription`. -/
structure PeerConnectionApi.Reports (api : PeerConnectionApi P Candidate) : Prop where
  accepted : ∀ pc sdp, (api.setRemoteDescription pc sdp).1 = true →
    (api.remoteDescription (api.setRemoteDescription pc sdp).2).isSome = true
  rejected : ∀ pc sdp, (api.setRemoteDescription pc sdp).1 = false →
    (api.remoteDescription (api.setRemoteDescription pc sdp).2).isSome = (api.remoteDescription pc).isSome
  added : ∀ pc candidate, (api.remoteDescription (api.addICECandidate pc candidate).2).isSome =
    (api.remoteDescription pc).isSome

structure LiveSession (P Candidate : Type) where
  pc : Option P
  pendingICE : List Candidate

structure SessionManager (P Candidate : Type) where
  sessions : List (String × LiveSession P Candidate)

inductive Operation (Candidate : Type) where
  | setRemoteDescription (sdp : String) (accepted : Bool)
  | addICECandidate (candidate : Candidate)
deriving DecidableEq

namespace SessionManager
variable {P Candidate : Type}

section
variable (sm : SessionManager P Candidate)

def lookupSessionLocked (sessionID : String) : Option (String × LiveSession P Candidate) :=
  if goTrimSpace sessionID ≠ "" then
    (sm.sessions.lookup (goTrimSpace sessionID)).map fun session => (goTrimSpace sessionID, session)
  else
    match sm.sessions with
    | [entry] => some entry
    | _ => none

def store (key : String) (session : LiveSession P Candidate) : SessionManager P Candidate :=
  ⟨setKey sm.sessions key session⟩

def setRemoteAnswer (api : PeerConnectionApi P Candidate) (sm : SessionManager P Candidate)
    (sessionID sdp : String) : SessionManager P Candidate × List (String × Operation Candidate) :=
  match sm.lookupSessionLocked sessionID with
  | none => (sm, [])
  | some (key, session) =>
    match session.pc with
    | none => (sm, [])
    | some pc =>
      if (api.remoteDescription pc).isSome then (sm, [])
      else
        let (accepted, pc) := api.setRemoteDescription pc sdp
        if !accepted then
          (sm.store key { session with pc := some pc }, [(key, .setRemoteDescription sdp false)])
        else
          -- an error of a candidate is logged, and the next one follows
          let pc := session.pendingICE.foldl (fun pc candidate => (api.addICECandidate pc candidate).2) pc
          (sm.store key { session with pc := some pc, pendingICE := [] },
            (key, .setRemoteDescription sdp true) ::
              session.pendingICE.map fun candidate => (key, .addICECandidate candidate))

def addICECandidate (api : PeerConnectionApi P Candidate) (unmarshal : List UInt8 → Option Candidate)
    (sm : SessionManager P Candidate) (sessionID : String) (candidateJSON : List UInt8) :
    SessionManager P Candidate × List (String × Operation Candidate) :=
  match sm.lookupSessionLocked sessionID with
  | none => (sm, [])
  | some (key, session) =>
    match session.pc with
    | none => (sm, [])
    | some pc =>
      match unmarshal candidateJSON with
      | none => (sm, [])
      | some candidate =>
        if (api.remoteDescription pc).isNone then
          (sm.store key { session with pendingICE := session.pendingICE ++ [candidate] }, [])
        else
          (sm.store key { session with pc := some (api.addICECandidate pc candidate).2 },
            [(key, .addICECandidate candidate)])

def target (sessionID : String) : Option String :=
  (sm.lookupSessionLocked sessionID).map Prod.fst

theorem lookup_of_lookupSessionLocked {sm : SessionManager P Candidate}
    (h : sm.lookupSessionLocked sessionID = some (key, session)) :
    sm.sessions.lookup key = some session := by
  rw [lookupSessionLocked] at h
  split at h
  · obtain ⟨session', hfound, he⟩ := Option.map_eq_some_iff.mp h
    obtain ⟨rfl, rfl⟩ := Prod.mk.inj he
    exact hfound
  · split at h
    · rename_i entry hone
      obtain rfl := Option.some.inj h
      rw [hone, lookup_cons_self]
    · cases h

theorem lookup_store (key key' : String)
    (session : LiveSession P Candidate) :
    (sm.store key session).sessions.lookup key' =
      if key' = key then some session else sm.sessions.lookup key' := by
  rw [store, lookup_setKey]

end

end SessionManager

/-- The calls, and what happens elsewhere: to other sessions and inside of the peer connections. -/
inductive Action where
  | setRemoteAnswer (sessionID sdp : String)
  | addICECandidate (sessionID : String) (candidateJSON : List UInt8)
  | elsewhere

section
variable {P Candidate : Type} (api : PeerConnectionApi P Candidate)
  (unmarshal : List UInt8 → Option Candidate) (key : String)

/-- The session stays, with its candidates and with what its peer connection reports. -/
def Untouched (s t : SessionManager P Candidate) : Prop :=
  ∀ session pc, s.sessions.lookup key = some session → session.pc = some pc →
    ∃ pc', t.sessions.lookup key = some ⟨some pc', session.pendingICE⟩ ∧
      (api.remoteDescription pc').isSome = (api.remoteDescription pc).isSome

def system : System (SessionManager P Candidate) Action where
  init s := ∃ pc, s.sessions.lookup key = some ⟨some pc, []⟩ ∧ api.remoteDescription pc = none
  step s action t :=
    match action with
    | .setRemoteAnswer sessionID sdp => t = (s.setRemoteAnswer api sessionID sdp).1
    | .addICECandidate sessionID candidateJSON =>
      t = (s.addICECandidate api unmarshal sessionID candidateJSON).1
    | .elsewhere => Untouched api key s t

def calls (s : SessionManager P Candidate) (action : Action) : List (Operation Candidate) :=
  let all := match action with
    | .setRemoteAnswer sessionID sdp => (s.setRemoteAnswer api sessionID sdp).2
    | .addICECandidate sessionID candidateJSON =>
      (s.addICECandidate api unmarshal sessionID candidateJSON).2
    | .elsewhere => []
  (all.filter (·.1 == key)).map Prod.snd

def receives (s : SessionManager P Candidate) : Action → List Candidate
  | .addICECandidate sessionID candidateJSON =>
    if s.target sessionID = some key then (unmarshal candidateJSON).toList else []
  | _ => []

def Operation.candidate? : Operation Candidate → Option Candidate
  | .addICECandidate candidate => some candidate
  | .setRemoteDescription .. => none

def Operation.accepts : Operation Candidate → Bool
  | .setRemoteDescription _ accepted => accepted
  | .addICECandidate _ => false

section
variable (tr : List (SessionManager P Candidate × Action))

/-- The candidates handed to the peer connection. -/
def handed : List Candidate :=
  tr.flatMap fun p => (calls api unmarshal key p.1 p.2).filterMap Operation.candidate?

/-- The decodable candidates that have come for the session. -/
def received : List Candidate :=
  tr.flatMap fun p => receives unmarshal key p.1 p.2

def answered : Bool :=
  tr.any fun p => (calls api unmarshal key p.1 p.2).any Operation.accepts

end

end

section
variable {P Candidate : Type} {api : PeerConnectionApi P Candidate}
  {unmarshal : List UInt8 → Option Candidate} {key : String} {s t : SessionManager P Candidate}
  {session : LiveSession P Candidate} {pc : P} {tr : List (SessionManager P Candidate × Action)}

/-- What a step does to the session: nothing, or it buffers a candidate, or hands one on, or has an
answer rejected, or has one accepted and hands on what was buffered. -/
inductive Effect (api : PeerConnectionApi P Candidate) (pc : P) (pending : List Candidate) :
    List (Operation Candidate) → List Candidate → P → List Candidate → Prop where
  | untouched (h : (api.remoteDescription pc').isSome = (api.remoteDescription pc).isSome) :
    Effect api pc pending [] [] pc' pending
  | buffered (h : (api.remoteDescription pc).isSome = false) :
    Effect api pc pending [] [candidate] pc (pending ++ [candidate])
  | direct (h : (api.remoteDescription pc).isSome = true) :
    Effect api pc pending [.addICECandidate candidate] [candidate] (api.addICECandidate pc candidate).2
      pending
  | rejected (h : (api.remoteDescription pc).isSome = false)
      (ha : (api.setRemoteDescription pc sdp).1 = false) :
    Effect api pc pending [.setRemoteDescription sdp false] [] (api.setRemoteDescription pc sdp).2 pending
  | accepted (h : (api.remoteDescription pc).isSome = false)
      (ha : (api.setRemoteDescription pc sdp).1 = true) :
    Effect api pc pending (.setRemoteDescription sdp true :: pending.map .addICECandidate) []
      (pending.foldl (fun pc candidate => (api.addICECandidate pc candidate).2)
        (api.setRemoteDescription pc sdp).2) []

theorem target_ne (h : s.target sessionID ≠ some key)
    (hfound : s.lookupSessionLocked sessionID = some (key', session')) : key ≠ key' := by
  rintro rfl
  rw [SessionManager.target, hfound] at h
  exact h rfl

theorem setRemoteAnswer_other (h : s.target sessionID ≠ some key) :
    (s.setRemoteAnswer api sessionID sdp).1.sessions.lookup key = s.sessions.lookup key ∧
      ∀ call ∈ (s.setRemoteAnswer api sessionID sdp).2, call.1 ≠ key := by
  rw [SessionManager.setRemoteAnswer]
  split
  · exact ⟨rfl, by simp⟩
  · rename_i key' session' hfound
    have hne := target_ne h hfound
    split
    · exact ⟨rfl, by simp⟩
    · split
      · exact ⟨rfl, by simp⟩
      · dsimp only
        split
        · exact ⟨by rw [SessionManager.lookup_store, if_neg hne], by simp [hne.symm]⟩
        · exact ⟨by rw [SessionManager.lookup_store, if_neg hne], by simp [hne.symm]⟩

theorem addICECandidate_other (h : s.target sessionID ≠ some key) :
    (s.addICECandidate api unmarshal sessionID candidateJSON).1.sessions.lookup key =
        s.sessions.lookup key ∧
      ∀ call ∈ (s.addICECandidate api unmarshal sessionID candidateJSON).2, call.1 ≠ key := by
  rw [SessionManager.addICECandidate]
  split
  · exact ⟨rfl, by simp⟩
  · rename_i key' session' hfound
    have hne := target_ne h hfound
    split
    · exact ⟨rfl, by simp⟩
    · split
      · exact ⟨rfl, by simp⟩
      · split
        · exact ⟨by rw [SessionManager.lookup_store, if_neg hne], by simp⟩
        · exact ⟨by rw [SessionManager.lookup_store, if_neg hne], by simp [hne.symm]⟩

theorem lookup_of_target (h : s.target sessionID = some key)
    (hs : s.sessions.lookup key = some session) :
    s.lookupSessionLocked sessionID = some (key, session) := by
  obtain ⟨⟨key', session'⟩, hfound, rfl⟩ := Option.map_eq_some_iff.mp h
  rw [SessionManager.lookup_of_lookupSessionLocked hfound] at hs
  obtain rfl := Option.some.inj hs
  exact hfound

theorem filter_calls_other {calls : List (String × Operation Candidate)}
    (h : ∀ call ∈ calls, call.1 ≠ key) : (calls.filter (·.1 == key)).map Prod.snd = [] := by
  rw [map_eq_nil_iff, filter_eq_nil_iff]
  intro call hcall
  simpa using h call hcall

theorem step_effect (hstep : (system api unmarshal key).step s action t)
    (hs : s.sessions.lookup key = some session) (hpc : session.pc = some pc) :
    ∃ pc' pending', t.sessions.lookup key = some ⟨some pc', pending'⟩ ∧
      Effect api pc session.pendingICE (calls api unmarshal key s action)
        (receives unmarshal key s action) pc' pending' := by
  obtain ⟨_, pending⟩ := session
  obtain rfl : _ = some pc := hpc
  cases action with
  | elsewhere =>
    obtain ⟨pc', ht, hreport⟩ := hstep _ pc hs rfl
    exact ⟨pc', pending, ht, .untouched hreport⟩
  | setRemoteAnswer sessionID sdp =>
    obtain rfl : t = _ := hstep
    by_cases htarget : s.target sessionID = some key
    · have hfound := lookup_of_target htarget hs
      simp only [SessionManager.setRemoteAnswer, calls, receives, hfound]
      cases hreport : (api.remoteDescription pc).isSome with
      | true => exact ⟨pc, pending, hs, .untouched rfl⟩
      | false =>
        cases haccepted : (api.setRemoteDescription pc sdp).1 with
        | false =>
          refine ⟨_, pending, by simp [SessionManager.lookup_store]; rfl, ?_⟩
          simpa using Effect.rejected hreport haccepted
        | true =>
          refine ⟨_, [], by simp [SessionManager.lookup_store]; rfl, ?_⟩
          simpa [filter_map, Function.comp_def] using Effect.accepted hreport haccepted
    · obtain ⟨hlookup, hcalls⟩ := setRemoteAnswer_other htarget
      refine ⟨pc, pending, hlookup.trans hs, ?_⟩
      rw [calls, filter_calls_other hcalls]
      exact .untouched rfl
  | addICECandidate sessionID candidateJSON =>
    obtain rfl : t = _ := hstep
    by_cases htarget : s.target sessionID = some key
    · have hfound := lookup_of_target htarget hs
      simp only [SessionManager.addICECandidate, calls, receives, hfound, if_pos htarget]
      cases unmarshal candidateJSON with
      | none => exact ⟨pc, pending, hs, .untouched rfl⟩
      | some candidate =>
        cases hreport : api.remoteDescription pc with
        | none =>
          refine ⟨pc, pending ++ [candidate], by simp [SessionManager.lookup_store], ?_⟩
          simpa using Effect.buffered (by rw [hreport]; rfl)
        | some sdp =>
          refine ⟨_, pending, by simp [SessionManager.lookup_store]; rfl, ?_⟩
          simpa using Effect.direct (by rw [hreport]; rfl)
    · obtain ⟨hlookup, hcalls⟩ := addICECandidate_other htarget
      refine ⟨pc, pending, hlookup.trans hs, ?_⟩
      rw [calls, filter_calls_other hcalls, receives, if_neg htarget]
      exact .untouched rfl

/-- What a session has come to by a run: until an answer is accepted all candidates are pending, and
from then on all have been handed on. -/
structure Delivered (api : PeerConnectionApi P Candidate) (unmarshal : List UInt8 → Option Candidate)
    (key : String) (tr : List (SessionManager P Candidate × Action)) (s : SessionManager P Candidate) :
    Prop where
  live : ∃ pc, s.sessions.lookup key =
      some ⟨some pc, if answered api unmarshal key tr then [] else received unmarshal key tr⟩ ∧
    (api.remoteDescription pc).isSome = answered api unmarshal key tr
  handed : handed api unmarshal key tr =
    if answered api unmarshal key tr then received unmarshal key tr else []

section
variable (tr : List (SessionManager P Candidate × Action))

section
variable (p : SessionManager P Candidate × Action)

theorem handed_append :
    handed api unmarshal key (tr ++ [p]) =
      handed api unmarshal key tr ++ (calls api unmarshal key p.1 p.2).filterMap Operation.candidate? := by
  rw [handed, flatMap_append, flatMap_singleton, ← handed]

theorem received_append :
    received unmarshal key (tr ++ [p]) = received unmarshal key tr ++ receives unmarshal key p.1 p.2 := by
  rw [received, flatMap_append, flatMap_singleton, ← received]

theorem answered_append :
    answered api unmarshal key (tr ++ [p]) =
      (answered api unmarshal key tr || (calls api unmarshal key p.1 p.2).any Operation.accepts) := by
  rw [answered, any_append, any_cons, any_nil, Bool.or_false, ← answered]

end

end

theorem isSome_foldl_addICECandidate (hapi : api.Reports) (pending : List Candidate) (pc : P) :
    (api.remoteDescription (pending.foldl (fun pc candidate => (api.addICECandidate pc candidate).2) pc)).isSome =
      (api.remoteDescription pc).isSome := by
  induction pending generalizing pc with
  | nil => rfl
  | cons candidate pending ih => exact (ih _).trans (hapi.added pc candidate)

theorem Effect.delivers (hapi : api.Reports) {before pending pending' new : List Candidate}
    {operations : List (Operation Candidate)} {answered : Bool} {pc' : P}
    (h : Effect api pc pending operations new pc' pending')
    (hreport : (api.remoteDescription pc).isSome = answered)
    (hpending : pending = if answered then [] else before) :
    (api.remoteDescription pc').isSome = (answered || operations.any Operation.accepts) ∧
      pending' = (if answered || operations.any Operation.accepts then [] else before ++ new) ∧
      operations.filterMap Operation.candidate? = if answered then new
        else if operations.any Operation.accepts then before ++ new
        else [] := by
  cases h with
  | untouched h =>
    refine ⟨by simpa [hreport] using h, ?_, ?_⟩
    · simpa using hpending
    · cases answered <;> rfl
  | buffered h =>
    obtain rfl : answered = false := hreport.symm.trans h
    refine ⟨h, ?_, rfl⟩
    rw [hpending]
    rfl
  | direct h =>
    obtain rfl : answered = true := hreport.symm.trans h
    refine ⟨(hapi.added ..).trans h, ?_, rfl⟩
    rw [hpending]
    rfl
  | rejected h ha =>
    obtain rfl : answered = false := hreport.symm.trans h
    refine ⟨(hapi.rejected _ _ ha).trans h, ?_, rfl⟩
    rw [hpending, append_nil]
    rfl
  | accepted h ha =>
    obtain rfl : answered = false := hreport.symm.trans h
    refine ⟨?_, rfl, ?_⟩
    · exact (isSome_foldl_addICECandidate hapi _ _).trans (hapi.accepted _ _ ha)
    · have hall (pending : List Candidate) :
          (pending.map Operation.addICECandidate).filterMap Operation.candidate? = pending := by
        rw [filterMap_map]
        exact filterMap_some
      rw [filterMap_cons_none rfl, hall, hpending, append_nil]
      rfl

theorem Delivered.step (hapi : api.Reports) (h : Delivered api unmarshal key tr s)
    (hstep : (system api unmarshal key).step s action t) :
    Delivered api unmarshal key (tr ++ [(s, action)]) t := by
  obtain ⟨pc, hs, hreport⟩ := h.live
  obtain ⟨pc', pending', ht, heffect⟩ := step_effect hstep hs rfl
  obtain ⟨hreport', hpending, hhanded⟩ := heffect.delivers hapi hreport rfl
  refine ⟨⟨pc', ?_, ?_⟩, ?_⟩
  · rw [answered_append, received_append, ht, hpending]
  · rw [answered_append, hreport']
  · rw [handed_append, answered_append, received_append, h.handed, hhanded]
    cases answered api unmarshal key tr with
    | true => rfl
    | false => rfl

/-- However the calls come, the peer connection is handed nothing before an answer is accepted, and
from then on the decodable candidates that have come, each once and in order. -/
theorem candidates_handed_in_order (api : PeerConnectionApi P Candidate) (hapi : api.Reports)
    (unmarshal : List UInt8 → Option Candidate) (key : String) (hinit : (system api unmarshal key).init s)
    (hrun : (system api unmarshal key).Run s tr t) :
    handed api unmarshal key tr =
      if answered api unmarshal key tr then received unmarshal key tr else [] := by
  obtain ⟨pc, hs, hreport⟩ := hinit
  have hstart : Delivered api unmarshal key [] s := ⟨⟨pc, hs, by rw [hreport]; rfl⟩, rfl⟩
  exact (hrun.trace_invariant (fun h hstep => h.step hapi hstep) hstart).handed

def after (api : PeerConnectionApi P Candidate) (unmarshal : List UInt8 → Option Candidate)
    (s : SessionManager P Candidate) : Action → SessionManager P Candidate
  | .setRemoteAnswer sessionID sdp => (s.setRemoteAnswer api sessionID sdp).1
  | .addICECandidate sessionID candidateJSON => (s.addICECandidate api unmarshal sessionID candidateJSON).1
  | .elsewhere => s

theorem run_replay (actions : List Action) (s : SessionManager P Candidate) :
    (system api unmarshal key).Run s (replay (after api unmarshal) s actions).1
      (replay (after api unmarshal) s actions).2 := by
  induction actions generalizing s with
  | nil => exact .nil s
  | cons action actions ih =>
    refine .cons ?_ (ih _)
    cases action with
    | setRemoteAnswer => rfl
    | addICECandidate => rfl
    | elsewhere =>
      rintro ⟨_, pending⟩ pc hs rfl
      exact ⟨pc, hs, rfl⟩

end

def plainPeer : PeerConnectionApi (Option String) UInt8 where
  remoteDescription pc := pc
  setRemoteDescription pc sdp := if sdp = "" then (false, pc) else (true, some sdp)
  addICECandidate pc _ := (true, pc)

theorem plainPeer_reports : plainPeer.Reports where
  accepted pc sdp h := by
    simp only [plainPeer] at h ⊢
    split at h
    · cases h
    · rename_i hne
      rw [if_neg hne]
      rfl
  rejected pc sdp h := by
    simp only [plainPeer] at h ⊢
    split at h
    · rename_i he
      rw [if_pos he]
    · cases h
  added _ _ := rfl

def scatteredCandidates : List Action :=
  [.addICECandidate "1" [7], .addICECandidate "1" [], .setRemoteAnswer "1" "", .addICECandidate " 1 " [8],
    .setRemoteAnswer "" "v=0", .setRemoteAnswer "1" "v=0", .addICECandidate "" [9]]

theorem candidates_handed_in_order_scattered : ∃ tr t,
    (system plainPeer List.head? "1").Run ⟨[("1", ⟨some none, []⟩)]⟩ tr t ∧
      tr.map Prod.snd = scatteredCandidates ∧ handed plainPeer List.head? "1" tr = [7, 8, 9] := by
  refine ⟨_, _, run_replay scatteredCandidates _, replay_labels .., ?_⟩
  rw [candidates_handed_in_order plainPeer plainPeer_reports List.head? "1" ⟨none, rfl, rfl⟩
    (run_replay scatteredCandidates _)]
  decide +kernel

end Trakrai.LiveFeed
