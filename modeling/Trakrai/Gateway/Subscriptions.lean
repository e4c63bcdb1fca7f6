import Trakrai.Gateway.Authorization
import Trakrai.Lib.Table

namespace Trakrai.Gateway
open List hiding count
open Function Lib

def Stage.succeeded : Stage Token → Bool
  | .attached succeeded => succeeded
  | _ => false

/-- The reference count of the device counts the socket. -/
def Stage.holdsRef : Stage Token → Bool
  | .attached succeeded => succeeded
  | .subscribing _ _ => true
  | _ => false

section
variable {Token : Type}

/-- A subscribe call for the device is awaited. -/
def Server.InFlight (s : Server Token) (deviceId : String) : Prop :=
  ∃ ws context overtaken, s.stages ws = .subscribing context overtaken ∧ context.deviceId = deviceId

def Server.subscribers (s : Server Token) (deviceId : String) : Nat :=
  s.clients.countP fun entry => entry.2.deviceId == deviceId &&
    (s.readyStates entry.1 == .open && (s.stages entry.1).succeeded)

structure RefCounted (s : Server Token) : Prop where
  /-- Every socket is registered once. -/
  nodup : (s.clients.map Prod.fst).Nodup
  /-- Every open socket whose subscription succeeded is registered. -/
  registered : ∀ ws, s.readyStates ws = .open → s.stages ws = .attached true →
    ws ∈ s.clients.map Prod.fst
  notClosed : ∀ entry ∈ s.clients, s.readyStates entry.1 ≠ .closed
  refs : ∀ deviceId, ¬ s.InFlight deviceId →
    (s.subscriptionRefs deviceId).getD 0 = s.subscribers deviceId
  broker : ∀ deviceId, ¬ s.InFlight deviceId →
    (s.broker deviceId = true ↔ 0 < s.subscribers deviceId)

/-- A subscription fails only while no other client counts on it, a client whose subscription
failed leaves only while the device has no count, and no socket closes while its token is verified
or its subscription is awaited. -/
def Orderly (jwt : Jwt Token) (config : Config) (s : Server Token) (event : Event Token) : Prop :=
  (∀ ws context, leaving config s event = some ws → s.stages ws = .attached false →
    s.client ws = some context → s.subscriptionRefs context.deviceId = none) ∧
  match event with
  | .verified ws token requestedDeviceId _ => ∀ context, connect jwt token = some context →
    requestedDeviceId.any (· != context.deviceId) = false → s.readyStates ws = .open
  | .subscribed _ context _ (some _) _ => s.subscriptionRefs context.deviceId = some 1
  | .close ws => ∀ context overtaken, s.stages ws ≠ .subscribing context overtaken
  | _ => True

def Server.tally (s : Server Token) (deviceId : String) : Nat :=
  s.clients.countP fun entry => entry.2.deviceId == deviceId && (s.stages entry.1).holdsRef

def toRef (count : Nat) : Option Nat := if count = 0 then none else some count

/-- `RefCounted` with the calls in flight counted. -/
structure Tallied (s : Server Token) : Prop where
  nodup : (s.clients.map Prod.fst).Nodup
  opened : ∀ entry ∈ s.clients, s.readyStates entry.1 = .open
  staged : ∀ entry ∈ s.clients, (∃ succeeded, s.stages entry.1 = .attached succeeded) ∨
    ∃ overtaken, s.stages entry.1 = .subscribing entry.2 overtaken
  pending : ∀ ws context overtaken, s.stages ws = .subscribing context overtaken →
    (ws, context) ∈ s.clients ∧ overtaken = false ∧ s.broker context.deviceId = false
  unique : ∀ ws context overtaken ws' context' overtaken',
    s.stages ws = .subscribing context overtaken →
    s.stages ws' = .subscribing context' overtaken' →
    context.deviceId = context'.deviceId → ws = ws'
  registered : ∀ ws succeeded, s.readyStates ws = .open → s.stages ws = .attached succeeded →
    ws ∈ s.clients.map Prod.fst
  refs : ∀ deviceId, s.subscriptionRefs deviceId = toRef (s.tally deviceId)
  broker : ∀ deviceId, ¬ s.InFlight deviceId → (s.broker deviceId = true ↔ 0 < s.tally deviceId)

theorem toRef_getD (count : Nat) : (toRef count).getD 0 = count := by
  unfold toRef
  split
  · simp [*]
  · rfl

theorem toRef_eq_some (h : toRef count = some count') : count = count' ∧ 0 < count := by
  unfold toRef at h
  split at h
  · cases h
  · exact ⟨Option.some.inj h, by omega⟩

variable {s : Server Token}

theorem Tallied.tally_eq (h : Tallied s) (hf : ¬ s.InFlight deviceId) :
    s.tally deviceId = s.subscribers deviceId := by
  apply countP_congr
  intro entry hm
  have hopen : s.readyStates entry.1 = .open := h.opened entry hm
  simp only [hopen, beq_self_eq_true, Bool.true_and, Bool.and_eq_true, beq_iff_eq, and_congr_right_iff]
  intro hd
  obtain ⟨succeeded, hs⟩ | ⟨overtaken, hs⟩ := h.staged entry hm
  · rw [hs]
    rfl
  · exact (hf ⟨entry.1, entry.2, overtaken, hs, hd⟩).elim

theorem Tallied.refCounted (h : Tallied s) : RefCounted s where
  nodup := h.nodup
  registered ws ho hs := h.registered ws true ho hs
  notClosed entry hm hc := by
    have hopen : s.readyStates entry.1 = .open := h.opened entry hm
    rw [hopen] at hc
    cases hc
  refs deviceId hf := by rw [h.refs, toRef_getD, h.tally_eq hf]
  broker deviceId hf := by rw [h.broker deviceId hf, h.tally_eq hf]

theorem tallied_initial : Tallied (Server.initial : Server Token) where
  nodup := nodup_nil
  opened := nofun
  staged := nofun
  pending := nofun
  unique := nofun
  registered := nofun
  refs _ := rfl
  broker _ _ := ⟨nofun, nofun⟩

def Server.tallyElsewhere (s : Server Token) (ws : Socket) (deviceId : String) : Nat :=
  (s.clients.filter (·.1 != ws)).countP fun entry =>
    entry.2.deviceId == deviceId && (s.stages entry.1).holdsRef

theorem fst_ne_of_not_mem {clients : List (Socket × ClientContext)}
    (h : ws ∉ clients.map Prod.fst) : ∀ entry ∈ clients, entry.1 ≠ ws := by
  rintro entry hm rfl
  exact h (mem_map_of_mem hm)

theorem filter_ne_of_not_mem {clients : List (Socket × ClientContext)}
    (h : ws ∉ clients.map Prod.fst) : clients.filter (·.1 != ws) = clients := by
  rw [filter_eq_self]
  intro entry hm
  exact bne_iff_ne.2 (fst_ne_of_not_mem h entry hm)

theorem nodup_keys_append
    (hn : (clients.map Prod.fst).Nodup) (h : ws ∉ clients.map Prod.fst) (context : ClientContext) :
    ((clients ++ [(ws, context)]).map Prod.fst).Nodup := by
  rw [map_append, nodup_append]
  refine ⟨hn, nodup_singleton _, ?_⟩
  rintro _ hk _ hw rfl
  rw [mem_singleton.1 hw] at hk
  exact h hk

theorem tally_of_not_mem (h : ws ∉ s.clients.map Prod.fst) (deviceId : String) :
    s.tally deviceId = s.tallyElsewhere ws deviceId := by
  rw [Server.tallyElsewhere, filter_ne_of_not_mem h, Server.tally]

theorem tally_of_mem (hn : (s.clients.map Prod.fst).Nodup) (h : (ws, context) ∈ s.clients)
    (deviceId : String) :
    s.tally deviceId = s.tallyElsewhere ws deviceId +
      if context.deviceId == deviceId && (s.stages ws).holdsRef then 1 else 0 :=
  countP_key hn h

section
variable {t : Server Token}

theorem tallyElsewhere_congr (hc : t.clients.filter (·.1 != ws) = s.clients.filter (·.1 != ws))
    (hs : ∀ ws', ws' ≠ ws → t.stages ws' = s.stages ws') (deviceId : String) :
    t.tallyElsewhere ws deviceId = s.tallyElsewhere ws deviceId := by
  rw [Server.tallyElsewhere, Server.tallyElsewhere, hc]
  apply countP_congr
  intro entry hm
  have hne : entry.1 ≠ ws := by simpa using (mem_filter.1 hm).2
  rw [hs entry.1 hne]

theorem tally_congr_outside (hws : ws ∉ s.clients.map Prod.fst)
    (hc : t.clients = s.clients) (hs : ∀ ws', ws' ≠ ws → t.stages ws' = s.stages ws')
    (deviceId : String) : t.tally deviceId = s.tally deviceId := by
  have hwt : ws ∉ t.clients.map Prod.fst := by rwa [hc]
  rw [tally_of_not_mem hws, tally_of_not_mem hwt, tallyElsewhere_congr (by rw [hc]) hs]

theorem Tallied.tally_pos_of_inFlight (h : Tallied s) (hf : s.InFlight deviceId) :
    0 < s.tally deviceId := by
  obtain ⟨ws, context, overtaken, hs, rfl⟩ := hf
  have hm : (ws, context) ∈ s.clients := (h.pending ws context overtaken hs).1
  rw [tally_of_mem h.nodup hm, hs]
  simp [Stage.holdsRef]

theorem Tallied.outside (h : Tallied s) (hws : ws ∉ s.clients.map Prod.fst)
    (hclients : t.clients = s.clients) (hrefs : t.subscriptionRefs = s.subscriptionRefs)
    (hbroker : t.broker = s.broker) (hother : ∀ ws', ws' ≠ ws → t.stages ws' = s.stages ws')
    (hstates : ∀ ws', ws' ≠ ws → t.readyStates ws' = s.readyStates ws')
    (hsub : ∀ context overtaken, t.stages ws ≠ .subscribing context overtaken)
    (hatt : ∀ succeeded, t.stages ws = .attached succeeded → t.readyStates ws ≠ .open) :
    Tallied t := by
  have hne : ∀ entry ∈ s.clients, entry.1 ≠ ws := fst_ne_of_not_mem hws
  have hold : ∀ ws' context overtaken, t.stages ws' = .subscribing context overtaken →
      s.stages ws' = .subscribing context overtaken := by
    intro ws' context overtaken hs
    rwa [← hother ws']
    rintro rfl
    exact hsub context overtaken hs
  have htally : ∀ deviceId, t.tally deviceId = s.tally deviceId :=
    tally_congr_outside hws hclients hother
  refine ⟨hclients ▸ h.nodup, ?_, ?_, ?_, ?_, ?_, ?_, ?_⟩
  · intro entry hm
    rw [hclients] at hm
    exact (hstates entry.1 (hne entry hm)).trans (h.opened entry hm)
  · intro entry hm
    rw [hclients] at hm
    rw [hother entry.1 (hne entry hm)]
    exact h.staged entry hm
  · intro ws' context overtaken hs
    rw [hclients, hbroker]
    exact h.pending ws' context overtaken (hold ws' context overtaken hs)
  · intro ws₁ context₁ overtaken₁ ws₂ context₂ overtaken₂ hs₁ hs₂ hd
    exact h.unique _ _ _ _ _ _ (hold _ _ _ hs₁) (hold _ _ _ hs₂) hd
  · intro ws' succeeded ho hs
    rw [hclients]
    by_cases hw : ws' = ws
    · subst hw
      exact (hatt succeeded hs ho).elim
    · exact h.registered ws' succeeded ((hstates ws' hw).symm.trans ho)
        ((hother ws' hw).symm.trans hs)
  · intro deviceId
    rw [htally, hrefs]
    exact h.refs deviceId
  · intro deviceId hf
    rw [htally, hbroker]
    refine h.broker deviceId ?_
    rintro ⟨ws', context, overtaken, hs, hd⟩
    have hw : ws' ≠ ws := hne _ (h.pending ws' context overtaken hs).1
    exact hf ⟨ws', context, overtaken, (hother ws' hw).trans hs, hd⟩

theorem subscribing_update (hself : t.stages ws = stage)
    (hother : ∀ ws', ws' ≠ ws → t.stages ws' = s.stages ws')
    (h : t.stages ws' = .subscribing context overtaken) :
    ws' = ws ∧ stage = .subscribing context overtaken ∨
      ws' ≠ ws ∧ s.stages ws' = .subscribing context overtaken := by
  by_cases hw : ws' = ws
  · subst hw
    exact .inl ⟨rfl, hself.symm.trans h⟩
  · exact .inr ⟨hw, (hother ws' hw).symm.trans h⟩

theorem Tallied.not_inFlight_of_zero (h : Tallied s) (hzero : s.tally deviceId = 0) :
    ¬ s.InFlight deviceId ∧ s.broker deviceId = false := by
  have hf : ¬ s.InFlight deviceId := by
    intro hf
    have hpos := h.tally_pos_of_inFlight hf
    omega
  refine ⟨hf, ?_⟩
  have hb := h.broker deviceId hf
  rw [hzero] at hb
  simpa using hb

/-- A socket is registered, as counted. The call of the first one of a device is in flight. -/
theorem Tallied.join (h : Tallied s) (hws : ws ∉ s.clients.map Prod.fst)
    (hopen : s.readyStates ws = .open) (hstage : stage.holdsRef = true)
    (hfirst : stage = .attached true ∧ 0 < s.tally context.deviceId ∨
      stage = .subscribing context false ∧ s.tally context.deviceId = 0)
    (hclients : t.clients = s.clients ++ [(ws, context)])
    (hrefs : t.subscriptionRefs = update s.subscriptionRefs context.deviceId
      (some (s.tally context.deviceId + 1)))
    (hself : t.stages ws = stage) (hother : ∀ ws', ws' ≠ ws → t.stages ws' = s.stages ws')
    (hstates : t.readyStates = s.readyStates) (hbroker : t.broker = s.broker) : Tallied t := by
  have hne : ∀ entry ∈ s.clients, entry.1 ≠ ws := fst_ne_of_not_mem hws
  have hnodup : (t.clients.map Prod.fst).Nodup :=
    hclients ▸ nodup_keys_append h.nodup hws context
  have hmem : (ws, context) ∈ t.clients := by simp [hclients]
  have hnew : ∀ context' overtaken, stage = .subscribing context' overtaken →
      context' = context ∧ overtaken = false ∧ s.tally context.deviceId = 0 := by
    intro context' overtaken hs
    obtain ⟨ha, -⟩ | ⟨ha, hzero⟩ := hfirst
    · cases ha.symm.trans hs
    · cases ha.symm.trans hs
      exact ⟨rfl, rfl, hzero⟩
  have htally : ∀ deviceId, t.tally deviceId =
      s.tally deviceId + if context.deviceId == deviceId then 1 else 0 := by
    intro deviceId
    have helse : t.tallyElsewhere ws deviceId = s.tallyElsewhere ws deviceId :=
      tallyElsewhere_congr (by simp [hclients]) hother deviceId
    rw [tally_of_mem hnodup hmem, tally_of_not_mem hws, helse]
    simp only [hself, hstage, Bool.and_true]
  refine ⟨hnodup, ?_, ?_, ?_, ?_, ?_, ?_, ?_⟩
  · intro entry hm
    rw [hstates]
    rcases mem_append.1 (hclients ▸ hm) with hm | hm
    · exact h.opened entry hm
    · rw [mem_singleton.1 hm]
      exact hopen
  · intro entry hm
    rcases mem_append.1 (hclients ▸ hm) with hm | hm
    · rw [hother entry.1 (hne entry hm)]
      exact h.staged entry hm
    · rw [mem_singleton.1 hm, hself]
      obtain ⟨ha, -⟩ | ⟨ha, -⟩ := hfirst
      · exact .inl ⟨true, ha⟩
      · exact .inr ⟨false, ha⟩
  · intro ws' context' overtaken hs
    rw [hbroker]
    obtain ⟨rfl, hs⟩ | ⟨-, hs⟩ := subscribing_update hself hother hs
    · obtain ⟨rfl, hover, hzero⟩ := hnew context' overtaken hs
      exact ⟨hmem, hover, (h.not_inFlight_of_zero hzero).2⟩
    · obtain ⟨hm, hover, hb⟩ := h.pending ws' context' overtaken hs
      exact ⟨hclients ▸ mem_append_left _ hm, hover, hb⟩
  · intro ws₁ context₁ overtaken₁ ws₂ context₂ overtaken₂ hs₁ hs₂ hd
    obtain ⟨rfl, hs₁⟩ | ⟨-, hs₁⟩ := subscribing_update hself hother hs₁
    · obtain ⟨rfl, -, hzero⟩ := hnew _ _ hs₁
      obtain ⟨rfl, -⟩ | ⟨-, hs₂⟩ := subscribing_update hself hother hs₂
      · rfl
      · exact ((h.not_inFlight_of_zero hzero).1 ⟨_, _, _, hs₂, hd.symm⟩).elim
    · obtain ⟨rfl, hs₂⟩ | ⟨-, hs₂⟩ := subscribing_update hself hother hs₂
      · obtain ⟨rfl, -, hzero⟩ := hnew _ _ hs₂
        exact ((h.not_inFlight_of_zero hzero).1 ⟨_, _, _, hs₁, hd⟩).elim
      · exact h.unique _ _ _ _ _ _ hs₁ hs₂ hd
  · intro ws' succeeded ho hs
    rw [hclients, map_append, mem_append]
    by_cases hw : ws' = ws
    · exact .inr (by simp [hw])
    · exact .inl (h.registered ws' succeeded (hstates ▸ ho) ((hother ws' hw).symm.trans hs))
  · intro deviceId
    rw [htally, hrefs]
    by_cases hd : deviceId = context.deviceId
    · subst hd
      simp [toRef]
    · have hd' : context.deviceId ≠ deviceId := Ne.symm hd
      simpa [hd, hd'] using h.refs deviceId
  · intro deviceId hf
    rw [htally, hbroker]
    have hf' : ¬ s.InFlight deviceId := by
      rintro ⟨ws', context', overtaken, hs, hd⟩
      have hw : ws' ≠ ws := hne _ (h.pending ws' context' overtaken hs).1
      exact hf ⟨ws', context', overtaken, (hother ws' hw).trans hs, hd⟩
    have hb := h.broker deviceId hf'
    by_cases hd : context.deviceId = deviceId
    · subst hd
      obtain ⟨-, hpos⟩ | ⟨ha, -⟩ := hfirst
      · simp only [hb, hpos, beq_self_eq_true, if_true, Nat.succ_pos]
      · exact (hf ⟨ws, context, false, hself.trans ha, rfl⟩).elim
    · simpa [hd] using hb

/-- The call of a socket succeeds, or it fails while nobody else counts on it. -/
theorem Tallied.settle (h : Tallied s)
    (hs : s.stages ws = .subscribing context overtaken) (hself : t.stages ws = .attached succeeded)
    (hother : ∀ ws', ws' ≠ ws → t.stages ws' = s.stages ws') (hclients : t.clients = s.clients)
    (hstates : t.readyStates = s.readyStates)
    (hanswer : succeeded = true ∧ t.subscriptionRefs = s.subscriptionRefs ∧
        t.broker = update s.broker context.deviceId true ∨
      succeeded = false ∧ s.subscriptionRefs context.deviceId = some 1 ∧
        t.subscriptionRefs = update s.subscriptionRefs context.deviceId none ∧
        t.broker = s.broker) : Tallied t := by
  obtain ⟨hm, -, hb⟩ := h.pending ws context overtaken hs
  have hnodup : (t.clients.map Prod.fst).Nodup := hclients ▸ h.nodup
  have hmt : (ws, context) ∈ t.clients := hclients ▸ hm
  have hold : ∀ ws' context' overtaken', t.stages ws' = .subscribing context' overtaken' →
      s.stages ws' = .subscribing context' overtaken' ∧ context'.deviceId ≠ context.deviceId := by
    intro ws' context' overtaken' hs'
    obtain ⟨-, ha⟩ | ⟨hw, hs'⟩ := subscribing_update hself hother hs'
    · cases ha
    · exact ⟨hs', fun hd => hw (h.unique _ _ _ _ _ _ hs' hs hd)⟩
  have hcount : ∀ deviceId, t.tally deviceId + (if context.deviceId == deviceId then 1 else 0) =
      s.tally deviceId + if context.deviceId == deviceId && succeeded then 1 else 0 := by
    intro deviceId
    have helse : t.tallyElsewhere ws deviceId = s.tallyElsewhere ws deviceId :=
      tallyElsewhere_congr (by rw [hclients]) hother deviceId
    rw [tally_of_mem hnodup hmt, tally_of_mem h.nodup hm, helse, hs, hself]
    simp only [Stage.holdsRef, Bool.and_true]
    exact Nat.add_right_comm ..
  have hbrokerOther : ∀ deviceId, deviceId ≠ context.deviceId →
      t.broker deviceId = s.broker deviceId := by
    intro deviceId hd
    obtain ⟨-, -, hbt⟩ | ⟨-, -, -, hbt⟩ := hanswer
    · rw [hbt, update_of_ne hd]
    · rw [hbt]
  refine ⟨hnodup, ?_, ?_, ?_, ?_, ?_, ?_, ?_⟩
  · rw [hclients, hstates]
    exact h.opened
  · intro entry he
    rw [hclients] at he
    by_cases hw : entry.1 = ws
    · rw [hw]
      exact .inl ⟨succeeded, hself⟩
    · rw [hother _ hw]
      exact h.staged entry he
  · intro ws' context' overtaken' hs'
    obtain ⟨hs', hd⟩ := hold _ _ _ hs'
    rw [hclients, hbrokerOther _ hd]
    exact h.pending _ _ _ hs'
  · intro ws₁ context₁ overtaken₁ ws₂ context₂ overtaken₂ hs₁ hs₂ hd
    exact h.unique _ _ _ _ _ _ (hold _ _ _ hs₁).1 (hold _ _ _ hs₂).1 hd
  · intro ws' succeeded' ho hs'
    rw [hclients]
    by_cases hw : ws' = ws
    · rw [hw]
      exact mem_map_of_mem hm
    · exact h.registered ws' succeeded' (hstates ▸ ho) ((hother ws' hw).symm.trans hs')
  · intro deviceId
    have hc := hcount deviceId
    have hr := h.refs deviceId
    by_cases hd : deviceId = context.deviceId
    · subst hd
      obtain ⟨rfl, hrt, -⟩ | ⟨rfl, hone, hrt, -⟩ := hanswer
      · simp only [beq_self_eq_true, Bool.and_true, Nat.add_right_cancel_iff] at hc
        rw [hrt, hc]
        exact hr
      · have hone' := (toRef_eq_some (hr.symm.trans hone)).1
        simp only [beq_self_eq_true, Bool.and_false, hone'] at hc
        rw [hrt, update_self, show t.tally context.deviceId = 0 by simpa using hc]
        rfl
    · have hd' : context.deviceId ≠ deviceId := Ne.symm hd
      simp only [beq_iff_eq, Bool.and_eq_true, hd', false_and, if_false, Nat.add_zero] at hc
      rw [hc, ← hr]
      obtain ⟨-, hrt, -⟩ | ⟨-, -, hrt, -⟩ := hanswer
      · rw [hrt]
      · rw [hrt, update_of_ne hd]
  · intro deviceId hf
    have hc := hcount deviceId
    by_cases hd : deviceId = context.deviceId
    · subst hd
      have hpos : 0 < s.tally context.deviceId :=
        h.tally_pos_of_inFlight ⟨ws, context, overtaken, hs, rfl⟩
      obtain ⟨rfl, -, hbt⟩ | ⟨rfl, hone, -, hbt⟩ := hanswer
      · simp only [beq_self_eq_true, Bool.and_true, Nat.add_right_cancel_iff] at hc
        rw [hbt, update_self, hc]
        exact iff_of_true rfl hpos
      · have hone' := (toRef_eq_some ((h.refs _).symm.trans hone)).1
        simp only [beq_self_eq_true, Bool.and_false, hone'] at hc
        rw [hbt, hb, show t.tally context.deviceId = 0 by simpa using hc]
        exact iff_of_false (by nofun) (by nofun)
    · have hd' : context.deviceId ≠ deviceId := Ne.symm hd
      simp only [beq_iff_eq, Bool.and_eq_true, hd', false_and, if_false, Nat.add_zero] at hc
      rw [hc, hbrokerOther _ hd]
      refine h.broker deviceId ?_
      rintro ⟨ws', context', overtaken', hs', rfl⟩
      have hw : ws' ≠ ws := by
        rintro rfl
        cases hs.symm.trans hs'
        exact hd rfl
      exact hf ⟨ws', context', overtaken', (hother ws' hw).trans hs', rfl⟩

theorem Tallied.tallyElsewhere_pos (h : Tallied s)
    (hs : s.stages ws' = .subscribing context overtaken) (hw : ws' ≠ ws) :
    0 < s.tallyElsewhere ws context.deviceId := by
  rw [Server.tallyElsewhere, countP_pos_iff]
  refine ⟨(ws', context), mem_filter.2 ⟨(h.pending _ _ _ hs).1, by simpa using hw⟩, ?_⟩
  simp [hs, Stage.holdsRef]

theorem Tallied.drop (h : Tallied s) (hm : (ws, context) ∈ s.clients)
    (ha : s.stages ws = .attached succeeded) (hclients : t.clients = s.clients.filter (·.1 != ws))
    (hstages : t.stages = s.stages)
    (hstates : ∀ ws', ws' ≠ ws → t.readyStates ws' = s.readyStates ws')
    (hgone : t.readyStates ws ≠ .open)
    (hrefs : ∀ deviceId, t.subscriptionRefs deviceId = toRef (s.tallyElsewhere ws deviceId))
    (hkept : ∀ deviceId, 0 < s.tallyElsewhere ws deviceId → t.broker deviceId = s.broker deviceId)
    (hended : ∀ deviceId, s.tallyElsewhere ws deviceId = 0 → t.broker deviceId = false) :
    Tallied t := by
  have hmem : ∀ entry, entry ∈ t.clients ↔ entry ∈ s.clients ∧ entry.1 ≠ ws := by
    intro entry
    rw [hclients, mem_filter, bne_iff_ne]
  have hws : ws ∉ t.clients.map Prod.fst := by
    intro hk
    obtain ⟨entry, he, hw⟩ := mem_map.1 hk
    exact ((hmem entry).1 he).2 hw
  have htally : ∀ deviceId, t.tally deviceId = s.tallyElsewhere ws deviceId := by
    intro deviceId
    rw [tally_of_not_mem hws]
    exact tallyElsewhere_congr (by simp [hclients]) (fun ws' _ => by rw [hstages]) deviceId
  have hother : ∀ ws' context' overtaken, t.stages ws' = .subscribing context' overtaken →
      s.stages ws' = .subscribing context' overtaken ∧ ws' ≠ ws := by
    intro ws' context' overtaken hs
    rw [hstages] at hs
    refine ⟨hs, ?_⟩
    rintro rfl
    cases ha.symm.trans hs
  refine ⟨?_, ?_, ?_, ?_, ?_, ?_, ?_, ?_⟩
  · rw [hclients]
    exact h.nodup.sublist (filter_sublist.map _)
  · intro entry he
    obtain ⟨he, hw⟩ := (hmem entry).1 he
    rw [hstates _ hw]
    exact h.opened entry he
  · intro entry he
    rw [hstages]
    exact h.staged entry ((hmem entry).1 he).1
  · intro ws' context' overtaken hs
    obtain ⟨hs, hw⟩ := hother _ _ _ hs
    obtain ⟨he, hover, hb⟩ := h.pending _ _ _ hs
    exact ⟨(hmem _).2 ⟨he, hw⟩, hover, (hkept _ (h.tallyElsewhere_pos hs hw)).trans hb⟩
  · intro ws₁ context₁ overtaken₁ ws₂ context₂ overtaken₂ hs₁ hs₂ hd
    exact h.unique _ _ _ _ _ _ (hother _ _ _ hs₁).1 (hother _ _ _ hs₂).1 hd
  · intro ws' succeeded' ho hs
    by_cases hw : ws' = ws
    · subst hw
      exact (hgone ho).elim
    · rw [hstages] at hs
      obtain ⟨entry, he, rfl⟩ :=
        mem_map.1 (h.registered ws' succeeded' ((hstates ws' hw).symm.trans ho) hs)
      exact mem_map_of_mem ((hmem entry).2 ⟨he, hw⟩)
  · intro deviceId
    rw [htally, hrefs]
  · intro deviceId hf
    rw [htally]
    by_cases hzero : s.tallyElsewhere ws deviceId = 0
    · rw [hended deviceId hzero, hzero]
      exact iff_of_false (by nofun) (by nofun)
    · have hpos : 0 < s.tallyElsewhere ws deviceId := Nat.pos_of_ne_zero hzero
      have hf' : ¬ s.InFlight deviceId := by
        rintro ⟨ws', context', overtaken, hs, hd⟩
        exact hf ⟨ws', context', overtaken, by rw [hstages, hs], hd⟩
      have htotal : 0 < s.tally deviceId := by
        rw [tally_of_mem h.nodup hm]
        omega
      rw [hkept deviceId hpos, h.broker deviceId hf']
      exact iff_of_true htotal hpos

end

/-- `unsubscribeFromDevice` for a socket that is counted. -/
theorem Tallied.unsubscribe (h : Tallied s) (hm : (ws, context) ∈ s.clients)
    (ha : s.stages ws = .attached true) :
    unsubscribeFromDevice s context.deviceId = { s with
      subscriptionRefs := update s.subscriptionRefs context.deviceId
        (toRef (s.tallyElsewhere ws context.deviceId))
      broker := if s.tallyElsewhere ws context.deviceId = 0
        then update s.broker context.deviceId false else s.broker } := by
  have htotal : s.tally context.deviceId = s.tallyElsewhere ws context.deviceId + 1 := by
    rw [tally_of_mem h.nodup hm, ha]
    simp [Stage.holdsRef]
  have href : s.subscriptionRefs context.deviceId =
      some (s.tallyElsewhere ws context.deviceId + 1) := by
    rw [h.refs, htotal]
    rfl
  simp only [unsubscribeFromDevice, href]
  by_cases hzero : s.tallyElsewhere ws context.deviceId = 0
  · -- nobody else is counted, so the end of the subscription overtakes no call
    have hover : (fun ws' => (s.stages ws').overtake context.deviceId) = s.stages := by
      funext ws'
      cases hs : s.stages ws' with
      | subscribing context' overtaken =>
        have hd : context'.deviceId ≠ context.deviceId := by
          intro hd
          have hpos : 0 < s.tallyElsewhere ws context'.deviceId := by
            refine h.tallyElsewhere_pos hs ?_
            rintro rfl
            cases ha.symm.trans hs
          rw [hd] at hpos
          omega
        simp [Stage.overtake, hd]
      | _ => rfl
    simp [hzero, hover, toRef]
  · have hlt : 1 < s.tallyElsewhere ws context.deviceId + 1 := by omega
    simp [hzero, hlt, toRef]

theorem client_eq_none (h : s.client ws = none) : ws ∉ s.clients.map Prod.fst := by
  intro hk
  obtain ⟨entry, he, rfl⟩ := mem_map.1 hk
  have hne := lookup_eq_none_iff.1 h entry he
  simp at hne

theorem Tallied.cleanupClient (h : Tallied s) (ha : s.stages ws = .attached succeeded)
    (hfailed : succeeded = false → ∀ context, s.client ws = some context →
      s.subscriptionRefs context.deviceId = none)
    (hstates : ∀ ws', ws' ≠ ws → readyStates ws' = s.readyStates ws')
    (hgone : readyStates ws ≠ .open) :
    Tallied { cleanupClient s ws with readyStates := readyStates } := by
  cases hclient : s.client ws with
  | none =>
    have hws : ws ∉ s.clients.map Prod.fst := client_eq_none hclient
    simp only [Gateway.cleanupClient, hclient, clearClientRoutes]
    refine h.outside hws (filter_ne_of_not_mem hws) rfl rfl (fun _ _ => rfl) hstates ?_
      (fun _ _ => hgone)
    rw [ha]
    nofun
  | some context =>
    have hm : (ws, context) ∈ s.clients := mem_of_client hclient
    cases succeeded with
    | false =>
      have hnone : s.subscriptionRefs context.deviceId = none := hfailed rfl context hclient
      have htotal : ∀ deviceId, s.tallyElsewhere ws deviceId = s.tally deviceId := by
        intro deviceId
        rw [tally_of_mem h.nodup hm, ha]
        simp [Stage.holdsRef]
      have hsame : unsubscribeFromDevice s context.deviceId = s := by
        simp only [unsubscribeFromDevice, hnone]
      simp only [Gateway.cleanupClient, hclient, hsame, clearClientRoutes]
      refine h.drop hm ha rfl rfl hstates hgone ?_ (fun _ _ => rfl) ?_
      · intro deviceId
        rw [htotal]
        exact h.refs deviceId
      · intro deviceId hzero
        exact (h.not_inFlight_of_zero ((htotal deviceId).symm.trans hzero)).2
    | true =>
      have htotal : ∀ deviceId, deviceId ≠ context.deviceId →
          s.tallyElsewhere ws deviceId = s.tally deviceId := by
        intro deviceId hd
        rw [tally_of_mem h.nodup hm]
        simp [Ne.symm hd]
      simp only [Gateway.cleanupClient, hclient, h.unsubscribe hm ha, clearClientRoutes]
      refine h.drop hm ha rfl rfl hstates hgone ?_ ?_ ?_
      · intro deviceId
        by_cases hd : deviceId = context.deviceId
        · subst hd
          exact update_self ..
        · rw [htotal deviceId hd, ← h.refs deviceId]
          exact update_of_ne hd ..
      · intro deviceId hpos
        simp only
        split
        case isTrue hzero =>
          have hd : deviceId ≠ context.deviceId := by
            rintro rfl
            omega
          exact update_of_ne hd ..
        case isFalse => rfl
      · intro deviceId hzero
        simp only
        by_cases hd : deviceId = context.deviceId
        · subst hd
          rw [if_pos hzero, update_self]
        · have hb : s.broker deviceId = false :=
            (h.not_inFlight_of_zero ((htotal deviceId hd).symm.trans hzero)).2
          split
          · rw [update_of_ne hd, hb]
          · exact hb

theorem Tallied.congr (h : Tallied s) (hclients : t.clients = s.clients)
    (hrefs : t.subscriptionRefs = s.subscriptionRefs) (hbroker : t.broker = s.broker)
    (hstages : t.stages = s.stages) (hstates : t.readyStates = s.readyStates) : Tallied t := by
  obtain ⟨⟩ := s
  obtain ⟨⟩ := t
  simp only at hclients hrefs hbroker hstages hstates
  subst hclients hrefs hbroker hstages hstates
  exact ⟨h.nodup, h.opened, h.staged, h.pending, h.unique, h.registered, h.refs, h.broker⟩

theorem isAttached_iff : s.isAttached ws = true ↔ ∃ succeeded, s.stages ws = .attached succeeded := by
  unfold Server.isAttached
  cases s.stages ws <;> simp

theorem Tallied.not_mem_of_stage (h : Tallied s) (ha : s.isAttached ws = false)
    (hs : ∀ context overtaken, s.stages ws ≠ .subscribing context overtaken) :
    ws ∉ s.clients.map Prod.fst := by
  intro hk
  obtain ⟨entry, he, rfl⟩ := mem_map.1 hk
  obtain hatt | ⟨overtaken, hsub⟩ := h.staged entry he
  · rw [isAttached_iff.2 hatt] at ha
    cases ha
  · exact hs _ _ hsub

theorem closeSocket_eq (s : Server Token) (ws : Socket) (reason : String) :
    ∃ readyStates, (closeSocket s ws reason).1 = { s with readyStates := readyStates } ∧
      (∀ ws', ws' ≠ ws → readyStates ws' = s.readyStates ws') ∧ readyStates ws ≠ .open := by
  unfold closeSocket
  split
  · refine ⟨_, rfl, fun ws' hw => update_of_ne hw .., ?_⟩
    rw [update_self]
    nofun
  · exact ⟨_, rfl, fun _ _ => rfl, by assumption⟩

theorem Tallied.refuse (h : Tallied s) (hws : ws ∉ s.clients.map Prod.fst) (reason : String) :
    Tallied (closeSocket (s.setStage ws .refused) ws reason).1 := by
  obtain ⟨readyStates, he, hstates, hgone⟩ := closeSocket_eq (s.setStage ws .refused) ws reason
  rw [he]
  refine h.outside hws rfl rfl rfl (fun ws' hw => update_of_ne hw ..) hstates ?_
    (fun _ _ => hgone)
  simp [Server.setStage]

theorem Tallied.subscribeClient (h : Tallied s) (hws : ws ∉ s.clients.map Prod.fst)
    (hopen : s.readyStates ws = .open) (context : ClientContext) (stamp : Stamp) :
    Tallied (subscribeClient s ws context stamp).1 := by
  have hcount : (s.subscriptionRefs context.deviceId).getD 0 = s.tally context.deviceId := by
    rw [h.refs, toRef_getD]
  simp only [Gateway.subscribeClient, hcount]
  split
  case isTrue hlt =>
    have hstage : (Stage.attached true : Stage Token).holdsRef = true := rfl
    rw [welcome_eq]
    exact h.join hws hopen hstage (.inl ⟨rfl, by omega⟩) rfl rfl
      (update_self ..) (fun ws' hw => update_of_ne hw ..) rfl rfl
  case isFalse hlt =>
    have hstage : (Stage.subscribing context false : Stage Token).holdsRef = true := rfl
    exact h.join hws hopen hstage (.inr ⟨rfl, by omega⟩) rfl rfl
      (update_self ..) (fun ws' hw => update_of_ne hw ..) rfl rfl

theorem Tallied.message (h : Tallied s) (ha : s.stages ws = .attached succeeded)
    (hfailed : breaksLimit config s ws data nowMs = true → succeeded = false →
      ∀ context, s.client ws = some context → s.subscriptionRefs context.deviceId = none) :
    Tallied (message config s ws data nowMs stamp).1 := by
  obtain ⟨limiter, ⟨reason, hbreaks, he⟩ | ⟨requests, crashed, he⟩⟩ :=
    message_state config s ws data nowMs stamp
  · have hs : Tallied (s.setLimiter ws limiter) := h.congr rfl rfl rfl rfl rfl
    obtain ⟨readyStates, hclose, hstates, hgone⟩ :=
      closeSocket_eq (Gateway.cleanupClient (s.setLimiter ws limiter) ws) ws reason
    rw [cleanupClient_states] at hstates
    rw [he, closeForRateLimit, hclose]
    exact hs.cleanupClient ha (hfailed hbreaks) hstates hgone
  · rw [he]
    exact h.congr rfl rfl rfl rfl rfl

theorem Tallied.mqttMessage (h : Tallied s) (topic : String) (payload : Option Json) :
    Tallied (mqttMessage s topic payload).1 := by
  obtain ⟨statuses, sessions, he⟩ := mqttMessage_state s topic payload
  rw [he]
  exact h.congr rfl rfl rfl rfl rfl

theorem cleanupClient_setReadyState (s : Server Token) (ws : Socket) (state : ReadyState) :
    Gateway.cleanupClient (s.setReadyState ws state) ws = { Gateway.cleanupClient s ws with
        readyStates := update s.readyStates ws state } := by
  have hclient : (s.setReadyState ws state).client ws = s.client ws := rfl
  simp only [Gateway.cleanupClient, hclient]
  cases s.client ws with
  | none => rfl
  | some context =>
    simp only [unsubscribeFromDevice, Server.setReadyState]
    cases s.subscriptionRefs context.deviceId with
    | none => rfl
    | some count =>
      simp only
      split <;> rfl

theorem Tallied.gone (h : Tallied s) (ha : s.stages ws = .attached succeeded)
    (hfailed : succeeded = false → ∀ context, s.client ws = some context →
      s.subscriptionRefs context.deviceId = none) (hstate : state ≠ .open) :
    Tallied (Gateway.cleanupClient (s.setReadyState ws state) ws) := by
  rw [cleanupClient_setReadyState]
  refine h.cleanupClient ha hfailed (fun ws' hw => update_of_ne hw ..) ?_
  rwa [update_self]

theorem Tallied.step (h : Tallied s) (he : Enabled s event)
    (ho : Orderly jwt config s event) (hc : (after jwt config s event).crashed = false) :
    Tallied (after jwt config s event) := by
  obtain ⟨hfailed, ho⟩ := ho
  cases event with
  | connection ws token requested =>
    have habsent : s.readyStates ws = .absent := he.2
    have hws : ws ∉ s.clients.map Prod.fst := by
      intro hk
      obtain ⟨entry, hm, rfl⟩ := mem_map.1 hk
      cases habsent.symm.trans (h.opened entry hm)
    cases token with
    | none =>
      obtain ⟨readyStates, hclose, hstates, hgone⟩ := closeSocket_eq
        ((s.setReadyState ws .open).setStage ws .refused) ws "missing gateway access token"
      simp only [after, handle, connection, hclose]
      refine h.outside hws rfl rfl rfl (fun ws' hw => update_of_ne hw ..) ?_ ?_
        (fun _ _ => hgone)
      · intro ws' hw
        exact (hstates ws' hw).trans (update_of_ne hw ..)
      · simp [Server.setStage]
    | some token =>
      refine h.outside hws rfl rfl rfl (fun ws' hw => update_of_ne hw ..)
        (fun ws' hw => update_of_ne hw ..) ?_ ?_
      all_goals simp [after, handle, connection, Server.setStage]
  | verified ws token requested stamp =>
    have hstage : s.stages ws = .verifying token requested := he.2
    have hws : ws ∉ s.clients.map Prod.fst := by
      refine h.not_mem_of_stage (by simp [Server.isAttached, hstage]) ?_
      rw [hstage]
      rintro _ _ ⟨⟩
    simp only [after, handle, verified]
    split
    · exact h.refuse hws _
    case h_2 context hconn =>
      split
      · exact h.refuse hws _
      case isFalse hany =>
        exact h.subscribeClient hws (ho context hconn (eq_false_of_ne_true hany)) context stamp
  | subscribed ws context overtaken error stamp =>
    have hs : s.stages ws = .subscribing context overtaken := he.2
    obtain ⟨-, rfl, -⟩ := h.pending ws context overtaken hs
    cases error with
    | none =>
      simp only [after, handle, subscribed, welcome_eq]
      exact h.settle hs (update_self ..) (fun ws' hw => update_of_ne hw ..) rfl
        rfl (.inl ⟨rfl, rfl, rfl⟩)
    | some message =>
      exact h.settle hs (update_self ..) (fun ws' hw => update_of_ne hw ..) rfl
        rfl (.inr ⟨rfl, ho, rfl, rfl⟩)
  | message ws data nowMs stamp =>
    simp only [after, handle]
    split
    case isTrue hatt =>
      obtain ⟨succeeded, ha⟩ := isAttached_iff.1 hatt
      refine h.message ha ?_
      rintro hbreaks rfl context hclient
      exact hfailed ws context (by simp [leaving, hatt, hbreaks]) ha hclient
    case isFalse => exact h
  | close ws =>
    simp only [after, handle]
    cases hatt : s.isAttached ws with
    | true =>
      rw [if_pos (by exact hatt)]
      obtain ⟨succeeded, ha⟩ := isAttached_iff.1 hatt
      refine h.gone ha ?_ (by rintro ⟨⟩)
      rintro rfl context hclient
      exact hfailed ws context (by simp [leaving, hatt]) ha hclient
    | false =>
      have hne : ¬ (s.setReadyState ws .closed).isAttached ws = true := by
        rw [show (s.setReadyState ws .closed).isAttached ws = s.isAttached ws from rfl, hatt]
        rintro ⟨⟩
      rw [if_neg hne]
      refine h.outside (h.not_mem_of_stage hatt ho) rfl rfl rfl (fun _ _ => rfl)
        (fun ws' hw => update_of_ne hw ..) ho ?_
      intro succeeded ha
      exact absurd (isAttached_iff.2 ⟨succeeded, ha⟩) hne
  | error ws =>
    simp only [after, handle] at hc ⊢
    split
    case isTrue hatt =>
      obtain ⟨succeeded, ha⟩ := isAttached_iff.1 hatt
      refine h.gone ha ?_ (by rintro ⟨⟩)
      rintro rfl context hclient
      exact hfailed ws context (by rw [leaving, if_pos (by exact hatt)]) ha hclient
    case isFalse hatt =>
      rw [if_neg hatt] at hc
      cases hc
  | mqtt topic payload => exact h.mqttMessage topic payload

/-- In every run whose steps are orderly, the subscriptions agree with the clients in every
state. -/
theorem refCounted_of_orderly {jwt : Jwt Token} (h : (system jwt config).Run .initial tr s)
    (horderly : ∀ p ∈ tr, Orderly jwt config p.1 p.2) :
    ∀ t ∈ states tr s, t.crashed = false → RefCounted t := by
  intro t ht hc
  have hall : ∀ t ∈ states tr s, t.crashed = false → Tallied t := by
    refine h.forall_states (fun _ => tallied_initial) ?_
    rintro p hp hI u ⟨he, rfl⟩ hu
    exact (hI he.1).step he (horderly p hp) hu
  exact (hall t ht hc).refCounted

end

def orderlyRun : List (Event DeviceGatewayAccessTokenPayload) :=
  joinFirst 0 "d1" "u1" ++ [.connection 1 (some (sampleToken "d1" "u2")) none,
    .verified 1 (sampleToken "d1" "u2") none sampleStamp, .close 0,
    .connection 2 (some (sampleToken "d2" "u1")) none,
    .verified 2 (sampleToken "d2" "u1") none sampleStamp,
    .subscribed 2 (sampleContext "d2" "u1") false (some "refused") sampleStamp, .close 2]

theorem orderlyRun_orderly : ∀ p ∈ (sampled orderlyRun).1,
      Enabled p.1 p.2 ∧ Orderly plainJwt sampleConfig p.1 p.2 := by
  simp only [sampled, orderlyRun, joinFirst, cons_append, nil_append, replay,
    forall_mem_cons, not_mem_nil, false_imp_iff, implies_true, and_true]
  refine ⟨⟨⟨rfl, rfl⟩, by rintro _ _ ⟨⟩, trivial⟩, ⟨⟨rfl, rfl⟩, by rintro _ _ ⟨⟩, fun _ _ _ => rfl⟩,
    ⟨⟨rfl, rfl⟩, by rintro _ _ ⟨⟩, trivial⟩, ⟨⟨rfl, rfl⟩, by rintro _ _ ⟨⟩, trivial⟩,
    ⟨⟨rfl, rfl⟩, by rintro _ _ ⟨⟩, fun _ _ _ => rfl⟩, ⟨⟨rfl, .inl rfl⟩, ?_, by rintro _ _ ⟨⟩⟩,
    ⟨⟨rfl, rfl⟩, by rintro _ _ ⟨⟩, trivial⟩, ⟨⟨rfl, rfl⟩, by rintro _ _ ⟨⟩, fun _ _ _ => rfl⟩,
    ⟨⟨rfl, rfl⟩, by rintro _ _ ⟨⟩, rfl⟩, ⟨⟨rfl, .inl rfl⟩, ?_, by rintro _ _ ⟨⟩⟩⟩
  · intro ws context hl
    obtain rfl : 0 = ws := Option.some.inj hl
    rintro ⟨⟩
  · intro ws context hl _ hc
    obtain rfl : 2 = ws := Option.some.inj hl
    obtain rfl : sampleContext "d2" "u1" = context := Option.some.inj hc
    rfl

theorem refCounted_of_orderly_three_clients :
    ∃ tr s, (system plainJwt sampleConfig).Run .initial tr s ∧
      (∀ p ∈ tr, Orderly plainJwt sampleConfig p.1 p.2) ∧ s.subscriptionRefs "d1" = some 1 ∧
      ∀ t ∈ states tr s, t.crashed = false → RefCounted t := by
  have hrun := sampled_run fun p hp => (orderlyRun_orderly p hp).1
  have ho := fun p hp => (orderlyRun_orderly p hp).2
  exact ⟨_, _, hrun, ho, rfl, refCounted_of_orderly hrun ho⟩

def leak : List (Event DeviceGatewayAccessTokenPayload) :=
  [.connection 0 (some (sampleToken "d1" "u1")) none,
   .verified 0 (sampleToken "d1" "u1") none sampleStamp,
   .close 0,
   .subscribed 0 (sampleContext "d1" "u1") false none sampleStamp]

/-- The closed socket stays registered, counted and subscribed. -/
theorem leak_not_refCounted :
    ∃ tr s, (system plainJwt sampleConfig).Run .initial tr s ∧ s.crashed = false ∧
      (∀ deviceId, ¬ s.InFlight deviceId) ∧ s.clients.map Prod.fst = [0] ∧
      s.readyStates 0 = .closed ∧ s.subscriptionRefs "d1" = some 1 ∧ s.subscribers "d1" = 0 ∧
      s.broker "d1" = true ∧ ¬ RefCounted s := by
  have henabled : ∀ p ∈ (sampled leak).1, Enabled p.1 p.2 := by
    simp only [sampled, leak, replay, forall_mem_cons, not_mem_nil, false_imp_iff, implies_true, and_true]
    exact ⟨⟨rfl, rfl⟩, ⟨rfl, rfl⟩, ⟨rfl, .inl rfl⟩, ⟨rfl, rfl⟩⟩
  refine ⟨_, _, sampled_run henabled, rfl, ?_, rfl, rfl, rfl, rfl, rfl, ?_⟩
  · rintro deviceId ⟨ws, context, overtaken, hs, -⟩
    cases ws with
    | zero => cases hs
    | succ n => cases hs
  · intro h
    exact h.notClosed (0, sampleContext "d1" "u1") (mem_singleton_self _) rfl

end Trakrai.Gateway
