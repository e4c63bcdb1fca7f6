import Trakrai.Workflow.Branches

namespace Trakrai.Workflow
open List Lib

/-- The sources whose completion signals have reached the node and that it has still to examine. -/
def Task.atHand : Task → String → Prop
  | .racing race _, source => source ∈ race.pending ∧ (race.settled.lookup source).isSome = true
  | .racedEvents race current _, source =>
    source = current ∨ source ∈ race.pending ∧ (race.settled.lookup source).isSome = true
  | _, _ => False

/-- The source that the loop has taken and not yet examined. -/
def Task.taken : Task → Option String
  | .racing _ (some (source, .source)) => some source
  | .racedEvents _ source _ => some source
  | _ => none

namespace Automation
variable {w : Automation} {node : Node} {s t : State} {m : Move} {dep : DependencyInfo}
  {source : String}

/-- The source has completed, the events that the node reads of it have been sent, and all the
dependencies on it pass with what was sent. -/
structure Satisfied (w : Automation) (node : Node) (source : String) (s : State) : Prop where
  mem : source ∈ w.dependencyMap.sources node.id
  sent : s.sent (w.completionName source) = true
  events : ∀ wait ∈ eventDependencies (w.dependenciesOn node source),
    s.sent (w.eventName wait.1.sourceNodeId wait.2) = true
  passes : ∀ dep ∈ w.dependenciesOn node source, w.Certain dep s (.ok false)

/-- The events of the sources at hand have been sent. -/
def Prompt (w : Automation) (node : Node) (s : State) : Prop :=
  ∀ source, (s.tasks node.id).atHand source →
    ∀ wait ∈ eventDependencies (w.dependenciesOn node source),
      s.sent (w.eventName wait.1.sourceNodeId wait.2) = true

/-- The node comes to the call of its handler by its own steps, with the signals that are there. -/
def Proceeds (w : Automation) (node : Node) (s : State) : Prop :=
  ∃ tr t, w.system.Run s tr t ∧ (∀ p ∈ tr, ∃ m, p.2 = .task node m) ∧
    ∃ input, (node.id, input) ∈ t.calls

/-- The keys of the events that a node reads are its own: none is an id that it reads, and no two
events have the same one. -/
structure OwnKeys (w : Automation) (node : Node) : Prop where
  ids : ∀ wait ∈ eventDependencies (w.dependencies node),
    ∀ id ∈ node.id :: w.dependencyMap.sources node.id,
      buildNodeEventId wait.1.sourceNodeId wait.2 ≠ id
  events : ∀ wait ∈ eventDependencies (w.dependencies node),
    ∀ other ∈ eventDependencies (w.dependencies node), buildNodeEventId wait.1.sourceNodeId wait.2 =
        buildNodeEventId other.1.sourceNodeId other.2 →
      wait.1.sourceNodeId = other.1.sourceNodeId ∧ wait.2 = other.2

theorem Satisfied.not_refuted (h : w.Satisfied node source s) : ¬ w.Refuted node source s := by
  intro hrefuted
  obtain ⟨dep, hdep, hfound⟩ := hrefuted
  cases (h.passes dep hdep).eq_of_found hfound

theorem Satisfied.frame (h : w.Satisfied node source s) (hg : w.Grows node s t)
    (hlives : w.Lives node s) (hw : w.Runnable) (hnode : node ∈ w.nodes)
    (hsignals : t.signals = s.signals) : w.Satisfied node source t := by
  constructor
  · exact h.mem
  · exact hg.sent h.sent
  · intro wait hwait
    exact hg.sent (h.events wait hwait)
  · intro dep hdep
    have hpasses := h.passes dep hdep
    obtain ⟨hmem, hid⟩ := mem_dependenciesOn.1 hdep
    rw [Certain] at hpasses ⊢
    cases hevent : isEventHandle dep.sourceHandle with
    | none =>
      simp only [hevent] at hpasses ⊢
      rw [← hpasses]
      exact checkDependencyFailure_congr hevent (hg.get_source hlives hw hnode hmem (hid ▸ h.sent))
    | some event =>
      simp only [hevent] at hpasses ⊢
      rw [hsignals]
      exact hpasses

theorem View.stored_mem (h : w.View node s)
    (hstored : storedEvent s (.task node m) = some (source, event)) :
    ∃ wait ∈ eventDependencies (w.dependencies node),
      wait.1.sourceNodeId = source ∧ wait.2 = event := by
  have htask := h.task
  cases m with
  | advance | completion | settle => cases hstored
  | event index signal =>
    obtain ⟨waits, hwaits, hstored⟩ := Option.bind_eq_some_iff.1 hstored
    obtain ⟨wait, hwait, heq⟩ := Option.map_eq_some_iff.1 hstored
    cases heq
    refine ⟨wait, ?_, rfl, rfl⟩
    cases htask' : s.tasks node.id with
    | events pending =>
      rw [htask'] at htask hwaits
      cases hwaits
      exact htask.2.2.2.sub (List.mem_of_getElem? hwait)
    | racedEvents race current pending =>
      rw [htask'] at htask hwaits
      cases hwaits
      obtain ⟨hdep, hhandle⟩ := mem_eventDependencies.1
        (htask.2.2.2.2.sub (List.mem_of_getElem? hwait))
      exact mem_eventDependencies.2 ⟨dependenciesOn_subset hdep, hhandle⟩
    | _ => simp [htask', Task.eventWaits] at hwaits

theorem OwnKeys.apart (h : w.OwnKeys node) (hview : w.View node s) :
    w.Apart node s (.task node m) := by
  constructor
  · intro id hid source event hstored
    obtain ⟨wait, hwait, rfl, rfl⟩ := hview.stored_mem hstored
    exact h.ids wait hwait id hid
  · intro other m' heq wait hwait
    cases heq
    exact Ne.symm (h.ids wait hwait _ (mem_cons_self ..))
  · intro source event hstored wait hwait hkey
    obtain ⟨own, hown, rfl, rfl⟩ := hview.stored_mem hstored
    exact h.events own hown wait hwait hkey

theorem Proceeds.cons (h : w.Proceeds node t) (hs : w.system.step s (.task node m) t) :
    w.Proceeds node s := by
  obtain ⟨tr, u, hrun, hown, hcalled⟩ := h
  exact ⟨_, u, .cons hs hrun, forall_mem_cons.2 ⟨⟨m, rfl⟩, hown⟩, hcalled⟩

theorem proceeds_of_ready {dependencies : List DependencyInfo} (hw : w.Runnable)
    (hnode : node ∈ w.nodes) (htask : s.tasks node.id = .ready dependencies) :
    w.Proceeds node s := by
  let called := (s.call node.id (executeNode s.get w.registry node dependencies).1).setTask node.id
    (.ran (executeNode s.get w.registry node dependencies).2)
  have hstep : w.system.step s (.task node .advance) called := by
    refine ⟨hnode, ?_⟩
    simp only [move, advance, htask]
    rfl
  have hcalled : (node.id, buildNodeInput s.get node dependencies) ∈ called.calls := by
    simp only [called, executeNode_input (hw.accepted.resolves node hnode)]
    simp [State.setTask, State.call]
  exact Proceeds.cons ⟨[], called, .nil _, by rintro _ ⟨⟩, _, hcalled⟩ hstep

theorem proceeds_of_merging (hw : w.Runnable) (hnode : node ∈ w.nodes)
    (htask : s.tasks node.id = .merging source) : w.Proceeds node s := by
  let merged := (s.send (w.mergeName node.id) (.obj [("sourceNodeId", .str source)])).setTask node.id
    (.ready (w.dependenciesOn node source))
  have hstep : w.system.step s (.task node .advance) merged := by
    refine ⟨hnode, ?_⟩
    simp only [move, advance, htask]
    rfl
  exact Proceeds.cons (proceeds_of_ready hw hnode State.tasks_setTask) hstep

theorem Prompt.of_subset (h : w.Prompt node s) (hsignals : t.signals = s.signals)
    (hsub : ∀ other, (t.tasks node.id).atHand other → (s.tasks node.id).atHand other) :
    w.Prompt node t := by
  intro other hother wait hwait
  have hsent := h other (hsub other hother) wait hwait
  rwa [State.sent, ← hsignals] at hsent

/-- A step on the way to the call: it needs no new signal and leaves the events where they are. -/
def GoesOn (w : Automation) (node : Node) (s : State) : Prop :=
  ∃ m t, w.move node m s = some t ∧ t.signals = s.signals ∧ w.Prompt node t

section
variable (h : w.View node s) (hw : w.Runnable) (hnode : node ∈ w.nodes)
  (hreadable : w.Readable node s) (hprompt : w.Prompt node s)
  (hsatisfied : w.Satisfied node source s)
include h hprompt hsatisfied

/-- At the race the node settles the satisfied source, unless another one has won. -/
theorem goesOn_racing {next} (heq : s.tasks node.id = .racing race next) : w.GoesOn node s := by
  have htask := h.task
  rw [heq] at htask
  obtain ⟨_, hracing, hwinner, hnone⟩ := htask
  cases next with
  | none =>
    have hpending : source ∈ race.pending := by
      rcases hracing.examined source hsatisfied.mem with hpending | hcurrent | hrefuted
      · exact hpending
      · cases hcurrent
      · exact absurd hrefuted hsatisfied.not_refuted
    refine ⟨_, _, move_settle heq hsatisfied.mem hpending hsatisfied.sent
      ((hnone rfl).2 source hpending), rfl, ?_⟩
    intro other hother
    rw [State.tasks_setTask] at hother
    obtain ⟨hpending', hsettled⟩ := hother
    by_cases hid : other = source
    · rw [hid]
      exact hsatisfied.events
    · apply hprompt other
      rw [heq]
      refine ⟨hpending', ?_⟩
      rwa [lookup_append, lookup_cons, beq_eq_false_iff_ne.2 hid, lookup_nil,
        Option.or_none] at hsettled
  | some winner =>
    obtain ⟨taken, kind⟩ := winner
    obtain ⟨hsettled, hpending⟩ := hwinner _ rfl
    obtain ⟨rfl, _⟩ := hracing.settled _ hsettled
    have hmove : w.move node .advance s = some (s.setTask node.id
        (.racedEvents { race with pending := race.pending.erase taken } taken
          (eventDependencies (w.dependenciesOn node taken)))) := by
      simp only [move, advance, heq]
    refine ⟨_, _, hmove, rfl, hprompt.of_subset rfl ?_⟩
    intro other hother
    rw [State.tasks_setTask] at hother
    rw [heq]
    rcases hother with rfl | ⟨hother, hlookup⟩
    · refine ⟨hpending, ?_⟩
      rw [lookup_isSome_iff]
      exact ⟨_, hsettled, beq_self_eq_true _⟩
    · exact ⟨mem_of_mem_erase hother, hlookup⟩

include hw hnode hreadable

theorem goesOn_racedEvents (heq : s.tasks node.id = .racedEvents race current pending): w.GoesOn node s := by
  have htask := h.task
  rw [heq] at htask
  obtain ⟨hidle, hracing, hsource, hsent, hreceived⟩ := htask
  cases pending with
  | cons wait pending =>
    have hwait := hprompt current (by rw [heq]; exact .inl rfl) wait
      (hreceived.sub (mem_cons_self ..))
    have hwaits : Task.eventWaits (s.tasks node.id) =
        some (wait :: pending, .racedEvents race current) := by
      rw [heq]
      rfl
    obtain ⟨signal, data, hmove⟩ := move_event hwaits hwait
    refine ⟨_, _, hmove, rfl, hprompt.of_subset rfl ?_⟩
    intro other hother
    rw [State.tasks_setTask] at hother
    rw [heq]
    exact hother
  | nil =>
    cases hcheck : hasDependencyFailure s.get (w.dependenciesOn node current) with
    | error message =>
      obtain ⟨dep, hdep, hcheck⟩ := exists_of_hasDependencyFailure hcheck nofun
      obtain ⟨hmem, hid⟩ := mem_dependenciesOn.1 hdep
      exact absurd (hreceived.found hdep (hid ▸ hsent) hcheck)
        (h.lives.not_error hw hnode hreadable hmem)
    | ok failed =>
      cases failed with
      | false =>
        have hmove : w.move node .advance s = some (s.setTask node.id (.merging current)) := by
          simp only [move, advance, heq, hcheck]
        refine ⟨_, _, hmove, rfl, hprompt.of_subset rfl ?_⟩
        intro other hother
        rw [State.tasks_setTask] at hother
        exact hother.elim
      | true =>
        have hracing := hracing.refute (hreceived.refuted hsent hcheck)
        have hne : race.pending ≠ [] := by
          intro hempty
          rcases hracing.examined source hsatisfied.mem with hpending | hnone | hrefuted
          · rw [hempty] at hpending
            cases hpending
          · cases hnone
          · exact hsatisfied.not_refuted hrefuted
        have hmove : w.move node .advance s = some (s.nextRace node.id race) := by
          simp only [move, advance, heq, hcheck]
        rw [State.nextRace, if_neg hne] at hmove
        refine ⟨_, _, hmove, rfl, hprompt.of_subset rfl ?_⟩
        intro other hother
        rw [State.tasks_setTask] at hother
        rw [heq]
        exact .inr hother

theorem proceeds_or_goesOn (hmode : w.getDependencyModeForNode node = .any) :
    w.Proceeds node s ∨ w.GoesOn node s := by
  have hcalled (hcalled : w.Called node s) : w.Proceeds node s :=
    ⟨[], s, .nil s, by rintro _ ⟨⟩, mem_callsOf.1 hcalled.callsOf_ne⟩
  have htask := h.task
  cases heq : s.tasks node.id with
  | merging => exact .inl (proceeds_of_merging hw hnode heq)
  | ready => exact .inl (proceeds_of_ready hw hnode heq)
  | ran =>
    rw [heq] at htask
    exact .inl (hcalled htask)
  | announcing | done =>
    rw [heq] at htask
    rcases htask with hcalled' | hskipped
    · exact .inl (hcalled hcalled')
    · have hrefused := hskipped.refused
      rw [Refused, hmode] at hrefused
      exact absurd (hrefused.2 source hsatisfied.mem) hsatisfied.not_refuted
  | completions | events =>
    rw [heq] at htask
    cases htask.2.1.symm.trans hmode
  | rejected =>
    rw [heq] at htask
    obtain ⟨_, dep, hdep, hfound⟩ := htask
    exact absurd hfound (h.lives.not_error hw hnode hreadable hdep)
  | started =>
    right
    refine ⟨.advance, s.setTask node.id (w.begin node), by simp [move, advance, heq], rfl, ?_⟩
    intro other hother
    rw [State.tasks_setTask, Automation.begin] at hother
    split at hother
    · exact hother.elim
    · rw [hmode] at hother
      cases hother.2
  | racing => exact .inr (goesOn_racing h hprompt hsatisfied heq)
  | racedEvents => exact .inr (goesOn_racedEvents h hw hnode hreadable hprompt hsatisfied heq)

end

theorem proceeds_of_prompt (h : w.View node s) (hw : w.Runnable) (hnode : node ∈ w.nodes)
    (hmode : w.getDependencyModeForNode node = .any) (hkeys : w.OwnKeys node)
    (hreadable : w.Readable node s) (hprompt : w.Prompt node s)
    (hsatisfied : w.Satisfied node source s) : w.Proceeds node s := by
  induction hwork : w.work node (s.tasks node.id) using Nat.strong_induction_on generalizing s with
  | _ k ih =>
    rcases proceeds_or_goesOn h hw hnode hreadable hprompt hsatisfied hmode with hproceeds | hgoesOn
    · exact hproceeds
    · obtain ⟨m, t, hmove, hsignals, hprompt'⟩ := hgoesOn
      have hstep : w.system.step s (.task node m) t := ⟨hnode, hmove⟩
      have hapart : w.Apart node s (.task node m) := hkeys.apart h
      have hlt := h.task.work_lt (moved_of_move hmove)
      have hreadable' : w.Readable node t := by
        rw [Readable, hsignals]
        exact hreadable
      have hsatisfied' := hsatisfied.frame (h.lives.grows hstep hapart) h.lives hw hnode hsignals
      exact (ih _ (hwork ▸ hlt) (h.step hw hnode hstep hapart) hreadable' hprompt' hsatisfied' rfl).cons hstep

structure WaitsOn (w : Automation) (node : Node) (wait : DependencyInfo × String) (s : State) :
    Prop where
  unsent : s.sent (w.eventName wait.1.sourceNodeId wait.2) = false
  calls : s.callsOf node.id = []
  task : (∃ race source, s.tasks node.id = .racing race (some (source, .source)) ∧
      wait ∈ eventDependencies (w.dependenciesOn node source)) ∨
    ∃ race source pending, s.tasks node.id = .racedEvents race source pending ∧ wait ∈ pending

theorem WaitsOn.of_taken (h : w.View node s) (htaken : (s.tasks node.id).taken = some source)
    (hwait : wait ∈ eventDependencies (w.dependenciesOn node source))
    (hunsent : s.sent (w.eventName wait.1.sourceNodeId wait.2) = false) :
    w.WaitsOn node wait s := by
  have htask := h.task
  cases heq : s.tasks node.id with
  | racing race next =>
    rw [heq] at htask htaken
    cases next with
    | none => cases htaken
    | some winner =>
      obtain ⟨other, kind⟩ := winner
      cases kind with
      | merge => cases htaken
      | source =>
        obtain rfl := Option.some.inj htaken
        exact ⟨hunsent, htask.1.calls, .inl ⟨race, other, heq, hwait⟩⟩
  | racedEvents race current pending =>
    rw [heq] at htask htaken
    obtain rfl := Option.some.inj htaken
    obtain ⟨hidle, _, _, _, hreceived⟩ := htask
    refine ⟨hunsent, hidle.calls, .inr ⟨race, current, pending, heq, ?_⟩⟩
    rcases hreceived.delivered wait hwait with hpending | ⟨data, hdata, _⟩
    · exact hpending
    · rw [State.sent_iff.2 ⟨data, hdata⟩] at hunsent
      cases hunsent
  | _ =>
    rw [heq] at htaken
    cases htaken

theorem WaitsOn.moved (h : w.WaitsOn node wait s) (hm : Moved w node s m t): w.WaitsOn node wait t := by
  rcases h.task with ⟨race, source, heq, hwait⟩ | ⟨race, source, pending, heq, hwait⟩
  · cases hm with
    | @settle race' next other kind heq' _ _ _ =>
      rw [heq] at heq'
      cases heq'
      exact ⟨h.unsent, h.calls, .inl ⟨_, source, State.tasks_setTask, hwait⟩⟩
    | take heq' =>
      rw [heq] at heq'
      cases heq'
      exact ⟨h.unsent, h.calls, .inr ⟨_, source, _, State.tasks_setTask, hwait⟩⟩
    | event hwaits _ _ =>
      rw [heq] at hwaits
      cases hwaits
    | begin heq' | completion heq' _ _ | resume heq' | reject heq' _ | skip heq' _ | pass heq' _
    | settleRaced heq' _ _ _ | lose heq' | rejectRaced heq' _ | exhaust heq' _ _ | next heq' _ _
    | choose heq' _ | merge heq' | execute heq' | record heq' | announce heq' =>
      rw [heq] at heq'
      cases heq'
  · cases hm with
    | @settleRaced race' current other pending' kind heq' _ _ _ =>
      rw [heq] at heq'
      cases heq'
      exact ⟨h.unsent, h.calls, .inr ⟨_, source, pending, State.tasks_setTask, hwait⟩⟩
    | @event pending' task index signal dep event data hwaits hdep hdata =>
      rw [heq] at hwaits
      cases hwaits
      refine ⟨h.unsent, h.calls, .inr ⟨race, source, _, State.tasks_setTask, ?_⟩⟩
      rcases mem_or_getElem?_of_mem hwait index with hmem | hindex
      · exact hmem
      · obtain rfl := Option.some.inj (hdep.symm.trans hindex)
        have hsent := State.sent_iff.2 ⟨data, hdata⟩
        rw [h.unsent] at hsent
        cases hsent
    | rejectRaced heq' _ | exhaust heq' _ _ | next heq' _ _ | choose heq' _ =>
      rw [heq] at heq'
      cases heq'
      cases hwait
    | begin heq' | completion heq' _ _ | resume heq' | reject heq' _ | skip heq' _ | pass heq' _
    | settle heq' _ _ _ | lose heq' | take heq' | merge heq' | execute heq' | record heq'
    | announce heq' =>
      rw [heq] at heq'
      cases heq'

theorem WaitsOn.not_proceeds (h : w.WaitsOn node wait s) : ¬ w.Proceeds node s := by
  intro hproceeds
  obtain ⟨tr, t, hrun, hown, hcalled⟩ := hproceeds
  have hall : ∀ u ∈ states tr t, w.WaitsOn node wait u := by
    apply hrun.forall_states h
    intro p hp hwaits u hu
    obtain ⟨m, hm⟩ := hown p hp
    rw [hm] at hu
    exact hwaits.moved (moved_of_move hu.2)
  exact mem_callsOf.2 hcalled (hall t (end_mem_states ..)).calls

/-- When a branch of a node is satisfied, the node goes on to its execution if the events of the
sources at hand are there, and does not if the source that the loop has taken lacks one. -/
theorem proceeds_when_prompt {asyncNodeTypes : List String}
    {asyncDependencyMap : List (String × List String)}
    (hvalid : validateWorkflow w.nodes w.edges w.registry asyncNodeTypes =
      .ok (.valid w.dependencyMap asyncDependencyMap)) (hnames : w.DistinctSignals)
    (hnode : node ∈ w.nodes) (hmode : w.getDependencyModeForNode node = .any)
    (hkeys : w.OwnKeys node) {tr : List (State × Action)} (hrun : w.system.Run initial tr s)
    (hapart : ∀ p ∈ tr, w.Apart node p.1 p.2) (hreadable : w.Readable node s)
    (hsatisfied : w.Satisfied node source s) :
    (w.Prompt node s → w.Proceeds node s) ∧
    ∀ taken, (s.tasks node.id).taken = some taken →
      ∀ wait ∈ eventDependencies (w.dependenciesOn node taken),
        s.sent (w.eventName wait.1.sourceNodeId wait.2) = false → ¬ w.Proceeds node s := by
  have hw := Runnable.of_valid hvalid hnames
  have hview := View.start.run hw hnode hrun hapart
  constructor
  · intro hprompt
    exact proceeds_of_prompt hview hw hnode hmode hkeys hreadable hprompt hsatisfied
  · intro taken htaken wait hwait hunsent
    exact (WaitsOn.of_taken hview htaken hwait hunsent).not_proceeds

def slowNode : Node := { id := "slow", type := some "slow" }

def fastNode : Node := { id := "fast", type := some "box" }

def firstNode : Node := { id := "first", type := some "gate" }

def slowEdge : Edge where
  id := "slow-first"
  source := "slow"
  target := "first"
  sourceHandle := some "done###value"
  targetHandle := some triggerHandle

def fastEdge : Edge where
  id := "fast-first"
  source := "fast"
  target := "first"
  sourceHandle := some executionSuccessHandle
  targetHandle := some triggerHandle

def firstChart : Automation where
  nodes := [slowNode, fastNode, firstNode]
  edges := [slowEdge, fastEdge]
  registry :=
    { nodeSchemas :=
        [("slow", { emptyBox with events := some [("done", ⟨.ok⟩)] }), ("box", emptyBox)]
      nodeFunctions := [("slow", fun _ _ => .returned []), ("box", fun _ _ => .returned [])]
      nodeHandlers := [("gate", some gateHandler)] }
  dependencyMap := buildDependencyMap [slowNode, fastNode, firstNode] [slowEdge, fastEdge]
  eventId := "event-1"

theorem firstChart_valid : validateWorkflow firstChart.nodes firstChart.edges firstChart.registry [] =
    .ok (.valid firstChart.dependencyMap [("slow", []), ("fast", []), ("first", [])]) := rfl

theorem firstChart_names : firstChart.DistinctSignals := .of_nodup (by decide +kernel)

theorem firstChart_waits : eventDependencies (firstChart.dependencies firstNode) =
    [(slowEdge.dependency, "done")] := rfl

theorem firstChart_ownKeys : firstChart.OwnKeys firstNode := by
  constructor
  · intro wait hwait
    rw [firstChart_waits] at hwait
    obtain rfl := mem_singleton.1 hwait
    decide +kernel
  · intro wait hwait other hother _
    rw [firstChart_waits] at hwait hother
    obtain rfl := mem_singleton.1 hwait
    obtain rfl := mem_singleton.1 hother
    exact ⟨rfl, rfl⟩

theorem firstChart_satisfied (hsent : s.sent (firstChart.completionName "fast") = true)
    (hcheck : checkDependencyFailure s.get fastEdge.dependency = .ok false) :
    firstChart.Satisfied firstNode "fast" s := by
  have hdeps : firstChart.dependenciesOn firstNode "fast" = [fastEdge.dependency] := rfl
  have hplain : isEventHandle fastEdge.dependency.sourceHandle = none := executionSuccessHandle_plain
  constructor
  · decide +kernel
  · exact hsent
  · intro wait hwait
    rw [hdeps] at hwait
    obtain ⟨hdep, handle, hhandle⟩ := mem_eventDependencies.1 hwait
    rw [mem_singleton.1 hdep, hplain] at hhandle
    cases hhandle
  · intro dep hdep
    rw [hdeps] at hdep
    obtain rfl := mem_singleton.1 hdep
    rw [Certain, hplain]
    exact hcheck

theorem proceeds_when_prompt_first : ∃ s, firstChart.system.Reachable s ∧
    firstChart.Satisfied firstNode "fast" s ∧ firstChart.Proceeds firstNode s := by
  let actions : List Action :=
    [.task fastNode .advance, .task fastNode .advance, .task fastNode .advance,
      .task fastNode .advance, .task firstNode .advance]
  obtain ⟨tr, s, hplay, hemits, hsent, hcheck, htask⟩ : ∃ tr s,
      play firstChart.perform initial actions = some (tr, s) ∧
        (tr.all fun p => firstChart.mayEmit p.1 p.2) = true ∧
        s.sent (firstChart.completionName "fast") = true ∧
        checkDependencyFailure s.get fastEdge.dependency = .ok false ∧
        s.tasks "first" = .racing ⟨["slow", "fast"], []⟩ none :=
    ⟨_, _, rfl, rfl, by decide +kernel, rfl, rfl⟩
  have hrun : firstChart.system.Run initial tr s :=
    run_of_play hplay (by simp [actions, firstChart, Action.owner]) hemits
  have hactions : ∀ action ∈ actions,
      action.isEvent = false ∧ action.owner.id ≠ buildNodeEventId "slow" "done" := by decide +kernel
  have hapart : ∀ p ∈ tr, firstChart.Apart firstNode p.1 p.2 := by
    intro p hp
    have hlabel : p.2 ∈ actions := play_labels hplay ▸ mem_map_of_mem hp
    obtain ⟨hevent, hkey⟩ := hactions _ hlabel
    constructor
    · exact fun _ _ => untouched_of_not_event hevent
    · intro other m heq wait hwait
      rw [firstChart_waits] at hwait
      obtain rfl := mem_singleton.1 hwait
      rw [heq] at hkey
      exact hkey
    · intro source event hstored
      exact absurd rfl (untouched_of_not_event hevent source event hstored)
  have hreadable : firstChart.Readable firstNode s := by
    intro wait hwait hconditional
    rw [firstChart_waits] at hwait
    obtain rfl := mem_singleton.1 hwait
    exact absurd rfl hconditional
  have hprompt : firstChart.Prompt firstNode s := by
    intro source hsource
    rw [firstNode, htask] at hsource
    cases hsource.2
  have hfirst : firstNode ∈ firstChart.nodes := by simp [firstChart]
  have hsatisfied := firstChart_satisfied hsent hcheck
  obtain ⟨hproceeds, _⟩ := proceeds_when_prompt firstChart_valid firstChart_names hfirst rfl
    firstChart_ownKeys hrun hapart hreadable hsatisfied
  exact ⟨s, ⟨initial, tr, rfl, hrun⟩, hsatisfied, hproceeds hprompt⟩

/-- The loop has taken the first source that has completed and waits for its event: the second
source is satisfied, and the node does not go on. -/
theorem first_branch_starves :
    validateWorkflow firstChart.nodes firstChart.edges firstChart.registry [] =
      .ok (.valid firstChart.dependencyMap [("slow", []), ("fast", []), ("first", [])]) ∧
    firstChart.DistinctSignals ∧ firstChart.getDependencyModeForNode firstNode = .any ∧
    ∃ s, firstChart.system.Reachable s ∧ firstChart.Satisfied firstNode "fast" s ∧
      s.sent (firstChart.eventName "slow" "done") = false ∧ ¬ firstChart.Proceeds firstNode s := by
  refine ⟨firstChart_valid, firstChart_names, rfl, ?_⟩
  obtain ⟨tr, s, hplay, hemits, hsent, hcheck, hunsent, hcalls, htask⟩ : ∃ tr s,
      play firstChart.perform initial [.task slowNode .advance, .task slowNode .advance,
        .task slowNode .advance, .task slowNode .advance, .task firstNode .advance,
        .task firstNode (.settle "slow" .source), .task firstNode .advance,
        .task fastNode .advance, .task fastNode .advance, .task fastNode .advance,
        .task fastNode .advance] = some (tr, s) ∧
        (tr.all fun p => firstChart.mayEmit p.1 p.2) = true ∧
        s.sent (firstChart.completionName "fast") = true ∧
        checkDependencyFailure s.get fastEdge.dependency = .ok false ∧
        s.sent (firstChart.eventName "slow" "done") = false ∧ s.callsOf "first" = [] ∧
        s.tasks "first" = .racedEvents ⟨["fast"], [("slow", .source)]⟩ "slow"
          [(slowEdge.dependency, "done")] :=
    ⟨_, _, rfl, rfl, by decide +kernel, rfl, by decide +kernel, rfl, rfl⟩
  have hrun : firstChart.system.Run initial tr s :=
    run_of_play hplay (by simp [firstChart, Action.owner]) hemits
  have hwaits : firstChart.WaitsOn firstNode (slowEdge.dependency, "done") s :=
    ⟨hunsent, hcalls, .inr ⟨_, _, _, htask, mem_singleton_self _⟩⟩
  exact ⟨s, ⟨initial, tr, rfl, hrun⟩, firstChart_satisfied hsent hcheck, hunsent,
    hwaits.not_proceeds⟩

end Automation

end Trakrai.Workflow
