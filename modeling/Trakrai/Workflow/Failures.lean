import Trakrai.Workflow.Progress

namespace Trakrai.Workflow
open List Lib

namespace Automation
variable {w : Automation} {node : Node} {s t : State} {m : Move} {dep : DependencyInfo}

/-- The dependency fails with its source. One on an event does not read the result of the source:
it fails by the data that were sent for the event. -/
def Falls (w : Automation) (dep : DependencyInfo) (s : State) : Prop :=
  match isEventHandle dep.sourceHandle with
  | none => dep.sourceHandle = executionSuccessHandle → dep.conditional = none
  | some (event, _) => ∀ data, (w.eventName dep.sourceNodeId event, data) ∈ s.signals →
      w.payloadCheck dep event data = .ok true

theorem Falls.certain {id error : String} (h : w.Falls dep s)
    (hfailed : s.get dep.sourceNodeId = some (.failure id error)) :
    w.Certain dep s (.ok true) := by
  rw [Falls] at h
  rw [Certain]
  cases hevent : isEventHandle dep.sourceHandle with
  | some event =>
    simp only [hevent] at h
    exact h
  | none =>
    simp only [hevent] at h ⊢
    rw [checkDependencyFailure]
    split
    · rename_i hhandle
      rw [hfailed, h hhandle]
      rfl
    · rw [resultKey_of_plain hevent, hfailed]

structure Awaited (w : Automation) (node : Node) (s : State) : Prop where
  completions : w.SourcesSent node s
  events : ∀ wait ∈ eventDependencies (w.dependencies node),
    s.sent (w.eventName wait.1.sourceNodeId wait.2) = true

theorem Called.not_certain (h : w.Called node s) (hmode : w.getDependencyModeForNode node = .all)
    (hdep : dep ∈ w.dependencies node) : ¬ w.Certain dep s (.ok true) := by
  intro hcertain
  obtain ⟨dependencies, input, hchosen, _, _⟩ := h.call
  have hselects := hchosen.selects
  rw [Selects, hmode] at hselects
  obtain rfl : dependencies = w.dependencies node := hselects
  cases hcertain.eq_of_found (hchosen.found dep hdep)

/-- A task that waits for all its sources is not stuck once they and the events are there. -/
theorem View.progress_all (h : w.View node s) (hw : w.Runnable) (hnode : node ∈ w.nodes)
    (hmode : w.getDependencyModeForNode node = .all) (hawaited : w.Awaited node s)
    (hreadable : w.Readable node s) :
    s.tasks node.id = .done ∨ ∃ m, (w.move node m s).isSome = true := by
  have htask := h.task
  cases heq : s.tasks node.id with
  | done => exact .inl rfl
  | started | merging | ready | ran | announcing =>
    exact .inr ⟨.advance, by simp [move, advance, heq]⟩
  | completions pending =>
    rw [heq] at htask
    cases pending with
    | nil => exact .inr ⟨.advance, by simp [move, advance, heq]⟩
    | cons dep pending =>
      have hsent := hawaited.completions dep (htask.2.2.1 (mem_cons_self ..))
      exact .inr ⟨.completion 0, by simp [move, deliverCompletion, heq, hsent]⟩
  | events pending =>
    rw [heq] at htask
    cases pending with
    | nil =>
      right
      refine ⟨.advance, ?_⟩
      simp only [move, advance, heq]
      split <;> rfl
    | cons wait pending =>
      have hsent := hawaited.events wait (htask.2.2.2.sub (mem_cons_self ..))
      have hwaits : Task.eventWaits (s.tasks node.id) = some (wait :: pending, .events) := by
        rw [heq]
        rfl
      obtain ⟨signal, data, hmove⟩ := move_event hwaits hsent
      exact .inr ⟨.event 0 signal, by rw [hmove]; rfl⟩
  | racing race next | racedEvents race source pending =>
    rw [heq] at htask
    cases htask.2.1.mode.symm.trans hmode
  | rejected message =>
    rw [heq] at htask
    obtain ⟨_, dep, hdep, hfound⟩ := htask
    exact absurd hfound (h.lives.not_error hw hnode hreadable hdep)

/-- A node that waits for all its sources fails with one of them. -/
theorem failure_propagates {asyncNodeTypes : List String}
    {asyncDependencyMap : List (String × List String)}
    (hvalid : validateWorkflow w.nodes w.edges w.registry asyncNodeTypes =
      .ok (.valid w.dependencyMap asyncDependencyMap)) (hnames : w.DistinctSignals)
    (hnode : node ∈ w.nodes) (hmode : w.getDependencyModeForNode node = .all)
    {tr : List (State × Action)} (hrun : w.system.Run initial tr s)
    (hapart : ∀ p ∈ tr, w.Apart node p.1 p.2)
    (hdep : dep ∈ w.dependencies node) {id error : String}
    (hfailed : s.get dep.sourceNodeId = some (.failure id error)) (hfalls : w.Falls dep s) :
    -- it is not executed and does not succeed
    (∀ input, (node.id, input) ∉ s.calls) ∧ (∀ id data, s.get node.id ≠ some (.success id data)) ∧
    -- with all that it waits for, it has failed or goes on
    (w.Awaited node s → w.Readable node s →
      s.tasks node.id = .done ∧ s.get node.id = some (.failure node.id dependencyFailureReason) ∨
      ∃ m t, w.system.step s (.task node m) t) ∧
    -- and it takes finitely many steps
    tr.countP (·.2.isTaskOf node) ≤ w.work node .started := by
  have hw := Runnable.of_valid hvalid hnames
  have hview := View.start.run hw hnode hrun hapart
  have hcalls := hview.idle_or_called.resolve_right fun hcalled =>
    hcalled.not_certain hmode hdep (hfalls.certain hfailed)
  refine ⟨?_, ?_, ?_, ?_⟩
  · intro input hinput
    exact mem_callsOf.2 ⟨input, hinput⟩ hcalls
  · intro id data hget
    have hskipped := hview.skipped hnode hcalls (by rw [hget]; rfl)
    cases hskipped.result.symm.trans hget
  · intro hawaited hreadable
    rcases hview.progress_all hw hnode hmode hawaited hreadable with hdone | ⟨m, hm⟩
    · have hrecorded := (hview.lives node hnode (mem_cons_self ..)).recorded
      rw [hdone] at hrecorded
      exact .inl ⟨hdone, (hview.skipped hnode hcalls hrecorded).result⟩
    · obtain ⟨t, ht⟩ := Option.isSome_iff_exists.1 hm
      exact .inr ⟨m, t, hnode, ht⟩
  · exact le_trans (Nat.le_add_right ..) (View.start.work_le hw hnode hrun hapart)

theorem not_moved_at_events (htask : s.tasks node.id = .events pending) (hne : pending ≠ [])
    (hunsent : ∀ wait ∈ pending, s.sent (w.eventName wait.1.sourceNodeId wait.2) = false) :
    ¬ Moved w node s m t := by
  intro hmoved
  cases hmoved with
  | event hwaits hdep hdata =>
    rw [htask] at hwaits
    cases hwaits
    have hsent := State.sent_iff.2 ⟨_, hdata⟩
    rw [hunsent _ (List.mem_of_getElem? hdep)] at hsent
    cases hsent
  | reject heq _ | skip heq _ | pass heq _ =>
    rw [htask] at heq
    cases heq
    exact hne rfl
  | begin heq | completion heq _ _ | resume heq | settle heq _ _ _ | settleRaced heq _ _ _
  | lose heq | take heq | rejectRaced heq _ | exhaust heq _ _ | next heq _ _ | choose heq _
  | merge heq | execute heq | record heq | announce heq =>
    rw [htask] at heq
    cases heq

def doneBox : NodeSchema where
  input := {}
  parseInput input := .ok input
  parseOutput output := .ok output
  events := some [("done", ⟨.ok⟩)]

def boomNode : Node := { id := "boom", type := some "boom" }

def waiterNode : Node := { id := "waiter", type := some "box" }

def targetNode : Node := { id := "target", type := some "box" }

def eventEdge : Edge where
  id := "boom-waiter"
  source := "boom"
  target := "waiter"
  sourceHandle := some "done###value"
  targetHandle := some triggerHandle

def outputEdge : Edge where
  id := "boom-target"
  source := "boom"
  target := "target"
  sourceHandle := some "value"
  targetHandle := some triggerHandle

def boomChart : Automation where
  nodes := [boomNode, waiterNode, targetNode]
  edges := [eventEdge, outputEdge]
  registry :=
    { nodeSchemas := [("boom", doneBox), ("box", emptyBox)]
      nodeFunctions := [("boom", fun _ _ => .threw (some "boom")), ("box", fun _ _ => .returned [])] }
  dependencyMap := buildDependencyMap [boomNode, waiterNode, targetNode] [eventEdge, outputEdge]
  eventId := "event-1"

theorem boomChart_valid : validateWorkflow boomChart.nodes boomChart.edges boomChart.registry [] =
    .ok (.valid boomChart.dependencyMap [("boom", []), ("waiter", []), ("target", [])]) := rfl

theorem boomChart_names : boomChart.DistinctSignals := .of_nodup (by decide +kernel)

def boomActions : List Action :=
  [.task boomNode .advance, .task boomNode .advance, .task boomNode .advance,
    .task boomNode .advance, .task targetNode .advance, .task targetNode (.completion 0),
    .task targetNode .advance, .task targetNode .advance, .task targetNode .advance,
    .task waiterNode .advance, .task waiterNode (.completion 0), .task waiterNode .advance]

theorem boomActions_run : ∃ tr s, boomChart.system.Run initial tr s ∧
    tr.map Prod.snd = boomActions ∧ s.get "boom" = some (.failure "boom" "boom") ∧
    s.sent (boomChart.completionName "boom") = true ∧
    s.sent (boomChart.eventName "boom" "done") = false ∧ s.get "waiter" = none ∧
    s.tasks "boom" = .done ∧ s.tasks "target" = .done ∧
    s.tasks "waiter" = .events [(eventEdge.dependency, "done")] := by
  obtain ⟨tr, s, hplay, hemits, hfacts⟩ : ∃ tr s,
      play boomChart.perform initial boomActions = some (tr, s) ∧
        (tr.all fun p => boomChart.mayEmit p.1 p.2) = true ∧
        s.get "boom" = some (.failure "boom" "boom") ∧
        s.sent (boomChart.completionName "boom") = true ∧
        s.sent (boomChart.eventName "boom" "done") = false ∧ s.get "waiter" = none ∧
        s.tasks "boom" = .done ∧ s.tasks "target" = .done ∧
        s.tasks "waiter" = .events [(eventEdge.dependency, "done")] :=
    ⟨_, _, rfl, rfl, rfl, by decide +kernel, by decide +kernel, rfl, rfl, rfl, rfl⟩
  have hrun : boomChart.system.Run initial tr s :=
    run_of_play hplay (by simp [boomActions, boomChart, Action.owner]) hemits
  exact ⟨tr, s, hrun, play_labels hplay, hfacts⟩

theorem failure_propagates_boom : ∃ tr s, boomChart.system.Run initial tr s ∧
      s.get "boom" = some (.failure "boom" "boom") ∧
      (∀ input, ("target", input) ∉ s.calls) ∧
      (s.tasks "target" = .done ∧ s.get "target" = some (.failure "target" dependencyFailureReason) ∨
        ∃ m t, boomChart.system.step s (.task targetNode m) t) := by
  obtain ⟨tr, s, hrun, hlabels, hfailed, hsent, _⟩ := boomActions_run
  have hdeps : boomChart.dependencies targetNode = [outputEdge.dependency] := rfl
  have hhandle : isEventHandle outputEdge.dependency.sourceHandle = none := by decide +kernel
  have hplain : Plain (boomChart.dependencies targetNode) := by
    intro dep hdep
    rw [hdeps] at hdep
    obtain rfl := mem_singleton.1 hdep
    exact hhandle
  have hapart : ∀ p ∈ tr, boomChart.Apart targetNode p.1 p.2 := by
    intro p hp
    have hlabel : p.2 ∈ boomActions := hlabels ▸ mem_map_of_mem hp
    have hevents : ∀ action ∈ boomActions, action.isEvent = false := by decide +kernel
    exact .of_plain hplain fun _ _ => untouched_of_not_event (hevents _ hlabel)
  have htarget : targetNode ∈ boomChart.nodes := by simp [boomChart]
  have hdep : outputEdge.dependency ∈ boomChart.dependencies targetNode := by simp [hdeps]
  have hfalls : boomChart.Falls outputEdge.dependency s := by
    rw [Falls, hhandle]
    intro hsuccess
    exact absurd hsuccess (by decide)
  obtain ⟨hcalls, _, hends, _⟩ := failure_propagates boomChart_valid boomChart_names htarget rfl hrun
    hapart hdep hfailed hfalls
  refine ⟨tr, s, hrun, hfailed, hcalls, hends ⟨?_, ?_⟩ ?_⟩
  · intro dep hdep
    rw [hdeps] at hdep
    obtain rfl := mem_singleton.1 hdep
    exact hsent
  · rw [hplain.eventDependencies]
    exact fun _ hwait => nomatch hwait
  · intro wait hwait
    rw [hplain.eventDependencies] at hwait
    cases hwait

/-- A failure does not go through an event edge: the node that reads the event waits for it for
good, or it is executed if the event was there before the failure. -/
theorem event_edge_does_not_fail :
    validateWorkflow boomChart.nodes boomChart.edges boomChart.registry [] =
      .ok (.valid boomChart.dependencyMap [("boom", []), ("waiter", []), ("target", [])]) ∧
    boomChart.DistinctSignals ∧ boomChart.getDependencyModeForNode waiterNode = .all ∧
    boomChart.dependencies waiterNode = [eventEdge.dependency] ∧
    (∃ s, boomChart.system.Reachable s ∧ s.get "boom" = some (.failure "boom" "boom") ∧
      s.sent (boomChart.completionName "boom") = true ∧ s.get "waiter" = none ∧
      ∀ node m t, ¬ boomChart.system.step s (.task node m) t) ∧
    ∃ s, boomChart.system.Reachable s ∧ s.get "boom" = some (.failure "boom" "boom") ∧
      s.sent (boomChart.completionName "boom") = true ∧
      s.get "waiter" = some (.success "waiter" (.obj [])) := by
  refine ⟨boomChart_valid, boomChart_names, rfl, rfl, ?_, ?_⟩
  · obtain ⟨tr, s, hrun, _, hfailed, hsent, hevent, hwaiter, hboom, htarget, hwait⟩ := boomActions_run
    refine ⟨s, ⟨initial, tr, rfl, hrun⟩, hfailed, hsent, hwaiter, ?_⟩
    intro node m t hstep
    obtain ⟨hnode, hm⟩ := hstep
    have hmoved := moved_of_move hm
    simp only [boomChart, mem_cons, not_mem_nil, or_false] at hnode
    rcases hnode with rfl | rfl | rfl
    · exact not_moved_of_ended (by rw [boomNode, hboom]; rfl) hmoved
    · apply not_moved_at_events hwait (by simp) _ hmoved
      simpa [eventEdge, Edge.dependency] using hevent
    · exact not_moved_of_ended (by rw [targetNode, htarget]; rfl) hmoved
  · obtain ⟨tr, s, hplay, hemits, hfailed, hsent, hwaiter⟩ : ∃ tr s,
        play boomChart.perform initial [.task boomNode .advance, .task boomNode .advance,
          .emit boomNode "done" (.obj []), .task boomNode .advance, .task boomNode .advance,
          .task waiterNode .advance, .task waiterNode (.completion 0), .task waiterNode .advance,
          .task waiterNode (.event 0 0), .task waiterNode .advance, .task waiterNode .advance,
          .task waiterNode .advance] = some (tr, s) ∧
          (tr.all fun p => boomChart.mayEmit p.1 p.2) = true ∧
          s.get "boom" = some (.failure "boom" "boom") ∧
          s.sent (boomChart.completionName "boom") = true ∧
          s.get "waiter" = some (.success "waiter" (.obj [])) :=
      ⟨_, _, rfl, rfl, rfl, by decide +kernel, rfl⟩
    have hrun : boomChart.system.Run initial tr s :=
      run_of_play hplay (by simp [boomChart, Action.owner]) hemits
    exact ⟨s, ⟨initial, tr, rfl, hrun⟩, hfailed, hsent, hwaiter⟩

end Automation

end Trakrai.Workflow
