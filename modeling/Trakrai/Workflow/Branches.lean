import Trakrai.Workflow.Progress

namespace Trakrai.Workflow
open List Lib

namespace Automation
variable {w : Automation} {node : Node} {s t : State} {m : Move} {dep : DependencyInfo}
  {source : String}

/-- The source has completed, and none of the dependencies on it has failed. -/
def Satisfies (w : Automation) (node : Node) (source : String) (s : State) : Prop :=
  source ∈ w.dependencyMap.sources node.id ∧ s.sent (w.completionName source) = true ∧
    ∀ dep ∈ w.dependenciesOn node source, checkDependencyFailure s.get dep = .ok false

/-- The node has got `Dependency failure` in place of an execution. -/
def FailedForDependency (node : Node) (s : State) : Prop :=
  s.callsOf node.id = [] ∧ s.get node.id = some (.failure node.id dependencyFailureReason)

structure TakesOne (w : Automation) (node : Node) (s : State) : Prop where
  once : (s.callsOf node.id).length ≤ 1
  /-- The input comes from one source; a node without sources has its configuration only. -/
  input : ∀ input, (node.id, input) ∈ s.calls →
    w.dependencies node = [] ∧ input = buildNodeInput s.get node [] ∨
    ∃ source, w.Satisfies node source s ∧
      input = buildNodeInput s.get node (w.dependenciesOn node source)
  fails : s.tasks node.id = .done → (FailedForDependency node s ↔
      w.dependencies node ≠ [] ∧ ∀ source, ¬ w.Satisfies node source s)
  merge : s.sent (w.mergeName node.id) = true → ¬ FailedForDependency node s
  /-- The task waits neither after a source is satisfied nor after all have completed. -/
  ends : (∃ source, w.Satisfies node source s) ∨ w.SourcesSent node s →
    s.tasks node.id = .done ∨ ∃ m t, w.system.step s (.task node m) t

theorem Found.check_of_plain (h : w.Found dep s answer)
    (hplain : isEventHandle dep.sourceHandle = none) : checkDependencyFailure s.get dep = answer := by
  have hfound := h.2
  simp only [hplain] at hfound
  exact hfound

theorem exists_dependency (h : source ∈ w.dependencyMap.sources node.id) :
    ∃ dep, dep ∈ w.dependenciesOn node source := by
  obtain ⟨dep, hdep, hid⟩ := mem_sources.1 h
  exact ⟨dep, mem_dependenciesOn.2 ⟨hdep, hid⟩⟩

section
variable (hmode : w.getDependencyModeForNode node = .any) (hplain : Plain (w.dependencies node))
include hplain

theorem Refuted.not_satisfies (h : w.Refuted node source s) : ¬ w.Satisfies node source s := by
  intro hsatisfies
  obtain ⟨dep, hdep, hfound⟩ := h
  have hcheck := hfound.check_of_plain (hplain dep (dependenciesOn_subset hdep))
  cases hcheck.symm.trans (hsatisfies.2.2 dep hdep)

theorem Racing.exists_pending (h : w.Racing node race none s) (hne : race.pending ≠ [])
    (henough : (∃ source, w.Satisfies node source s) ∨ w.SourcesSent node s) :
    ∃ source ∈ race.pending, s.sent (w.completionName source) = true := by
  rcases henough with ⟨source, hsatisfies⟩ | hsent
  · rcases h.examined source hsatisfies.1 with hpending | hnone | hrefuted
    · exact ⟨source, hpending, hsatisfies.2.1⟩
    · cases hnone
    · exact absurd hsatisfies (hrefuted.not_satisfies hplain)
  · obtain ⟨source, hpending⟩ := exists_mem_of_ne_nil _ hne
    obtain ⟨dep, hdep, rfl⟩ := mem_sources.1 (h.pending hpending)
    exact ⟨dep.sourceNodeId, hpending, hsent dep hdep⟩

include hmode

theorem Called.satisfies (h : w.Called node s) (hinput : (node.id, input) ∈ s.calls) :
    w.dependencies node = [] ∧ input = buildNodeInput s.get node [] ∨
    ∃ source, w.Satisfies node source s ∧
      input = buildNodeInput s.get node (w.dependenciesOn node source) := by
  obtain ⟨dependencies, input', hchosen, hcall, hbuilt⟩ := h.call
  have hmem : (node.id, input) ∈ s.callsOf node.id := mem_filter.2 ⟨hinput, by simp⟩
  rw [hcall, mem_singleton, Prod.mk.injEq] at hmem
  obtain ⟨_, rfl⟩ := hmem
  have hbuilt := hbuilt fun dep hdep => hplain dep (hchosen.selects.subset hdep)
  have hselects := hchosen.selects
  rw [Selects, hmode] at hselects
  rcases hselects with ⟨hempty, rfl⟩ | ⟨source, hsource, rfl⟩
  · exact .inl ⟨hempty, hbuilt⟩
  · right
    refine ⟨source, ⟨hsource, ?_, ?_⟩, hbuilt⟩
    · obtain ⟨dep, hdep⟩ := exists_dependency hsource
      have hsent := (hchosen.found dep hdep).1
      rwa [(mem_dependenciesOn.1 hdep).2] at hsent
    · intro dep hdep
      exact (hchosen.found dep hdep).check_of_plain (hplain dep (dependenciesOn_subset hdep))

theorem Skipped.none_satisfies (h : w.Skipped node s) :
    w.dependencies node ≠ [] ∧ ∀ source, ¬ w.Satisfies node source s := by
  have hrefused := h.refused
  rw [Refused, hmode] at hrefused
  refine ⟨hrefused.1, ?_⟩
  intro source hsatisfies
  exact (hrefused.2 source hsatisfies.1).not_satisfies hplain hsatisfies

theorem View.progress_any (h : w.View node s) (hw : w.Runnable) (hnode : node ∈ w.nodes)
    (henough : (∃ source, w.Satisfies node source s) ∨ w.SourcesSent node s) :
    s.tasks node.id = .done ∨ ∃ m, (w.move node m s).isSome = true := by
  have htask := h.task
  cases heq : s.tasks node.id with
  | done => exact .inl rfl
  | started | merging | ready | ran | announcing =>
    exact .inr ⟨.advance, by simp [move, advance, heq]⟩
  | completions | events =>
    rw [heq] at htask
    cases htask.2.1.symm.trans hmode
  | racing race next =>
    rw [heq] at htask
    obtain ⟨_, hracing, _, hnone⟩ := htask
    right
    cases next with
    | some winner =>
      obtain ⟨source, kind⟩ := winner
      cases kind with
      | source => exact ⟨.advance, by simp [move, advance, heq]⟩
      | merge => exact ⟨.advance, by simp [move, advance, heq]⟩
    | none =>
      obtain ⟨hne, hlookup⟩ := hnone rfl
      obtain ⟨source, hpending, hsent⟩ := hracing.exists_pending hplain hne henough
      have hmove := move_settle heq (hracing.pending hpending) hpending hsent (hlookup source hpending)
      exact ⟨_, by rw [hmove]; rfl⟩
  | racedEvents race source pending =>
    -- a node without event handles waits for no event
    rw [heq] at htask
    have hreceived := htask.2.2.2.2
    have hempty : eventDependencies (w.dependenciesOn node source) = [] :=
      Plain.eventDependencies fun dep hdep => hplain dep (dependenciesOn_subset hdep)
    obtain rfl := subset_nil.1 (hempty ▸ hreceived.sub)
    right
    refine ⟨.advance, ?_⟩
    simp only [move, advance, heq]
    split <;> rfl
  | rejected message =>
    rw [heq] at htask
    obtain ⟨_, dep, hdep, hfound⟩ := htask
    have hreadable : w.Readable node s := by
      rw [Readable, hplain.eventDependencies]
      rintro _ ⟨⟩
    exact absurd hfound (h.lives.not_error hw hnode hreadable hdep)

theorem View.takesOne (h : w.View node s) (hw : w.Runnable) (hnode : node ∈ w.nodes) :
    w.TakesOne node s := by
  have hskipped (hfailed : FailedForDependency node s) : w.Skipped node s :=
    h.skipped hnode hfailed.1 (by rw [hfailed.2]; rfl)
  constructor
  · rcases h.idle_or_called with hidle | hcalled
    · rw [hidle]
      exact Nat.zero_le _
    · obtain ⟨_, _, _, hcall, _⟩ := hcalled.call
      rw [hcall]
      exact Nat.le_refl _
  · intro input hinput
    rcases h.idle_or_called with hidle | hcalled
    · exact absurd hidle (mem_callsOf.2 ⟨input, hinput⟩)
    · exact hcalled.satisfies hmode hplain hinput
  · intro hdone
    constructor
    · intro hfailed
      exact (hskipped hfailed).none_satisfies hmode hplain
    · intro hnone
      have htask := h.task
      rw [hdone] at htask
      rcases htask with hcalled | hskipped
      · obtain ⟨⟨_, input⟩, hinput⟩ := exists_mem_of_ne_nil _ hcalled.callsOf_ne
        obtain ⟨hmem, hid⟩ := mem_filter.1 hinput
        obtain rfl := beq_iff_eq.1 hid
        rcases hcalled.satisfies hmode hplain hmem with ⟨hempty, _⟩ | ⟨source, hsatisfies, _⟩
        · exact absurd hempty hnone.1
        · exact absurd hsatisfies (hnone.2 source)
      · exact ⟨hskipped.idle.calls, hskipped.result⟩
  · intro hmerge hfailed
    have hunsent := (hskipped hfailed).idle.merge
    rw [hmerge] at hunsent
    cases hunsent
  · intro henough
    rcases h.progress_any hmode hplain hw hnode henough with hdone | ⟨m, hm⟩
    · exact .inl hdone
    · obtain ⟨t, ht⟩ := Option.isSome_iff_exists.1 hm
      exact .inr ⟨m, t, hnode, ht⟩

end

/-- A node that waits for one of its sources, and for no event, takes one that is satisfied or fails
if there is none, whatever the order of the signals. -/
theorem takes_one {asyncNodeTypes : List String}
    {asyncDependencyMap : List (String × List String)}
    (hvalid : validateWorkflow w.nodes w.edges w.registry asyncNodeTypes =
      .ok (.valid w.dependencyMap asyncDependencyMap)) (hnames : w.DistinctSignals)
    (hnode : node ∈ w.nodes) (hmode : w.getDependencyModeForNode node = .any)
    (hhandles : ∀ edge ∈ w.edges, edge.target = node.id →
      isEventHandle (edge.sourceHandle.getD "") = none)
    {tr : List (State × Action)} (hrun : w.system.Run initial tr s)
    (huntouched : ∀ p ∈ tr, ∀ id ∈ node.id :: w.dependencyMap.sources node.id,
      Untouched id p.1 p.2) :
    w.TakesOne node s ∧ tr.countP (·.2.isTaskOf node) ≤ w.work node .started := by
  have hw := Runnable.of_valid hvalid hnames
  have hplain : Plain (w.dependencies node) := by
    intro dep hdep
    rw [dependencies, hw.accepted.incoming node hnode] at hdep
    obtain ⟨edge, hedge, rfl⟩ := mem_map.1 hdep
    obtain ⟨hedge, htarget⟩ := mem_filter.1 hedge
    exact hhandles edge hedge (beq_iff_eq.1 htarget)
  have hapart : ∀ p ∈ tr, w.Apart node p.1 p.2 := fun p hp => .of_plain hplain (huntouched p hp)
  constructor
  · exact (View.start.run hw hnode hrun hapart).takesOne hmode hplain hw hnode
  · exact le_trans (Nat.le_add_right ..) (View.start.work_le hw hnode hrun hapart)

def gateHandler : NodeHandler where
  getInputSchema _ := none
  getDependencyMode _ := .any
  execute _ _ := .returned []

def callNode : Node := { id := "call", type := some "call" }

def hashNode : Node := { id := "call###done", type := some "boom" }

def listenerNode : Node := { id := "listener", type := some "box" }

def gateNode : Node := { id := "gate", type := some "gate" }

def listenerEdge : Edge where
  id := "call-listener"
  source := "call"
  target := "listener"
  sourceHandle := some "done###value"
  targetHandle := some triggerHandle

def gateEdge : Edge where
  id := "hash-gate"
  source := "call###done"
  target := "gate"
  sourceHandle := some "value"
  targetHandle := some triggerHandle
  configuration := some (.bool true)

def hashChart : Automation where
  nodes := [callNode, hashNode, listenerNode, gateNode]
  edges := [listenerEdge, gateEdge]
  registry :=
    { nodeSchemas :=
        [("call", { emptyBox with events := some [("done", ⟨fun _ => .ok .null⟩)] }),
          ("boom", emptyBox), ("box", emptyBox)]
      nodeFunctions :=
        [("call", fun _ _ => .returned []), ("boom", fun _ _ => .threw (some "boom")),
          ("box", fun _ _ => .returned [])]
      nodeHandlers := [("gate", some gateHandler)] }
  dependencyMap :=
    buildDependencyMap [callNode, hashNode, listenerNode, gateNode] [listenerEdge, gateEdge]
  eventId := "event-1"

theorem hashChart_valid : validateWorkflow hashChart.nodes hashChart.edges hashChart.registry [] =
    .ok (.valid hashChart.dependencyMap
      [("call", []), ("call###done", []), ("listener", []), ("gate", [])]) := rfl

theorem hashChart_names : hashChart.DistinctSignals := .of_nodup (by decide +kernel)

theorem hashChart_plain : ∀ edge ∈ hashChart.edges, edge.target = gateNode.id →
    isEventHandle (edge.sourceHandle.getD "") = none := by
  intro edge hedge htarget
  simp only [hashChart, mem_cons, not_mem_nil, or_false] at hedge
  rcases hedge with rfl | rfl
  · exact absurd htarget (by decide)
  · decide +kernel

def crashNode : Node := { id := "crash", type := some "boom" }

def boxNode : Node := { id := "box", type := some "box" }

def onSuccess (source : String) : Edge where
  id := source ++ "-gate"
  source := source
  target := "gate"
  sourceHandle := some executionSuccessHandle
  targetHandle := some triggerHandle

def raceChart : Automation where
  nodes := [crashNode, boxNode, gateNode]
  edges := [onSuccess "crash", onSuccess "box"]
  registry := hashChart.registry
  dependencyMap :=
    buildDependencyMap [crashNode, boxNode, gateNode] [onSuccess "crash", onSuccess "box"]
  eventId := "event-1"

/-- The source that has failed comes first, and the node takes the other one. -/
theorem takes_one_race : ∃ s, raceChart.system.Reachable s ∧ s.tasks "gate" = .done ∧
    raceChart.TakesOne gateNode s ∧ ¬ raceChart.Satisfies gateNode "crash" s ∧
    raceChart.Satisfies gateNode "box" s ∧ s.callsOf "gate" = [("gate", [])] := by
  have hvalid : validateWorkflow raceChart.nodes raceChart.edges raceChart.registry [] =
      .ok (.valid raceChart.dependencyMap [("crash", []), ("box", []), ("gate", [])]) := rfl
  have hplain : ∀ edge ∈ raceChart.edges, edge.target = gateNode.id →
      isEventHandle (edge.sourceHandle.getD "") = none := by
    intro edge hedge _
    simp only [raceChart, mem_cons, not_mem_nil, or_false] at hedge
    rcases hedge with rfl | rfl <;> decide +kernel
  let actions : List Action :=
    [.task crashNode .advance, .task crashNode .advance, .task crashNode .advance,
      .task crashNode .advance, .task gateNode .advance,
      .task gateNode (.settle "crash" .source), .task gateNode .advance, .task gateNode .advance,
      .task boxNode .advance, .task boxNode .advance, .task boxNode .advance,
      .task boxNode .advance, .task gateNode (.settle "box" .source), .task gateNode .advance,
      .task gateNode .advance, .task gateNode .advance, .task gateNode .advance,
      .task gateNode .advance, .task gateNode .advance]
  obtain ⟨tr, s, hplay, hemits, hdone, hcalls, hcrash, hbox, hsent⟩ : ∃ tr s,
      play raceChart.perform initial actions = some (tr, s) ∧
        (tr.all fun p => raceChart.mayEmit p.1 p.2) = true ∧ s.tasks "gate" = .done ∧
        s.callsOf "gate" = [("gate", [])] ∧
        checkDependencyFailure s.get (onSuccess "crash").dependency = .ok true ∧
        checkDependencyFailure s.get (onSuccess "box").dependency = .ok false ∧
        s.sent (raceChart.completionName "box") = true :=
    ⟨_, _, rfl, rfl, rfl, rfl, rfl, rfl, rfl⟩
  have hrun : raceChart.system.Run initial tr s :=
    run_of_play hplay (by simp [actions, raceChart, Action.owner]) hemits
  have hevents : ∀ action ∈ actions, action.isEvent = false := by decide +kernel
  have huntouched : ∀ p ∈ tr, ∀ id ∈ gateNode.id :: raceChart.dependencyMap.sources gateNode.id,
      Untouched id p.1 p.2 := by
    intro p hp id _
    have hlabel : p.2 ∈ actions := play_labels hplay ▸ mem_map_of_mem hp
    exact untouched_of_not_event (hevents _ hlabel)
  have hgate : gateNode ∈ raceChart.nodes := by simp [raceChart]
  obtain ⟨htakes, _⟩ := takes_one hvalid (.of_nodup (by decide +kernel)) hgate rfl hplain hrun
    huntouched
  have hcrashed : raceChart.dependenciesOn gateNode "crash" = [(onSuccess "crash").dependency] := rfl
  have hboxed : raceChart.dependenciesOn gateNode "box" = [(onSuccess "box").dependency] := rfl
  refine ⟨s, ⟨initial, tr, rfl, hrun⟩, hdone, htakes, ?_, ?_, hcalls⟩
  · rintro ⟨-, -, hchecks⟩
    rw [hcrashed, forall_mem_singleton, hcrash] at hchecks
    cases hchecks
  · refine ⟨by decide +kernel, hsent, ?_⟩
    rw [hboxed, forall_mem_singleton]
    exact hbox

/-- Where the id of a source is the key of an event, the data of the event take the place of its
result. Here the source has failed, and the node that should fail with it reads a property of
`null`: its task ends in an error, without a result. -/
theorem hash_id_not_takes_one :
    validateWorkflow hashChart.nodes hashChart.edges hashChart.registry [] =
      .ok (.valid hashChart.dependencyMap
        [("call", []), ("call###done", []), ("listener", []), ("gate", [])]) ∧
    hashChart.DistinctSignals ∧ hashChart.getDependencyModeForNode gateNode = .any ∧
    (∀ edge ∈ hashChart.edges, edge.target = gateNode.id →
      isEventHandle (edge.sourceHandle.getD "") = none) ∧
    ∃ s, hashChart.system.Reachable s ∧ hashChart.SourcesSent gateNode s ∧
      (∀ source, ¬ hashChart.Satisfies gateNode source s) ∧ s.get "gate" = none ∧
      (∀ m t, ¬ hashChart.system.step s (.task gateNode m) t) ∧
      ¬ hashChart.TakesOne gateNode s := by
  refine ⟨hashChart_valid, hashChart_names, rfl, hashChart_plain, ?_⟩
  obtain ⟨tr, s, hplay, hemits, hsent, hcheck, hget, htask⟩ : ∃ tr s,
      play hashChart.perform initial [.task callNode .advance, .task callNode .advance,
        .emit callNode "done" (.obj []), .task callNode .advance, .task callNode .advance,
        .task hashNode .advance, .task hashNode .advance, .task hashNode .advance,
        .task hashNode .advance, .task listenerNode .advance, .task listenerNode (.completion 0),
        .task listenerNode .advance, .task listenerNode (.event 0 0), .task gateNode .advance,
        .task gateNode (.settle "call###done" .source), .task gateNode .advance,
        .task gateNode .advance] = some (tr, s) ∧
        (tr.all fun p => hashChart.mayEmit p.1 p.2) = true ∧
        s.sent (hashChart.completionName "call###done") = true ∧
        checkDependencyFailure s.get gateEdge.dependency =
          .error "Cannot read properties of null (reading 'value')" ∧
        s.get "gate" = none ∧
        s.tasks "gate" = .rejected "Cannot read properties of null (reading 'value')" :=
    ⟨_, _, rfl, rfl, by decide +kernel, rfl, rfl, rfl⟩
  have hrun : hashChart.system.Run initial tr s :=
    run_of_play hplay (by simp [hashChart, Action.owner]) hemits
  have hdeps : hashChart.dependencies gateNode = [gateEdge.dependency] := rfl
  have hsources : hashChart.SourcesSent gateNode s := by
    intro dep hdep
    rw [hdeps] at hdep
    obtain rfl := mem_singleton.1 hdep
    exact hsent
  have hstuck (m : Move) (t : State) : ¬ hashChart.system.step s (.task gateNode m) t := by
    intro hstep
    exact not_moved_of_ended (by rw [gateNode, htask]; rfl) (moved_of_move hstep.2)
  refine ⟨s, ⟨initial, tr, rfl, hrun⟩, hsources, ?_, hget, hstuck, ?_⟩
  · intro source hsatisfies
    obtain ⟨dep, hdep⟩ := exists_dependency hsatisfies.1
    have hpasses := hsatisfies.2.2 dep hdep
    have hmem := dependenciesOn_subset hdep
    rw [hdeps] at hmem
    obtain rfl := mem_singleton.1 hmem
    cases hcheck.symm.trans hpasses
  · intro htakes
    rcases htakes.ends (.inr hsources) with hdone | ⟨m, t, hstep⟩
    · cases htask.symm.trans hdone
    · exact hstuck m t hstep

end Automation

end Trakrai.Workflow
