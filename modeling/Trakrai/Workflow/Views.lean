import Trakrai.Workflow.Steps

namespace Trakrai.Workflow
open List Lib

section
variable {f : String → Option ExecutionResult} {dep : DependencyInfo} {event handle : String}
  {dependencies : List DependencyInfo}

theorem exists_of_hasDependencyFailure
    (h : hasDependencyFailure f dependencies = answer) (hne : answer ≠ .ok false) :
    ∃ dep ∈ dependencies, checkDependencyFailure f dep = answer := by
  induction dependencies with
  | nil => exact absurd h.symm hne
  | cons dep dependencies ih =>
    rw [hasDependencyFailure, List.anyM] at h
    cases hcheck : checkDependencyFailure f dep with
    | error message =>
      rw [hcheck] at h
      exact ⟨dep, mem_cons_self .., hcheck.trans h⟩
    | ok failed =>
      rw [hcheck] at h
      cases failed with
      | true => exact ⟨dep, mem_cons_self .., hcheck.trans h⟩
      | false =>
        obtain ⟨dep', hdep', hcheck'⟩ := ih h
        exact ⟨dep', mem_cons_of_mem _ hdep', hcheck'⟩

theorem executionSuccessHandle_plain : isEventHandle executionSuccessHandle = none := by decide +kernel

theorem checkDependencyFailure_event (h : isEventHandle dep.sourceHandle = some (event, handle)) :
    checkDependencyFailure f dep =
      checkDependencyFailure (fun _ => f (buildNodeEventId dep.sourceNodeId event)) dep := by
  have hne : dep.sourceHandle ≠ executionSuccessHandle := by
    intro heq
    rw [heq, executionSuccessHandle_plain] at h
    cases h
  have hkey : dep.resultKey.1 = buildNodeEventId dep.sourceNodeId event := by
    rw [DependencyInfo.resultKey, h]
  rw [checkDependencyFailure, checkDependencyFailure, if_neg hne, if_neg hne, hkey]

theorem mem_eventDependencies : wait ∈ eventDependencies dependencies ↔
      wait.1 ∈ dependencies ∧ ∃ handle, isEventHandle wait.1.sourceHandle = some (wait.2, handle) := by
  obtain ⟨dep, event⟩ := wait
  simp only [eventDependencies, mem_filterMap, Option.map_eq_some_iff, Prod.mk.injEq]
  constructor
  · intro h
    obtain ⟨dep', hdep, ⟨event', handle⟩, hhandle, rfl, rfl⟩ := h
    exact ⟨hdep, handle, hhandle⟩
  · intro h
    obtain ⟨hdep, handle, hhandle⟩ := h
    exact ⟨dep, hdep, (event, handle), hhandle, rfl, rfl⟩

end

namespace Automation

structure Runnable (w : Automation) : Prop where
  accepted : Accepted w.nodes w.edges w.registry w.dependencyMap
  names : w.DistinctSignals

variable {w : Automation} {node : Node} {s t : State} {m : Move} {action : Action}
  {dep : DependencyInfo} {answer : Except String Bool}

/-- The answer of the check of a dependency on an event that has brought `data`. -/
def payloadCheck (w : Automation) (dep : DependencyInfo) (event : String) (data : Json) :
    Except String Bool :=
  checkDependencyFailure (fun _ => some (w.processEventDependencyData (some data) dep event)) dep

def Delivered (w : Automation) (wait : DependencyInfo × String) (s : State) : Prop :=
  ∃ data, (w.eventName wait.1.sourceNodeId wait.2, data) ∈ s.signals ∧
    s.get (buildNodeEventId wait.1.sourceNodeId wait.2) =
      some (w.processEventDependencyData (some data) wait.1 wait.2)

/-- The check of a dependency has this answer: on the result of its source, or on some data
that were sent for its event. -/
def Found (w : Automation) (dep : DependencyInfo) (s : State) (answer : Except String Bool) : Prop :=
  s.sent (w.completionName dep.sourceNodeId) = true ∧ match isEventHandle dep.sourceHandle with
    | none => checkDependencyFailure s.get dep = answer
    | some (event, _) => ∃ data, (w.eventName dep.sourceNodeId event, data) ∈ s.signals ∧
        w.payloadCheck dep event data = answer

/-- The check of a dependency can have no other answer: not on the result of its source, and not
on any data that were sent for its event. -/
def Certain (w : Automation) (dep : DependencyInfo) (s : State) (answer : Except String Bool) :
    Prop :=
  match isEventHandle dep.sourceHandle with
  | none => checkDependencyFailure s.get dep = answer
  | some (event, _) => ∀ data, (w.eventName dep.sourceNodeId event, data) ∈ s.signals →
      w.payloadCheck dep event data = answer

theorem Certain.eq_of_found (h : w.Certain dep s answer) (hfound : w.Found dep s answer'): answer' = answer := by
  obtain ⟨_, hfound⟩ := hfound
  rw [Certain] at h
  cases hevent : isEventHandle dep.sourceHandle with
  | none =>
    simp only [hevent] at h hfound
    exact hfound.symm.trans h
  | some event =>
    simp only [hevent] at h hfound
    obtain ⟨data, hdata, hcheck⟩ := hfound
    exact hcheck.symm.trans (h data hdata)

theorem found_of_check (hsent : s.sent (w.completionName dep.sourceNodeId) = true)
    (hdelivered : ∀ event handle, isEventHandle dep.sourceHandle = some (event, handle) →
      w.Delivered (dep, event) s)
    (hcheck : checkDependencyFailure s.get dep = answer) : w.Found dep s answer := by
  refine ⟨hsent, ?_⟩
  cases hevent : isEventHandle dep.sourceHandle with
  | none => exact hcheck
  | some event =>
    obtain ⟨event, handle⟩ := event
    obtain ⟨data, hdata, hget⟩ := hdelivered event handle hevent
    rw [checkDependencyFailure_event hevent] at hcheck
    simp only [hget] at hcheck
    exact ⟨data, hdata, hcheck⟩

/-- A step stores nothing under a key that the node reads for something else. -/
structure Apart (w : Automation) (node : Node) (s : State) (action : Action) : Prop where
  /-- No data of an event under the id of the node or of a source. -/
  ids : ∀ id ∈ node.id :: w.dependencyMap.sources node.id, Untouched id s action
  /-- No result of a node under the key of an event. -/
  results : ∀ other m, action = .task other m → ∀ wait ∈ eventDependencies (w.dependencies node),
      other.id ≠ buildNodeEventId wait.1.sourceNodeId wait.2
  /-- No data of one event under the key of another one. -/
  payloads : ∀ source event, storedEvent s action = some (source, event) →
    ∀ wait ∈ eventDependencies (w.dependencies node),
      buildNodeEventId source event = buildNodeEventId wait.1.sourceNodeId wait.2 →
      source = wait.1.sourceNodeId ∧ event = wait.2

theorem Apart.of_plain (hplain : Plain (w.dependencies node))
    (hids : ∀ id ∈ node.id :: w.dependencyMap.sources node.id, Untouched id s action) :
    w.Apart node s action := by
  constructor
  · exact hids
  · rw [hplain.eventDependencies]
    exact fun _ _ _ _ hwait => nomatch hwait
  · rw [hplain.eventDependencies]
    exact fun _ _ _ _ hwait => nomatch hwait

structure Grows (w : Automation) (node : Node) (s t : State) : Prop where
  signals : s.signals ⊆ t.signals
  results : ∀ id ∈ node.id :: w.dependencyMap.sources node.id, (s.get id).isSome → t.get id = s.get id
  payloads : ∀ wait ∈ eventDependencies (w.dependencies node),
    t.get (buildNodeEventId wait.1.sourceNodeId wait.2) =
      s.get (buildNodeEventId wait.1.sourceNodeId wait.2) ∨ w.Delivered wait t

theorem Grows.sent (h : w.Grows node s t) (hsent : s.sent name = true) : t.sent name = true := by
  obtain ⟨data, hdata⟩ := State.sent_iff.1 hsent
  exact State.sent_iff.2 ⟨data, h.signals hdata⟩

theorem Grows.delivered (h : w.Grows node s t)
    (hwait : wait ∈ eventDependencies (w.dependencies node)) (hdelivered : w.Delivered wait s) :
    w.Delivered wait t := by
  rcases h.payloads wait hwait with hsame | hnew
  · obtain ⟨data, hdata, hget⟩ := hdelivered
    exact ⟨data, h.signals hdata, hsame.trans hget⟩
  · exact hnew

def Lives (w : Automation) (node : Node) (s : State) : Prop :=
  ∀ x ∈ w.nodes, x.id ∈ node.id :: w.dependencyMap.sources node.id → Life w x s

theorem Lives.filled (h : w.Lives node s) (hw : w.Runnable) (hnode : node ∈ w.nodes)
    (hdep : dep ∈ w.dependencies node)
    (hsent : s.sent (w.completionName dep.sourceNodeId) = true) :
    (s.get dep.sourceNodeId).isSome = true := by
  have hsource := mem_sources.2 ⟨dep, hdep, rfl⟩
  obtain ⟨source, hmem, hid⟩ := mem_map.1 (hw.accepted.sources node hnode _ hsource)
  rw [← hid] at hsource hsent ⊢
  exact (h source hmem (mem_cons_of_mem _ hsource)).filled hsent

theorem Grows.get_source (h : w.Grows node s t) (hlives : w.Lives node s) (hw : w.Runnable)
    (hnode : node ∈ w.nodes) (hdep : dep ∈ w.dependencies node)
    (hsent : s.sent (w.completionName dep.sourceNodeId) = true) :
    t.get dep.sourceNodeId = s.get dep.sourceNodeId :=
  h.results _ (mem_cons_of_mem _ (mem_sources.2 ⟨dep, hdep, rfl⟩))
    (hlives.filled hw hnode hdep hsent)

theorem Grows.found (h : w.Grows node s t) (hlives : w.Lives node s) (hw : w.Runnable)
    (hnode : node ∈ w.nodes) (hdep : dep ∈ w.dependencies node) (hfound : w.Found dep s answer) :
    w.Found dep t answer := by
  obtain ⟨hsent, hfound⟩ := hfound
  refine ⟨h.sent hsent, ?_⟩
  cases hevent : isEventHandle dep.sourceHandle with
  | none =>
    simp only [hevent] at hfound ⊢
    rw [← hfound]
    exact checkDependencyFailure_congr hevent (h.get_source hlives hw hnode hdep hsent)
  | some event =>
    simp only [hevent] at hfound ⊢
    obtain ⟨data, hdata, hcheck⟩ := hfound
    exact ⟨data, h.signals hdata, hcheck⟩

theorem Runnable.of_valid (hvalid : validateWorkflow w.nodes w.edges w.registry asyncNodeTypes =
      .ok (.valid w.dependencyMap asyncDependencyMap)) (hnames : w.DistinctSignals) : w.Runnable :=
  ⟨validateWorkflow_accepted hvalid, hnames⟩

theorem Runnable.eq_of_id (hw : w.Runnable) (hx : x ∈ w.nodes) (hy : y ∈ w.nodes)
    (hid : x.id = y.id) : x = y := inj_on_of_nodup_map hw.accepted.nodup hx hy hid

theorem Runnable.eventName_ne (hw : w.Runnable) (hx : x ∈ w.nodes)
    (hy : y ∈ w.nodes) (hevent : event ∈ w.events x) :
    w.eventName x.id event ≠ w.completionName y.id := by
  by_cases hid : x.id = y.id
  · rw [hid]
    exact eventName_ne_completionName
  · exact hw.names.ne hx hy hid (eventName_mem hevent) completionName_mem

theorem Life.step (h : Life w x s) (hw : w.Runnable) (hx : x ∈ w.nodes)
    (hs : w.system.step s action t) (huntouched : Untouched x.id s action) : Life w x t := by
  cases action with
  | emit other event data =>
    obtain ⟨hother, _, hevent, rfl⟩ := hs
    have hsent : (s.send (w.eventName other.id event) data).sent (w.completionName x.id) =
        s.sent (w.completionName x.id) := by
      rw [State.sent_send, beq_eq_false_iff_ne.2 (hw.eventName_ne hother hx hevent), Bool.or_false]
    exact h.frame rfl rfl hsent
  | task other m =>
    obtain ⟨hother, hm⟩ := hs
    have hmoved := moved_of_move hm
    by_cases hid : x.id = other.id
    · obtain rfl := hw.eq_of_id hx hother hid
      exact h.moved hmoved huntouched
    · apply h.frame (hmoved.tasks_of_ne hid) (hmoved.get_of_ne hid huntouched)
      exact hmoved.sent_of_ne (hw.names.ne hother hx (Ne.symm hid) completionName_mem completionName_mem)
        (hw.names.ne hother hx (Ne.symm hid) mergeName_mem completionName_mem)

theorem Lives.step (h : w.Lives node s) (hw : w.Runnable) (hs : w.system.step s action t)
    (hapart : w.Apart node s action) : w.Lives node t := by
  intro x hx hid
  exact (h x hx hid).step hw hx hs (hapart.ids _ hid)

theorem Moved.get_own (h : Moved w node s m t) (hlife : Life w node s)
    (huntouched : Untouched node.id s (.task node m)) (hsome : (s.get node.id).isSome = true) :
    t.get node.id = s.get node.id := by
  rw [hlife.recorded] at hsome
  cases h with
  | skip heq _ | lose heq | exhaust heq _ _ | record heq =>
    rw [heq] at hsome
    cases hsome
  | event hwaits hdep _ =>
    rw [State.get_setTask, State.get_setResult, if_neg]
    exact fun heq => huntouched _ _ (storedEvent_eq hwaits hdep) heq.symm
  | _ => rfl

theorem processEventDependencyData_congr (h : dep'.sourceNodeId = dep.sourceNodeId) :
    w.processEventDependencyData data dep' event = w.processEventDependencyData data dep event := by
  simp only [processEventDependencyData, h]

theorem Moved.delivered (h : Moved w node s m t)
    (hstored : storedEvent s (.task node m) = some (wait.1.sourceNodeId, wait.2)) :
    w.Delivered wait t := by
  cases h with
  | @event pending task index signal dep event data hwaits hdep hdata =>
    rw [storedEvent_eq hwaits hdep] at hstored
    simp only [Option.some.injEq, Prod.mk.injEq] at hstored
    obtain ⟨hsource, rfl⟩ := hstored
    rw [hsource] at hdata
    refine ⟨data, hdata, ?_⟩
    rw [State.get_setTask, State.get_setResult, hsource, if_pos rfl,
      processEventDependencyData_congr hsource]
  | _ => cases hstored

theorem Lives.grows (h : w.Lives node s) (hs : w.system.step s action t)
    (hapart : w.Apart node s action) : w.Grows node s t := by
  cases action with
  | emit other event data =>
    obtain ⟨_, _, _, rfl⟩ := hs
    exact ⟨subset_append_left .., fun _ _ _ => rfl, fun _ _ => .inl rfl⟩
  | task other m =>
    obtain ⟨hother, hm⟩ := hs
    have hmoved := moved_of_move hm
    constructor
    · exact hmoved.signals_subset
    · intro id hid hsome
      by_cases heq : id = other.id
      · subst heq
        exact hmoved.get_own (h other hother hid) (hapart.ids _ hid) hsome
      · exact hmoved.get_of_ne heq (hapart.ids _ hid)
    · intro wait hwait
      by_cases hkey : Untouched (buildNodeEventId wait.1.sourceNodeId wait.2) s (.task other m)
      · exact .inl (hmoved.get_of_ne (Ne.symm (hapart.results other m rfl wait hwait)) hkey)
      · simp only [Untouched, not_forall, not_not] at hkey
        obtain ⟨source, event, hstored, hkey⟩ := hkey
        obtain ⟨rfl, rfl⟩ := hapart.payloads source event hstored wait hwait hkey
        exact .inr (hmoved.delivered hstored)

/-- A node that has neither called its handler nor chosen a branch. -/
structure Idle (w : Automation) (node : Node) (s : State) : Prop where
  calls : s.callsOf node.id = []
  merge : s.sent (w.mergeName node.id) = false

/-- The events that a task has waited for have come, apart from `pending`. -/
structure Received (w : Automation) (dependencies : List DependencyInfo)
    (pending : List (DependencyInfo × String)) (s : State) : Prop where
  sub : pending ⊆ eventDependencies dependencies
  delivered : ∀ wait ∈ eventDependencies dependencies, wait ∈ pending ∨ w.Delivered wait s

def Refuted (w : Automation) (node : Node) (source : String) (s : State) : Prop :=
  ∃ dep ∈ w.dependenciesOn node source, w.Found dep s (.ok true)

/-- The race of a node: its waiters have got completion signals, and all sources are still to be
tried or refuted, except for the `current` one. -/
structure Racing (w : Automation) (node : Node) (race : Race) (current : Option String)
    (s : State) : Prop where
  mode : w.getDependencyModeForNode node = .any
  settled : ∀ entry ∈ race.settled, entry.2 = .source ∧ s.sent (w.completionName entry.1) = true
  pending : race.pending ⊆ w.dependencyMap.sources node.id
  examined : ∀ source ∈ w.dependencyMap.sources node.id,
    source ∈ race.pending ∨ current = some source ∨ w.Refuted node source s

def Selects (w : Automation) (node : Node) (dependencies : List DependencyInfo) : Prop :=
  match w.getDependencyModeForNode node with
  | .all => dependencies = w.dependencies node
  | .any => w.dependencies node = [] ∧ dependencies = [] ∨
      ∃ source ∈ w.dependencyMap.sources node.id, dependencies = w.dependenciesOn node source

/-- It is executed from these: none of them has failed. -/
structure Chosen (w : Automation) (node : Node) (dependencies : List DependencyInfo) (s : State) :
    Prop where
  selects : w.Selects node dependencies
  found : ∀ dep ∈ dependencies, w.Found dep s (.ok false)

structure Called (w : Automation) (node : Node) (s : State) : Prop where
  call : ∃ dependencies input, w.Chosen node dependencies s ∧
    s.callsOf node.id = [(node.id, input)] ∧
    (Plain dependencies → input = buildNodeInput s.get node dependencies)

def Refused (w : Automation) (node : Node) (s : State) : Prop :=
  match w.getDependencyModeForNode node with
  | .all => ∃ dep ∈ w.dependencies node, w.Found dep s (.ok true)
  | .any => w.dependencies node ≠ [] ∧
      ∀ source ∈ w.dependencyMap.sources node.id, w.Refuted node source s

/-- The node has failed for a dependency, without a call of its handler. -/
structure Skipped (w : Automation) (node : Node) (s : State) : Prop where
  idle : w.Idle node s
  result : s.get node.id = some (.failure node.id dependencyFailureReason)
  refused : w.Refused node s

/-- What holds of a node while its task stands where it stands. -/
def TaskView (w : Automation) (node : Node) (s : State) : Task → Prop
  | .started => w.Idle node s
  | .completions pending => w.Idle node s ∧ w.getDependencyModeForNode node = .all ∧
      pending ⊆ w.dependencies node ∧
      ∀ dep ∈ w.dependencies node, dep ∈ pending ∨ s.sent (w.completionName dep.sourceNodeId) = true
  | .events pending => w.Idle node s ∧ w.getDependencyModeForNode node = .all ∧
      w.SourcesSent node s ∧ w.Received (w.dependencies node) pending s
  | .racing race next => w.Idle node s ∧ w.Racing node race none s ∧
      (∀ winner, next = some winner → winner ∈ race.settled ∧ winner.1 ∈ race.pending) ∧
      (next = none → race.pending ≠ [] ∧ ∀ source ∈ race.pending, race.settled.lookup source = none)
  | .racedEvents race source pending => w.Idle node s ∧ w.Racing node race (some source) s ∧
      source ∈ w.dependencyMap.sources node.id ∧ s.sent (w.completionName source) = true ∧
      w.Received (w.dependenciesOn node source) pending s
  | .merging source => w.Idle node s ∧ w.Chosen node (w.dependenciesOn node source) s
  | .ready dependencies => s.callsOf node.id = [] ∧ w.Chosen node dependencies s
  | .ran _ => w.Called node s
  | .announcing _ | .done => w.Called node s ∨ w.Skipped node s
  | .rejected message => w.Idle node s ∧ ∃ dep ∈ w.dependencies node, w.Found dep s (.error message)

theorem mem_dependenciesOn :
    dep ∈ w.dependenciesOn node source ↔ dep ∈ w.dependencies node ∧ dep.sourceNodeId = source := by
  rw [dependenciesOn, mem_filter, beq_iff_eq]

theorem dependenciesOn_subset :
    w.dependenciesOn node source ⊆ w.dependencies node := fun _ h => (mem_dependenciesOn.1 h).1

theorem Selects.subset {dependencies : List DependencyInfo} (h : w.Selects node dependencies) :
    dependencies ⊆ w.dependencies node := by
  rw [Selects] at h
  split at h
  · exact h ▸ List.Subset.refl _
  · rcases h with ⟨_, rfl⟩ | ⟨source, _, rfl⟩
    · exact nil_subset _
    · exact dependenciesOn_subset

theorem Idle.frame (h : w.Idle node s) (hcalls : t.callsOf node.id = s.callsOf node.id)
    (hmerge : s.callsOf node.id = [] →
      t.sent (w.mergeName node.id) = s.sent (w.mergeName node.id)) : w.Idle node t :=
  ⟨hcalls.trans h.calls, (hmerge h.calls).trans h.merge⟩

theorem Received.found {dependencies : List DependencyInfo} (h : w.Received dependencies [] s)
    (hdep : dep ∈ dependencies) (hsent : s.sent (w.completionName dep.sourceNodeId) = true)
    (hcheck : checkDependencyFailure s.get dep = answer) : w.Found dep s answer := by
  apply found_of_check hsent _ hcheck
  intro event handle hevent
  have hwait : (dep, event) ∈ eventDependencies dependencies :=
    mem_eventDependencies.2 ⟨hdep, handle, hevent⟩
  exact (h.delivered _ hwait).resolve_left not_mem_nil

theorem begin_view (h : w.Idle node s) : w.TaskView node s (w.begin node) := by
  rw [Automation.begin]
  split
  · rename_i hempty
    refine ⟨h.calls, ?_, by simp⟩
    rw [Selects]
    split
    · exact hempty.symm
    · exact .inl ⟨hempty, rfl⟩
  · rename_i hne
    split
    · rename_i hmode
      have hmem {source : String} : source ∈ ((w.dependencies node).map (·.sourceNodeId)).eraseDups ↔
          source ∈ w.dependencyMap.sources node.id := mem_eraseDups
      refine ⟨h, ⟨hmode, by simp, ?_, ?_⟩, by rintro _ ⟨⟩, fun _ => ⟨?_, fun _ _ => rfl⟩⟩
      · intro source hsource
        exact hmem.1 hsource
      · intro source hsource
        exact .inl (hmem.2 hsource)
      · obtain ⟨dep, hdep⟩ := exists_mem_of_ne_nil _ hne
        exact ne_nil_of_mem (hmem.2 (mem_sources.2 ⟨dep, hdep, rfl⟩))
    · rename_i hmode
      exact ⟨h, hmode, List.Subset.refl _, fun dep hdep => .inl hdep⟩

section
variable (hg : w.Grows node s t) (hlives : w.Lives node s) (hw : w.Runnable) (hnode : node ∈ w.nodes)
include hg

theorem Received.grows {dependencies : List DependencyInfo}
    {pending : List (DependencyInfo × String)} (h : w.Received dependencies pending s)
    (hsub : dependencies ⊆ w.dependencies node) : w.Received dependencies pending t := by
  constructor
  · exact h.sub
  · intro wait hwait
    obtain ⟨hdep, hhandle⟩ := mem_eventDependencies.1 hwait
    exact (h.delivered wait hwait).imp_right
      (hg.delivered (mem_eventDependencies.2 ⟨hsub hdep, hhandle⟩))

include hlives hw hnode

theorem Refuted.grows (h : w.Refuted node source s) : w.Refuted node source t := by
  obtain ⟨dep, hdep, hfound⟩ := h
  exact ⟨dep, hdep, hg.found hlives hw hnode (mem_dependenciesOn.1 hdep).1 hfound⟩

theorem Racing.grows (h : w.Racing node race current s) : w.Racing node race current t := by
  constructor
  · exact h.mode
  · intro entry hentry
    obtain ⟨hkind, hsent⟩ := h.settled entry hentry
    exact ⟨hkind, hg.sent hsent⟩
  · exact h.pending
  · intro source hsource
    exact (h.examined source hsource).imp_right (.imp_right (Refuted.grows hg hlives hw hnode))

theorem Chosen.grows {dependencies : List DependencyInfo} (h : w.Chosen node dependencies s) :
    w.Chosen node dependencies t := by
  constructor
  · exact h.selects
  · intro dep hdep
    exact hg.found hlives hw hnode (h.selects.subset hdep) (h.found dep hdep)

theorem Called.grows (h : w.Called node s) (hcalls : t.callsOf node.id = s.callsOf node.id) :
    w.Called node t := by
  obtain ⟨dependencies, input, hchosen, hcall, hinput⟩ := h.call
  refine ⟨dependencies, input, hchosen.grows hg hlives hw hnode, hcalls.trans hcall, ?_⟩
  intro hplain
  rw [hinput hplain]
  apply buildNodeInput_congr node hplain
  intro dep hdep
  exact (hg.get_source hlives hw hnode (hchosen.selects.subset hdep) (hchosen.found dep hdep).1).symm

theorem Refused.grows (h : w.Refused node s) : w.Refused node t := by
  rw [Refused] at h ⊢
  split
  · rename_i hmode
    simp only [hmode] at h
    obtain ⟨dep, hdep, hfound⟩ := h
    exact ⟨dep, hdep, hg.found hlives hw hnode hdep hfound⟩
  · rename_i hmode
    simp only [hmode] at h
    exact ⟨h.1, fun source hsource => (h.2 source hsource).grows hg hlives hw hnode⟩

theorem TaskView.grows (h : w.TaskView node s task) (hcalls : t.callsOf node.id = s.callsOf node.id)
    (hmerge : s.callsOf node.id = [] → t.sent (w.mergeName node.id) = s.sent (w.mergeName node.id)): w.TaskView node t task := by
  have hskipped (h : w.Skipped node s) : w.Skipped node t := by
    constructor
    · exact h.idle.frame hcalls hmerge
    · rw [hg.results _ (mem_cons_self ..) (by rw [h.result]; rfl), h.result]
    · exact h.refused.grows hg hlives hw hnode
  cases task with
  | started => exact Idle.frame h hcalls hmerge
  | completions pending =>
    obtain ⟨hidle, hmode, hsub, hpending⟩ := h
    exact ⟨hidle.frame hcalls hmerge, hmode, hsub, fun dep hdep => (hpending dep hdep).imp_right hg.sent⟩
  | events pending =>
    obtain ⟨hidle, hmode, hsent, hreceived⟩ := h
    exact ⟨hidle.frame hcalls hmerge, hmode, fun dep hdep => hg.sent (hsent dep hdep),
      hreceived.grows hg (List.Subset.refl _)⟩
  | racing race next =>
    obtain ⟨hidle, hracing, hnext⟩ := h
    exact ⟨hidle.frame hcalls hmerge, hracing.grows hg hlives hw hnode, hnext⟩
  | racedEvents race source pending =>
    obtain ⟨hidle, hracing, hsource, hsent, hreceived⟩ := h
    exact ⟨hidle.frame hcalls hmerge, hracing.grows hg hlives hw hnode, hsource, hg.sent hsent,
      hreceived.grows hg dependenciesOn_subset⟩
  | merging source => exact ⟨h.1.frame hcalls hmerge, h.2.grows hg hlives hw hnode⟩
  | ready dependencies => exact ⟨hcalls.trans h.1, h.2.grows hg hlives hw hnode⟩
  | ran outcome => exact Called.grows hg hlives hw hnode h hcalls
  | announcing data | done =>
    exact Or.imp (fun h => Called.grows hg hlives hw hnode h hcalls) hskipped h
  | rejected message =>
    obtain ⟨hidle, dep, hdep, hfound⟩ := h
    exact ⟨hidle.frame hcalls hmerge, dep, hdep, hg.found hlives hw hnode hdep hfound⟩

end

theorem Refused.skip (h : w.Refused node s) (hidle : w.Idle node s)
    (hg : w.Grows node s (s.skip node.id)) (hlives : w.Lives node s) (hw : w.Runnable)
    (hnode : node ∈ w.nodes) :
    w.TaskView node (s.skip node.id) ((s.skip node.id).tasks node.id) := by
  rw [State.tasks_skip]
  right
  constructor
  · exact ⟨hidle.calls, hidle.merge⟩
  · rw [State.get_skip, if_pos rfl]
  · exact h.grows hg hlives hw hnode

theorem Racing.settle (h : w.Racing node race current s) (hidle : w.Idle node s)
    (hsent : s.sent (w.waitName node source kind) = true) : kind = .source ∧
      w.Racing node { race with settled := race.settled ++ [(source, kind)] } current s := by
  cases kind with
  | merge =>
    rw [waitName, hidle.merge] at hsent
    cases hsent
  | source =>
    refine ⟨rfl, h.mode, ?_, h.pending, h.examined⟩
    intro entry hentry
    rcases mem_append.1 hentry with hold | hnew
    · exact h.settled entry hold
    · rw [mem_singleton.1 hnew]
      exact ⟨rfl, hsent⟩

theorem Received.eraseIdx {dependencies : List DependencyInfo}
    {pending : List (DependencyInfo × String)} {index : Nat} {wait : DependencyInfo × String}
    (h : w.Received dependencies pending t) (hwait : pending[index]? = some wait)
    (hdelivered : w.Delivered wait t) : w.Received dependencies (pending.eraseIdx index) t := by
  constructor
  · exact List.Subset.trans (eraseIdx_subset ..) h.sub
  · intro other hother
    rcases h.delivered other hother with hpending | hother
    · rcases mem_or_getElem?_of_mem hpending index with hpending | hother
      · exact .inl hpending
      · obtain rfl : wait = other := Option.some.inj (hwait.symm.trans hother)
        exact .inr hdelivered
    · exact .inr hother

theorem Racing.take (h : w.Racing node race none s) :
    w.Racing node { race with pending := race.pending.erase source } (some source) s := by
  constructor
  · exact h.mode
  · exact h.settled
  · exact List.Subset.trans erase_subset h.pending
  · intro other hother
    rcases h.examined other hother with hpending | hnone | hrefuted
    · by_cases heq : other = source
      · exact .inr (.inl (heq ▸ rfl))
      · exact .inl ((mem_erase_of_ne heq).2 hpending)
    · cases hnone
    · exact .inr (.inr hrefuted)

theorem Racing.refute (h : w.Racing node race (some source) s) (hrefuted : w.Refuted node source s): w.Racing node race none s := by
  constructor
  · exact h.mode
  · exact h.settled
  · exact h.pending
  · intro other hother
    rcases h.examined other hother with hpending | heq | hother
    · exact .inl hpending
    · obtain rfl := Option.some.inj heq
      exact .inr (.inr hrefuted)
    · exact .inr (.inr hother)

theorem Received.refuted (h : w.Received (w.dependenciesOn node source) [] s)
    (hsent : s.sent (w.completionName source) = true)
    (hcheck : hasDependencyFailure s.get (w.dependenciesOn node source) = .ok true) :
    w.Refuted node source s := by
  obtain ⟨dep, hdep, hcheck⟩ := exists_of_hasDependencyFailure hcheck nofun
  exact ⟨dep, hdep, h.found hdep ((mem_dependenciesOn.1 hdep).2 ▸ hsent) hcheck⟩

theorem Racing.refused (h : w.Racing node race none s) (hempty : race.pending = []) (hsource : source ∈ w.dependencyMap.sources node.id) : w.Refused node s := by
  rw [Refused, h.mode]
  constructor
  · intro hdeps
    obtain ⟨dep, hdep, _⟩ := mem_sources.1 hsource
    rw [hdeps] at hdep
    cases hdep
  · intro other hother
    rcases h.examined other hother with hpending | hnone | hrefuted
    · rw [hempty] at hpending
      cases hpending
    · cases hnone
    · exact hrefuted

theorem settle_view {next}
    (h : w.TaskView node s (.racing race next)) (hsent : s.sent (w.waitName node source kind) = true) :
    w.TaskView node s (.racing { race with settled := race.settled ++ [(source, kind)] }
      (next.or (if source ∈ race.pending then some (source, kind) else none))) := by
  obtain ⟨hidle, hracing, hwinner, hnone⟩ := h
  refine ⟨hidle, (hracing.settle hidle hsent).2, ?_, ?_⟩
  · intro winner hnext
    cases next with
    | some winner' =>
      obtain rfl : winner' = winner := Option.some.inj hnext
      obtain ⟨hmem, hpending⟩ := hwinner _ rfl
      exact ⟨mem_append_left _ hmem, hpending⟩
    | none =>
      simp only [Option.none_or, Option.ite_none_right_eq_some, Option.some.injEq] at hnext
      obtain ⟨hpending, rfl⟩ := hnext
      exact ⟨by simp, hpending⟩
  · intro hnext
    -- a waiter of a pending source would have won
    simp only [Option.or_eq_none_iff, ite_eq_right_iff, reduceCtorEq, imp_false] at hnext
    obtain ⟨hne, hnone⟩ := hnone hnext.1
    refine ⟨hne, ?_⟩
    intro other hother
    rw [lookup_append, hnone other hother, Option.none_or]
    have hne : other ≠ source := fun heq => hnext.2 (heq ▸ hother)
    simp [lookup_cons, beq_eq_false_iff_ne.2 hne]

theorem next_view (hidle : w.Idle node s) (hracing : w.Racing node race none s)
    (hpending : race.pending ≠ []) :
    w.TaskView node s (.racing race
      (race.pending.findSome? fun source => (race.settled.lookup source).map (source, ·))) := by
  refine ⟨hidle, hracing, ?_, ?_⟩
  · intro winner hwinner
    obtain ⟨other, hother, hsettled⟩ := List.exists_of_findSome?_eq_some hwinner
    obtain ⟨kind, hlookup, rfl⟩ := Option.map_eq_some_iff.1 hsettled
    exact ⟨mem_of_lookup hlookup, hother⟩
  · intro hnone
    refine ⟨hpending, ?_⟩
    intro other hother
    exact Option.map_eq_none_iff.1 (List.findSome?_eq_none_iff.1 hnone other hother)

theorem TaskView.moved (h : w.TaskView node s (s.tasks node.id)) (hm : Moved w node s m t)
    (hg : w.Grows node s t) (hlives : w.Lives node s) (hw : w.Runnable) (hnode : node ∈ w.nodes) :
    w.TaskView node t (t.tasks node.id) := by
  cases hm with
  | begin heq =>
    rw [heq] at h
    rw [State.tasks_setTask]
    exact (begin_view h).grows hg hlives hw hnode rfl (fun _ => rfl)
  | @completion pending index dep heq hdep hsent =>
    rw [heq] at h
    obtain ⟨hidle, hmode, hsub, hpending⟩ := h
    rw [State.tasks_setTask]
    refine ⟨⟨hidle.calls, hidle.merge⟩, hmode, List.Subset.trans (eraseIdx_subset ..) hsub, ?_⟩
    intro d hd
    rcases hpending d hd with hd | hd
    · rcases mem_or_getElem?_of_mem hd index with hd | hd
      · exact .inl hd
      · obtain rfl : dep = d := Option.some.inj (hdep.symm.trans hd)
        exact .inr hsent
    · exact .inr hd
  | resume heq =>
    rw [heq] at h
    obtain ⟨hidle, hmode, _, hpending⟩ := h
    rw [State.tasks_setTask]
    refine ⟨⟨hidle.calls, hidle.merge⟩, hmode, ?_, List.Subset.refl _, fun wait hwait => .inl hwait⟩
    intro dep hdep
    exact (hpending dep hdep).resolve_left not_mem_nil
  | @reject message heq hcheck =>
    rw [heq] at h
    obtain ⟨hidle, _, hsent, hreceived⟩ := h
    obtain ⟨dep, hdep, hcheck⟩ := exists_of_hasDependencyFailure hcheck (by rintro ⟨⟩)
    have hview : w.TaskView node s (.rejected message) :=
      ⟨hidle, dep, hdep, hreceived.found hdep (hsent dep hdep) hcheck⟩
    rw [State.tasks_setTask]
    exact hview.grows hg hlives hw hnode rfl (fun _ => rfl)
  | skip heq hcheck =>
    rw [heq] at h
    obtain ⟨hidle, hmode, hsent, hreceived⟩ := h
    obtain ⟨dep, hdep, hcheck⟩ := exists_of_hasDependencyFailure hcheck (by rintro ⟨⟩)
    apply Refused.skip _ hidle hg hlives hw hnode
    rw [Refused, hmode]
    exact ⟨dep, hdep, hreceived.found hdep (hsent dep hdep) hcheck⟩
  | pass heq hcheck =>
    rw [heq] at h
    obtain ⟨hidle, hmode, hsent, hreceived⟩ := h
    have hchecks := hasDependencyFailure_eq_false_iff.1 hcheck
    have hchosen : w.Chosen node (w.dependencies node) s := by
      constructor
      · rw [Selects, hmode]
      · intro dep hdep
        exact hreceived.found hdep (hsent dep hdep) (hchecks dep hdep)
    rw [State.tasks_setTask]
    exact ⟨hidle.calls, hchosen.grows hg hlives hw hnode⟩
  | @event pending task index signal dep event data hwaits hdep hdata =>
    have hmoved : Moved w node s (.event index signal) _ := .event hwaits hdep hdata
    have hdelivered : w.Delivered (dep, event) _ := hmoved.delivered (storedEvent_eq hwaits hdep)
    rw [State.tasks_setTask]
    cases heq : s.tasks node.id with
    | events pending' =>
      rw [heq] at h hwaits
      cases hwaits
      obtain ⟨hidle, hmode, hsent, hreceived⟩ := h
      exact ⟨⟨hidle.calls, hidle.merge⟩, hmode, hsent,
        (hreceived.grows hg (List.Subset.refl _)).eraseIdx hdep hdelivered⟩
    | racedEvents race source pending' =>
      rw [heq] at h hwaits
      cases hwaits
      obtain ⟨hidle, hracing, hsource, hsent, hreceived⟩ := h
      exact ⟨⟨hidle.calls, hidle.merge⟩, hracing.grows hg hlives hw hnode, hsource, hsent,
        (hreceived.grows hg dependenciesOn_subset).eraseIdx hdep hdelivered⟩
    | _ => simp [heq, Task.eventWaits] at hwaits
  | @settle race next source kind heq hsent hsource hlookup =>
    rw [heq] at h
    rw [State.tasks_setTask]
    exact (settle_view h hsent).grows hg hlives hw hnode rfl (fun _ => rfl)
  | @settleRaced race current source pending kind heq hsent hsource hlookup =>
    rw [heq] at h
    obtain ⟨hidle, hracing, hrest⟩ := h
    have hview : w.TaskView node s
        (.racedEvents { race with settled := race.settled ++ [(source, kind)] } current pending) :=
      ⟨hidle, (hracing.settle hidle hsent).2, hrest⟩
    rw [State.tasks_setTask]
    exact hview.grows hg hlives hw hnode rfl (fun _ => rfl)
  | @lose race source heq =>
    -- the merge signal has not been sent
    rw [heq] at h
    obtain ⟨_, hracing, hwinner, _⟩ := h
    cases (hracing.settled _ (hwinner _ rfl).1).1
  | @take race source heq =>
    rw [heq] at h
    obtain ⟨hidle, hracing, hwinner, _⟩ := h
    obtain ⟨hsettled, hpending⟩ := hwinner _ rfl
    have hview : w.TaskView node s (.racedEvents { race with pending := race.pending.erase source }
        source (eventDependencies (w.dependenciesOn node source))) :=
      ⟨hidle, hracing.take, hracing.pending hpending, (hracing.settled _ hsettled).2,
        List.Subset.refl _, fun wait hwait => .inl hwait⟩
    rw [State.tasks_setTask]
    exact hview.grows hg hlives hw hnode rfl (fun _ => rfl)
  | @rejectRaced race source message heq hcheck =>
    rw [heq] at h
    obtain ⟨hidle, _, _, hsent, hreceived⟩ := h
    obtain ⟨dep, hdep, hcheck⟩ := exists_of_hasDependencyFailure hcheck (by rintro ⟨⟩)
    obtain ⟨hmem, hid⟩ := mem_dependenciesOn.1 hdep
    have hview : w.TaskView node s (.rejected message) :=
      ⟨hidle, dep, hmem, hreceived.found hdep (hid ▸ hsent) hcheck⟩
    rw [State.tasks_setTask]
    exact hview.grows hg hlives hw hnode rfl (fun _ => rfl)
  | exhaust heq hcheck hempty =>
    rw [heq] at h
    obtain ⟨hidle, hracing, hsource, hsent, hreceived⟩ := h
    have hrefused := (hracing.refute (hreceived.refuted hsent hcheck)).refused hempty hsource
    exact hrefused.skip hidle hg hlives hw hnode
  | @next race source heq hcheck hpending =>
    rw [heq] at h
    obtain ⟨hidle, hracing, _, hsent, hreceived⟩ := h
    rw [State.tasks_setTask]
    exact (next_view hidle (hracing.refute (hreceived.refuted hsent hcheck)) hpending).grows hg hlives hw
      hnode rfl (fun _ => rfl)
  | @choose race source heq hcheck =>
    rw [heq] at h
    obtain ⟨hidle, hracing, hsource, hsent, hreceived⟩ := h
    have hchecks := hasDependencyFailure_eq_false_iff.1 hcheck
    have hview : w.TaskView node s (.merging source) := by
      refine ⟨hidle, ?_, ?_⟩
      · rw [Selects, hracing.mode]
        exact .inr ⟨source, hsource, rfl⟩
      · intro dep hdep
        exact hreceived.found hdep ((mem_dependenciesOn.1 hdep).2 ▸ hsent) (hchecks dep hdep)
    rw [State.tasks_setTask]
    exact hview.grows hg hlives hw hnode rfl (fun _ => rfl)
  | merge heq =>
    rw [heq] at h
    obtain ⟨hidle, hchosen⟩ := h
    rw [State.tasks_setTask]
    exact ⟨hidle.calls, hchosen.grows hg hlives hw hnode⟩
  | @execute dependencies heq =>
    rw [heq] at h
    obtain ⟨hcalls, hchosen⟩ := h
    rw [State.tasks_setTask]
    refine ⟨dependencies, buildNodeInput s.get node dependencies,
      hchosen.grows hg hlives hw hnode, ?_, fun _ => rfl⟩
    rw [State.callsOf_setTask, executeNode_input (hw.accepted.resolves node hnode),
      State.callsOf_call, hcalls, if_pos rfl, nil_append]
  | record heq =>
    rw [heq] at h
    rw [State.tasks_setTask]
    exact .inl (Called.grows hg hlives hw hnode h rfl)
  | @announce data heq =>
    rw [heq] at h
    rw [State.tasks_setTask]
    refine (TaskView.grows hg hlives hw hnode h rfl ?_ : w.TaskView node _ (.announcing data))
    intro _
    rw [State.sent_setTask, State.sent_send, beq_eq_false_iff_ne.2 mergeName_ne_completionName.symm,
      Bool.or_false]

/-- The invariant of the runs whose steps are apart from a node. -/
structure View (w : Automation) (node : Node) (s : State) : Prop where
  lives : w.Lives node s
  task : w.TaskView node s (s.tasks node.id)

theorem View.start : w.View node initial := ⟨fun _ _ _ => Life.start, rfl, rfl⟩

theorem View.step (h : w.View node s) (hw : w.Runnable) (hnode : node ∈ w.nodes)
    (hs : w.system.step s action t) (hapart : w.Apart node s action) : w.View node t := by
  have hg := h.lives.grows hs hapart
  refine ⟨h.lives.step hw hs hapart, ?_⟩
  cases action with
  | emit other event data =>
    obtain ⟨hother, ⟨input, hcalled⟩, hevent, rfl⟩ := hs
    apply h.task.grows hg h.lives hw hnode rfl
    intro hcalls
    -- the events of the node itself come after its call
    have hid : other.id ≠ node.id := by
      intro heq
      exact mem_callsOf.2 ⟨input, heq ▸ hcalled⟩ hcalls
    rw [State.sent_send, Bool.or_eq_left_iff_imp]
    intro hname
    exact absurd (beq_iff_eq.1 hname)
      (hw.names.ne hother hnode hid (eventName_mem hevent) mergeName_mem)
  | task other m =>
    obtain ⟨hother, hm⟩ := hs
    have hmoved := moved_of_move hm
    by_cases hid : node.id = other.id
    · obtain rfl := hw.eq_of_id hnode hother hid
      exact h.task.moved hmoved hg h.lives hw hnode
    · rw [hmoved.tasks_of_ne hid]
      apply h.task.grows hg h.lives hw hnode (hmoved.callsOf_of_ne hid)
      intro _
      exact hmoved.sent_of_ne (hw.names.ne hother hnode (Ne.symm hid) completionName_mem mergeName_mem)
        (hw.names.ne hother hnode (Ne.symm hid) mergeName_mem mergeName_mem)

theorem View.run (h : w.View node s) (hw : w.Runnable)
    (hnode : node ∈ w.nodes) (hr : w.system.Run s tr t) (hapart : ∀ p ∈ tr, w.Apart node p.1 p.2) :
    w.View node t := by
  have hall := hr.forall_states h fun p hp hview u hu => hview.step hw hnode hu (hapart p hp)
  exact hall t (end_mem_states ..)

theorem View.idle_or_called (h : w.View node s) : s.callsOf node.id = [] ∨ w.Called node s := by
  have htask := h.task
  cases heq : s.tasks node.id with
  | started =>
    rw [heq] at htask
    exact .inl (Idle.calls htask)
  | completions | events | racing | racedEvents | merging | rejected =>
    rw [heq] at htask
    exact .inl htask.1.calls
  | ready =>
    rw [heq] at htask
    exact .inl htask.1
  | ran =>
    rw [heq] at htask
    exact .inr htask
  | announcing | done =>
    rw [heq] at htask
    exact htask.symm.imp_left fun hskipped => hskipped.idle.calls

theorem Called.callsOf_ne (h : w.Called node s) : s.callsOf node.id ≠ [] := by
  obtain ⟨_, _, _, hcall, _⟩ := h.call
  rw [hcall]
  exact cons_ne_nil _ _

theorem View.skipped (h : w.View node s) (hnode : node ∈ w.nodes) (hcalls : s.callsOf node.id = [])
    (hsome : (s.get node.id).isSome = true) : w.Skipped node s := by
  rw [(h.lives node hnode (mem_cons_self ..)).recorded] at hsome
  have htask := h.task
  cases heq : s.tasks node.id with
  | announcing | done =>
    rw [heq] at htask
    rcases htask with hcalled | hskipped
    · exact absurd hcalls hcalled.callsOf_ne
    · exact hskipped
  | _ => simp [heq, Task.recorded] at hsome

end Automation

end Trakrai.Workflow
