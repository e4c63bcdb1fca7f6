import Mathlib.Tactic.IntervalCases
import Trakrai.Lib.JoinedNames
import Trakrai.Workflow.Failures

namespace Trakrai.Workflow
open List Lib

inductive Signal where
  | completion (node : Node)
  | event (node : Node) (name : String)
  | merge (node : Node)

def Signal.node : Signal → Node
  | .completion node => node
  | .event node _ => node
  | .merge node => node

inductive WaitPurpose where
  | completion
  | merge
  | event (name : String)

def WaitPurpose.suffix : WaitPurpose → String
  | .completion => "completion"
  | .merge => "merge"
  | .event name => "event-" ++ name

def buildWaitStepId (eventId sourceNodeId targetNodeId : String) (suffix : Option String) :
    String :=
  let base := "wait-for-" ++ eventId ++ "-" ++ sourceNodeId ++ "-dep-" ++ targetNodeId
  match suffix with
  | some suffix => if suffix ≠ "" then base ++ "-" ++ suffix else base
  | none => base

inductive StepPurpose where
  | wait (source target : Node) (awaited : WaitPurpose)
  | emitMerge (node : Node)
  | emitFailure (node : Node)
  | emitCompletion (node : Node)

inductive Entry where
  | result (node : Node)
  | event (node : Node) (name : String)

def Entry.key : Entry → String
  | .result node => node.id
  | .event node name => buildNodeEventId node.id name

section
variable {a b c d : String}

theorem runsOn_hashes : RunsOn "###".toList a.toList b.toList c.toList d.toList ↔
    (∃ y : String, c = a ++ "###" ++ y ∧ b = y ++ "###" ++ d) ∨ (c = a ++ "#" ∧ b = "#" ++ d) ∨
      (c = a ++ "##" ∧ b = "##" ++ d) := by
  rw [runsOn_iff (by decide), exists_ofList]
  simp only [← String.toList_inj, String.toList_append, append_assoc]
  apply or_congr_right
  constructor
  · rintro ⟨k, hpos, hlt, -, hc, hb⟩
    have hlen : "###".toList.length = 3 := rfl
    rw [hlen] at hlt
    interval_cases k
    · exact .inl ⟨hc, hb⟩
    · exact .inr ⟨hc, hb⟩
  · rintro (⟨hc, hb⟩ | ⟨hc, hb⟩)
    · exact ⟨1, by decide, by decide, by decide, hc, hb⟩
    · exact ⟨2, by decide, by decide, by decide, hc, hb⟩

theorem runsOn_dep : RunsOn "-dep-".toList a.toList b.toList c.toList d.toList ↔
    (∃ y : String, c = a ++ "-dep-" ++ y ∧ b = y ++ "-dep-" ++ d) ∨
      (c = a ++ "-dep" ∧ b = "dep-" ++ d) := by
  rw [runsOn_iff (by decide), exists_ofList]
  simp only [← String.toList_inj, String.toList_append, append_assoc]
  apply or_congr_right
  constructor
  · rintro ⟨k, hpos, hlt, hoverlap, hc, hb⟩
    have hlen : "-dep-".toList.length = 5 := rfl
    rw [hlen] at hlt
    interval_cases k
    · exact absurd hoverlap (by decide)
    · exact absurd hoverlap (by decide)
    · exact absurd hoverlap (by decide)
    · exact ⟨hc, hb⟩
  · rintro ⟨hc, hb⟩
    exact ⟨4, by decide, by decide, by decide, hc, hb⟩

end

namespace Automation
variable (w : Automation)

def signalName : Signal → String
  | .completion node => w.completionName node.id
  | .event node event => w.eventName node.id event
  | .merge node => w.mergeName node.id

def stepId : StepPurpose → String
  | .wait source target awaited =>
    buildWaitStepId w.eventId source.id target.id (some awaited.suffix)
  | .emitMerge node => "emit-merge-" ++ w.eventId ++ "-" ++ node.id
  | .emitFailure node => "emit-failure-" ++ w.eventId ++ "-" ++ node.id
  | .emitCompletion node => "emit-completion-" ++ w.eventId ++ "-" ++ node.id

/-- A dependency of `target` on `source` waits for the event. -/
def AwaitsEvent (source target : Node) (event : String) : Prop :=
  ∃ wait ∈ eventDependencies (w.dependencies target),
    wait.1.sourceNodeId = source.id ∧ wait.2 = event

def HasEvent (node : Node) (event : String) : Prop :=
  event ∈ w.events node ∨ ∃ target ∈ w.nodes, w.AwaitsEvent node target event

def Merges (node : Node) : Prop :=
  w.getDependencyModeForNode node = .any ∧ w.dependencies node ≠ []

def UsesSignal : Signal → Prop
  | .completion node => node ∈ w.nodes
  | .event node event => node ∈ w.nodes ∧ w.HasEvent node event
  | .merge node => node ∈ w.nodes ∧ w.Merges node

def Waits (source target : Node) : WaitPurpose → Prop
  | .completion => source.id ∈ w.dependencyMap.sources target.id
  | .merge => source.id ∈ w.dependencyMap.sources target.id ∧ w.Merges target
  | .event event => w.AwaitsEvent source target event

def UsesStep : StepPurpose → Prop
  | .wait source target awaited =>
    source ∈ w.nodes ∧ target ∈ w.nodes ∧ w.Waits source target awaited
  | .emitMerge node => node ∈ w.nodes ∧ w.Merges node
  | .emitFailure node => node ∈ w.nodes
  | .emitCompletion node => node ∈ w.nodes

def UsesEntry : Entry → Prop
  | .result node => node ∈ w.nodes
  | .event node event => node ∈ w.nodes ∧ w.HasEvent node event

/-- No name stands for two signals, two steps or two results. -/
structure Unambiguous : Prop where
  signals : Set.InjOn w.signalName {signal | w.UsesSignal signal}
  steps : Set.InjOn w.stepId {purpose | w.UsesStep purpose}
  entries : Set.InjOn Entry.key {entry | w.UsesEntry entry}

def HasLabel (node : Node) (label : String) : Prop :=
  w.HasEvent node label ∨ w.Merges node ∧ label = "merge-any"

/-- No event is named as the merge signal, and where the id of a node goes on after the one of
another, the rest is no label of the other one, neither alone nor with a label. -/
structure SignalsApart : Prop where
  merge : ∀ node ∈ w.nodes, w.Merges node → ¬ w.HasEvent node "merge-any"
  continued : ∀ n ∈ w.nodes, ∀ m ∈ w.nodes, ∀ y, m.id = n.id ++ "-" ++ y →
    ¬ w.HasLabel n y ∧ ∀ label, w.HasLabel m label → ¬ w.HasLabel n (y ++ "-" ++ label)

def waitTail (target : Node) (awaited : WaitPurpose) : String := target.id ++ "-" ++ awaited.suffix

structure StepsApart : Prop where
  targets : ∀ source ∈ w.nodes, ∀ n ∈ w.nodes, ∀ m ∈ w.nodes, ∀ a b,
    w.Waits source n a → w.Waits source m b →
    ∀ y, m.id = n.id ++ "-" ++ y → a.suffix ≠ y ++ "-" ++ b.suffix
  sources : ∀ n ∈ w.nodes, ∀ m ∈ w.nodes, ∀ t ∈ w.nodes, ∀ u ∈ w.nodes, ∀ a b,
    w.Waits n t a → w.Waits m u b →
    (∀ y, m.id = n.id ++ "-dep-" ++ y → waitTail t a ≠ y ++ "-dep-" ++ waitTail u b) ∧
    (m.id = n.id ++ "-dep" → waitTail t a ≠ "dep-" ++ waitTail u b)

structure EntriesApart : Prop where
  continued : ∀ n ∈ w.nodes, ∀ m ∈ w.nodes, ∀ y, m.id = n.id ++ "###" ++ y →
    ¬ w.HasEvent n y ∧ ∀ event, w.HasEvent m event → ¬ w.HasEvent n (y ++ "###" ++ event)
  overlaps : ∀ n ∈ w.nodes, ∀ m ∈ w.nodes, ∀ mark ∈ ["#", "##"], m.id = n.id ++ mark →
    ∀ event, w.HasEvent m event → ¬ w.HasEvent n (mark ++ event)

/-- No id goes on after another one in a way that the names of events make up for. -/
structure NamesApart : Prop where
  signals : w.SignalsApart
  steps : w.StepsApart
  entries : w.EntriesApart

variable {w}

theorem node_ext (h : (w.nodes.map Node.id).Nodup) (hn : n ∈ w.nodes) (hm : m ∈ w.nodes)
    (hid : n.id = m.id) : n = m :=
  inj_on_of_nodup_map h hn hm hid

theorem ne_append_dash : a ≠ a ++ "-" ++ y := by
  intro h
  have hlength := congrArg String.length h
  simp only [String.length_append] at hlength
  have hdash : "-".length = 1 := rfl
  omega

section
variable {n m : Node} {a b : String}

theorem completionName_eq_iff : w.completionName n.id = w.completionName m.id ↔ n.id = m.id := by
  constructor
  · intro h
    have htext : w.eventId ++ "-" ++ n.id = w.eventId ++ "-" ++ m.id := base64Text_inj h
    exact (String.append_right_inj _).1 htext
  · intro h
    rw [h]

theorem completionName_eq_eventName_iff :
    w.completionName m.id = w.eventName n.id a ↔ m.id = n.id ++ "-" ++ a := by
  constructor
  · intro h
    have htext : w.eventId ++ "-" ++ m.id = w.eventId ++ "-" ++ (n.id ++ "-" ++ a) := base64Text_inj h
    exact (String.append_right_inj _).1 htext
  · intro h
    rw [h]
    rfl

theorem eventName_eq_iff :
    w.eventName n.id a = w.eventName m.id b ↔ n.id ++ "-" ++ a = m.id ++ "-" ++ b := by
  constructor
  · intro h
    have htext : w.eventId ++ "-" ++ (n.id ++ "-" ++ a) = w.eventId ++ "-" ++ (m.id ++ "-" ++ b) :=
      base64Text_inj h
    exact (String.append_right_inj _).1 htext
  · intro h
    have htext : w.eventId ++ "-" ++ (n.id ++ "-" ++ a) = w.eventId ++ "-" ++ (m.id ++ "-" ++ b) := by
      rw [h]
    exact congrArg base64Text htext

end

def Labelled (node : Node) (label : String) (signal : Signal) : Prop :=
  signal = .event node label ∨ signal = .merge node ∧ label = "merge-any"

section
variable {n m : Node} {a b : String} {x y : Signal}

theorem Labelled.name (h : Labelled n a x) : w.signalName x = w.eventName n.id a := by
  rcases h with rfl | ⟨rfl, rfl⟩
  · rfl
  · rfl

theorem Labelled.node (h : Labelled n a x) : x.node = n := by
  rcases h with rfl | ⟨rfl, -⟩
  · rfl
  · rfl

theorem exists_labelled (hn : n ∈ w.nodes) (h : w.HasLabel n a) :
    ∃ x, w.UsesSignal x ∧ Labelled n a x := by
  rcases h with h | ⟨h, rfl⟩
  · exact ⟨.event n a, ⟨hn, h⟩, .inl rfl⟩
  · exact ⟨.merge n, ⟨hn, h⟩, .inr ⟨rfl, rfl⟩⟩

theorem uses_cases (h : w.UsesSignal x) : (∃ n ∈ w.nodes, x = .completion n) ∨
    ∃ n ∈ w.nodes, ∃ a, w.HasLabel n a ∧ Labelled n a x := by
  cases x with
  | completion n => exact .inl ⟨n, h, rfl⟩
  | event n a => exact .inr ⟨n, h.1, a, .inl h.2, .inl rfl⟩
  | merge n => exact .inr ⟨n, h.1, "merge-any", .inr ⟨h.2, rfl⟩, .inr ⟨rfl, rfl⟩⟩

theorem SignalsApart.labelled (h : w.SignalsApart) (hx : w.UsesSignal x) (hy : w.UsesSignal y)
    (hn : Labelled n a x) (hm : Labelled n a y) : x = y := by
  rcases hn with rfl | ⟨rfl, rfl⟩
  · rcases hm with rfl | ⟨rfl, rfl⟩
    · rfl
    · exact absurd hx.2 (h.merge n hy.1 hy.2)
  · rcases hm with rfl | ⟨rfl, -⟩
    · exact absurd hy.2 (h.merge n hx.1 hx.2)
    · rfl

theorem SignalsApart.completion_ne (h : w.SignalsApart) (hn : n ∈ w.nodes) (hm : m ∈ w.nodes)
    (ha : w.HasLabel n a) : w.completionName m.id ≠ w.eventName n.id a := by
  intro heq
  exact (h.continued n hn m hm a (completionName_eq_eventName_iff.1 heq)).1 ha

theorem SignalsApart.label_inj (h : w.SignalsApart) (hnodup : (w.nodes.map Node.id).Nodup)
    (hn : n ∈ w.nodes) (hm : m ∈ w.nodes) (ha : w.HasLabel n a) (hb : w.HasLabel m b)
    (heq : w.eventName n.id a = w.eventName m.id b) : n = m ∧ a = b := by
  rcases (joinedText_eq_iff "-").1 (eventName_eq_iff.1 heq) with ⟨hid, hab⟩ | hruns | hruns
  · exact ⟨node_ext hnodup hn hm hid, hab⟩
  · obtain ⟨y, hid, rfl⟩ := runsOn_dash.1 hruns
    exact absurd ha ((h.continued n hn m hm y hid).2 b hb)
  · obtain ⟨y, hid, rfl⟩ := runsOn_dash.1 hruns
    exact absurd hb ((h.continued m hm n hn y hid).2 a ha)

theorem SignalsApart.injOn (h : w.SignalsApart) (hnodup : (w.nodes.map Node.id).Nodup) :
    Set.InjOn w.signalName {signal | w.UsesSignal signal} := by
  intro x hx y hy heq
  rcases uses_cases hx with ⟨n, hn, rfl⟩ | ⟨n, hn, a, ha, hlabelled⟩
  · rcases uses_cases hy with ⟨m, hm, rfl⟩ | ⟨m, hm, b, hb, hlabelled'⟩
    · rw [node_ext hnodup hn hm (completionName_eq_iff.1 heq)]
    · rw [hlabelled'.name] at heq
      exact absurd heq (h.completion_ne hm hn hb)
  · rcases uses_cases hy with ⟨m, hm, rfl⟩ | ⟨m, hm, b, hb, hlabelled'⟩
    · rw [hlabelled.name] at heq
      exact absurd heq.symm (h.completion_ne hn hm ha)
    · rw [hlabelled.name, hlabelled'.name] at heq
      obtain ⟨rfl, rfl⟩ := h.label_inj hnodup hn hm ha hb heq
      exact h.labelled hx hy hlabelled hlabelled'

theorem signalsApart_of_injOn (h : Set.InjOn w.signalName {signal | w.UsesSignal signal}) :
    w.SignalsApart where
  merge n hn hmerges hevent := by
    have hx : w.UsesSignal (.event n "merge-any") := ⟨hn, hevent⟩
    have hy : w.UsesSignal (.merge n) := ⟨hn, hmerges⟩
    have heq : Signal.event n "merge-any" = .merge n := h hx hy rfl
    cases heq
  continued n hn m hm y hid := by
    constructor
    · intro hy
      obtain ⟨x, hx, hlabelled⟩ := exists_labelled hn hy
      have hname : w.signalName (.completion m) = w.signalName x := by
        rw [hlabelled.name]
        exact completionName_eq_eventName_iff.2 hid
      obtain rfl := h hm hx hname
      rcases hlabelled with heq | ⟨heq, -⟩
      · cases heq
      · cases heq
    · intro label hlabel hy
      obtain ⟨x, hx, hlabelled⟩ := exists_labelled hn hy
      obtain ⟨z, hz, hlabelled'⟩ := exists_labelled hm hlabel
      have hname : w.signalName x = w.signalName z := by
        rw [hlabelled.name, hlabelled'.name]
        apply eventName_eq_iff.2
        rw [hid]
        simp only [String.append_assoc]
      obtain rfl := h hx hz hname
      obtain rfl : n = m := hlabelled.node.symm.trans hlabelled'.node
      exact ne_append_dash hid

end

section
variable {n m t u : Node} {a b : WaitPurpose}

theorem suffix_inj (h : a.suffix = b.suffix) : a = b := by
  have hstart (x : String) : "completion" ≠ "event-" ++ x ∧ "merge" ≠ "event-" ++ x := by
    simp [← String.toList_inj]
  cases a with
  | completion =>
    cases b with
    | completion => rfl
    | merge => exact absurd h (by decide)
    | event y => exact absurd h (hstart y).1
  | merge =>
    cases b with
    | completion => exact absurd h (by decide)
    | merge => rfl
    | event y => exact absurd h (hstart y).2
  | event x =>
    cases b with
    | completion => exact absurd h.symm (hstart x).1
    | merge => exact absurd h.symm (hstart x).2
    | event y => rw [(String.append_right_inj _).1 h]

theorem suffix_ne_empty : a.suffix ≠ "" := by
  cases a with
  | completion => decide
  | merge => decide
  | event x => simp [WaitPurpose.suffix, ← String.toList_inj]

theorem stepId_wait : w.stepId (.wait n t a) =
    "wait-for-" ++ (w.eventId ++ "-" ++ (n.id ++ "-dep-" ++ waitTail t a)) := by
  calc w.stepId (.wait n t a)
      = "wait-for-" ++ w.eventId ++ "-" ++ n.id ++ "-dep-" ++ t.id ++ "-" ++ a.suffix :=
        if_pos suffix_ne_empty
    _ = "wait-for-" ++ (w.eventId ++ "-" ++ (n.id ++ "-dep-" ++ waitTail t a)) := by
        simp only [waitTail, String.append_assoc]

theorem stepId_wait_eq_iff : w.stepId (.wait n t a) = w.stepId (.wait m u b) ↔
    n.id ++ "-dep-" ++ waitTail t a = m.id ++ "-dep-" ++ waitTail u b := by
  rw [stepId_wait, stepId_wait, String.append_right_inj, String.append_right_inj]

/-- How the id of a step begins. -/
def start : StepPurpose → String
  | .wait .. => "wait-for-"
  | .emitMerge _ => "emit-merge-"
  | .emitFailure _ => "emit-failure-"
  | .emitCompletion _ => "emit-completion-"

theorem start_eq (h : start p ++ x = start q ++ y) : start p = start q := by
  rw [← String.toList_inj] at h
  cases p <;> cases q <;> simp [start] at h ⊢

theorem append_append_append (x y z u : String) : x ++ y ++ z ++ u = x ++ (y ++ (z ++ u)) := by
  simp only [String.append_assoc]

theorem exists_stepId (w : Automation) (p : StepPurpose) : ∃ x, w.stepId p = start p ++ x := by
  cases p with
  | wait => exact ⟨_, stepId_wait⟩
  | emitMerge node => exact ⟨_, append_append_append _ _ _ _⟩
  | emitFailure node => exact ⟨_, append_append_append _ _ _ _⟩
  | emitCompletion node => exact ⟨_, append_append_append _ _ _ _⟩

theorem start_eq_of_stepId (h : w.stepId p = w.stepId q) : start p = start q := by
  obtain ⟨x, hx⟩ := w.exists_stepId p
  obtain ⟨y, hy⟩ := w.exists_stepId q
  rw [hx, hy] at h
  exact start_eq h

theorem StepsApart.wait_inj (h : w.StepsApart) (hnodup : (w.nodes.map Node.id).Nodup)
    (hx : w.UsesStep (.wait n t a)) (hy : w.UsesStep (.wait m u b))
    (heq : w.stepId (.wait n t a) = w.stepId (.wait m u b)) :
    StepPurpose.wait n t a = .wait m u b := by
  obtain ⟨hn, ht, ha⟩ := hx
  obtain ⟨hm, hu, hb⟩ := hy
  rcases (joinedText_eq_iff "-dep-").1 (stepId_wait_eq_iff.1 heq) with ⟨hid, htails⟩ | hruns | hruns
  · obtain rfl := node_ext hnodup hn hm hid
    rcases (joinedText_eq_iff "-").1 htails with ⟨hid, hsuffix⟩ | hruns | hruns
    · rw [node_ext hnodup ht hu hid, suffix_inj hsuffix]
    · obtain ⟨y, hid, hsuffix⟩ := runsOn_dash.1 hruns
      exact absurd hsuffix (h.targets n hn t ht u hu a b ha hb y hid)
    · obtain ⟨y, hid, hsuffix⟩ := runsOn_dash.1 hruns
      exact absurd hsuffix (h.targets n hn u hu t ht b a hb ha y hid)
  · have hsources := h.sources n hn m hm t ht u hu a b ha hb
    rcases runsOn_dep.1 hruns with ⟨y, hid, htail⟩ | ⟨hid, htail⟩
    · exact absurd htail (hsources.1 y hid)
    · exact absurd htail (hsources.2 hid)
  · have hsources := h.sources m hm n hn u hu t ht b a hb ha
    rcases runsOn_dep.1 hruns with ⟨y, hid, htail⟩ | ⟨hid, htail⟩
    · exact absurd htail (hsources.1 y hid)
    · exact absurd htail (hsources.2 hid)

theorem StepsApart.injOn (h : w.StepsApart) (hnodup : (w.nodes.map Node.id).Nodup) :
    Set.InjOn w.stepId {purpose | w.UsesStep purpose} := by
  intro p hp q hq heq
  have hstart := start_eq_of_stepId heq
  cases p with
  | wait n t a =>
    cases q with
    | wait m u b => exact h.wait_inj hnodup hp hq heq
    | emitMerge => exact absurd hstart (by simp [start])
    | emitFailure => exact absurd hstart (by simp [start])
    | emitCompletion => exact absurd hstart (by simp [start])
  | emitMerge n =>
    cases q with
    | emitMerge m => rw [node_ext hnodup hp.1 hq.1 ((String.append_right_inj _).1 heq)]
    | wait => exact absurd hstart (by simp [start])
    | emitFailure => exact absurd hstart (by simp [start])
    | emitCompletion => exact absurd hstart (by simp [start])
  | emitFailure n =>
    cases q with
    | emitFailure m => rw [node_ext hnodup hp hq ((String.append_right_inj _).1 heq)]
    | wait => exact absurd hstart (by simp [start])
    | emitMerge => exact absurd hstart (by simp [start])
    | emitCompletion => exact absurd hstart (by simp [start])
  | emitCompletion n =>
    cases q with
    | emitCompletion m => rw [node_ext hnodup hp hq ((String.append_right_inj _).1 heq)]
    | wait => exact absurd hstart (by simp [start])
    | emitMerge => exact absurd hstart (by simp [start])
    | emitFailure => exact absurd hstart (by simp [start])

theorem ne_append_of_ne_empty (hy : y ≠ "") : x ≠ x ++ y := by
  intro h
  apply hy
  have hlength := congrArg String.length h
  rw [String.length_append] at hlength
  exact String.length_eq_zero_iff.1 (by omega)

theorem stepsApart_of_injOn (h : Set.InjOn w.stepId {purpose | w.UsesStep purpose}) :
    w.StepsApart where
  targets source hsource n hn m hm a b ha hb y hid hsuffix := by
    have hx : w.UsesStep (.wait source n a) := ⟨hsource, hn, ha⟩
    have hy : w.UsesStep (.wait source m b) := ⟨hsource, hm, hb⟩
    have hname : w.stepId (.wait source n a) = w.stepId (.wait source m b) := by
      rw [stepId_wait_eq_iff, waitTail, waitTail, hid, hsuffix]
      simp only [String.append_assoc]
    have heq : StepPurpose.wait source n a = .wait source m b := h hx hy hname
    obtain rfl : n = m := by
      cases heq
      rfl
    exact ne_append_dash hid
  sources n hn m hm t ht u hu a b ha hb := by
    have hx : w.UsesStep (.wait n t a) := ⟨hn, ht, ha⟩
    have hy : w.UsesStep (.wait m u b) := ⟨hm, hu, hb⟩
    have hsame (hname : w.stepId (.wait n t a) = w.stepId (.wait m u b)) : n.id = m.id := by
      have heq : StepPurpose.wait n t a = .wait m u b := h hx hy hname
      cases heq
      rfl
    constructor
    · intro y hid htail
      have hname : w.stepId (.wait n t a) = w.stepId (.wait m u b) := by
        rw [stepId_wait_eq_iff, hid, htail]
        simp only [String.append_assoc]
      have hid' := (hsame hname).trans hid
      rw [String.append_assoc] at hid'
      exact ne_append_of_ne_empty (by simp [← String.toList_inj]) hid'
    · intro hid htail
      have hname : w.stepId (.wait n t a) = w.stepId (.wait m u b) := by
        have hdep (x : String) : "-dep-" ++ ("dep-" ++ x) = "-dep" ++ ("-dep-" ++ x) := by
          simp [← String.toList_inj]
        rw [stepId_wait_eq_iff, hid, htail]
        simp only [String.append_assoc, hdep]
      exact ne_append_of_ne_empty (by decide) ((hsame hname).trans hid)

end

section
variable {n m : Node} {a b : String}

theorem EntriesApart.event_inj (h : w.EntriesApart) (hnodup : (w.nodes.map Node.id).Nodup)
    (hn : n ∈ w.nodes) (hm : m ∈ w.nodes) (ha : w.HasEvent n a) (hb : w.HasEvent m b)
    (heq : buildNodeEventId n.id a = buildNodeEventId m.id b) : n = m ∧ a = b := by
  rcases (joinedText_eq_iff "###").1 heq with ⟨hid, hab⟩ | hruns | hruns
  · exact ⟨node_ext hnodup hn hm hid, hab⟩
  · rcases runsOn_hashes.1 hruns with ⟨y, hid, rfl⟩ | ⟨hid, rfl⟩ | ⟨hid, rfl⟩
    · exact absurd ha ((h.continued n hn m hm y hid).2 b hb)
    · exact absurd ha (h.overlaps n hn m hm "#" (by simp) hid b hb)
    · exact absurd ha (h.overlaps n hn m hm "##" (by simp) hid b hb)
  · rcases runsOn_hashes.1 hruns with ⟨y, hid, rfl⟩ | ⟨hid, rfl⟩ | ⟨hid, rfl⟩
    · exact absurd hb ((h.continued m hm n hn y hid).2 a ha)
    · exact absurd hb (h.overlaps m hm n hn "#" (by simp) hid a ha)
    · exact absurd hb (h.overlaps m hm n hn "##" (by simp) hid a ha)

theorem EntriesApart.injOn (h : w.EntriesApart) (hnodup : (w.nodes.map Node.id).Nodup) :
    Set.InjOn Entry.key {entry | w.UsesEntry entry} := by
  intro x hx y hy heq
  cases x with
  | result n =>
    cases y with
    | result m => rw [node_ext hnodup hx hy heq]
    | event m b => exact absurd hy.2 (h.continued m hy.1 n hx b heq).1
  | event n a =>
    cases y with
    | result m => exact absurd hx.2 (h.continued n hx.1 m hy a heq.symm).1
    | event m b =>
      obtain ⟨rfl, rfl⟩ := h.event_inj hnodup hx.1 hy.1 hx.2 hy.2 heq
      rfl

theorem entriesApart_of_injOn (h : Set.InjOn Entry.key {entry | w.UsesEntry entry}) :
    w.EntriesApart := by
  have hevents {n m : Node} {a b : String} (hn : n ∈ w.nodes) (hm : m ∈ w.nodes)
      (ha : w.HasEvent n a) (hb : w.HasEvent m b)
      (heq : buildNodeEventId n.id a = buildNodeEventId m.id b) : n.id = m.id := by
    have hx : w.UsesEntry (.event n a) := ⟨hn, ha⟩
    have hy : w.UsesEntry (.event m b) := ⟨hm, hb⟩
    have hsame : Entry.event n a = .event m b := h hx hy heq
    cases hsame
    rfl
  constructor
  · intro n hn m hm y hid
    constructor
    · intro ha
      have hx : w.UsesEntry (.event n y) := ⟨hn, ha⟩
      have hy : w.UsesEntry (.result m) := hm
      have hsame : Entry.event n y = .result m := h hx hy hid.symm
      cases hsame
    · intro event hb ha
      have heq := hevents hn hm ha hb (by simp only [buildNodeEventId, hid, String.append_assoc])
      rw [hid, String.append_assoc] at heq
      exact ne_append_of_ne_empty (by simp [← String.toList_inj]) heq
  · intro n hn m hm mark hmark hid event hb ha
    have hmarks : mark ≠ "" ∧ ∀ x, "###" ++ (mark ++ x) = mark ++ ("###" ++ x) := by
      simp only [mem_cons, not_mem_nil, or_false] at hmark
      rcases hmark with rfl | rfl
      · exact ⟨by decide, fun x => by simp [← String.toList_inj]⟩
      · exact ⟨by decide, fun x => by simp [← String.toList_inj]⟩
    have heq := hevents hn hm ha hb (by
      simp only [buildNodeEventId, hid, String.append_assoc, hmarks.2])
    exact ne_append_of_ne_empty hmarks.1 (heq.trans hid)

end

/-- The names of an accepted workflow are unambiguous exactly if no id goes on after another one
in a way that labels make up for. -/
theorem unambiguous_iff {asyncNodeTypes : List String}
    {asyncDependencyMap : List (String × List String)}
    (h : validateWorkflow w.nodes w.edges w.registry asyncNodeTypes =
      .ok (.valid w.dependencyMap asyncDependencyMap)) :
    w.Unambiguous ↔ w.NamesApart := by
  have hnodup := (validateWorkflow_accepted h).nodup
  constructor
  · intro hnames
    exact ⟨signalsApart_of_injOn hnames.signals, stepsApart_of_injOn hnames.steps,
      entriesApart_of_injOn hnames.entries⟩
  · intro hapart
    exact ⟨hapart.signals.injOn hnodup, hapart.steps.injOn hnodup, hapart.entries.injOn hnodup⟩

def IdsApart (w : Automation) : Prop :=
  ∀ n ∈ w.nodes, ∀ m ∈ w.nodes, ∀ mark ∈ ['-', '#'], ¬ n.id.toList ++ [mark] <+: m.id.toList

theorem IdsApart.ne {n m : Node} {start y : String} (h : w.IdsApart) (hn : n ∈ w.nodes)
    (hm : m ∈ w.nodes) (mark : Char) (hmark : mark ∈ ['-', '#']) (hstart : [mark] <+: start.toList) :
    m.id ≠ n.id ++ start ++ y := by
  intro hid
  apply h n hn m hm mark hmark
  rw [hid, String.toList_append, String.toList_append, append_assoc]
  exact prefix_append_right_inj _ |>.2 (hstart.trans (prefix_append ..))

theorem IdsApart.ne_append {n m : Node} {start : String} (h : w.IdsApart)
    (hn : n ∈ w.nodes) (hm : m ∈ w.nodes) (mark : Char) (hmark : mark ∈ ['-', '#'])
    (hstart : [mark] <+: start.toList) : m.id ≠ n.id ++ start := by
  have hne := h.ne (y := "") hn hm mark hmark hstart
  rwa [String.append_empty] at hne

theorem namesApart_of_ids (h : w.IdsApart)
    (hmerge : ∀ node ∈ w.nodes, w.Merges node → ¬ w.HasEvent node "merge-any") : w.NamesApart where
  signals := by
    refine ⟨hmerge, fun n hn m hm y hid => ?_⟩
    exact absurd hid (h.ne hn hm '-' (by simp) (by decide))
  steps := by
    constructor
    · intro source _ n hn m hm a b _ _ y hid
      exact absurd hid (h.ne hn hm '-' (by simp) (by decide))
    · intro n hn m hm t _ u _ a b _ _
      constructor
      · intro y hid
        exact absurd hid (h.ne hn hm '-' (by simp) (by decide))
      · intro hid
        exact absurd hid (h.ne_append hn hm '-' (by simp) (by decide))
  entries := by
    constructor
    · intro n hn m hm y hid
      exact absurd hid (h.ne hn hm '#' (by simp) (by decide))
    · intro n hn m hm mark hmark hid
      have hstart : ['#'] <+: mark.toList := by
        simp only [mem_cons, not_mem_nil, or_false] at hmark
        rcases hmark with rfl | rfl
        · decide
        · decide
      exact absurd hid (h.ne_append hn hm '#' (by simp) hstart)

theorem unambiguous_boom : boomChart.Unambiguous := by
  have hids : boomChart.IdsApart := by
    have hmarks : ∀ n ∈ boomChart.nodes, ∀ m ∈ boomChart.nodes,
        ¬ n.id.toList ++ ['-'] <+: m.id.toList ∧ ¬ n.id.toList ++ ['#'] <+: m.id.toList := by
      decide +kernel
    intro n hn m hm
    obtain ⟨hdash, hhash⟩ := hmarks n hn m hm
    exact forall_mem_cons.2 ⟨hdash, forall_mem_singleton.2 hhash⟩
  have hmerges : ∀ node ∈ boomChart.nodes, boomChart.getDependencyModeForNode node ≠ .any := by
    intro node hnode
    simp only [boomChart, mem_cons, not_mem_nil, or_false] at hnode
    rcases hnode with rfl | rfl | rfl
    · rintro ⟨⟩
    · rintro ⟨⟩
    · rintro ⟨⟩
  apply (unambiguous_iff boomChart_valid).2
  exact namesApart_of_ids hids fun node hnode h => absurd h.1 (hmerges node hnode)

def clashChart : Automation where
  nodes := [boomNode, { id := "boom-done", type := some "box" },
    { id := "boom###done", type := some "box" }]
  edges := []
  registry := boomChart.registry
  dependencyMap := [("boom", []), ("boom-done", []), ("boom###done", [])]
  eventId := "event-1"

/-- The completion of one node is the event of another one, and so is its result. -/
theorem clashChart_ambiguous :
    validateWorkflow clashChart.nodes clashChart.edges clashChart.registry [] =
      .ok (.valid clashChart.dependencyMap [("boom", []), ("boom-done", []), ("boom###done", [])]) ∧
    clashChart.completionName "boom-done" = clashChart.eventName "boom" "done" ∧
    buildNodeEventId "boom" "done" = "boom###done" ∧ ¬ clashChart.Unambiguous := by
  refine ⟨rfl, rfl, rfl, fun hnames => ?_⟩
  have hx : clashChart.UsesSignal (.completion { id := "boom-done", type := some "box" }) := by
    simp [UsesSignal, clashChart]
  have hy : clashChart.UsesSignal (.event boomNode "done") := by
    refine ⟨by simp [clashChart], .inl ?_⟩
    simp [events, clashChart, boomChart, boomNode, Registry.resolveNodeSchema, Registry.getNodeHandler,
      basicInputOutputNodeHandler, doneBox]
  have heq : Signal.completion { id := "boom-done", type := some "box" } = .event boomNode "done" :=
    hnames.signals hx hy rfl
  cases heq

end Automation

end Trakrai.Workflow
