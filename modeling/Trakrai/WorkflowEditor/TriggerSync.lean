import Trakrai.Lib.Transition
import Trakrai.WorkflowEditor.Dispatch

namespace Trakrai.WorkflowEditor
open List Lib

section
variable {nodeHandlers : String → Option Handler}

theorem asksFor_of_no_mutations (ha : a.DistinctIds) (hb : b.DistinctIds)
    (h : getNodeMutations a b = []) (kind : TriggerKind) (id : String) :
    asksFor nodeHandlers a.nodes kind id = asksFor nodeHandlers b.nodes kind id := by
  have hnone : mutationsOf (nodesById a.nodes id) (nodesById b.nodes id) = [] := by
    rw [← filter_getNodeMutations ha hb id, h]
    rfl
  have hr : Registrations.processAll nodeHandlers (asksFor nodeHandlers a.nodes)
      (mutationsOf (nodesById a.nodes id) (nodesById b.nodes id)) kind id = asksFor nodeHandlers b.nodes kind id :=
    processAll_mutationsOf (fun _ => nodesById_id) (fun _ => nodesById_id) (fun kind => asksFor_eq a.nodes kind id) kind
  rw [hnone] at hr
  exact hr

theorem getNodeMutations_of_equal (ha : a.DistinctIds) (hb : b.DistinctIds) (h : a.equal b) :
    getNodeMutations a b = [] := by
  rw [WorkflowData.equal, Bool.and_eq_true, Bool.and_eq_true, beq_iff_eq, all_eq_true] at h
  obtain ⟨⟨hlen, hall⟩, -⟩ := h
  have hpair : ∀ i (hi : i < a.nodes.length), ∃ node, b.nodes[i]? = some node ∧ a.nodes[i].equal node := by
    intro i hi
    have hi' : i < b.nodes.length := by omega
    refine ⟨b.nodes[i], List.getElem?_eq_getElem hi', hall (a.nodes[i], b.nodes[i]) ?_⟩
    exact mem_iff_getElem.2 ⟨i, by rw [length_zip]; omega, getElem_zip ..⟩
  have hequal : ∀ x y : Node, x.equal y → x.id = y.id ∧ x.type = y.type ∧ x.data.deepEqual y.data := by
    intro x y he
    rw [Node.equal, Bool.and_eq_true, Bool.and_eq_true, Bool.and_eq_true, beq_iff_eq, beq_iff_eq] at he
    exact ⟨he.1.1.1, he.1.1.2, he.2⟩
  rw [getNodeMutations, append_eq_nil_iff, filterMap_eq_nil_iff, filterMap_eq_nil_iff]
  refine ⟨fun node hnode => ?_, fun node hnode => ?_⟩
  · obtain ⟨i, hi, rfl⟩ := mem_iff_getElem.1 hnode
    obtain ⟨node', hget, he⟩ := hpair i hi
    obtain ⟨hid, ht, -⟩ := hequal _ _ he
    rw [nodesById_eq_find? hb, find?_key_of_mem hb (List.mem_of_getElem? hget) hid.symm, removedMutation,
      if_neg (not_not.2 ht)]
  · obtain ⟨i, hi, rfl⟩ := mem_iff_getElem.1 hnode
    have hi' : i < a.nodes.length := by omega
    obtain ⟨node', hget, he⟩ := hpair i hi'
    cases Option.some.inj (hget.symm.trans (List.getElem?_eq_getElem hi))
    obtain ⟨hid, ht, hd⟩ := hequal _ _ he
    rw [nodesById_eq_find? ha, find?_key_of_mem ha (getElem_mem hi') hid, currentMutation,
      if_neg (not_not.2 ht), if_neg (by simp [hd])]

end

namespace Editor
variable (nodeHandlers : String → Option Handler)

/-- The editor starts with a snapshot whose triggers are registered. -/
def Initial (s : Editor) : Prop :=
  s.previousData.DistinctIds ∧ s.queue = [] ∧ s.processed = s.previousData ∧ s.failed = [] ∧
    ∀ kind id, s.registrations kind id = asksFor nodeHandlers s.previousData.nodes kind id

def system : System Editor Action := System.guarded (Initial nodeHandlers) Enabled (after nodeHandlers)

/-- The triggers of the nodes whose own callbacks have all succeeded are those that the last
snapshot that was processed asks for. -/
def InSync (s : Editor) : Prop :=
  ∀ kind id, id ∉ s.failed → s.registrations kind id = asksFor nodeHandlers s.processed.nodes kind id

/-- No failed callback keeps a mutation from the trigger of another node. -/
def Undisturbed (s : Editor) : Action → Prop
  | .snapshot _ => True
  | .dispatch outcome => ∀ dispatch ∈ s.queue.head?, ∀ id, id ∉ s.failed →
      failingNode nodeHandlers outcome (getNodeMutations dispatch.1 dispatch.2) ≠ some id →
        Settled nodeHandlers outcome dispatch.1 dispatch.2 id

/-- The dispatches that wait lead from one snapshot to the next. -/
def Linked (processed : WorkflowData) (queue : List (WorkflowData × WorkflowData)) (latest : WorkflowData) : Prop :=
  match queue with
  | [] => ∀ kind id, asksFor nodeHandlers processed.nodes kind id = asksFor nodeHandlers latest.nodes kind id
  | (a, b) :: queue => a.DistinctIds ∧ b.DistinctIds ∧
      (∀ kind id, asksFor nodeHandlers processed.nodes kind id = asksFor nodeHandlers a.nodes kind id) ∧
        Linked b queue latest

variable {nodeHandlers}

theorem Linked.congr {processed latest latest' : WorkflowData} {queue : List (WorkflowData × WorkflowData)}
    (h : Linked nodeHandlers processed queue latest)
    (he : ∀ kind id, asksFor nodeHandlers latest.nodes kind id = asksFor nodeHandlers latest'.nodes kind id) :
    Linked nodeHandlers processed queue latest' := by
  induction queue generalizing processed with
  | nil => exact fun kind id => (h kind id).trans (he kind id)
  | cons entry queue ih =>
    obtain ⟨ha, hb, hp, hl⟩ := h
    exact ⟨ha, hb, hp, ih hl⟩

theorem Linked.append {processed latest latest' : WorkflowData} {queue : List (WorkflowData × WorkflowData)}
    (h : Linked nodeHandlers processed queue latest) (hd : latest.DistinctIds) (hd' : latest'.DistinctIds) :
    Linked nodeHandlers processed (queue ++ [(latest, latest')]) latest' := by
  induction queue generalizing processed with
  | nil => exact ⟨hd, hd', h, fun _ _ => rfl⟩
  | cons entry queue ih =>
    obtain ⟨ha, hb, hp, hl⟩ := h
    exact ⟨ha, hb, hp, ih hl⟩

structure Coherent (nodeHandlers : String → Option Handler) (s : Editor) : Prop where
  distinct : s.previousData.DistinctIds
  linked : Linked nodeHandlers s.processed s.queue s.previousData

theorem Initial.coherent {s : Editor} (h : Initial nodeHandlers s) : s.Coherent nodeHandlers := by
  obtain ⟨hd, hq, hp, -, -⟩ := h
  refine ⟨hd, ?_⟩
  rw [hq, hp]
  exact fun _ _ => rfl

theorem Initial.inSync {s : Editor} (h : Initial nodeHandlers s) : s.InSync nodeHandlers := by
  obtain ⟨-, -, hp, -, hr⟩ := h
  intro kind id _
  rw [hp]
  exact hr kind id

theorem Coherent.after {s : Editor} {a : Action} (h : s.Coherent nodeHandlers) (he : s.Enabled a) :
    (s.after nodeHandlers a).Coherent nodeHandlers := by
  cases a with
  | snapshot currentData =>
    simp only [Editor.after, snapshot]
    split
    · rename_i hsame
      refine ⟨he, h.linked.congr fun kind id => ?_⟩
      apply asksFor_of_no_mutations h.distinct he
      rcases hsame with heq | hempty
      · exact getNodeMutations_of_equal h.distinct he heq
      · exact List.isEmpty_iff.1 hempty
    · exact ⟨he, h.linked.append h.distinct he⟩
  | dispatch outcome =>
    have hl := h.linked
    simp only [Editor.after, dispatch]
    split
    · exact h
    · rename_i a b queue hq
      rw [hq] at hl
      exact ⟨h.distinct, hl.2.2.2⟩

theorem inSync_after_iff {s : Editor} {a : Action} (h : s.Coherent nodeHandlers) (hs : s.InSync nodeHandlers) :
    (s.after nodeHandlers a).InSync nodeHandlers ↔ s.Undisturbed nodeHandlers a := by
  cases a with
  | snapshot currentData =>
    have hsync : (s.snapshot currentData).InSync nodeHandlers := by
      unfold snapshot
      split <;> exact hs
    exact iff_of_true hsync trivial
  | dispatch outcome =>
    have hl := h.linked
    simp only [Editor.after, dispatch, Undisturbed]
    split
    · rename_i hq
      refine iff_of_true hs fun entry hentry => ?_
      rw [hq] at hentry
      cases hentry
    · rename_i a b queue hq
      rw [hq] at hl
      obtain ⟨ha, hb, hp, -⟩ := hl
      have hfailed := (dispatch_eq nodeHandlers outcome s.registrations (getNodeMutations a b)).1
      have hiff : ∀ id, id ∉ s.failed → failingNode nodeHandlers outcome (getNodeMutations a b) ≠ some id →
          ((∀ kind, (dispatchNodeMutationCallbacks nodeHandlers outcome s.registrations
              (getNodeMutations a b)).1 kind id =
            asksFor nodeHandlers b.nodes kind id) ↔ Settled nodeHandlers outcome a b id) := by
        intro id hid hne
        exact dispatch_inSync_iff ha hb hne fun kind => (hs kind id hid).trans (hp kind id)
      have hmem : ∀ id, id ∉ s.failed ++
          (dispatchNodeMutationCallbacks nodeHandlers outcome s.registrations (getNodeMutations a b)).2.1.toList ↔
            id ∉ s.failed ∧ failingNode nodeHandlers outcome (getNodeMutations a b) ≠ some id := by
        intro id
        rw [hfailed, mem_append, not_or, Option.mem_toList]
      constructor
      · intro hsync entry hentry id hid hne
        cases Option.some.inj ((congrArg List.head? hq).symm.trans hentry)
        exact (hiff id hid hne).1 fun kind => hsync kind id ((hmem id).2 ⟨hid, hne⟩)
      · intro hu kind id hid
        obtain ⟨hid, hne⟩ := (hmem id).1 hid
        exact (hiff id hid hne).2 (hu (a, b) (congrArg List.head? hq) id hid hne) kind

/-- The triggers follow the workflow in all states of a run exactly if no failed callback keeps a
mutation from another node; and what was processed last asks for the same triggers as the
editor's snapshot once no dispatch waits. -/
theorem inSync_iff {s₀ s : Editor} {tr : List (Editor × Action)} (hi : Initial nodeHandlers s₀)
    (h : (system nodeHandlers).Run s₀ tr s) :
    ((∀ u ∈ states tr s, u.InSync nodeHandlers) ↔ ∀ p ∈ tr, p.1.Undisturbed nodeHandlers p.2) ∧
      ∀ u ∈ states tr s, u.queue = [] → ∀ kind id,
        asksFor nodeHandlers u.processed.nodes kind id = asksFor nodeHandlers u.previousData.nodes kind id := by
  have hcoh : ∀ u ∈ states tr s, u.Coherent nodeHandlers := by
    apply h.forall_states hi.coherent
    rintro p - hc u ⟨he, rfl⟩
    exact hc.after he
  refine ⟨⟨?_, ?_⟩, ?_⟩
  · intro hall p hp
    obtain ⟨u, ⟨-, rfl⟩, hu⟩ := h.exists_mem_states hp
    have hmem := mem_states_of_mem (t := s) hp
    exact (inSync_after_iff (hcoh _ hmem) (hall _ hmem)).1 (hall _ hu)
  · intro hund
    apply h.forall_states hi.inSync
    rintro p hp hs u ⟨-, rfl⟩
    exact (inSync_after_iff (hcoh _ (mem_states_of_mem hp)) hs).2 (hund p hp)
  · intro u hu hq
    have hl := (hcoh u hu).linked
    rw [hq] at hl
    exact hl

def triggerHandlers (type : String) : Option Handler :=
  if type = "trigger-cron" then some .cron
  else if type = "trigger-event" then some (.event ["door.opened"])
  else none

def emptyEditor : Editor where
  previousData := { nodes := [] }
  registrations := fun _ _ => none

theorem initial_emptyEditor : Initial triggerHandlers emptyEditor :=
  ⟨nodup_nil, rfl, rfl, rfl, fun _ _ => rfl⟩

def hourly : Node where
  id := "hourly"
  type := some "trigger-cron"
  data := .obj [("configuration", .obj [("cronExpression", .str " 0 * * * * ")])]

def door : Node where
  id := "door"
  type := some "trigger-event"
  data := .obj [("configuration", .obj [("eventName", .str "door.opened")])]

def twoTriggers (failing : String) : List Action :=
  [.snapshot { nodes := [hourly, door] },
    .dispatch fun mutation => if mutation.node.id = failing then .failed false else .done]

theorem twoTriggers_run (failing : String) : (system triggerHandlers).Run emptyEditor
    (replay (after triggerHandlers) emptyEditor (twoTriggers failing)).1
    (replay (after triggerHandlers) emptyEditor (twoTriggers failing)).2 := by
  apply System.run_replay (twoTriggers failing)
  refine forall_mem_cons.2 ⟨?_, forall_mem_singleton.2 ?_⟩
  · exact (by decide : (["hourly", "door"] : List String).Nodup)
  · have hlen : (after triggerHandlers emptyEditor (.snapshot { nodes := [hourly, door] })).queue.length = 1 := by
      decide +kernel
    exact ne_nil_of_length_pos (by rw [hlen]; exact Nat.one_pos)

/-- The second of the two callbacks fails, which keeps nothing from the first. -/
theorem inSync_iff_lastFails : ∃ s tr, (system triggerHandlers).Run emptyEditor tr s ∧
    (∀ u ∈ states tr s, u.InSync triggerHandlers) ∧ s.failed = ["door"] ∧
      s.registrations .cron "hourly" = some "0 * * * *" := by
  refine ⟨_, _, twoTriggers_run "door", ?_, by decide +kernel, by decide +kernel⟩
  refine (inSync_iff initial_emptyEditor (twoTriggers_run "door")).1.2 ?_
  refine forall_mem_cons.2 ⟨trivial, forall_mem_singleton.2 ?_⟩
  intro entry hentry id _ _ hskipped
  cases Option.some.inj hentry
  obtain ⟨mutation, hmem, -⟩ := hskipped
  have hlen : (skipped triggerHandlers (fun mutation => if mutation.node.id = "door" then .failed false else .done)
      (getNodeMutations emptyEditor.previousData { nodes := [hourly, door] })).length = 0 := by
    decide +kernel
  rw [eq_nil_of_length_eq_zero hlen] at hmem
  cases hmem

/-- The first of the two callbacks fails, and the second trigger is never registered. -/
theorem firstFails_not_inSync : ∃ s tr, Initial triggerHandlers emptyEditor ∧
    (system triggerHandlers).Run emptyEditor tr s ∧ s.queue = [] ∧ "door" ∉ s.failed ∧
      s.registrations .event "door" ≠ asksFor triggerHandlers s.previousData.nodes .event "door" := by
  refine ⟨_, _, initial_emptyEditor, twoTriggers_run "hourly", ?_, by decide +kernel, by decide +kernel⟩
  exact eq_nil_of_length_eq_zero (by decide +kernel)

end Editor
end Trakrai.WorkflowEditor
