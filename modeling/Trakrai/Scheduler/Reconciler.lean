import Trakrai.Lib.Json

namespace Trakrai.Scheduler
open List Lib

structure CronFlowTrigger where
  cronExpression : String
  cronTriggerId : String
  flowId : String
  nodeId : String
deriving DecidableEq, Repr

structure JobScheduler where
  pattern : String
  name : String
  cronTriggerId : String
  flowId : String
  nodeId : String
deriving DecidableEq, Repr

structure Schedulers where
  entries : List (String × JobScheduler)
  nodup : (entries.map Prod.fst).Nodup

/-- A scheduler as `getJobSchedulers` lists it. -/
structure SchedulerEntry where
  id : Option String
  key : String
deriving DecidableEq, Repr

def CronFlowTrigger.scheduler (trigger : CronFlowTrigger) : JobScheduler where
  pattern := trigger.cronExpression
  name := "cron:" ++ trigger.nodeId
  cronTriggerId := trigger.cronTriggerId
  flowId := trigger.flowId
  nodeId := trigger.nodeId

namespace Schedulers

def empty : Schedulers := ⟨[], nodup_nil⟩

section
variable (schedulers : Schedulers)

def get (key : String) : Option JobScheduler := schedulers.entries.lookup key

/-- `upsertJobScheduler` of a valid pattern. -/
def set (key : String) (scheduler : JobScheduler) : Schedulers :=
  ⟨setKey schedulers.entries key scheduler, nodup_setKey schedulers.nodup key scheduler⟩

/-- `removeJobScheduler` -/
def remove (key : String) : Schedulers :=
  ⟨schedulers.entries.filter (·.1 != key), (filter_sublist.map Prod.fst).nodup schedulers.nodup⟩

/-- `getJobSchedulers` -/
def list : List SchedulerEntry :=
  schedulers.entries.map fun entry => ⟨none, entry.1⟩

end

variable {schedulers : Schedulers}

@[simp] theorem get_set (schedulers : Schedulers) (key k : String) (scheduler : JobScheduler) :
    (schedulers.set key scheduler).get k = if k = key then some scheduler else schedulers.get k :=
  lookup_setKey ..

@[simp] theorem get_remove (schedulers : Schedulers) (key k : String) :
    (schedulers.remove key).get k = if k = key then none else schedulers.get k := by
  rw [get, remove, lookup_eq_find?, find?_key_filter schedulers.nodup, get, lookup_eq_find?]
  cases hf : schedulers.entries.find? (·.1 == k) with
  | none => simp
  | some entry =>
    obtain rfl : entry.1 = k := (mem_of_find?_key hf).2
    by_cases h : entry.1 = key
    · rw [if_pos h, Option.filter_some, if_neg (by simpa using h)]
      rfl
    · rw [if_neg h, Option.filter_some, if_pos (by simpa using h)]

theorem mem_keys_iff : key ∈ schedulers.entries.map Prod.fst ↔ (schedulers.get key).isSome := by
  rw [get, lookup_eq_find?, Option.isSome_map, List.find?_isSome, mem_map]
  simp

end Schedulers

def upsertScheduledCronTrigger (schedulers : Schedulers) (trigger : CronFlowTrigger) : Schedulers :=
  schedulers.set trigger.cronTriggerId trigger.scheduler

def removeScheduledCronTrigger (schedulers : Schedulers) (cronTriggerId : String) : Schedulers :=
  schedulers.remove cronTriggerId

def schedulerId (entry : SchedulerEntry) : Option String :=
  [entry.id, some entry.key].findSome? fun value => value.filter (· != "")

def listScheduledCronTriggerIds (schedulers : Schedulers) : List String :=
  schedulers.list.filterMap schedulerId

theorem mem_listScheduledCronTriggerIds {schedulers : Schedulers} {id : String} :
    id ∈ listScheduledCronTriggerIds schedulers ↔ id ≠ "" ∧ (schedulers.get id).isSome := by
  have hid (key : String) : schedulerId ⟨none, key⟩ = some id ↔ key = id ∧ id ≠ "" := by
    by_cases hkey : key = ""
    · simp [schedulerId, hkey, eq_comm]
    · simp only [schedulerId, List.findSome?_cons, Option.filter_none, Option.filter_some, bne_iff_ne,
        ne_eq, hkey, not_false_eq_true, if_true, Option.some.injEq, iff_self_and]
      rintro rfl
      exact hkey
  rw [listScheduledCronTriggerIds, Schedulers.list, filterMap_map, mem_filterMap,
    ← Schedulers.mem_keys_iff, mem_map]
  constructor
  · rintro ⟨entry, he, hs⟩
    obtain ⟨hkey, hne⟩ := (hid entry.1).1 hs
    exact ⟨hne, entry, he, hkey⟩
  · rintro ⟨hne, entry, he, hkey⟩
    exact ⟨entry, he, (hid entry.1).2 ⟨hkey, hne⟩⟩

/-- What the libraries accept: as a UUID, and as the pattern of a job scheduler. -/
structure Formats where
  isUuid : String → Bool
  isPattern : String → Bool

section
variable (formats : Formats)

/-- `activeCronTriggerSchema` of the scheduler. -/
def matchesSchema (trigger : CronFlowTrigger) : Bool :=
  trigger.cronExpression != "" && trigger.cronTriggerId != "" && formats.isUuid trigger.flowId &&
    formats.isUuid trigger.nodeId

section
variable (response : List CronFlowTrigger)

/-- `none` where the answer of the web app is refused. -/
def listActiveCronTriggersFromWebApp : Option (List CronFlowTrigger) :=
  if response.all (matchesSchema formats) then some response else none

def staleIds (active : List CronFlowTrigger) (scheduledTriggerIds : List String) : List String :=
  scheduledTriggerIds.filter fun id => !(active.map (·.cronTriggerId)).contains id

def schedulable (trigger : CronFlowTrigger) : Bool := formats.isPattern trigger.cronExpression

def upsertAll : List CronFlowTrigger → Schedulers → Schedulers × Bool
  | [], schedulers => (schedulers, true)
  | trigger :: triggers, schedulers =>
    if schedulable formats trigger then
      upsertAll triggers (upsertScheduledCronTrigger schedulers trigger)
    else (schedulers, false)

/-- `reconcileCronTriggers` on its own, and whether it came to its end. -/
def reconcileCronTriggers (schedulers : Schedulers) : Schedulers × Bool :=
  match listActiveCronTriggersFromWebApp formats response with
  | none => (schedulers, false)
  | some active =>
    upsertAll formats active
      ((staleIds active (listScheduledCronTriggerIds schedulers)).foldl removeScheduledCronTrigger
        schedulers)

/-- An id is scheduled as it should be: with the expression of an active trigger that has it and can be
scheduled, and whenever there is one. -/
structure Right (response : List CronFlowTrigger) (schedulers : Schedulers) (id : String) : Prop where
  current : ∀ scheduler, schedulers.get id = some scheduler → ∃ trigger ∈ response,
    trigger.cronTriggerId = id ∧ schedulable formats trigger = true ∧ scheduler.pattern = trigger.cronExpression
  scheduled : ∀ trigger ∈ response, trigger.cronTriggerId = id → schedulable formats trigger = true →
    (schedulers.get id).isSome

/-- Exactly the triggers that can be scheduled are, each with its expression. -/
def Reconciled (schedulers : Schedulers) : Prop :=
  ∀ id, Right formats response schedulers id

/-- The answer is accepted, no scheduler is without id, and what comes from the first trigger on that
cannot be scheduled is right already; or the answer is refused and all is right already. -/
def Reconcilable (schedulers : Schedulers) : Prop :=
  if response.all (matchesSchema formats) = true then
    schedulers.get "" = none ∧ ∀ trigger ∈ response.dropWhile (schedulable formats),
        (∀ earlier ∈ response.takeWhile (schedulable formats),
          earlier.cronTriggerId ≠ trigger.cronTriggerId) →
        Right formats response schedulers trigger.cronTriggerId
  else Reconciled formats response schedulers

end

end

section
variable {formats : Formats} {response active triggers : List CronFlowTrigger} {schedulers : Schedulers}
  {id : String}

theorem get_removeAll (ids : List String) (schedulers : Schedulers) (id : String) :
    (ids.foldl removeScheduledCronTrigger schedulers).get id =
      if id ∈ ids then none else schedulers.get id := by
  induction ids generalizing schedulers with
  | nil => rfl
  | cons key ids ih =>
    rw [foldl_cons, ih, removeScheduledCronTrigger, Schedulers.get_remove]
    by_cases hid : id ∈ ids
    · simp [hid]
    · by_cases hkey : id = key
      · simp [hkey]
      · simp [hid, hkey]

section
variable (triggers : List CronFlowTrigger)

theorem entries_upserts (schedulers : Schedulers) :
    (triggers.foldl upsertScheduledCronTrigger schedulers).entries =
      triggers.foldl (fun entries trigger => setKey entries trigger.cronTriggerId trigger.scheduler)
        schedulers.entries := by
  induction triggers generalizing schedulers with
  | nil => rfl
  | cons trigger triggers ih => exact ih _

theorem get_upserts (schedulers : Schedulers) (id : String) :
    (triggers.foldl upsertScheduledCronTrigger schedulers).get id =
      ((triggers.reverse.find? (·.cronTriggerId == id)).map CronFlowTrigger.scheduler).or
        (schedulers.get id) := by
  rw [Schedulers.get, entries_upserts, lookup_foldl_setKey]
  rfl

theorem upsertAll_eq (schedulers : Schedulers) :
    (upsertAll formats triggers schedulers).1 = (triggers.takeWhile (schedulable formats)).foldl
        upsertScheduledCronTrigger schedulers := by
  induction triggers generalizing schedulers with
  | nil => rfl
  | cons trigger triggers ih =>
    rw [upsertAll]
    cases hvalid : schedulable formats trigger with
    | true =>
      rw [takeWhile_cons_of_pos hvalid, if_pos rfl, ih]
      rfl
    | false =>
      rw [takeWhile_cons_of_neg (by simp [hvalid]), if_neg Bool.false_ne_true]
      rfl

end

theorem mem_staleIds : id ∈ staleIds active (listScheduledCronTriggerIds schedulers) ↔
    (id ≠ "" ∧ (schedulers.get id).isSome) ∧ id ∉ active.map (·.cronTriggerId) := by
  rw [staleIds, mem_filter, mem_listScheduledCronTriggerIds]
  simp

theorem right_of_upserted {done : List CronFlowTrigger} (hsub : ∀ trigger ∈ done, trigger ∈ response)
    (hvalid : ∀ trigger ∈ done, schedulable formats trigger = true) (hid : id ∈ done.map (·.cronTriggerId)) :
    Right formats response (done.foldl upsertScheduledCronTrigger schedulers) id := by
  obtain ⟨trigger, htrigger, hkey⟩ := mem_map.1 hid
  cases hf : done.reverse.find? (·.cronTriggerId == id) with
  | none => exact absurd (List.find?_eq_none.1 hf trigger (List.mem_reverse.2 htrigger)) (by simp [hkey])
  | some last =>
    have hlast : last ∈ done := List.mem_reverse.1 (List.mem_of_find?_eq_some hf)
    have hlastId : last.cronTriggerId = id := by simpa using List.find?_some hf
    have hget : (done.foldl upsertScheduledCronTrigger schedulers).get id = some last.scheduler := by
      rw [get_upserts, hf]
      rfl
    constructor
    · intro scheduler hs
      obtain rfl : last.scheduler = scheduler := Option.some.inj (hget.symm.trans hs)
      exact ⟨last, hsub last hlast, hlastId, hvalid last hlast, rfl⟩
    · intro _ _ _ _
      rw [hget]
      rfl

theorem get_reconciled_of_not_mem (schedulers : Schedulers) {done : List CronFlowTrigger}
    (ids : List String) (hid : id ∉ done.map (·.cronTriggerId)) :
    (done.foldl upsertScheduledCronTrigger (ids.foldl removeScheduledCronTrigger schedulers)).get id =
      if id ∈ ids then none else schedulers.get id := by
  have hnone : done.reverse.find? (·.cronTriggerId == id) = none := by
    rw [List.find?_eq_none]
    intro trigger ht heq
    exact hid (mem_map.2 ⟨trigger, List.mem_reverse.1 ht, by simpa using heq⟩)
  rw [get_upserts, hnone, Option.map_none, Option.none_or, get_removeAll]

theorem Right.of_get {schedulers' : Schedulers} (h : schedulers'.get id = schedulers.get id) :
    Right formats response schedulers' id ↔ Right formats response schedulers id :=
  ⟨fun hr => ⟨h ▸ hr.current, h ▸ hr.scheduled⟩, fun hr => ⟨h ▸ hr.current, h ▸ hr.scheduled⟩⟩

theorem right_of_not_mem (hid : id ∉ response.map (·.cronTriggerId)) :
    Right formats response schedulers id ↔ schedulers.get id = none := by
  have hno : ∀ trigger ∈ response, trigger.cronTriggerId ≠ id :=
    fun trigger ht heq => hid (mem_map.2 ⟨trigger, ht, heq⟩)
  constructor
  · intro hr
    cases hg : schedulers.get id with
    | none => rfl
    | some scheduler =>
      obtain ⟨trigger, ht, heq, -⟩ := hr.current scheduler hg
      exact absurd heq (hno trigger ht)
  · intro hnone
    exact ⟨fun _ hs => absurd (hnone.symm.trans hs) nofun, fun trigger ht heq => absurd heq (hno trigger ht)⟩

/-- A reconcile leaves the schedule right exactly when it meets nothing that ends it early, or what it
does not come to is right already. -/
theorem reconcileCronTriggers_iff (formats : Formats) (response : List CronFlowTrigger)
    (schedulers : Schedulers) :
    Reconciled formats response (reconcileCronTriggers formats response schedulers).1 ↔
      Reconcilable formats response schedulers := by
  rw [reconcileCronTriggers, listActiveCronTriggersFromWebApp, Reconcilable]
  cases hall : response.all (matchesSchema formats) with
  | false => rfl
  | true =>
    have hne : "" ∉ response.map (·.cronTriggerId) := by
      intro hin
      obtain ⟨trigger, ht, heq⟩ := mem_map.1 hin
      have hmatch := all_eq_true.1 hall trigger ht
      rw [matchesSchema, heq] at hmatch
      simp at hmatch
    have hids (id : String) : id ∈ response.map (·.cronTriggerId) ↔
        id ∈ (response.takeWhile (schedulable formats)).map (·.cronTriggerId) ∨
          id ∈ (response.dropWhile (schedulable formats)).map (·.cronTriggerId) := by
      rw [← mem_append, ← map_append, takeWhile_append_dropWhile]
    simp only [if_true, upsertAll_eq]
    constructor
    · intro hr
      constructor
      · have hempty := (right_of_not_mem hne).1 (hr "")
        rw [get_reconciled_of_not_mem _ _ fun hin => hne ((hids "").2 (.inl hin)),
          if_neg fun hstale => (mem_staleIds.1 hstale).1.1 rfl] at hempty
        exact hempty
      · intro trigger htrigger hfirst
        have hkept : trigger.cronTriggerId ∈ response.map (·.cronTriggerId) :=
          (hids _).2 (.inr (mem_map_of_mem htrigger))
        have hdone : trigger.cronTriggerId ∉
            (response.takeWhile (schedulable formats)).map (·.cronTriggerId) := by
          intro hin
          obtain ⟨earlier, he, heq⟩ := mem_map.1 hin
          exact hfirst earlier he heq
        have hget := get_reconciled_of_not_mem schedulers
          (staleIds response (listScheduledCronTriggerIds schedulers)) hdone
        rw [if_neg fun hstale => (mem_staleIds.1 hstale).2 hkept] at hget
        exact (Right.of_get hget).1 (hr trigger.cronTriggerId)
    · rintro ⟨hempty, hrest⟩ id
      by_cases hdone : id ∈ (response.takeWhile (schedulable formats)).map (·.cronTriggerId)
      · exact right_of_upserted (fun trigger ht => takeWhile_subset _ ht)
          (all_eq_true.1 all_takeWhile) hdone
      · have hget := get_reconciled_of_not_mem schedulers
          (staleIds response (listScheduledCronTriggerIds schedulers)) hdone
        by_cases hkept : id ∈ response.map (·.cronTriggerId)
        · rw [if_neg fun hstale => (mem_staleIds.1 hstale).2 hkept] at hget
          obtain ⟨trigger, ht, rfl⟩ := mem_map.1 (((hids id).1 hkept).resolve_left hdone)
          apply (Right.of_get hget).2
          apply hrest trigger ht
          intro earlier he heq
          exact hdone (mem_map.2 ⟨earlier, he, heq⟩)
        · rw [right_of_not_mem hkept, hget]
          split
          · rfl
          · rename_i hstale
            by_cases hid : id = ""
            · rw [hid]
              exact hempty
            · rw [mem_staleIds, not_and, not_not, Option.isSome_iff_ne_none] at hstale
              by_contra hsome
              exact hkept (hstale ⟨hid, hsome⟩)

/-- What a second reconcile finds, it leaves. -/
theorem reconcileCronTriggers_again (formats : Formats) (response : List CronFlowTrigger)
    (schedulers : Schedulers) (id : String) :
    (reconcileCronTriggers formats response (reconcileCronTriggers formats response schedulers).1).1.get id =
      (reconcileCronTriggers formats response schedulers).1.get id := by
  simp only [reconcileCronTriggers]
  cases listActiveCronTriggersFromWebApp formats response with
  | none => rfl
  | some active =>
    dsimp only
    rw [upsertAll_eq, get_upserts, get_removeAll, upsertAll_eq]
    set done := active.takeWhile (schedulable formats)
    set stale := staleIds active (listScheduledCronTriggerIds schedulers)
    have hfirst := get_upserts done (stale.foldl removeScheduledCronTrigger schedulers) id
    cases hlast : (done.reverse.find? (·.cronTriggerId == id)).map CronFlowTrigger.scheduler with
    | some scheduler => rw [hfirst, hlast, Option.some_or, Option.some_or]
    | none =>
      rw [hlast, Option.none_or, get_removeAll] at hfirst
      rw [Option.none_or, hfirst]
      split
      · rename_i hstale'
        obtain ⟨⟨hne, hsome⟩, hin⟩ := mem_staleIds.1 hstale'
        rw [hfirst] at hsome
        split at hsome
        · cases hsome
        · rename_i hstale
          exact (hstale (mem_staleIds.2 ⟨⟨hne, hsome⟩, hin⟩)).elim
      · rfl

end

def sampleFormats : Formats where
  isUuid text := text == "3f2504e0-4f89-41d3-9a0c-0305e82c3301" || text == "9b2fdb0e-7d1f-4b6a-8c11-5a1f0c9d2e77"
  isPattern text := text == "* * * * *"

def sampleTrigger (cronTriggerId cronExpression : String) : CronFlowTrigger where
  cronExpression := cronExpression
  cronTriggerId := cronTriggerId
  flowId := "3f2504e0-4f89-41d3-9a0c-0305e82c3301"
  nodeId := "9b2fdb0e-7d1f-4b6a-8c11-5a1f0c9d2e77"

/-- A trigger that cannot be scheduled keeps the ones after it from being scheduled. -/
theorem later_trigger_missing : ¬ ∀ formats response schedulers,
      (∀ trigger ∈ response, trigger.cronExpression ≠ "" ∧ trigger.cronTriggerId ≠ "" ∧
        trigger.flowId ≠ "" ∧ trigger.nodeId ≠ "") →
        Reconciled formats response (reconcileCronTriggers formats response schedulers).1 := by
  intro h
  have hreconciled := h sampleFormats
    [sampleTrigger "t1" "every minute", sampleTrigger "t2" "* * * * *"] .empty (by decide)
  have hsome := (hreconciled "t2").scheduled (sampleTrigger "t2" "* * * * *") (by decide) rfl (by decide)
  exact absurd hsome (by decide)

end Trakrai.Scheduler
