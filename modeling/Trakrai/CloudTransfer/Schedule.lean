import Mathlib.Data.List.MinMax
import Mathlib.Data.Prod.Lex
import Trakrai.CloudTransfer.Terminal

namespace Trakrai.CloudTransfer
open Bool List Lib

/-- The transfer waits and its next attempt has come, on the time line. -/
def due (now : Instant) (r : Transfer) : Bool :=
  (r.state == .queued || r.state == .retryWait) && r.nextAttemptAt.all (· ≤ now)

def overdue (now : Instant) (r : Transfer) : Bool :=
  !r.state.terminal && r.deadlineAt.any (· ≤ now)

/-- The order of the queue on the time line: by next attempt, and by age among equals. -/
def ServedBefore (r r' : Transfer) : Prop :=
  Store.attemptTime r < Store.attemptTime r' ∨
    Store.attemptTime r ≤ Store.attemptTime r' ∧ r.createdAt ≤ r'.createdAt

/-- The text comparisons of the queries on this table agree with the time line. -/
structure Faithful (rows : Store) (now : Instant) : Prop where
  due : ∀ r ∈ rows, Store.isDue now r ↔ due now r
  overdue : ∀ r ∈ rows, Store.isExpired now r ↔ overdue now r
  order : ∀ r ∈ rows, ∀ r' ∈ rows, CloudTransfer.due now r → CloudTransfer.due now r' →
    (Store.sortsBefore r r' ↔ ServedBefore r r')

/-- No two timestamps that the queries on this table compare clash. -/
structure Unclashed (rows : Store) (now : Instant) : Prop where
  attempt : ∀ r ∈ rows, r.state = .queued ∨ r.state = .retryWait →
    ∀ t ∈ r.nextAttemptAt, ¬ t.FractionClash now
  deadline : ∀ r ∈ rows, ¬ r.state.terminal → ∀ t ∈ r.deadlineAt, ¬ t.FractionClash now
  order : ∀ r ∈ rows, ∀ r' ∈ rows, due now r → due now r' →
    ¬ (Store.attemptTime r).FractionClash (Store.attemptTime r')
  age : ∀ r ∈ rows, ∀ r' ∈ rows, due now r → due now r' →
    Store.attemptTime r ≤ Store.attemptTime r' → Store.attemptTime r' ≤ Store.attemptTime r →
    ¬ r.createdAt.FractionClash r'.createdAt

theorem all_iff_all {p q : α → Prop} [DecidablePred p] [DecidablePred q] (o : Option α) :
    (o.all p ↔ o.all q) ↔ ∀ t ∈ o, (p t ↔ q t) := by
  cases o <;> simp

theorem any_iff_any {p q : α → Prop} [DecidablePred p] [DecidablePred q] (o : Option α) :
    (o.any p ↔ o.any q) ↔ ∀ t ∈ o, (p t ↔ q t) := by
  cases o <;> simp

theorem text_le_iff_le (t u : Instant) :
    (formatTime t ≤ formatTime u ↔ t ≤ u) ↔ ¬ t.FractionClash u :=
  Iff.comm.trans (formatTime_order_iff t u)

theorem isDue_iff_due (now : Instant) (r : Transfer) :
    (Store.isDue now r ↔ due now r) ↔ (r.state = .queued ∨ r.state = .retryWait →
      ∀ t ∈ r.nextAttemptAt, ¬ t.FractionClash now) := by
  simp only [Store.isDue, due, and_eq_true, or_eq_true, beq_iff_eq, and_congr_right_iff]
  refine imp_congr_right fun _ => ?_
  rw [all_iff_all]
  exact forall₂_congr fun t _ => text_le_iff_le t now

theorem isExpired_iff_overdue (now : Instant) (r : Transfer) :
    (Store.isExpired now r ↔ overdue now r) ↔ (¬ r.state.terminal →
      ∀ t ∈ r.deadlineAt, ¬ t.FractionClash now) := by
  simp only [Store.isExpired, overdue, and_eq_true, not_eq_true', not_eq_true, and_congr_right_iff]
  refine imp_congr_right fun _ => ?_
  rw [any_iff_any]
  exact forall₂_congr fun t _ => text_le_iff_le t now

theorem Instant.FractionClash.lt_or_lt {t u : Instant} (h : t.FractionClash u) : t < u ∨ u < t := by
  obtain ⟨hs, hn, _⟩ := h
  change t.nanos < u.nanos ∨ u.nanos < t.nanos
  simp only [Instant.nanos, hs]
  omega

theorem formatTime_eq_iff (h : ¬ t.FractionClash u) :
    formatTime t = formatTime u ↔ t ≤ u ∧ u ≤ t := by
  rw [← formatTime_le_iff h, ← formatTime_le_iff fun hc => h hc.symm]
  exact le_antisymm_iff

theorem sortsBefore_iff : Store.sortsBefore r r' ↔
      formatTime (Store.attemptTime r) < formatTime (Store.attemptTime r') ∨
        formatTime (Store.attemptTime r) = formatTime (Store.attemptTime r') ∧
          formatTime r.createdAt ≤ formatTime r'.createdAt := by
  simp only [Store.sortsBefore, or_eq_true, and_eq_true, beq_iff_eq, decide_eq_true_eq]

theorem lex_iff_lex : (¬ q ∨ (p ∧ q) ∧ a ↔ ¬ q ∨ p ∧ b) ↔ (p → q → (a ↔ b)) := by
  tauto

theorem sortsBefore_iff_servedBefore {r r' : Transfer}
    (h : ¬ (Store.attemptTime r).FractionClash (Store.attemptTime r')) :
    (Store.sortsBefore r r' ↔ ServedBefore r r') ↔
      (Store.attemptTime r ≤ Store.attemptTime r' → Store.attemptTime r' ≤ Store.attemptTime r →
        ¬ r.createdAt.FractionClash r'.createdAt) := by
  have hlt : Store.attemptTime r < Store.attemptTime r' ↔
      ¬ Store.attemptTime r' ≤ Store.attemptTime r := Nat.not_le.symm
  rw [sortsBefore_iff, formatTime_lt_iff h, formatTime_eq_iff h, ServedBefore, hlt,
    ← text_le_iff_le, lex_iff_lex]

theorem sortsBefore_not_servedBefore {r r' : Transfer}
    (h : (Store.attemptTime r).FractionClash (Store.attemptTime r'))
    (hlt : Store.attemptTime r < Store.attemptTime r') :
    ServedBefore r r' ∧ ¬ Store.sortsBefore r r' := by
  refine ⟨.inl hlt, ?_⟩
  have hgt := h.reversed hlt
  rw [sortsBefore_iff]
  rintro (hc | ⟨hc, _⟩)
  · exact lt_asymm hc hgt
  · exact hgt.ne' hc

theorem faithful_iff_unclashed (rows : Store) (now : Instant) :
    Faithful rows now ↔ Unclashed rows now := by
  constructor
  · intro h
    have horder (r) (hr : r ∈ rows) (r') (hr' : r' ∈ rows) (hd : due now r) (hd' : due now r') :
        ¬ (Store.attemptTime r).FractionClash (Store.attemptTime r') := by
      intro hc
      rcases hc.lt_or_lt with hlt | hgt
      · obtain ⟨hs, hn⟩ := sortsBefore_not_servedBefore hc hlt
        exact hn ((h.order r hr r' hr' hd hd').2 hs)
      · obtain ⟨hs, hn⟩ := sortsBefore_not_servedBefore hc.symm hgt
        exact hn ((h.order r' hr' r hr hd' hd).2 hs)
    exact {
      attempt := fun r hr => (isDue_iff_due now r).1 (h.due r hr)
      deadline := fun r hr => (isExpired_iff_overdue now r).1 (h.overdue r hr)
      order := horder
      age := fun r hr r' hr' hd hd' => (sortsBefore_iff_servedBefore
        (horder r hr r' hr' hd hd')).1 (h.order r hr r' hr' hd hd') }
  · intro h
    exact {
      due := fun r hr => (isDue_iff_due now r).2 (h.attempt r hr)
      overdue := fun r hr => (isExpired_iff_overdue now r).2 (h.deadline r hr)
      order := fun r hr r' hr' hd hd' => (sortsBefore_iff_servedBefore
        (h.order r hr r' hr' hd hd')).2 (h.age r hr r' hr' hd hd') }

/-- What the queries do to a table, in terms of the time line. -/
structure Scheduled (rows : Store) (now : Instant) : Prop where
  acquires : ∀ {id res rows'}, rows.acquireDueTransfer now (some id) = some (res, rows') →
    ∃ r ∈ rows, r.id = id ∧ res = some (Store.claim now r) ∧ due now r ∧
      ∀ r' ∈ rows, due now r' → ServedBefore r r'
  misses : ∀ {res rows'}, rows.acquireDueTransfer now none = some (res, rows') →
    ∀ r ∈ rows, ¬ due now r
  finds : (∃ r ∈ rows, due now r) →
    ∃ id res rows', rows.acquireDueTransfer now (some id) = some (res, rows')
  expires : rows.markExpired now = rows.map fun r => if overdue now r then Store.expire now r else r

theorem exists_mem_acquirable {rows : Store} (h : ∃ r ∈ rows, Store.isDue now r) :
    ∃ r, r ∈ rows.acquirable now := by
  let key (r : Transfer) := toLex (formatTime (Store.attemptTime r), formatTime r.createdAt)
  have hkey (r r' : Transfer) (hle : key r ≤ key r') : Store.sortsBefore r r' := by
    rw [sortsBefore_iff]
    exact Prod.Lex.le_iff.1 hle
  obtain ⟨r₀, hr₀, hd₀⟩ := h
  have hmem₀ : r₀ ∈ rows.filter (Store.isDue now) := mem_filter.2 ⟨hr₀, hd₀⟩
  cases hm : (rows.filter (Store.isDue now)).argmin key with
  | none =>
    rw [argmin_eq_none] at hm
    rw [hm] at hmem₀
    cases hmem₀
  | some r =>
    refine ⟨r, mem_filter.2 ⟨argmin_mem hm, ?_⟩⟩
    rw [all_eq_true]
    exact fun r' hr' => hkey r r' (le_of_mem_argmin hr' hm)

theorem Faithful.scheduled {rows : Store} (h : Faithful rows now) : Scheduled rows now := by
  refine { acquires := ?_, misses := ?_, finds := ?_, expires := ?_ }
  · intro id res rows' ha
    obtain ⟨r, hr, hid, hres, _⟩ := Store.acquire_some_cases ha
    obtain ⟨hmem, hd, hfirst⟩ := Store.mem_acquirable hr
    have hdue := (h.due r hmem).1 hd
    refine ⟨r, hmem, hid, hres, hdue, fun r' hr' hd' => ?_⟩
    exact (h.order r hmem r' hr' hdue hd').1 (hfirst r' hr' ((h.due r' hr').2 hd'))
  · intro res rows' ha r hr hd
    obtain ⟨hnone, _, _⟩ := Store.acquire_none_cases ha
    have hmem := mem_filter.2 ⟨hr, (h.due r hr).2 hd⟩
    rw [hnone] at hmem
    cases hmem
  · rintro ⟨r₀, hr₀, hd₀⟩
    obtain ⟨r, hr⟩ := exists_mem_acquirable ⟨r₀, hr₀, (h.due r₀ hr₀).2 hd₀⟩
    have hsome : ((rows.acquirable now).find? (·.id == r.id)).isSome :=
      List.find?_isSome.2 ⟨r, hr, by simp⟩
    obtain ⟨r', hr'⟩ := Option.isSome_iff_exists.1 hsome
    refine ⟨r.id, some (Store.claim now r'), rows.updateById r'.id fun _ => Store.claim now r', ?_⟩
    simp only [Store.acquireDueTransfer, hr']
  · apply map_congr_left
    intro r hr
    simp only [h.overdue r hr]

/-- Two stored timestamps sort as the instants do unless they clash, the queries on a table are
faithful to the time line exactly when no two of the timestamps that they compare clash, and
then they schedule the transfers as they should. -/
theorem stored_times_ordered_iff (t u : Instant) (rows : Store) (now : Instant) :
    ((t ≤ u ↔ formatTime t ≤ formatTime u) ↔ ¬ t.FractionClash u) ∧
    (Faithful rows now ↔ Unclashed rows now) ∧
    (Unclashed rows now → Scheduled rows now) := by
  have hiff := faithful_iff_unclashed rows now
  exact ⟨formatTime_order_iff t u, hiff, fun h => (hiff.2 h).scheduled⟩

def halfPast : Instant := { newYear 1 with nano := 500000000, nano_lt := by decide }

def halfwayRequest : EnqueueRequest :=
  { sampleRequest 1 (some (newYear 3)) with now := halfPast }

/-- Enqueued after the first row of the table, and due before it. -/
def quarterRequest : EnqueueRequest :=
  { sampleRequest 1 none with
    id := "u", now := { newYear 1 with nano := 250000000, nano_lt := by decide } }

def twoQueued : Store := [halfwayRequest.transfer, quarterRequest.transfer]

theorem stored_times_ordered_iff_twoQueued :
    Unclashed twoQueued (newYear 2) ∧ Scheduled twoQueued (newYear 2) ∧
      (∀ r ∈ twoQueued, due (newYear 2) r) ∧
      twoQueued.acquireDueTransfer (newYear 2) (some "u") =
        some (some (Store.claim (newYear 2) quarterRequest.transfer),
          [halfwayRequest.transfer, Store.claim (newYear 2) quarterRequest.transfer]) := by
  have hunclashed : Unclashed twoQueued (newYear 2) :=
    ⟨by decide, by decide, by decide, by decide⟩
  obtain ⟨-, -, hscheduled⟩ := stored_times_ordered_iff halfPast (newYear 2) twoQueued (newYear 2)
  exact ⟨hunclashed, hscheduled hunclashed, by decide, by decide⟩

theorem stored_times_disordered : ¬ ((∀ t u : Instant, t ≤ u ↔ formatTime t ≤ formatTime u) ∧
      ∀ rows now, Scheduled rows now) ∧
    newYear 1 ≤ halfPast ∧ formatTime halfPast < formatTime (newYear 1) ∧
    due halfPast (sampleRequest 1 none).transfer ∧
    Store.acquireDueTransfer [(sampleRequest 1 none).transfer] halfPast none =
      some (none, [(sampleRequest 1 none).transfer]) := by
  have hle : newYear 1 ≤ halfPast := by decide
  have hlt : formatTime halfPast < formatTime (newYear 1) := by decide
  refine ⟨fun h => ?_, hle, hlt, by decide, by decide⟩
  exact String.not_lt.2 ((h.1 _ _).1 hle) hlt

end Trakrai.CloudTransfer
