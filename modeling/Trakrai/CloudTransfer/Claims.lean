import Mathlib.Algebra.GroupWithZero.Nat
import Mathlib.Data.List.Count
import Trakrai.CloudTransfer.Queue

namespace Trakrai.CloudTransfer
open Function List Lib

theorem Mark.apply_eq (mark : Mark) (rows : Store) (id : String) :
    ∃ set : Transfer → Transfer, mark.apply rows id = rows.updateById id set ∧
      ∀ r, (set r).id = r.id ∧ (set r).state = mark.state ∧ (set r).attempts = r.attempts := by
  cases mark with
  | completed => exact ⟨_, rfl, fun r => ⟨rfl, rfl, rfl⟩⟩
  | failed => exact ⟨_, rfl, fun r => ⟨rfl, rfl, rfl⟩⟩
  | retry => exact ⟨_, rfl, fun r => ⟨rfl, rfl, rfl⟩⟩

theorem Store.ids_map (rows : Store) (hf : ∀ r, (f r).id = r.id) :
    (rows.map f).map Transfer.id = rows.map Transfer.id := by
  rw [map_map]
  exact map_congr_left fun r _ => hf r

theorem Store.ids_updateById (rows : Store) (id : String) (hf : ∀ r, r.id = id → (f r).id = id):
    (rows.updateById id f).map Transfer.id = rows.map Transfer.id := by
  apply rows.ids_map
  intro r
  split
  · rename_i he
    rw [hf r he, he]
  · rfl

section
variable {W : Type} {id : String}

/-- How often `AcquireDueTransfer` has returned the id during a run. -/
def claims (tr : List (Queue W × Action W)) (id : String) : Nat :=
  tr.countP fun p =>
    match p.2 with
    | .acquire _ (some found) => found == id
    | _ => false

theorem claims_snoc (tr : List (Queue W × Action W)) (q : Queue W) (a : Action W) (id : String) :
    claims (tr ++ [(q, a)]) id = claims tr id +
      match a with
      | .acquire _ (some found) => if found = id then 1 else 0
      | _ => 0 := by
  simp only [claims, countP_append, countP_singleton]
  cases a with
  | acquire w found =>
    cases found with
    | none => rfl
    | some found => simp only [beq_iff_eq]
  | _ => rfl

/-- Worker `w` has claimed the transfer and has not reported on it yet. -/
def Queue.Holds (q : Queue W) (w : W) (id : String) : Prop :=
  ∃ t, q.workers w = .processing t ∧ t.id = id

/-- What links the workers' local transfers to the persisted rows. -/
structure ClaimInv (tr : List (Queue W × Action W)) (q : Queue W) : Prop where
  nodup : (q.rows.map Transfer.id).Nodup
  attempts : ∀ {id r}, q.rows.get id = some r → r.attempts = claims tr id
  fresh : ∀ {id}, q.rows.get id = none → claims tr id = 0
  held : ∀ {w id}, q.Holds w id →
    ∃ r, q.rows.get id = some r ∧ (r.state = .running ∨ r.state = .failed)
  exclusive : ∀ {w w' id}, q.Holds w id → q.Holds w' id → w = w'
  running : q.phase = .serving → ∀ {id r}, q.rows.get id = some r → r.state = .running →
    ∃ w, q.Holds w id
  resting : q.phase ≠ .serving → ∀ w, q.workers w = .idle
  noneRunning : q.phase = .starting → ∀ {id r}, q.rows.get id = some r → r.state ≠ .running

theorem ClaimInv.enqueue
    (h : ClaimInv tr q) (hs : q.phase = .serving) (hfree : q.rows.get request.id = none) :
    ClaimInv (tr ++ [(q, .enqueue request)])
      { q with rows := q.rows ++ [Store.withDefaults request.transfer] } := by
  have hget (id : String) := q.rows.get_append_singleton (Store.withDefaults request.transfer) id hfree
  have hid : (Store.withDefaults request.transfer).id = request.id := rfl
  refine {
    nodup := ?_, attempts := ?_, fresh := ?_, held := ?_, exclusive := h.exclusive
    running := ?_, resting := fun hn => (hn hs).elim
    noneRunning := fun hn => by cases hs.symm.trans hn }
  · rw [map_append, map_singleton, nodup_append]
    refine ⟨h.nodup, by simp, ?_⟩
    intro id hmem id' hid'
    rw [mem_singleton.1 hid']
    rintro rfl
    obtain ⟨r, hr, he⟩ := mem_map.1 hmem
    have := Store.get_of_mem h.nodup hr
    rw [he, hid, hfree] at this
    cases this
  · intro id r hr
    rw [claims_snoc]
    rw [hget id] at hr
    split at hr
    · rename_i he
      cases hr
      rw [he, hid, h.fresh hfree]
      rfl
    · exact h.attempts hr
  · intro id hn
    rw [claims_snoc]
    rw [hget id] at hn
    split at hn
    · cases hn
    · exact h.fresh hn
  · intro w id hw
    obtain ⟨r, hr, hst⟩ := h.held hw
    refine ⟨r, ?_, hst⟩
    rw [hget id, if_neg ?_]
    · exact hr
    · rintro rfl
      rw [hid, hfree] at hr
      cases hr
  · intro _ id r hr hrun
    rw [hget id] at hr
    split at hr
    · cases hr
      cases hrun
    · exact h.running hs hr hrun

/-- A sweep of the table keeps ids and attempts, and takes rows only out of `running`. -/
theorem ClaimInv.swept (h : ClaimInv tr q) (now : Instant): ClaimInv tr { q with rows := q.rows.markExpired now } := by
  have hget := q.rows.get_markExpired now
  have hback {id r} (hr : (q.rows.markExpired now).get id = some r) :
      ∃ r₀, q.rows.get id = some r₀ ∧ r.attempts = r₀.attempts ∧
        (r.state = .running → r₀.state = .running) := by
    rw [hget, Option.map_eq_some_iff] at hr
    obtain ⟨r₀, hr₀, rfl⟩ := hr
    refine ⟨r₀, hr₀, ?_⟩
    split
    · exact ⟨rfl, fun hrun => by cases hrun⟩
    · exact ⟨rfl, fun hrun => hrun⟩
  refine {
    nodup := ?_, attempts := ?_, fresh := ?_, held := ?_, exclusive := h.exclusive
    running := ?_, resting := h.resting, noneRunning := ?_ }
  · rw [Store.markExpired, Store.ids_map]
    · exact h.nodup
    · intro r
      split <;> rfl
  · intro id r hr
    obtain ⟨r₀, hr₀, ha, _⟩ := hback hr
    exact ha.trans (h.attempts hr₀)
  · intro id hn
    apply h.fresh
    simpa only [hget, Option.map_eq_none_iff] using hn
  · intro w id hw
    obtain ⟨r, hr, hst⟩ := h.held hw
    refine ⟨_, by rw [hget, hr, Option.map_some], ?_⟩
    split
    · exact .inr rfl
    · exact hst
  · intro hs id r hr hrun
    obtain ⟨r₀, hr₀, _, hst⟩ := hback hr
    exact h.running hs hr₀ (hst hrun)
  · intro hs id r hr hrun
    obtain ⟨r₀, hr₀, _, hst⟩ := hback hr
    exact h.noneRunning hs hr₀ (hst hrun)

theorem ClaimInv.trace (h : ClaimInv tr q) (he : ∀ id, claims tr' id = claims tr id): ClaimInv tr' q where
  nodup := h.nodup
  attempts hr := (h.attempts hr).trans (he _).symm
  fresh hn := (he _).trans (h.fresh hn)
  held := h.held
  exclusive := h.exclusive
  running := h.running
  resting := h.resting
  noneRunning := h.noneRunning

theorem ClaimInv.serving (h : ClaimInv tr q) (hw : q.workers w ≠ .idle): q.phase = .serving := by
  by_contra hn
  exact hw (h.resting hn w)

theorem ClaimInv.stop (h : ClaimInv tr q) :
    ClaimInv tr { q with workers := fun _ => .idle, phase := .down } where
  nodup := h.nodup
  attempts := h.attempts
  fresh := h.fresh
  held := fun ⟨t, ht, _⟩ => by cases ht
  exclusive := fun ⟨t, ht, _⟩ => by cases ht
  running := fun hs => by cases hs
  resting := fun _ _ => rfl
  noneRunning := fun hs => by cases hs

theorem ClaimInv.reset (h : ClaimInv tr q) (hd : q.phase = .down) (now : Instant):
    ClaimInv tr { q with rows := q.rows.resetRunningTransfers now, phase := .starting } := by
  have hidle := h.resting (by rw [hd]; exact fun he => by cases he)
  have hget := q.rows.get_resetRunningTransfers now
  refine {
    nodup := ?_, attempts := ?_, fresh := ?_
    held := fun ⟨t, ht, _⟩ => by cases (hidle _).symm.trans ht
    exclusive := fun ⟨t, ht, _⟩ => by cases (hidle _).symm.trans ht
    running := fun hs => by cases hs
    resting := fun _ => hidle
    noneRunning := ?_ }
  · change ((q.rows.resetRunningTransfers now).map Transfer.id).Nodup
    rw [Store.resetRunningTransfers, Store.ids_map]
    · exact h.nodup
    · intro r
      split <;> rfl
  · intro id r hr
    rw [hget, Option.map_eq_some_iff] at hr
    obtain ⟨r₀, hr₀, rfl⟩ := hr
    rw [← h.attempts hr₀]
    split <;> rfl
  · intro id hn
    rw [hget, Option.map_eq_none_iff] at hn
    exact h.fresh hn
  · intro _ id r hr
    rw [hget, Option.map_eq_some_iff] at hr
    obtain ⟨r₀, hr₀, rfl⟩ := hr
    split
    · exact fun he => by cases he
    · assumption

theorem ClaimInv.launch (h : ClaimInv tr q) (hs : q.phase = .starting): ClaimInv tr { q with phase := .serving } := by
  have hidle := h.resting (by rw [hs]; exact fun he => by cases he)
  exact {
    nodup := h.nodup
    attempts := h.attempts
    fresh := h.fresh
    held := fun ⟨t, ht, _⟩ => by cases (hidle _).symm.trans ht
    exclusive := fun ⟨t, ht, _⟩ => by cases (hidle _).symm.trans ht
    running := fun _ _ _ hr hrun => (h.noneRunning hs hr hrun).elim
    resting := fun hn => (hn rfl).elim
    noneRunning := fun hn => by cases hn }

variable [DecidableEq W]

theorem Queue.holds_setWorker_self {q : Queue W} {w : W} {t : Transfer} :
    (q.setWorker w (.processing t)).Holds w id ↔ t.id = id := by
  simp only [Queue.Holds, Queue.setWorker, update_self, Worker.processing.injEq]
  exact ⟨fun ⟨t', he, hid⟩ => he ▸ hid, fun hid => ⟨t, rfl, hid⟩⟩

theorem Queue.holds_setWorker_of_ne {q : Queue W} {w w' : W} {x : Worker} (h : w' ≠ w) :
    (q.setWorker w x).Holds w' id ↔ q.Holds w' id := by
  simp only [Queue.Holds, Queue.setWorker, update_of_ne h]

theorem Queue.not_holds_setWorker {q : Queue W} {w : W} {x : Worker}
    (hx : ∀ t, x ≠ .processing t) : ¬ (q.setWorker w x).Holds w id := by
  rintro ⟨t, ht, _⟩
  simp only [Queue.setWorker, update_self] at ht
  exact hx t ht

theorem ClaimInv.init (h : (queueSystem W cfg).init q) : ClaimInv [] q := by
  cases h
  exact {
    nodup := nodup_nil
    attempts := fun h => by cases h
    fresh := fun _ => rfl
    held := fun ⟨t, ht, _⟩ => by cases ht
    exclusive := fun ⟨t, ht, _⟩ => by cases ht
    running := fun h => by cases h
    resting := fun _ _ => rfl
    noneRunning := fun h => by cases h }

section
variable {tr : List (Queue W × Action W)}

theorem ClaimInv.setWorker {q : Queue W} {w : W} {x : Worker}
    (h : ClaimInv tr q) (hs : q.phase = .serving) (hw : ∀ t, q.workers w ≠ .processing t)
    (hx : ∀ t, x ≠ .processing t) : ClaimInv tr (q.setWorker w x) := by
  have hiff (w' : W) (id : String) : (q.setWorker w x).Holds w' id ↔ q.Holds w' id := by
    by_cases he : w' = w
    · subst w'
      exact ⟨fun hh => (Queue.not_holds_setWorker hx hh).elim, fun ⟨t, ht, _⟩ => (hw t ht).elim⟩
    · exact Queue.holds_setWorker_of_ne he
  exact {
    nodup := h.nodup
    attempts := h.attempts
    fresh := h.fresh
    held := fun hh => h.held ((hiff _ _).1 hh)
    exclusive := fun hh hh' => h.exclusive ((hiff _ _).1 hh) ((hiff _ _).1 hh')
    running := fun hs _ _ hr hrun =>
      let ⟨w', hw'⟩ := h.running hs hr hrun
      ⟨w', (hiff _ _).2 hw'⟩
    resting := fun hn => (hn hs).elim
    noneRunning := h.noneRunning }

theorem ClaimInv.acquired {q : Queue W} {w : W} {now : Instant}
    {r : Transfer} (h : ClaimInv tr q) (hw : q.workers w = .polled now)
    (hr : r ∈ q.rows.acquirable now) :
    ClaimInv (tr ++ [(q, .acquire w (some r.id))])
      ({ q with rows := q.rows.updateById r.id fun _ => Store.claim now r }.setWorker w
        (.processing (Store.claim now r))) := by
  obtain ⟨hmem, hdue, _⟩ := Store.mem_acquirable hr
  have hrow := Store.get_of_mem h.nodup hmem
  have hserving : q.phase = .serving := h.serving (by rw [hw]; exact fun he => by cases he)
  have hfreeRow (w' : W) : ¬ q.Holds w' r.id := by
    intro hh
    obtain ⟨r', hr', hst⟩ := h.held hh
    cases hrow.symm.trans hr'
    rcases Store.waiting_of_isDue hdue with hq | hq <;> rcases hst with hst | hst <;>
      cases hq.symm.trans hst
  have hget (id : String) := q.rows.get_updateById (f := fun _ => Store.claim now r) r.id id
    (fun _ _ => rfl)
  have hholds (w' : W) (id : String) :
      ({ q with rows := q.rows.updateById r.id fun _ => Store.claim now r }.setWorker w
        (.processing (Store.claim now r))).Holds w' id ↔
      (w' = w ∧ id = r.id) ∨ q.Holds w' id := by
    by_cases he : w' = w
    · subst w'
      rw [Queue.holds_setWorker_self]
      constructor
      · exact fun hid => .inl ⟨rfl, hid.symm⟩
      · rintro (⟨_, hid⟩ | ⟨t, ht, _⟩)
        · exact hid.symm
        · cases hw.symm.trans ht
    · rw [Queue.holds_setWorker_of_ne he]
      exact ⟨fun hh => .inr hh, fun hh => hh.resolve_left fun hc => he hc.1⟩
  refine {
    nodup := ?_, attempts := ?_, fresh := ?_, held := ?_, exclusive := ?_
    running := ?_, resting := fun hn => (hn hserving).elim
    noneRunning := fun hn => by cases hserving.symm.trans hn }
  · change ((q.rows.updateById r.id _).map Transfer.id).Nodup
    rw [Store.ids_updateById (f := fun _ => Store.claim now r) _ r.id fun _ _ => rfl]
    exact h.nodup
  · intro id r' hr'
    change (q.rows.updateById r.id _).get id = some r' at hr'
    rw [claims_snoc]
    rw [hget id, Option.map_eq_some_iff] at hr'
    obtain ⟨r₀, hr₀, rfl⟩ := hr'
    by_cases he : id = r.id
    · subst id
      cases hrow.symm.trans hr₀
      simp only [if_true, Store.claim, h.attempts hrow]
    · simp only [if_neg he, if_neg (Ne.symm he), h.attempts hr₀, Nat.add_zero]
  · intro id hn
    change (q.rows.updateById r.id _).get id = none at hn
    rw [hget id, Option.map_eq_none_iff] at hn
    rw [claims_snoc, h.fresh hn]
    have hne : r.id ≠ id := by
      rintro rfl
      cases hrow.symm.trans hn
    simp only [if_neg hne]
  · intro w' id hh
    change ∃ r', (q.rows.updateById r.id _).get id = some r' ∧ _
    rw [hget id]
    rcases (hholds w' id).1 hh with ⟨_, rfl⟩ | hh
    · exact ⟨_, by rw [hrow, Option.map_some, if_pos rfl], .inl rfl⟩
    · obtain ⟨r', hr', hst⟩ := h.held hh
      have hne : id ≠ r.id := by
        rintro rfl
        exact hfreeRow w' hh
      exact ⟨r', by rw [hr', Option.map_some, if_neg hne], hst⟩
  · intro w₁ w₂ id h₁ h₂
    rcases (hholds w₁ id).1 h₁ with ⟨hw₁, he₁⟩ | hh₁ <;>
      rcases (hholds w₂ id).1 h₂ with ⟨hw₂, he₂⟩ | hh₂
    · exact hw₁.trans hw₂.symm
    · exact (hfreeRow w₂ (he₁ ▸ hh₂)).elim
    · exact (hfreeRow w₁ (he₂ ▸ hh₁)).elim
    · exact h.exclusive hh₁ hh₂
  · intro _ id r' hr' hrun
    change (q.rows.updateById r.id _).get id = some r' at hr'
    rw [hget id, Option.map_eq_some_iff] at hr'
    obtain ⟨r₀, hr₀, rfl⟩ := hr'
    by_cases he : id = r.id
    · exact ⟨w, (hholds w id).2 (.inl ⟨rfl, he⟩)⟩
    · rw [if_neg he] at hrun
      obtain ⟨w', hw'⟩ := h.running hserving hr₀ hrun
      exact ⟨w', (hholds w' id).2 (.inr hw')⟩

theorem ClaimInv.finish {q : Queue W} {w : W}
    {transfer : Transfer} (h : ClaimInv tr q) (hw : q.workers w = .processing transfer)
    (mark : Mark) (hmark : mark.state ≠ .running) :
    ClaimInv tr ({ q with rows := mark.apply q.rows transfer.id }.setWorker w .idle) := by
  obtain ⟨set, hset, hspec⟩ := mark.apply_eq q.rows transfer.id
  rw [hset]
  have hserving : q.phase = .serving := h.serving (by rw [hw]; exact fun he => by cases he)
  have hkeep (r : Transfer) (hr : r.id = transfer.id) : (set r).id = transfer.id :=
    (hspec r).1.trans hr
  have hget (id : String) := q.rows.get_updateById (f := set) transfer.id id hkeep
  have hholds (w' : W) (id : String) :
      ({ q with rows := q.rows.updateById transfer.id set }.setWorker w .idle).Holds w' id ↔
        w' ≠ w ∧ q.Holds w' id := by
    by_cases he : w' = w
    · subst w'
      exact ⟨fun hh => (Queue.not_holds_setWorker (fun t ht => by cases ht) hh).elim,
        fun hh => (hh.1 rfl).elim⟩
    · rw [Queue.holds_setWorker_of_ne he]
      exact ⟨fun hh => ⟨he, hh⟩, fun hh => hh.2⟩
  have hother {w' : W} {id : String} (hne : w' ≠ w) (hh : q.Holds w' id) : id ≠ transfer.id := by
    rintro rfl
    exact hne (h.exclusive hh ⟨transfer, hw, rfl⟩)
  refine {
    nodup := ?_, attempts := ?_, fresh := ?_, held := ?_, exclusive := ?_
    running := ?_, resting := fun hn => (hn hserving).elim
    noneRunning := fun hn => by cases hserving.symm.trans hn }
  · change ((q.rows.updateById transfer.id set).map Transfer.id).Nodup
    rw [Store.ids_updateById _ _ hkeep]
    exact h.nodup
  · intro id r hr
    change (q.rows.updateById transfer.id set).get id = some r at hr
    rw [hget id, Option.map_eq_some_iff] at hr
    obtain ⟨r₀, hr₀, rfl⟩ := hr
    rw [← h.attempts hr₀]
    split
    · exact (hspec r₀).2.2
    · rfl
  · intro id hn
    change (q.rows.updateById transfer.id set).get id = none at hn
    rw [hget id, Option.map_eq_none_iff] at hn
    exact h.fresh hn
  · intro w' id hh
    obtain ⟨hne, hh⟩ := (hholds w' id).1 hh
    obtain ⟨r, hr, hst⟩ := h.held hh
    refine ⟨r, ?_, hst⟩
    change (q.rows.updateById transfer.id set).get id = some r
    rw [hget id, hr, Option.map_some, if_neg (hother hne hh)]
  · intro w₁ w₂ id h₁ h₂
    exact h.exclusive ((hholds w₁ id).1 h₁).2 ((hholds w₂ id).1 h₂).2
  · intro _ id r hr hrun
    change (q.rows.updateById transfer.id set).get id = some r at hr
    rw [hget id, Option.map_eq_some_iff] at hr
    obtain ⟨r₀, hr₀, rfl⟩ := hr
    by_cases he : id = transfer.id
    · rw [if_pos he, (hspec r₀).2.1] at hrun
      exact (hmark hrun).elim
    · rw [if_neg he] at hrun
      obtain ⟨w', hw'⟩ := h.running hserving hr₀ hrun
      refine ⟨w', (hholds w' id).2 ⟨?_, hw'⟩⟩
      rintro rfl
      obtain ⟨t, ht, hid⟩ := hw'
      cases hw.symm.trans ht
      exact he hid.symm

end

theorem Mark.state_ne_running (mark : Mark) : mark.state ≠ .running := by
  cases mark <;> exact fun h => by cases h

theorem ClaimInv.step {cfg : QueueConfig} {tr : List (Queue W × Action W)} {q q' : Queue W}
    {a : Action W} (h : ClaimInv tr q) (hstep : (queueSystem W cfg).step q a q') :
    ClaimInv (tr ++ [(q, a)]) q' := by
  have hsame (ha : ∀ w id, a ≠ .acquire w (some id)) (h' : ClaimInv tr q') :
      ClaimInv (tr ++ [(q, a)]) q' := by
    apply h'.trace
    intro id
    rw [claims_snoc]
    cases a with
    | acquire w found =>
      cases found with
      | none => rfl
      | some found => exact (ha w found rfl).elim
    | _ => rfl
  cases step_cases hstep with
  | enqueue request hs hfree => exact h.enqueue hs hfree
  | sweep w now hs hw =>
    exact hsame (fun _ _ he => by cases he) ((h.swept now).setWorker hs
      (fun t ht => by cases hw.symm.trans ht) (fun t ht => by cases ht))
  | nothingDue w now hw hn =>
    exact hsame (fun _ _ he => by cases he)
      (h.setWorker (h.serving (by rw [hw]; exact fun he => by cases he))
        (fun t ht => by cases hw.symm.trans ht) (fun t ht => by cases ht))
  | acquired w now r hw hr => exact h.acquired hw hr
  | finish w started outcome finished next transfer hw mark hm =>
    exact hsame (fun _ _ he => by cases he) (h.finish hw mark mark.state_ne_running)
  | stop => exact hsame (fun _ _ he => by cases he) h.stop
  | reset now hd => exact hsame (fun _ _ he => by cases he) (h.reset hd now)
  | launch now hs => exact hsame (fun _ _ he => by cases he) ((h.swept now).launch hs)

theorem ClaimInv.of_run (hi : (queueSystem W cfg).init q₀) (hr : (queueSystem W cfg).Run q₀ tr q): ClaimInv tr q := by
  simpa only [nil_append] using
    hr.trace_invariant (I := ClaimInv) (fun h hs => h.step hs) (ClaimInv.init hi)

/-- No transfer is processed by two workers and the attempts of a row count its claims. Once
a process has recovered the table every running row has exactly one of its workers, and
outside serving nothing is held. -/
theorem claims_exclusive_and_counted (cfg : QueueConfig) {tr : List (Queue W × Action W)}
    {q₀ q : Queue W} (hi : (queueSystem W cfg).init q₀) (hr : (queueSystem W cfg).Run q₀ tr q) :
    (∀ id w w', q.Holds w id → q.Holds w' id → w = w') ∧
    (∀ r ∈ q.rows, r.attempts = claims tr r.id) ∧
    (q.phase ≠ .down → ∀ r ∈ q.rows, r.state = .running → ∃! w, q.Holds w r.id) ∧
    (q.phase ≠ .serving → ∀ w id, ¬ q.Holds w id) := by
  have h := ClaimInv.of_run hi hr
  refine ⟨fun id w w' => h.exclusive, ?_, ?_, ?_⟩
  · intro r hmem
    exact h.attempts (Store.get_of_mem h.nodup hmem)
  · intro hd r hmem hrun
    have hrow := Store.get_of_mem h.nodup hmem
    cases hp : q.phase with
    | down => exact (hd hp).elim
    | starting => exact (h.noneRunning hp hrow hrun).elim
    | serving =>
      obtain ⟨w, hw⟩ := h.running hp hrow hrun
      exact ⟨w, hw, fun w' hw' => h.exclusive hw' hw⟩
  · rintro hn w id ⟨t, ht, _⟩
    cases (h.resting hn w).symm.trans ht

end

instance neZero_sixty : NeZero 60 := ⟨by decide⟩

def newYear (second : Fin 60) : Instant where
  year := 2024
  month := 1
  day := 1
  hour := 0
  minute := 0
  second := second
  nano := 0
  year_le := by decide
  month_pos := by decide
  month_le := by decide
  day_pos := by decide
  day_le := by decide
  hour_lt := by decide
  minute_lt := by decide
  second_lt := second.isLt
  nano_lt := by decide

def sampleRequest (second : Fin 60) (deadline : Option Instant) : EnqueueRequest where
  id := "t"
  direction := .upload
  deviceID := "d"
  remotePath := "a"
  scope := .device
  localPath := "b"
  contentType := ""
  metadataJSON := ""
  now := newYear second
  deadline := deadline

def restartedClaim : List (Action Bool) :=
  [.reset (newYear 0), .launch (newYear 0), .enqueue (sampleRequest 1 none),
    .sweep true (newYear 2), .acquire true (some "t"), .stop, .reset (newYear 3),
    .launch (newYear 3), .sweep false (newYear 4), .acquire false (some "t")]

theorem claims_exclusive_and_counted_restarted :
    ∃ tr, ∃ q : Queue Bool, (queueSystem Bool ⟨1, 60⟩).Run ⟨[], fun _ => .idle, .down⟩ tr q ∧
      q.rows.map Transfer.attempts = [2] ∧ q.rows.map Transfer.state = [.running] ∧
      q.phase = .serving ∧ (∀ r ∈ q.rows, r.attempts = claims tr r.id) ∧
      ∀ r ∈ q.rows, r.state = .running → ∃! w, q.Holds w r.id := by
  have hex : ∃ x, Queue.exec ⟨1, 60⟩ ⟨[], fun _ => .idle, .down⟩ restartedClaim = some x ∧
      x.2.rows.map Transfer.attempts = [2] ∧ x.2.rows.map Transfer.state = [.running] ∧
      x.2.phase = .serving := ⟨_, rfl, by decide, by decide, by decide⟩
  obtain ⟨⟨tr, q⟩, hx, ha, hs, hp⟩ := hex
  have hr := Queue.run_of_exec hx
  have h := claims_exclusive_and_counted ⟨1, 60⟩ rfl hr
  exact ⟨tr, q, hr, ha, hs, hp, h.2.1, h.2.2.1 (by rw [hp]; exact fun he => by cases he)⟩

/-- The request that a row was made for, whatever became of it. -/
def Transfer.request (r : Transfer) : EnqueueRequest :=
  ⟨r.id, r.direction, r.deviceID, r.remotePath, r.scope, r.localPath, r.contentType, r.metadataJSON,
    r.createdAt, r.deadlineAt⟩

def Store.Records (rows : Store) (request : EnqueueRequest) : Prop :=
  (rows.get request.id).map Transfer.request = some request

section
variable {W : Type} [DecidableEq W] {cfg : QueueConfig} {rows : Store} {request : EnqueueRequest} {q q' : Queue W}
  {tr : List (Queue W × Action W)} {a : Action W}

theorem Store.records_map {f : Transfer → Transfer} (hf : ∀ r, (f r).request = r.request) :
    Records (rows.map f) request ↔ rows.Records request := by
  have hcomp : Transfer.request ∘ f = Transfer.request := funext hf
  rw [Records, Records, get_map rows fun r => congrArg EnqueueRequest.id (hf r), Option.map_map, hcomp]

theorem Mark.records_apply (mark : Mark) (id : String) :
    (mark.apply rows id).Records request ↔ rows.Records request := by
  cases mark with
  | completed | failed | retry =>
    apply Store.records_map
    intro r
    split <;> rfl

theorem Store.records_claim (hnodup : (rows.map Transfer.id).Nodup) (hr : r ∈ rows) (now : Instant) :
    (rows.updateById r.id fun _ => claim now r).Records request ↔ rows.Records request := by
  have hsame : rows.updateById r.id (fun _ => claim now r) = rows.updateById r.id (claim now) := by
    apply map_congr_left
    intro r' hr'
    split
    · rename_i hid
      rw [Option.some.inj ((get_of_mem hnodup hr').symm.trans (hid ▸ get_of_mem hnodup hr))]
    · rfl
  rw [hsame]
  apply records_map
  intro r
  split <;> rfl

theorem records_step (h : ClaimInv tr q) (hstep : (queueSystem W cfg).step q a q')
    (hrecords : q.rows.Records request) : q'.rows.Records request := by
  have hswept (now : Instant) : (q.rows.markExpired now).Records request := by
    apply (Store.records_map fun r => ?_).2 hrecords
    split <;> rfl
  cases step_cases hstep with
  | enqueue other hs hfree =>
    have hne : request.id ≠ (Store.withDefaults other.transfer).id := by
      change request.id ≠ other.id
      intro heq
      rw [Store.Records, heq, hfree] at hrecords
      cases hrecords
    rw [Store.Records, Store.get_append_singleton _ _ _ hfree, if_neg hne]
    exact hrecords
  | sweep w now hs hw => exact hswept now
  | launch now hs => exact hswept now
  | nothingDue w now hw hn => exact hrecords
  | stop => exact hrecords
  | acquired w now r hw hr =>
    exact (Store.records_claim h.nodup (Store.mem_acquirable hr).1 now).2 hrecords
  | finish w started outcome finished next transfer hw mark hm => exact (mark.records_apply _).2 hrecords
  | reset now hd =>
    apply (Store.records_map fun r => ?_).2 hrecords
    split <;> rfl

/-- What a worker has after a step, it had before, or has just claimed. -/
theorem processing_step (h : ClaimInv tr q) (hstep : (queueSystem W cfg).step q a q') {w : W} {t : Transfer}
    (ht : q'.workers w = .processing t) : q.workers w = .processing t ∨ q'.rows.Records t.request := by
  have hset {other : W} {x : Worker} (hx : update q.workers other x w = .processing t) :
      q.workers w = .processing t ∨ x = .processing t := by
    by_cases hw : w = other
    · subst hw
      rw [update_self] at hx
      exact .inr hx
    · rw [update_of_ne hw] at hx
      exact .inl hx
  cases step_cases hstep with
  | enqueue | reset | launch => exact .inl ht
  | sweep | nothingDue | finish => exact .inl ((hset ht).resolve_right nofun)
  | stop => cases ht
  | acquired other now r hw hr =>
    rcases hset ht with hold | hclaimed
    · exact .inl hold
    · cases hclaimed
      right
      apply (Store.records_claim h.nodup (Store.mem_acquirable hr).1 now).2
      change (q.rows.get r.id).map Transfer.request = some r.request
      rw [Store.get_of_mem h.nodup (Store.mem_acquirable hr).1]
      rfl

/-- A request that was accepted is on record for ever as it came, and a worker works on one that is. -/
theorem requests_kept (hi : (queueSystem W cfg).init q) (hr : (queueSystem W cfg).Run q tr q') :
    (∀ p ∈ tr, ∀ request, p.2 = .enqueue request → q'.rows.Records request) ∧
      ∀ w t, q'.workers w = .processing t → q'.rows.Records t.request := by
  let I (tr : List (Queue W × Action W)) (q : Queue W) : Prop := ClaimInv tr q ∧
    (∀ p ∈ tr, ∀ request, p.2 = .enqueue request → q.rows.Records request) ∧
      ∀ w t, q.workers w = .processing t → q.rows.Records t.request
  have hstep {tr : List (Queue W × Action W)} {q q' : Queue W} {a : Action W} (hI : I tr q)
      (hstep : (queueSystem W cfg).step q a q') : I (tr ++ [(q, a)]) q' := by
    obtain ⟨h, hrows, hworkers⟩ := hI
    refine ⟨h.step hstep, forall_mem_append.2 ⟨?_, forall_mem_singleton.2 ?_⟩, ?_⟩
    · exact fun p hp request he => records_step h hstep (hrows p hp request he)
    · rintro request rfl
      cases step_cases hstep with
      | enqueue _ hs hfree =>
        rw [Store.Records, Store.get_append_singleton _ _ _ hfree]
        exact congrArg (Option.map Transfer.request) (if_pos rfl)
    · intro w t ht
      exact (processing_step h hstep ht).elim (fun hold => records_step h hstep (hworkers w t hold)) id
  have hstart : I [] q := by
    refine ⟨ClaimInv.init hi, nofun, fun w t ht => ?_⟩
    rw [show q = _ from hi] at ht
    cases ht
  exact (hr.trace_invariant hstep hstart).2

end

theorem requests_kept_restarted : ∃ tr, ∃ q : Queue Bool,
    (queueSystem Bool ⟨1, 60⟩).Run ⟨[], fun _ => .idle, .down⟩ tr q ∧ tr.map Prod.snd = restartedClaim ∧
      q.rows.Records (sampleRequest 1 none) := by
  have hex : ∃ x, Queue.exec ⟨1, 60⟩ ⟨[], fun _ => .idle, .down⟩ restartedClaim = some x ∧
      x.1.map Prod.snd = restartedClaim := ⟨_, rfl, rfl⟩
  obtain ⟨⟨tr, q⟩, hx, hlabels⟩ := hex
  have hr := Queue.run_of_exec hx
  have hmem : Action.enqueue (sampleRequest 1 none) ∈ tr.map Prod.snd := by
    rw [hlabels, restartedClaim]
    simp
  obtain ⟨p, hp, hlabel⟩ := mem_map.1 hmem
  exact ⟨tr, q, hr, hlabels, (requests_kept rfl hr).1 p hp _ hlabel⟩

end Trakrai.CloudTransfer
