import Trakrai.CloudTransfer.Claims

namespace Trakrai.CloudTransfer
open Option Lib

/-- The report of a worker is a failure: the deadline was over when it started, or the error
is permanent, or the next attempt would come after the deadline. -/
def GivesUp (transfer : Transfer) (started : Instant) (outcome : Outcome) (next : Instant) :
    Bool :=
  transfer.deadlineAt.any (· ≤ started) ||
    match outcome with
    | .success _ => false
    | .failure temporary _ _ => !temporary || transfer.deadlineAt.any (· ≤ next)

theorem processTransfer_state_failed_iff (transfer : Transfer) (started : Instant)
    (outcome : Outcome) (finished next : Instant) :
    (processTransfer transfer started outcome finished next).state = .failed ↔
      GivesUp transfer started outcome next := by
  simp only [processTransfer, GivesUp, Bool.or_eq_true]
  by_cases hd : transfer.deadlineAt.any (· ≤ started)
  · simp [hd, Mark.state]
  · rw [if_neg hd]
    cases outcome with
    | success objectKey => simp [hd, Mark.state]
    | failure temporary message objectKey =>
      simp only [hd, Bool.false_eq_true, false_or]
      split <;> simp_all [Mark.state]

theorem Store.stateOf_map (rows : Store) (hf : ∀ r, (f r).id = r.id) (id : String): Store.stateOf (rows.map f) id = (rows.get id).map fun r => (f r).state := by
  rw [Store.stateOf, Store.get_map rows hf, map_map]
  rfl

section
variable {W : Type}

/-- Every transfer that is over in `q` is in the same state in `q'`. -/
def Keeps (q q' : Queue W) : Prop :=
  ∀ id st, q.rows.stateOf id = some st → st.terminal → q'.rows.stateOf id = some st

theorem Keeps.refl (q : Queue W) : Keeps q q := fun _ _ h _ => h

theorem Keeps.trans (h : Keeps q q') (h' : Keeps q' q'') : Keeps q q'' :=
  fun id st hst ht => h' id st (h id st hst ht) ht

/-- A worker whose row the deadline sweep has failed in the meantime reports a failure. -/
def Timely (q : Queue W) : Action W → Bool
  | .finish w started outcome _ next =>
    match q.workers w with
    | .processing transfer =>
      q.rows.stateOf transfer.id != some .failed || GivesUp transfer started outcome next
    | _ => true
  | _ => true

theorem timely_finish_iff
    (hw : q.workers w = .processing transfer) (started : Instant) (outcome : Outcome)
    (finished next : Instant) :
    Timely q (.finish w started outcome finished next) ↔
      (q.rows.stateOf transfer.id = some .failed → GivesUp transfer started outcome next) := by
  simp only [Timely, hw, Bool.or_eq_true, bne_iff_ne, ne_eq, ← imp_iff_not_or]

theorem Keeps.of_map {q q' : Queue W} {f : Transfer → Transfer} (hq : q'.rows = q.rows.map f)
    (hid : ∀ r, (f r).id = r.id)
    (hf : ∀ {id r}, q.rows.get id = some r → r.state.terminal → (f r).state = r.state) :
    Keeps q q' := by
  intro id st hst ht
  rw [Store.stateOf, map_eq_some_iff] at hst
  obtain ⟨r, hr, rfl⟩ := hst
  rw [hq, Store.stateOf_map _ hid, hr, map_some, hf hr ht]

theorem Keeps.of_updateById {q q' : Queue W} {f : Transfer → Transfer} (id : String)
    (hq : q'.rows = q.rows.updateById id f) (hid : ∀ r, r.id = id → (f r).id = id)
    (hf : ∀ {r}, q.rows.get id = some r → r.state.terminal → (f r).state = r.state) :
    Keeps q q' := by
  apply Keeps.of_map hq
  · intro r
    split
    · rename_i he
      rw [hid r he, he]
    · rfl
  · intro id' r hr ht
    split
    · rename_i he
      have hid' := Store.get_id hr
      exact hf (he ▸ hid' ▸ hr) ht
    · rfl

variable [DecidableEq W]

theorem Keeps.step {cfg : QueueConfig} {tr : List (Queue W × Action W)} {q q' : Queue W}
    {a : Action W} (h : ClaimInv tr q) (hstep : (queueSystem W cfg).step q a q')
    (ht : Timely q a) : Keeps q q' := by
  have hswept (now : Instant) (q' : Queue W) (hq : q'.rows = q.rows.markExpired now) :
      Keeps q q' := by
    apply Keeps.of_map hq
    · intro r
      split <;> rfl
    · intro id r _ hover
      rw [if_neg]
      simp [Store.isExpired, hover]
  cases step_cases hstep with
  | enqueue request hs hfree =>
    intro id st hst _
    rw [Store.stateOf, map_eq_some_iff] at hst
    obtain ⟨r, hr, rfl⟩ := hst
    have hne : id ≠ request.id := by
      rintro rfl
      cases hfree.symm.trans hr
    rw [Store.stateOf, Store.get_append_singleton _ (Store.withDefaults request.transfer) _ hfree,
      if_neg (show id ≠ (Store.withDefaults request.transfer).id from hne), hr, map_some]
  | sweep w now hs hw => exact hswept now _ rfl
  | nothingDue w now hw hn => exact fun _ _ hst _ => hst
  | acquired w now r hw hr =>
    obtain ⟨hmem, hdue, _⟩ := Store.mem_acquirable hr
    apply Keeps.of_updateById (f := fun _ => Store.claim now r) r.id rfl fun _ _ => rfl
    intro r' hr' hover
    cases (Store.get_of_mem h.nodup hmem).symm.trans hr'
    rcases Store.waiting_of_isDue hdue with hq | hq <;> simp [hq, TransferState.terminal] at hover
  | finish w started outcome finished next transfer hw mark hm =>
    obtain ⟨f, hf, hspec⟩ := mark.apply_eq q.rows transfer.id
    apply Keeps.of_updateById transfer.id hf
    · exact fun r he => (hspec r).1.trans he
    · intro r hr hover
      obtain ⟨r', hr', hst⟩ := h.held ⟨transfer, hw, rfl⟩
      cases hr.symm.trans hr'
      rcases hst with hst | hst
      · simp [hst, TransferState.terminal] at hover
      · have hgive := (timely_finish_iff hw ..).1 ht (by rw [Store.stateOf, hr, map_some, hst])
        rw [(hspec r).2.1, hst, hm]
        exact (processTransfer_state_failed_iff ..).2 hgive
  | stop => exact fun _ _ hst _ => hst
  | reset now hd =>
    apply Keeps.of_map rfl
    · intro r
      split <;> rfl
    · intro id r _ hover
      rw [if_neg]
      intro hrun
      simp [hrun, TransferState.terminal] at hover
  | launch now hs => exact hswept now _ rfl

theorem Timely.of_keeps (hstep : (queueSystem W cfg).step q a q') (hk : Keeps q q'): Timely q a := by
  cases step_cases hstep with
  | finish w started outcome finished next transfer hw mark hm =>
    refine (timely_finish_iff hw ..).2 fun hst => ?_
    obtain ⟨f, hf, hspec⟩ := mark.apply_eq q.rows transfer.id
    have hafter := hk _ _ hst rfl
    change (mark.apply q.rows transfer.id).stateOf transfer.id = _ at hafter
    rw [hf, Store.stateOf, Store.get_updateById _ _ _ fun r he => (hspec r).1.trans he,
      map_map, map_eq_some_iff] at hafter
    obtain ⟨r, _, hst'⟩ := hafter
    simp only [Function.comp, if_true] at hst'
    rw [(hspec r).2.1, hm] at hst'
    exact (processTransfer_state_failed_iff ..).1 hst'
  | _ => rfl

/-- In a run, what is over stays as it is if and only if no worker reports anything but a
failure on a row that a deadline sweep has failed while it was processing. -/
theorem terminal_final_iff (cfg : QueueConfig) {tr : List (Queue W × Action W)} {q₀ q : Queue W}
    (hi : (queueSystem W cfg).init q₀) (hr : (queueSystem W cfg).Run q₀ tr q) :
    (states tr q).Pairwise Keeps ↔ ∀ p ∈ tr, Timely p.1 p.2 := by
  constructor
  · intro hp p hm
    obtain ⟨u, hstep, hk⟩ := hr.step_of_pairwise hp hm
    exact Timely.of_keeps hstep hk
  · intro ht
    have hall := hr.pairwise (I := fun q => ∃ tr, ClaimInv tr q) (R := Keeps) Keeps.refl
      Keeps.trans (fun ⟨_, h⟩ hs => ⟨_, h.step hs⟩) ⟨[], ClaimInv.init hi⟩
    exact (hall fun p hm ⟨_, h⟩ u hs => Keeps.step h hs (ht p hm)).1

end

def expiredWhileProcessing (outcome : Outcome) : List (Action Bool) :=
  [.reset (newYear 0), .launch (newYear 0), .enqueue (sampleRequest 1 (some (newYear 10))),
    .sweep true (newYear 2), .acquire true (some "t"), .sweep false (newYear 11),
    .finish true (newYear 3) outcome (newYear 12) (newYear 13)]

theorem terminal_final_late_error :
    ∃ tr, ∃ q : Queue Bool, (queueSystem Bool ⟨1, 60⟩).Run ⟨[], fun _ => .idle, .down⟩ tr q ∧
      q.rows.map Transfer.state = [.failed] ∧ (states tr q).Pairwise Keeps := by
  have hex : ∃ x, Queue.exec ⟨1, 60⟩ ⟨[], fun _ => .idle, .down⟩
      (expiredWhileProcessing (.failure true "connection reset" "")) = some x ∧
      x.2.rows.map Transfer.state = [.failed] ∧ ∀ p ∈ x.1, Timely p.1 p.2 :=
    ⟨_, rfl, by decide, by decide⟩
  obtain ⟨⟨tr, q⟩, hx, hs, ht⟩ := hex
  have hr := Queue.run_of_exec hx
  exact ⟨tr, q, hr, hs, (terminal_final_iff ⟨1, 60⟩ rfl hr).2 ht⟩

theorem terminal_not_final_late_completion :
    ¬ ∀ (tr : List (Queue Bool × Action Bool)) (q : Queue Bool),
      (queueSystem Bool ⟨1, 60⟩).Run ⟨[], fun _ => .idle, .down⟩ tr q →
        (states tr q).Pairwise Keeps := by
  intro hall
  have hex : ∃ x, Queue.exec ⟨1, 60⟩ ⟨[], fun _ => .idle, .down⟩
      (expiredWhileProcessing (.success "k")) = some x ∧
      (states x.1 x.2).map (fun q => q.rows.stateOf "t") =
        [none, none, none, some .queued, some .queued, some .running, some .failed,
          some .completed] := ⟨_, rfl, by decide⟩
  obtain ⟨⟨tr, q⟩, hx, hs⟩ := hex
  have hkept : (states tr q).Pairwise fun q q' =>
      q.rows.stateOf "t" = some .failed → q'.rows.stateOf "t" = some .failed :=
    (hall tr q (Queue.run_of_exec hx)).imp fun hk hst => hk _ _ hst rfl
  rw [← List.pairwise_map (R := fun st st' => st = some .failed → st' = some .failed)
    (f := fun q : Queue Bool => q.rows.stateOf "t"), hs] at hkept
  revert hkept
  decide

end Trakrai.CloudTransfer
