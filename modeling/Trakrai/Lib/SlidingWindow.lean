import Mathlib.Data.Int.Order.Basic
import Mathlib.Data.List.Basic
import Mathlib.Data.List.TakeWhile

namespace Trakrai.Lib
open List

def inWindow (start length : Int) (log : List Int) : List Int :=
  log.filter fun t => start ≤ t ∧ t ≤ start + length

/-- A limiter at a time: it has kept what is not older than the length of the window, and the log
of what it has let through has no window with more entries than the limit. -/
structure Sliding (length : Int) (limit : Nat) (log kept : List Int) (now : Int) : Prop where
  kept : (log.filter (now - length ≤ ·)).Sublist kept
  bound : ∀ start, (inWindow start length log).length ≤ limit

namespace Sliding
variable {length now : Int} {limit : Nat} {log kept : List Int}

theorem nil (kept : List Int) (now : Int) : Sliding length limit [] kept now :=
  ⟨nil_sublist _, fun _ => Nat.zero_le _⟩

theorem filter_sublist_dropWhile :
    (kept.filter (cutoff ≤ ·)).Sublist (kept.dropWhile (· < cutoff)) := by
  induction kept with
  | nil => exact List.Sublist.refl _
  | cons t kept ih =>
    by_cases ht : t < cutoff
    · rw [filter_cons_of_neg (by simpa using ht), dropWhile_cons_of_pos (by simpa using ht)]
      exact ih
    · rw [dropWhile_cons_of_neg (by simpa using ht)]
      exact filter_sublist

theorem advance (h : Sliding length limit log kept now) (hle : now ≤ later) :
    Sliding length limit log (kept.dropWhile (· < later - length)) later where
  kept := by
    have hfilter : (log.filter (now - length ≤ ·)).filter (later - length ≤ ·) =
        log.filter (later - length ≤ ·) := by
      rw [filter_filter]
      apply filter_congr
      intro t _
      simp only [Bool.and_eq_left_iff_imp, decide_eq_true_iff]
      omega
    rw [← hfilter]
    exact (h.kept.filter _).trans filter_sublist_dropWhile
  bound := h.bound

theorem record (h : Sliding length limit log kept now) (hroom : kept.length < limit) :
    Sliding length limit (log ++ [now]) (kept ++ [now]) now where
  kept := by
    rw [filter_append]
    exact h.kept.append filter_sublist
  bound := by
    intro start
    rw [inWindow, filter_append, length_append]
    by_cases hin : start ≤ now ∧ now ≤ start + length
    · have hrecent : (inWindow start length log).length ≤ kept.length := by
        have hsub : (inWindow start length log).Sublist (log.filter (now - length ≤ ·)) := by
          apply monotone_filter_right
          intro t ht
          simp only [decide_eq_true_iff] at ht ⊢
          omega
        exact (hsub.trans h.kept).length_le
      have hnew : ([now].filter fun t => start ≤ t ∧ t ≤ start + length).length ≤ 1 :=
        length_filter_le ..
      rw [inWindow] at hrecent
      omega
    · have hnew : [now].filter (fun t => start ≤ t ∧ t ≤ start + length) = [] := by
        simpa using hin
      rw [hnew]
      exact h.bound start

end Sliding

/-- The log of a limiter up to now, of which it has kept the end: what it has dropped is too old. -/
structure Swept (length now : Int) (log kept : List Int) : Prop where
  sorted : log.Pairwise (· ≤ ·)
  past : ∀ t ∈ log, t ≤ now
  dropped : ∃ dropped, log = dropped ++ kept ∧ ∀ t ∈ dropped, t < now - length

namespace Swept
variable {length now later : Int} {log kept : List Int}

theorem nil : Swept length now [] [] := ⟨.nil, by simp, [], rfl, by simp⟩

theorem mono (h : Swept length now log kept) (hle : now ≤ later) : Swept length later log kept where
  sorted := h.sorted
  past t ht := (h.past t ht).trans hle
  dropped := by
    obtain ⟨dropped, he, hold⟩ := h.dropped
    refine ⟨dropped, he, fun t ht => ?_⟩
    have := hold t ht
    omega

theorem dropWhile_eq_filter (h : kept.Pairwise (· ≤ ·)) :
    kept.dropWhile (· < cutoff) = kept.filter (cutoff ≤ ·) := by
  induction kept with
  | nil => rfl
  | cons t kept ih =>
    obtain ⟨hfirst, hrest⟩ := pairwise_cons.mp h
    by_cases ht : t < cutoff
    · rw [dropWhile_cons_of_pos (by simpa using ht), filter_cons_of_neg (by simpa using ht)]
      exact ih hrest
    · rw [dropWhile_cons_of_neg (by simpa using ht), eq_comm, filter_eq_self]
      intro t' ht'
      have : t ≤ t' := by
        rcases mem_cons.mp ht' with rfl | hmem
        · exact le_rfl
        · exact hfirst t' hmem
      simp only [decide_eq_true_iff]
      omega

theorem pruned (h : Swept length now log kept) :
    kept.dropWhile (· < now - length) = inWindow (now - length) length log := by
  obtain ⟨dropped, rfl, hold⟩ := h.dropped
  have hold : dropped.filter (fun t => now - length ≤ t ∧ t ≤ now - length + length) = [] := by
    rw [filter_eq_nil_iff]
    intro t ht
    have := hold t ht
    simp only [decide_eq_true_iff, not_and]
    omega
  rw [dropWhile_eq_filter (pairwise_append.mp h.sorted).2.1, inWindow, filter_append, hold,
    nil_append]
  apply filter_congr
  intro t ht
  have := h.past t (mem_append_right _ ht)
  simp only [decide_eq_decide]
  omega

theorem prune (h : Swept length now log kept) :
    Swept length now log (kept.dropWhile (· < now - length)) where
  sorted := h.sorted
  past := h.past
  dropped := by
    obtain ⟨dropped, he, hold⟩ := h.dropped
    refine ⟨dropped ++ kept.takeWhile (· < now - length), ?_, ?_⟩
    · rw [he, append_assoc, takeWhile_append_dropWhile]
    · intro t ht
      rcases mem_append.mp ht with ht | ht
      · exact hold t ht
      · simpa using mem_takeWhile_imp ht

theorem record (h : Swept length now log kept) : Swept length now (log ++ [now]) (kept ++ [now]) where
  sorted := by
    rw [pairwise_append]
    refine ⟨h.sorted, pairwise_singleton .., fun t ht t' ht' => ?_⟩
    rw [mem_singleton.mp ht']
    exact h.past t ht
  past := by
    intro t ht
    rcases mem_append.mp ht with ht | ht
    · exact h.past t ht
    · exact le_of_eq (mem_singleton.mp ht)
  dropped := by
    obtain ⟨dropped, he, hold⟩ := h.dropped
    exact ⟨dropped, by rw [he, append_assoc], hold⟩

end Swept

section
variable {Kind : Type} [DecidableEq Kind] {State : Type} {limit : Kind → Nat} {length : Int}

/-- The times of the arrivals of a kind that were let through. -/
def accepted (kind : Kind) (record : List ((Kind × Int) × Bool)) : List Int :=
  (record.filter fun entry => entry.2 && entry.1.1 == kind).map fun entry => entry.1.2

/-- A limiter that forgets nothing: it lets an arrival through where the window that ends with it
has room. -/
def hasRoom (limit : Kind → Nat) (length : Int) (record : List ((Kind × Int) × Bool))
    (arrival : Kind × Int) : Bool :=
  (inWindow (arrival.2 - length) length (accepted arrival.1 record)).length < limit arrival.1

def remembered (limit : Kind → Nat) (length : Int) :
    List ((Kind × Int) × Bool) → List (Kind × Int) → List ((Kind × Int) × Bool)
  | record, [] => record
  | record, arrival :: arrivals =>
    remembered limit length (record ++ [(arrival, hasRoom limit length record arrival)]) arrivals

/-- The arrivals, each with the answer of a limiter. -/
def served (serve : State → Kind × Int → Bool × State) :
    State → List (Kind × Int) → List ((Kind × Int) × Bool)
  | _, [] => []
  | s, arrival :: arrivals =>
    (arrival, (serve s arrival).1) :: served serve (serve s arrival).2 arrivals

/-- No closed interval of the length of the window has more accepted arrivals of a kind than its
limit, and one is rejected only where the window that ends with it has as many. -/
structure Slides (limit : Kind → Nat) (length : Int) (record : List ((Kind × Int) × Bool)) : Prop where
  bounded : ∀ kind start, (inWindow start length (accepted kind record)).length ≤ limit kind
  rejected : ∀ before kind now after, record = before ++ ((kind, now), false) :: after →
    (inWindow (now - length) length (accepted kind before)).length = limit kind

/-- An implementation that keeps times by kind: in the states it can be in, it drops the ones that
are too old and records an arrival where there is room. -/
structure Prunes (limit : Kind → Nat) (length : Int) (serve : State → Kind × Int → Bool × State)
    (kept : State → Kind → List Int) (Fits : State → Prop) : Prop where
  answer : ∀ s, Fits s → ∀ kind now, (serve s (kind, now)).1 =
    decide (((kept s kind).dropWhile (· < now - length)).length < limit kind)
  same : ∀ s, Fits s → ∀ kind now, kept (serve s (kind, now)).2 kind =
    (kept s kind).dropWhile (· < now - length) ++ if (serve s (kind, now)).1 then [now] else []
  other : ∀ s, Fits s → ∀ kind now kind', kind' ≠ kind → kept (serve s (kind, now)).2 kind' = kept s kind'
  fits : ∀ s, Fits s → ∀ arrival, Fits (serve s arrival).2

theorem accepted_append (kind : Kind) (record : List ((Kind × Int) × Bool)) (kind' : Kind) (now : Int)
    (answer : Bool) : accepted kind (record ++ [((kind', now), answer)]) =
      accepted kind record ++ if answer ∧ kind' = kind then [now] else [] := by
  rw [accepted, filter_append, map_append, ← accepted]
  by_cases h : answer ∧ kind' = kind
  · rw [if_pos h]
    simp [h.1, h.2]
  · rw [if_neg h, filter_cons_of_neg (by simpa using h), filter_nil, map_nil]

variable {serve : State → Kind × Int → Bool × State} {kept : State → Kind → List Int}
  {Fits : State → Prop} {s : State}
  {record : List ((Kind × Int) × Bool)} {kind : Kind} {now : Int} {arrivals : List (Kind × Int)}

theorem Prunes.step (h : Prunes limit length serve kept Fits) (hfits : Fits s)
    (hs : ∀ kind, Swept length now (accepted kind record) (kept s kind)) :
    (serve s (kind, now)).1 = hasRoom limit length record (kind, now) ∧ ∀ kind', Swept length now
        (accepted kind' (record ++ [((kind, now), hasRoom limit length record (kind, now))]))
        (kept (serve s (kind, now)).2 kind') := by
  have hanswer : (serve s (kind, now)).1 = hasRoom limit length record (kind, now) := by
    rw [h.answer s hfits, (hs kind).pruned, hasRoom]
  refine ⟨hanswer, fun kind' => ?_⟩
  rw [accepted_append, ← hanswer]
  by_cases hkind : kind' = kind
  · subst hkind
    rw [h.same s hfits]
    cases (serve s (kind', now)).1 with
    | true => simpa using (hs kind').prune.record
    | false => simpa using (hs kind').prune
  · rw [h.other s hfits kind now kind' hkind, if_neg fun hboth => hkind hboth.2.symm, append_nil]
    exact hs kind'

theorem Prunes.run (h : Prunes limit length serve kept Fits) (hfits : Fits s)
    (hs : ∀ kind, Swept length now (accepted kind record) (kept s kind))
    (hnow : ∀ arrival ∈ arrivals, now ≤ arrival.2)
    (hsorted : (arrivals.map Prod.snd).Pairwise (· ≤ ·)) :
    record ++ served serve s arrivals = remembered limit length record arrivals := by
  induction arrivals generalizing s record now with
  | nil => exact append_nil _
  | cons arrival arrivals ih =>
    obtain ⟨kind, time⟩ := arrival
    obtain ⟨hfirst, hrest⟩ := pairwise_cons.mp hsorted
    have htime : now ≤ time := hnow _ mem_cons_self
    obtain ⟨hanswer, hswept⟩ := h.step hfits fun kind' => (hs kind').mono htime
    rw [served, remembered, ← ih (h.fits s hfits _) hswept (fun a ha => hfirst _ (mem_map_of_mem ha)) hrest,
      append_assoc, hanswer]
    rfl

theorem Slides.nil : Slides limit length [] := by
  refine ⟨fun _ _ => Nat.zero_le _, fun before kind now after he => ?_⟩
  simp at he

theorem Slides.step (h : Slides limit length record)
    (hpast : ∀ kind, ∀ t ∈ accepted kind record, t ≤ now) :
    Slides limit length (record ++ [((kind, now), hasRoom limit length record (kind, now))]) where
  bounded kind' start := by
    rw [accepted_append]
    split
    · rename_i hroom
      obtain ⟨hroom, rfl⟩ := hroom
      have hrecent : (accepted kind record).filter (now - length ≤ ·) =
          inWindow (now - length) length (accepted kind record) := by
        apply filter_congr
        intro t ht
        have := hpast kind t ht
        simp only [decide_eq_decide]
        omega
      have hkept : ((accepted kind record).filter (now - length ≤ ·)).Sublist
          (inWindow (now - length) length (accepted kind record)) := by
        rw [hrecent]
      exact (Sliding.record ⟨hkept, h.bounded kind⟩ (by simpa [hasRoom] using hroom)).bound start
    · rw [append_nil]
      exact h.bounded kind' start
  rejected before kind' now' after he := by
    rcases eq_nil_or_concat after with rfl | ⟨rest, last, rfl⟩
    · obtain ⟨rfl, hlast⟩ := append_inj' he rfl
      simp only [List.cons.injEq, Prod.mk.injEq, and_true] at hlast
      obtain ⟨⟨rfl, rfl⟩, hroom⟩ := hlast
      apply Nat.le_antisymm (h.bounded kind _)
      simpa [hasRoom] using hroom
    · rw [concat_eq_append, ← cons_append, ← append_assoc] at he
      exact h.rejected before kind' now' rest (append_inj' he rfl).1

theorem Slides.remembered (h : Slides limit length record)
    (hpast : ∀ kind, ∀ t ∈ accepted kind record, t ≤ now)
    (hnow : ∀ arrival ∈ arrivals, now ≤ arrival.2)
    (hsorted : (arrivals.map Prod.snd).Pairwise (· ≤ ·)) :
    Slides limit length (remembered limit length record arrivals) := by
  induction arrivals generalizing record now with
  | nil => exact h
  | cons arrival arrivals ih =>
    obtain ⟨kind, time⟩ := arrival
    obtain ⟨hfirst, hrest⟩ := pairwise_cons.mp hsorted
    have hpast' : ∀ kind', ∀ t ∈ accepted kind' record, t ≤ time := fun kind' t ht =>
      (hpast kind' t ht).trans (hnow _ mem_cons_self)
    refine ih (h.step hpast') (fun kind' t ht => ?_) (fun a ha => hfirst _ (mem_map_of_mem ha)) hrest
    rw [accepted_append] at ht
    rcases mem_append.mp ht with ht | ht
    · exact hpast' kind' t ht
    · split at ht
      · exact le_of_eq (mem_singleton.mp ht)
      · cases ht

def inUnit (unit : Int) (arrival : Kind × Int) : Kind × Int := (arrival.1, unit * arrival.2)

theorem inWindow_inUnit (hunit : 0 < unit) (start length : Int) (log : List Int) :
    inWindow (unit * start) (unit * length) (log.map (unit * ·)) =
      (inWindow start length log).map (unit * ·) := by
  rw [inWindow, filter_map, inWindow]
  congr 1
  apply filter_congr
  intro t _
  have hleft : unit * start ≤ unit * t ↔ start ≤ t := Int.mul_le_mul_left hunit
  have hright : unit * t ≤ unit * start + unit * length ↔ t ≤ start + length := by
    rw [← Int.mul_add]
    exact Int.mul_le_mul_left hunit
  simp [hleft, hright]

theorem remembered_inUnit (hunit : 0 < unit) (record : List ((Kind × Int) × Bool)) :
    remembered limit (unit * length) (record.map (Prod.map (inUnit unit) id))
        (arrivals.map (inUnit unit)) =
      (remembered limit length record arrivals).map (Prod.map (inUnit unit) id) := by
  induction arrivals generalizing record with
  | nil => rfl
  | cons arrival arrivals ih =>
    have haccepted (kind : Kind) : accepted kind (record.map (Prod.map (inUnit unit) id)) =
          (accepted kind record).map (unit * ·) := by
      simp only [accepted, filter_map, map_map]
      rfl
    have hroom : hasRoom limit (unit * length) (record.map (Prod.map (inUnit unit) id))
        (inUnit unit arrival) = hasRoom limit length record arrival := by
      have hcount : (inWindow (unit * arrival.2 - unit * length) (unit * length)
          ((accepted arrival.1 record).map (unit * ·))).length =
          (inWindow (arrival.2 - length) length (accepted arrival.1 record)).length := by
        rw [← Int.mul_sub, inWindow_inUnit hunit, length_map]
      simp only [hasRoom, inUnit, haccepted, hcount]
    rw [map_cons, remembered, hroom, remembered, ← ih, map_append]
    rfl

theorem Prunes.slides (h : Prunes limit length serve kept Fits) (hfits : Fits s) (hs : ∀ kind, kept s kind = [])
    (hsorted : (arrivals.map Prod.snd).Pairwise (· ≤ ·)) :
    served serve s arrivals = Lib.remembered limit length [] arrivals ∧
      Slides limit length (served serve s arrivals) := by
  obtain _ | ⟨first, rest⟩ := arrivals
  · exact ⟨rfl, Slides.nil⟩
  · have hnow : ∀ arrival ∈ first :: rest, first.2 ≤ arrival.2 := by
      intro arrival harrival
      rcases mem_cons.mp harrival with rfl | hmem
      · exact le_rfl
      · exact (pairwise_cons.mp hsorted).1 _ (mem_map_of_mem hmem)
    have hswept : ∀ kind, Swept length first.2 (accepted kind []) (kept s kind) := by
      intro kind
      rw [hs kind]
      exact Swept.nil
    have hrun := h.run hfits hswept hnow hsorted
    rw [nil_append] at hrun
    refine ⟨hrun, ?_⟩
    rw [hrun]
    exact Slides.nil.remembered (fun _ t ht => (not_mem_nil ht).elim) hnow hsorted

end

end Trakrai.Lib
