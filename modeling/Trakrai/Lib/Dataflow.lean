import Mathlib.Order.WellFounded

namespace Trakrai.Lib
open Option List

/-- Cells, each computed once from the cells it reads. -/
structure Network (ι α : Type) where
  reads : ι → List ι
  value : ι → (ι → Option α) → α
  value_congr : ∀ {n f g}, (∀ m ∈ reads n, f m = g m) → value n f = value n g

namespace Network
variable {net : Network ι α} {f g : ι → Option α}

def Acyclic (net : Network ι α) : Prop := WellFounded fun m n => m ∈ net.reads n

/-- Every filled cell was computed from filled cells and still holds what they give. -/
def Consistent (net : Network ι α) (f : ι → Option α) : Prop :=
  ∀ n v, f n = some v → v = net.value n f ∧ ∀ m ∈ net.reads n, (f m).isSome

theorem Consistent.fill [DecidableEq ι] (hf : net.Consistent f) (hn : f n = none)
    (hr : ∀ m ∈ net.reads n, (f m).isSome)
    (hg : ∀ m, g m = if m = n then some (net.value n f) else f m) : net.Consistent g := by
  have hold {m : ι} (hm : (f m).isSome) : g m = f m := by
    rw [hg, if_neg]
    rintro rfl
    simp [hn] at hm
  intro m v hv
  rw [hg] at hv
  by_cases hmn : m = n
  · subst hmn
    rw [if_pos rfl, some.injEq] at hv
    refine ⟨?_, fun k hk => by rw [hold (hr k hk)]; exact hr k hk⟩
    rw [← hv]
    exact net.value_congr fun k hk => (hold (hr k hk)).symm
  · rw [if_neg hmn] at hv
    obtain ⟨hval, hreads⟩ := hf m v hv
    refine ⟨?_, fun k hk => by rw [hold (hreads k hk)]; exact hreads k hk⟩
    rw [hval]
    exact net.value_congr fun k hk => (hold (hreads k hk)).symm

theorem Consistent.unique (h : net.Acyclic) (hf : net.Consistent f) (hg : net.Consistent g) :
    ∀ n v w, f n = some v → g n = some w → v = w := by
  intro n
  induction n using h.induction with
  | _ n ih =>
    intro v w hv hw
    obtain ⟨hval, hreads⟩ := hf n v hv
    obtain ⟨hval', hreads'⟩ := hg n w hw
    rw [hval, hval']
    apply net.value_congr
    intro m hm
    obtain ⟨a, ha⟩ := isSome_iff_exists.1 (hreads m hm)
    obtain ⟨b, hb⟩ := isSome_iff_exists.1 (hreads' m hm)
    rw [ha, hb, ih m hm a b ha hb]

end Network

/-- Each element comes before (to the left of) the ones it reads. -/
def Ordered (reads : ι → List ι) : List ι → Prop
  | [] => True
  | n :: order => (∀ m ∈ reads n, m ∈ order) ∧ Ordered reads order

theorem Ordered.acc (h : Ordered reads order) : ∀ n ∈ order, Acc (fun m n => m ∈ reads n) n := by
  induction order with
  | nil => intro n hn; cases hn
  | cons k order ih =>
    intro n hn
    rcases mem_cons.1 hn with rfl | hn
    · exact ⟨n, fun m hm => ih h.2 m (h.1 m hm)⟩
    · exact ih h.2 n hn

theorem Ordered.subset (h : Ordered reads (pre ++ n :: post)): reads n ⊆ post := by
  induction pre with
  | nil => exact h.1
  | cons k pre ih => exact ih h.2

def Layered (reads : ι → List ι) (done : List ι) : List (List ι) → Prop
  | [] => True
  | level :: levels => (∀ n ∈ level, reads n ⊆ done) ∧ Layered reads (done ++ level) levels

theorem Ordered.append (ho : Ordered reads order) (hl : ∀ n ∈ level, reads n ⊆ order): Ordered reads (level ++ order) := by
  induction level with
  | nil => exact ho
  | cons n level ih =>
    obtain ⟨hn, hl⟩ := forall_mem_cons.1 hl
    exact ⟨fun m hm => mem_append_right _ (hn hm), ih hl⟩

theorem Layered.ordered (h : Layered reads done levels) (hd : Ordered reads done.reverse):
    Ordered reads (done ++ levels.flatten).reverse := by
  induction levels generalizing done with
  | nil => simpa using hd
  | cons level levels ih =>
    have hlevel : Ordered reads (done ++ level).reverse := by
      rw [reverse_append]
      apply hd.append
      intro n hn m hm
      exact List.mem_reverse.2 (h.1 n (List.mem_reverse.1 hn) hm)
    rw [flatten_cons, ← append_assoc]
    exact ih h.2 hlevel

end Trakrai.Lib
