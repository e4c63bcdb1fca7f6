import Mathlib.Data.Fintype.Card
import Mathlib.Data.Set.Finite.Basic
import Mathlib.Logic.Relation
import Mathlib.Order.Filter.AtTopBot.Basic

namespace Trakrai.Lib
open Option List

/-- The body of a recursive function: it answers, or calls the function and goes on with what comes back. -/
inductive Body (α β γ : Type) where
  | done (answer : γ)
  | call (argument : α) (next : β → Body α β γ)

namespace Body

def bind : Body α β γ → (γ → Body α β δ) → Body α β δ
  | .done answer, k => k answer
  | .call argument next, k => .call argument fun answer => (next answer).bind k

instance : Monad (Body α β) where
  pure := .done
  bind := .bind

theorem bind_done (p : Body α β γ) : p.bind .done = p := by
  induction p with
  | done answer => rfl
  | call argument next ih => exact congrArg (Body.call argument) (funext ih)

theorem bind_assoc (p : Body α β γ) (k : γ → Body α β δ) (l : δ → Body α β ε) :
    (p.bind k).bind l = p.bind fun c => (k c).bind l := by
  induction p with
  | done answer => rfl
  | call argument next ih => exact congrArg (Body.call argument) (funext ih)

instance : LawfulMonad (Body α β) :=
  LawfulMonad.mk' _ bind_done (fun _ _ => rfl) bind_assoc

def recur (argument : α) : Body α β β := .call argument .done

/-- The answer, where the calls answer what `f` does, or none where one of them does not return. -/
def run (f : α → Option β) : Body α β γ → Option γ
  | .done answer => some answer
  | .call argument next => (f argument).bind fun answer => (next answer).run f

/-- A call that is made where the calls before it come back with some answers. -/
inductive Calls : Body α β γ → α → Prop where
  | here {next} : Calls (.call argument next) argument
  | later {next} : Calls (next answer) argument' → Calls (.call argument next) argument'

section
variable {f g : α → Option β} {p : Body α β γ} {k : γ → Body α β δ}

@[simp]
theorem run_pure (c : γ) : (pure c : Body α β γ).run f = some c := rfl

@[simp]
theorem run_recur (a : α) : (recur a : Body α β β).run f = f a := by
  rw [recur, run]
  cases f a with
  | none => rfl
  | some b => rfl

@[simp]
theorem run_bind (p : Body α β γ) (k : γ → Body α β δ) :
    (p >>= k).run f = (p.run f).bind fun c => (k c).run f := by
  induction p with
  | done answer => rfl
  | call argument next ih =>
    change (f argument).bind (fun b => (next b >>= k).run f) = ((f argument).bind _).bind _
    rw [Option.bind_assoc]
    exact congrArg _ (funext ih)

theorem run_mono (h : ∀ a b, f a = some b → g a = some b) (hrun : p.run f = some c) : p.run g = some c := by
  induction p with
  | done answer => exact hrun
  | call argument next ih =>
    obtain ⟨b, hb, hnext⟩ := bind_eq_some_iff.1 hrun
    exact bind_eq_some_iff.2 ⟨b, h argument b hb, ih b hnext⟩

theorem run_eventually {l : Filter ι} {F : ι → α → Option β} (h : ∀ a b, f a = some b → ∀ᶠ i in l, F i a = some b)
    (hrun : p.run f = some c) : ∀ᶠ i in l, p.run (F i) = some c := by
  induction p with
  | done answer => exact .of_forall fun _ => hrun
  | call argument next ih =>
    obtain ⟨b, hb, hnext⟩ := bind_eq_some_iff.1 hrun
    filter_upwards [h argument b hb, ih b hnext] with i hi hrest
    exact bind_eq_some_iff.2 ⟨b, hi, hrest⟩

theorem not_calls_pure : ¬ Calls (pure c : Body α β γ) a := nofun

theorem calls_recur (h : Calls (recur a : Body α β β) a') : a' = a := by
  cases h with
  | here => rfl
  | later h => cases h

theorem calls_bind (h : Calls (p >>= k) a) : Calls p a ∨ ∃ c, Calls (k c) a := by
  induction p with
  | done answer => exact .inr ⟨answer, h⟩
  | call argument next ih =>
    cases h with
    | here => exact .inl .here
    | later h =>
      rcases ih _ h with h | h
      · exact .inl (.later h)
      · exact .inr h

theorem calls_bind_left (h : Calls p a) : Calls (p >>= k) a := by
  induction h with
  | here => exact .here
  | later _ ih => exact .later ih

theorem calls_bind_right (hrun : p.run f = some c) (h : Calls (k c) a) : Calls (p >>= k) a := by
  induction p with
  | done answer =>
    cases hrun
    exact h
  | call argument next ih =>
    obtain ⟨b, -, hnext⟩ := bind_eq_some_iff.1 hrun
    exact .later (ih b hnext)

theorem exists_run (p : Body α β γ) (b : β) : ∃ c, p.run (fun _ => some b) = some c := by
  induction p with
  | done answer => exact ⟨answer, rfl⟩
  | call argument next ih => exact ih b

theorem calls_mapM_of_mem [Inhabited β] {make : ι → Body α β γ} {items : List ι} (hi : i ∈ items)
    (h : Calls (make i) a) : Calls (items.mapM make) a := by
  induction items with
  | nil => cases hi
  | cons j items ih =>
    rw [mapM_cons]
    rcases mem_cons.1 hi with rfl | hi
    · exact calls_bind_left h
    · obtain ⟨c, hc⟩ := exists_run (make j) default
      exact calls_bind_right hc (calls_bind_left (ih hi))

theorem calls_findSomeM? {check : ι → Body α β (Option γ)} {items : List ι}
    (h : Calls (items.findSomeM? check) a) : ∃ i ∈ items, Calls (check i) a := by
  induction items with
  | nil => exact absurd h not_calls_pure
  | cons i items ih =>
    rw [List.findSomeM?] at h
    rcases calls_bind h with h | ⟨c, h⟩
    · exact ⟨i, mem_cons_self .., h⟩
    · cases c with
      | some found => exact absurd h not_calls_pure
      | none =>
        obtain ⟨j, hj, h⟩ := ih h
        exact ⟨j, mem_cons_of_mem i hj, h⟩

theorem calls_mapM {make : ι → Body α β γ} {items : List ι} (h : Calls (items.mapM make) a) :
    ∃ i ∈ items, Calls (make i) a := by
  induction items with
  | nil => exact absurd h not_calls_pure
  | cons i items ih =>
    rw [mapM_cons] at h
    rcases calls_bind h with h | ⟨c, h⟩
    · exact ⟨i, mem_cons_self .., h⟩
    · rcases calls_bind h with h | ⟨cs, h⟩
      · obtain ⟨j, hj, h⟩ := ih h
        exact ⟨j, mem_cons_of_mem i hj, h⟩
      · exact absurd h not_calls_pure

theorem run_findSomeM? {check : ι → Body α β (Option γ)} {found : ι → Option γ} {items : List ι}
    (h : ∀ i ∈ items, (check i).run f = some (found i)) :
    (items.findSomeM? check).run f = some (items.findSome? found) := by
  induction items with
  | nil => rfl
  | cons i items ih =>
    obtain ⟨hi, hitems⟩ := forall_mem_cons.1 h
    rw [List.findSomeM?, run_bind, hi, bind_some, List.findSome?_cons]
    cases found i with
    | some c => rfl
    | none => exact ih hitems

theorem run_mapM {make : ι → Body α β γ} {made : ι → γ} {items : List ι}
    (h : ∀ i ∈ items, (make i).run f = some (made i)) : (items.mapM make).run f = some (items.map made) := by
  induction items with
  | nil => rfl
  | cons i items ih =>
    obtain ⟨hi, hitems⟩ := forall_mem_cons.1 h
    rw [mapM_cons, run_bind, hi, bind_some, run_bind, ih hitems]
    rfl

end

end Body

open Body

section
variable {body : α → Body α β β} {a : α} {b : β} {n m : Nat}

/-- The answer of a function whose calls are nested less than `n` deep, or none where they go deeper. -/
def within (body : α → Body α β β) : Nat → α → Option β
  | 0, _ => none
  | n + 1, a => (body a).run (within body n)

/-- The call comes back with an answer. -/
def Returns (body : α → Body α β β) (a : α) (b : β) : Prop := ∃ n, within body n a = some b

theorem within_succ (h : within body n a = some b) : within body (n + 1) a = some b := by
  induction n generalizing a b with
  | zero => cases h
  | succ n ih => exact run_mono (fun _ _ h => ih h) h

theorem within_mono (hle : n ≤ m) (h : within body n a = some b) : within body m a = some b := by
  induction hle with
  | refl => exact h
  | step _ ih => exact within_succ ih

theorem run_within (p : Body α β γ) (h : ∀ a, Calls p a → ∃ b, Returns body a b) :
    ∃ n c, p.run (within body n) = some c := by
  induction p with
  | done answer => exact ⟨0, answer, rfl⟩
  | call argument next ih =>
    obtain ⟨b, n, hn⟩ := h argument .here
    obtain ⟨m, c, hm⟩ := ih b fun a ha => h a (.later ha)
    refine ⟨max n m, c, bind_eq_some_iff.2 ⟨b, within_mono (Nat.le_max_left n m) hn, ?_⟩⟩
    exact run_mono (fun _ _ => within_mono (Nat.le_max_right n m)) hm

theorem returns_of_acc (h : Acc (fun a' a => Calls (body a) a') a) : ∃ b, Returns body a b := by
  induction h with
  | intro a _ ih =>
    obtain ⟨n, b, hrun⟩ := run_within (body a) ih
    exact ⟨b, n + 1, hrun⟩

def Eager (p : Body α β γ) : Prop := ∀ f, (p.run f).isSome → ∀ a, Calls p a → (f a).isSome

theorem eager_pure (c : γ) : Eager (pure c : Body α β γ) := fun _ _ _ h => absurd h not_calls_pure

theorem eager_recur (a : α) : Eager (recur a : Body α β β) := by
  intro f hrun a' h
  obtain rfl := calls_recur h
  rwa [run_recur] at hrun

theorem Eager.bind (hp : Eager p) (hk : ∀ c, Eager (k c))
    (hsame : ∀ c c' a, Calls (k c) a → Calls (k c') a) : Eager (p >>= k) := by
  intro f hrun a h
  obtain ⟨d, hd⟩ := isSome_iff_exists.1 hrun
  rw [run_bind, bind_eq_some_iff] at hd
  obtain ⟨c, hc, hnext⟩ := hd
  rcases calls_bind h with h | ⟨c', h⟩
  · exact hp f (by simp [hc]) a h
  · exact hk c f (by simp [hnext]) a (hsame c' c a h)

theorem Eager.mapM {make : ι → Body α β γ} {items : List ι} (h : ∀ i ∈ items, Eager (make i)) :
    Eager (items.mapM make) := by
  induction items with
  | nil => exact eager_pure []
  | cons i items ih =>
    obtain ⟨hi, hitems⟩ := forall_mem_cons.1 h
    rw [mapM_cons]
    apply hi.bind
    · intro c
      exact (ih hitems).bind (fun cs => eager_pure _) fun _ _ _ h => absurd h not_calls_pure
    · intro c c' a h
      rcases calls_bind h with h | ⟨cs, h⟩
      · exact calls_bind_left h
      · exact absurd h not_calls_pure

theorem acc_of_returns (heager : ∀ a, Eager (body a)) (h : Returns body a b) :
    Acc (fun a' a => Calls (body a) a') a := by
  obtain ⟨n, hn⟩ := h
  induction n generalizing a b with
  | zero => cases hn
  | succ n ih =>
    refine ⟨a, fun a' ha' => ?_⟩
    obtain ⟨b', hb'⟩ := isSome_iff_exists.1 (heager a _ (isSome_iff_exists.2 ⟨b, hn⟩) a' ha')
    exact ih hb'

end

section
variable {r : α → α → Prop} {size : α → Nat} {targets : Set α} {a : α}
open Relation

theorem not_transGen_of_acc (h : Acc (fun b a => r a b) a) : ∀ b, ReflTransGen r a b → ¬ TransGen r b b := by
  have hirrefl : ∀ b, Acc (fun b a => TransGen r a b) b → ¬ TransGen r b b := by
    intro b hb
    induction hb with
    | intro b _ ih => exact fun hcycle => ih b hcycle hcycle
  have htrans : (fun b a => TransGen r a b) = TransGen fun b a => r a b := by
    funext b a
    exact propext transGen_swap
  intro b hab
  apply hirrefl
  rw [htrans]
  apply Acc.transGen
  induction hab with
  | refl => exact h
  | tail _ hbc ih => exact ih.inv hbc

theorem acc_of_targets (hstep : ∀ a b, r a b → size b < size a ∨ b ∈ targets) (a : α)
    (h : ∀ t ∈ targets, TransGen r a t → Acc (fun b a => r a b) t) : Acc (fun b a => r a b) a := by
  refine ⟨a, fun b hab => ?_⟩
  rcases hstep a b hab with hlt | htarget
  · exact acc_of_targets hstep b fun t ht hbt => h t ht (.head hab hbt)
  · exact h b htarget (.single hab)
termination_by size a

theorem acc_of_acyclic (hfinite : targets.Finite) (hstep : ∀ a b, r a b → size b < size a ∨ b ∈ targets)
    (hcycle : ∀ b, ReflTransGen r a b → ¬ TransGen r b b) : Acc (fun b a => r a b) a := by
  have := hfinite.to_subtype
  let next (t t' : targets) : Prop := ReflTransGen r a t' ∧ TransGen r t' t
  have : IsTrans targets next := ⟨fun t u v htu huv => ⟨huv.1, huv.2.trans htu.2⟩⟩
  have : Std.Irrefl next := ⟨fun t ht => hcycle t ht.1 ht.2⟩
  have hwf : WellFounded next := Finite.wellFounded_of_trans_of_irrefl next
  have hacc : ∀ t : targets, ReflTransGen r a t → Acc (fun b a => r a b) t.1 := by
    intro t
    induction t using hwf.induction with
    | _ t ih =>
      intro hat
      apply acc_of_targets hstep
      intro u hu htu
      exact ih ⟨u, hu⟩ ⟨hat, htu⟩ (hat.trans htu.to_reflTransGen)
  exact acc_of_targets hstep a fun t ht hat => hacc ⟨t, ht⟩ hat.to_reflTransGen

end

end Trakrai.Lib
