import Mathlib.Data.Option.Basic

namespace Trakrai.Lib

/-- A computation that asks its environment questions; the rest may depend on each answer. -/
inductive Dialogue (ι : Type) (answer : ι → Type) (α : Type) where
  | done (value : α)
  | ask (question : ι) (next : answer question → Dialogue ι answer α)

namespace Dialogue
variable {ι : Type} {answer : ι → Type} {α β σ : Type}

protected def bind : Dialogue ι answer α → (α → Dialogue ι answer β) → Dialogue ι answer β
  | .done value, f => f value
  | .ask question next, f => .ask question fun a => (next a).bind f

instance : Monad (Dialogue ι answer) where
  pure := .done
  bind := Dialogue.bind

/-- The dialogue with an environment that has a state. `none` where an answer does not come. -/
def run (replies : (question : ι) → σ → Option (answer question × σ)) :
    Dialogue ι answer α → σ → Option (α × σ)
  | .done value, s => some (value, s)
  | .ask question next, s =>
    match replies question s with
    | none => none
    | some (a, s) => (next a).run replies s

inductive Asks : Dialogue ι answer α → ι → Prop
  | here : Asks (.ask question next) question
  | later (a : answer question) : Asks (next a) question' → Asks (.ask question next) question'

def Gives (R : (question : ι) → answer question → Prop) : Dialogue ι answer α → α → Prop
  | .done value, value' => value' = value
  | .ask question next, value' => ∃ a, R question a ∧ (next a).Gives R value'

variable {R R' : (question : ι) → answer question → Prop} {I : σ → Prop} {d : Dialogue ι answer α}
  {replies : (question : ι) → σ → Option (answer question × σ)}

theorem Gives.mono (h : ∀ question a, R question a → R' question a) (hd : d.Gives R value) :
    d.Gives R' value := by
  induction d with
  | done => exact hd
  | ask question next ih =>
    obtain ⟨a, ha, hnext⟩ := hd
    exact ⟨a, h question a ha, ih a hnext⟩

theorem Gives.unique (h : ∀ question a a', R question a → R' question a' → a = a')
    (hd : d.Gives R value) (hd' : d.Gives R' value') : value = value' := by
  induction d with
  | done => exact hd.trans hd'.symm
  | ask question next ih =>
    obtain ⟨a, ha, hnext⟩ := hd
    obtain ⟨a', ha', hnext'⟩ := hd'
    cases h question a a' ha ha'
    exact ih a hnext hnext'

theorem run_total (h : ∀ question s, I s → ∃ a s', replies question s = some (a, s') ∧ I s') (hs : I s) :
    ∃ value s', d.run replies s = some (value, s') ∧ I s' := by
  induction d generalizing s with
  | done value => exact ⟨value, s, rfl, hs⟩
  | ask question next ih =>
    obtain ⟨a, s₁, hreply, hs₁⟩ := h question s hs
    obtain ⟨value, s₂, hrun, hs₂⟩ := ih a hs₁
    refine ⟨value, s₂, ?_, hs₂⟩
    rw [run, hreply]
    exact hrun

theorem run_keeps (h : ∀ question, d.Asks question → ∀ s a s', I s → replies question s = some (a, s') →
      I s' ∧ R question a) (hs : I s) (hrun : d.run replies s = some (value, s')) :
    I s' ∧ d.Gives R value := by
  induction d generalizing s with
  | done value' =>
    cases hrun
    exact ⟨hs, rfl⟩
  | ask question next ih =>
    rw [run] at hrun
    cases hreply : replies question s with
    | none => rw [hreply] at hrun; cases hrun
    | some reply =>
      obtain ⟨a, s₁⟩ := reply
      rw [hreply] at hrun
      obtain ⟨hs₁, ha⟩ := h question .here s a s₁ hs hreply
      obtain ⟨hs', hnext⟩ := ih a (fun q hq => h q (.later a hq)) hs₁ hrun
      exact ⟨hs', a, ha, hnext⟩

end Dialogue

end Trakrai.Lib
