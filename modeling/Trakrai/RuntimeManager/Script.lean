import Mathlib.GroupTheory.Perm.Basic
import Trakrai.Lib.Shell
import Trakrai.RuntimeManager.Persistence

namespace Trakrai.RuntimeManager
open List Lib

section
variable (shell : String) (versionOrder order : MapOrder) (service : ManagedServiceConfig)

end

def Leads (place : ScriptPlace) (text : String) (place' : ScriptPlace) : Prop :=
  text.toList.foldl stepPlace place = place'

theorem Leads.append (h : Leads place text place') (h' : Leads place' more place'') :
    Leads place (text ++ more) place'' := by
  rw [Leads, String.toList_append, foldl_append, h, h']

def atTop : ScriptPlace := ([], true)

def Completes (text : String) : Prop :=
  ∀ lines, ∃ lines', text.toList.foldl ScriptState.step { lines := lines } = { lines := lines' }

theorem Completes.append (h : Completes text) (h' : Completes more) : Completes (text ++ more) := by
  intro lines
  obtain ⟨lines', hlines⟩ := h lines
  rw [String.toList_append, foldl_append, hlines]
  exact h' lines'

theorem getLast?_append {text more : String} (h : more.toList.getLast? = some '\n') :
    (text ++ more).toList.getLast? = some '\n' := by
  rw [String.toList_append, List.getLast?_append, h]
  rfl

section
variable {shell : String} {versionOrder order : MapOrder} {service : ManagedServiceConfig}

end

end Trakrai.RuntimeManager
