import ScriptedActors.Actor.ControllerTable
import ScriptedActors.Event.Table
import ScriptedActors.Statement.ActionTable
set_option autoImplicit false

/-!
# The built-in vocabulary
-/
namespace ScriptedActors

def libraryVersion : String := "0.1.0"

def vocabularyVersion : Nat := 1

def KeywordTable.listing {α : Type} (table : KeywordTable α) : List String :=
  s!"{table.label} keywords ({table.length}):" :: table.names.map ("  " ++ ·)

def vocabularyListing : List String :=
  s!"Built-in vocabulary v{vocabularyVersion}" ::
    (ActionTable.builtin.listing ++ (EventTable.builtin : EventTable Empty).listing ++ ControllerTable.builtin.listing)

end ScriptedActors
