import ScriptedActors.Text.Caseless
set_option autoImplicit false

/-!
# Keyword tables

A table binds names, up to ASCII case, to values. A new binding drops the one it replaces and
stands last, so the names are listed in the order of their last registration.
-/
namespace ScriptedActors
open Text

structure KeywordTable (α : Type) where
  label : String
  entries : List (String × α)

namespace KeywordTable
variable {α : Type}

def empty (label : String) : KeywordTable α := ⟨label, []⟩

def resolve (table : KeywordTable α) (name : String) : Option α :=
  (table.entries.find? fun entry => sameName entry.1 name).map Prod.snd

def contains (table : KeywordTable α) (name : String) : Bool := (table.resolve name).isSome

def others (table : KeywordTable α) (name : String) : List (String × α) :=
  table.entries.filter fun entry => !sameName entry.1 name

/-- Bind a name. The first part says whether a binding was replaced. -/
def register (table : KeywordTable α) (name : String) (value : α) : Bool × KeywordTable α :=
  (table.entries.any fun entry => sameName entry.1 name,
    { table with entries := table.others name ++ [(name, value)] })

def registerAll (table : KeywordTable α) (bindings : List (String × α)) : KeywordTable α :=
  bindings.foldl (fun t b => (t.register b.1 b.2).2) table

def names (table : KeywordTable α) : List String := table.entries.map Prod.fst

def length (table : KeywordTable α) : Nat := table.entries.length

def isEmpty (table : KeywordTable α) : Bool := table.length == 0

theorem register_entries (table : KeywordTable α) (name : String) (value : α) :
    (table.register name value).2.entries = table.others name ++ [(name, value)] := rfl

theorem contains_iff (table : KeywordTable α) (name : String) :
    table.contains name = true ↔ ∃ value, table.resolve name = some value := by
  simp [contains, Option.isSome_iff_exists]

end KeywordTable

inductive LookupError where
  | action (keyword : String)
  | event (name : String)
  | controller (name : String)
deriving DecidableEq

def LookupError.message : LookupError → String
  | .action keyword => s!"unknown action '{keyword}'"
  | .event name => s!"unknown event '{name}'"
  | .controller name => s!"unknown controller '{name}'"

end ScriptedActors
