set_option autoImplicit false

/-!
# Tables in the order of their keys

A dictionary is a list of pairs with strictly increasing keys. Keys are ordered by their
characters, which is also the order of their bytes. A later entry for a key replaces the earlier.
-/
namespace ScriptedActors

/-- Pairs of a key and a value; the operations keep the keys strictly increasing. -/
abbrev Dictionary (α : Type) := List (String × α)

namespace Dictionary
variable {α : Type}

def insert (key : String) (value : α) : Dictionary α → Dictionary α
  | [] => [(key, value)]
  | (k, v) :: rest =>
    if key < k then (key, value) :: (k, v) :: rest
    else if key = k then (key, value) :: rest
    else (k, v) :: insert key value rest

def find? (key : String) (d : Dictionary α) : Option α :=
  (List.find? (fun entry => entry.1 == key) d).map Prod.snd

def ofList (pairs : List (String × α)) : Dictionary α :=
  pairs.foldl (fun d entry => d.insert entry.1 entry.2) []

def keys (d : Dictionary α) : List String := d.map Prod.fst

def values (d : Dictionary α) : List α := d.map Prod.snd

end Dictionary
end ScriptedActors
