import ScriptedActors.Dictionary
import ScriptedActors.Script.Compile
import ScriptedActors.Text.Caseless
set_option autoImplicit false

/-!
# The script library

A library holds the scripts of the last load that succeeded, by their names in lower case. Of
scripts whose names differ only in case the last one is kept. A load that fails changes nothing.
-/
namespace ScriptedActors
open Text

def Script.key (s : Script) : String := lower s.name

structure ReloadSummary where
  loaded : Nat
  added : List String
  changed : List String
  removed : List String
  /-- The names of scripts that a later one of the same load replaced. -/
  shadowed : List String
deriving DecidableEq

/-- A load that is under way: the scripts so far, and the names in which they differ from before. -/
structure Loading where
  scripts : Dictionary Script
  added : List String
  changed : List String
  shadowed : List String

namespace Loading

def start : Loading := ⟨[], [], [], []⟩

/-- Forget a script that a later one replaces. -/
def shadow (l : Loading) (name : String) : Loading :=
  { l with
    added := l.added.filter (· != name)
    changed := l.changed.filter (· != name)
    shadowed := l.shadowed ++ [name] }

def replace (l : Loading) (key : String) : Loading :=
  match l.scripts.find? key with
  | some earlier => l.shadow earlier.name
  | none => l

def compare (previous : Dictionary Script) (l : Loading) (s : Script) : Loading :=
  match previous.find? s.key with
  | none => { l with added := l.added ++ [s.name] }
  | some old => if old.digest != s.digest then { l with changed := l.changed ++ [s.name] } else l

def add (previous : Dictionary Script) (l : Loading) (s : Script) : Loading :=
  let l := (l.replace s.key).compare previous s
  { l with scripts := l.scripts.insert s.key s }

end Loading

structure ScriptLibrary where
  scripts : Dictionary Script
  loadedOnce : Bool

namespace ScriptLibrary

def empty : ScriptLibrary := ⟨[], false⟩

def removedNames (previous next : Dictionary Script) : List String :=
  (previous.filter fun entry => (next.find? entry.1).isNone).map fun entry => entry.2.name

def load (library : ScriptLibrary) (scripts : List Script) : ReloadSummary × ScriptLibrary :=
  let loading := scripts.foldl (Loading.add library.scripts) .start
  (⟨loading.scripts.length, loading.added, loading.changed,
      removedNames library.scripts loading.scripts, loading.shadowed⟩,
    ⟨loading.scripts, true⟩)

def reload {ε : Type} (library : ScriptLibrary) (loaded : Except ε (List Script)) :
    Except ε ReloadSummary × ScriptLibrary :=
  match loaded with
  | .error e => (.error e, library)
  | .ok scripts =>
    let (summary, library) := library.load scripts
    (.ok summary, library)

def tick {ε : Type} (library : ScriptLibrary) (loaded : Except ε (List Script)) : Bool × ScriptLibrary :=
  let (result, library) := library.reload loaded
  (result.toBool, library)

def get? (library : ScriptLibrary) (name : String) : Option Script := library.scripts.find? (lower name)

def names (library : ScriptLibrary) : List String := library.scripts.values.map Script.name

def length (library : ScriptLibrary) : Nat := library.scripts.length

def isEmpty (library : ScriptLibrary) : Bool := library.length == 0

def compile (library : ScriptLibrary) (table : ActionTable) (name : String) :
    Option (Except (List Diagnostic) (List Action)) :=
  (library.get? name).map fun s => s.compile table

def diagnosticsOf (table : ActionTable) (s : Script) : List Diagnostic :=
  match s.compile table with
  | .ok _ => []
  | .error diagnostics => diagnostics

def check (library : ScriptLibrary) (table : ActionTable) : List Diagnostic :=
  (library.names.filterMap library.get?).flatMap (diagnosticsOf table)

end ScriptLibrary
end ScriptedActors
