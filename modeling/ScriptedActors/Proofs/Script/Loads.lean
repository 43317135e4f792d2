import Mathlib.Data.List.Induction
import ScriptedActors.Proofs.Dictionary
import ScriptedActors.Script.Library
import ScriptedActors.Script.Store

set_option autoImplicit false

/-!
# Histories of loads

A library changes only when a load succeeds, and then it has the scripts of that load alone, each
under its key, the last one where several have the same. What it had before does not matter, and a
call that fails leaves it as it is.
-/
namespace ScriptedActors
open Text

/-- What a store answers to a load: whether it could be prepared, and its scripts, for which it is only
asked if it could. -/
structure StoreAnswer (ε : Type) where
  prepared : Except ε Unit
  scripts : Except ε (List Script)

namespace StoreAnswer
variable {ε : Type}

def loaded (answer : StoreAnswer ε) : Except ε (List Script) :=
  match answer.prepared with
  | .error e => .error e
  | .ok () => answer.scripts

theorem loaded_eq_ok (answer : StoreAnswer ε) (scripts : List Script) :
    answer.loaded = .ok scripts ↔ answer.prepared = .ok () ∧ answer.scripts = .ok scripts := by
  rw [loaded]
  cases answer.prepared with
  | error e => simp
  | ok _ => simp

end StoreAnswer

theorem FileTree.openStore_loaded (t : FileTree) (directory : Path) :
    (t.openStore directory).1 =
      StoreAnswer.loaded ⟨(t.makeStore directory).1, (t.makeStore directory).2.loadScripts directory⟩ := by
  rw [openStore, StoreAnswer.loaded]
  cases t.makeStore directory with
  | mk prepared made =>
    cases prepared with
    | error e => rfl
    | ok _ => rfl

theorem Loading.scripts_add (previous : Dictionary Script) (l : Loading) (s : Script) :
    (l.add previous s).scripts = l.scripts.insert s.key s := by
  have hreplace : (l.replace s.key).scripts = l.scripts := by
    rw [replace]
    cases l.scripts.find? s.key with
    | none => rfl
    | some earlier => rfl
  have hcompare (l : Loading) : (compare previous l s).scripts = l.scripts := by
    rw [compare]
    cases previous.find? s.key with
    | none => rfl
    | some old =>
      dsimp only
      split
      · rfl
      · rfl
  change Dictionary.insert s.key s (compare previous (l.replace s.key) s).scripts = _
  rw [hcompare, hreplace]

namespace ScriptLibrary
variable {ε : Type}

/-- The last script whose name in lower case is a key. -/
def lastWith (scripts : List Script) (key : String) : Option Script :=
  scripts.reverse.find? fun s => lower s.name == key

theorem lastWith_eq (scripts : List Script) (key : String) :
    lastWith scripts key = scripts.reverse.find? fun s => s.key == key := rfl

theorem sorted_loading (previous : Dictionary Script) (scripts : List Script) {l : Loading}
    (h : l.scripts.Sorted) : (scripts.foldl (Loading.add previous) l).scripts.Sorted := by
  induction scripts generalizing l with
  | nil => exact h
  | cons s rest ih =>
    apply ih
    rw [Loading.scripts_add]
    exact h.insert s.key s

theorem find?_loading (previous : Dictionary Script) (scripts : List Script) (l : Loading)
    (key : String) :
    (scripts.foldl (Loading.add previous) l).scripts.find? key =
      (lastWith scripts key).or (l.scripts.find? key) := by
  induction scripts generalizing l with
  | nil => rfl
  | cons s rest ih =>
    rw [List.foldl_cons, ih, Loading.scripts_add, Dictionary.find?_insert, lastWith_eq, lastWith_eq,
      List.reverse_cons, List.find?_append, Option.or_assoc]
    by_cases hkey : key = s.key
    · simp [hkey]
    · simp [hkey, Ne.symm hkey]

structure Holds (library : ScriptLibrary) (scripts : List Script) : Prop where
  sorted : library.scripts.Sorted
  find? : ∀ key, library.scripts.find? key = lastWith scripts key
  get? : ∀ name, library.get? name = lastWith scripts (lower name)

theorem holds_load (library : ScriptLibrary) (scripts : List Script) :
    (library.load scripts).2.Holds scripts := by
  have hfind (key : String) :
      (library.load scripts).2.scripts.find? key = lastWith scripts key := by
    change (scripts.foldl (Loading.add library.scripts) .start).scripts.find? key = _
    rw [find?_loading]
    exact Option.or_none
  exact ⟨sorted_loading library.scripts scripts List.Pairwise.nil, hfind, fun name => hfind (lower name)⟩

inductive Call (ε : Type) where
  | reload (answer : StoreAnswer ε)
  | tick (answer : StoreAnswer ε)

def Call.loaded : Call ε → Except ε (List Script)
  | .reload answer => answer.loaded
  | .tick answer => answer.loaded

def perform (library : ScriptLibrary) : Call ε → ScriptLibrary
  | .reload answer => (library.reload answer.loaded).2
  | .tick answer => (library.tick answer.loaded).2

def run (library : ScriptLibrary) (calls : List (Call ε)) : ScriptLibrary := calls.foldl perform library

def lastLoad (calls : List (Call ε)) : Option (List Script) :=
  calls.reverse.findSome? fun call => call.loaded.toOption

theorem perform_eq (library : ScriptLibrary) (call : Call ε) :
    library.perform call = (library.reload call.loaded).2 := by
  cases call with
  | reload answer => rfl
  | tick answer => rfl

theorem run_append (library : ScriptLibrary) (calls : List (Call ε)) (call : Call ε) :
    library.run (calls ++ [call]) = (library.run calls).perform call := by
  rw [run, List.foldl_append]
  rfl

theorem lastLoad_append (calls : List (Call ε)) (call : Call ε) :
    lastLoad (calls ++ [call]) = call.loaded.toOption.or (lastLoad calls) := by
  rw [lastLoad, List.reverse_append, List.reverse_singleton, List.singleton_append,
    List.findSome?_cons, lastLoad]
  cases call.loaded.toOption with
  | none => rfl
  | some scripts => rfl

/-- What a library is after a history of calls. -/
structure LastGood (calls : List (Call ε)) (library : ScriptLibrary) : Prop where
  holds : ∀ scripts, lastLoad calls = some scripts → library.Holds scripts ∧ library.loadedOnce = true
  empty : lastLoad calls = none → library = ScriptLibrary.empty
  succeeds : ∀ answer : StoreAnswer ε, (∃ summary, (library.reload answer.loaded).1 = .ok summary) ↔
    answer.prepared = .ok () ∧ ∃ scripts, answer.scripts = .ok scripts
  failed : ∀ (answer : StoreAnswer ε) e, (library.reload answer.loaded).1 = .error e →
    (library.reload answer.loaded).2 = library
  tick_succeeds : ∀ answer : StoreAnswer ε, (library.tick answer.loaded).1 = true ↔
    ∃ summary, (library.reload answer.loaded).1 = .ok summary
  tick_failed : ∀ answer : StoreAnswer ε, (library.tick answer.loaded).1 = false →
    (library.tick answer.loaded).2 = library

theorem reload_succeeds_iff (library : ScriptLibrary) (loaded : Except ε (List Script)) :
    (∃ summary, (library.reload loaded).1 = .ok summary) ↔ ∃ scripts, loaded = .ok scripts := by
  cases loaded with
  | error e => simp [reload]
  | ok scripts => simp [reload]

theorem reload_failed (library : ScriptLibrary) {loaded : Except ε (List Script)}
    (h : ∀ summary, (library.reload loaded).1 ≠ .ok summary) : (library.reload loaded).2 = library := by
  cases loaded with
  | error e => rfl
  | ok scripts => exact absurd rfl (h (library.load scripts).1)

theorem tick_succeeds_iff (library : ScriptLibrary) (loaded : Except ε (List Script)) :
    (library.tick loaded).1 = true ↔ ∃ summary, (library.reload loaded).1 = .ok summary := by
  rw [tick]
  cases library.reload loaded with
  | mk result after =>
    cases result with
    | error e => simp [Except.toBool]
    | ok summary => simp [Except.toBool]

theorem held_run (calls : List (Call ε)) :
    match lastLoad calls with
    | none => ScriptLibrary.empty.run calls = ScriptLibrary.empty
    | some scripts => (ScriptLibrary.empty.run calls).Holds scripts ∧
        (ScriptLibrary.empty.run calls).loadedOnce = true := by
  induction calls using List.reverseRecOn with
  | nil => rfl
  | append_singleton calls call ih =>
    rw [lastLoad_append, run_append, perform_eq]
    cases call.loaded with
    | error e => exact ih
    | ok scripts => exact ⟨holds_load _ scripts, rfl⟩

/-- After any calls an empty library has the scripts of the last load that succeeded, and a call that
fails keeps them. -/
theorem lastGood_run (calls : List (Call ε)) : LastGood calls (ScriptLibrary.empty.run calls) := by
  have hheld := held_run calls
  generalize ScriptLibrary.empty.run calls = library at *
  refine ⟨?_, ?_, ?_, ?_, fun answer => tick_succeeds_iff library answer.loaded, ?_⟩
  · intro scripts hlast
    rw [hlast] at hheld
    exact hheld
  · intro hnone
    rw [hnone] at hheld
    exact hheld
  · intro answer
    simp only [reload_succeeds_iff, StoreAnswer.loaded_eq_ok, exists_and_left]
  · intro answer e herror
    apply reload_failed
    intro summary hok
    cases herror.symm.trans hok
  · intro answer hfalse
    apply reload_failed
    intro summary hok
    have htrue := (tick_succeeds_iff library answer.loaded).mpr ⟨summary, hok⟩
    cases hfalse.symm.trans htrue

/-- Two spellings of a name and another name, kept through a call that fails, with the scripts of an
earlier load gone. -/
theorem lastGood_two_spellings :
    let calls : List (Call StorageError) :=
      [.reload ⟨.ok (), .ok [⟨"old", "log 0", "d0"⟩]⟩,
        .tick ⟨.ok (), .ok [⟨"Guard", "log 1", "d1"⟩, ⟨"herald", "log 2", "d2"⟩, ⟨"gUARD", "log 3", "d3"⟩]⟩,
        .reload ⟨.ok (), .error (.malformedScript (.ofText "x.ms") "")⟩]
    let library := ScriptLibrary.empty.run calls
    LastGood calls library ∧
      library = ⟨[("guard", ⟨"gUARD", "log 3", "d3"⟩), ("herald", ⟨"herald", "log 2", "d2"⟩)], true⟩ :=
  ⟨lastGood_run _, rfl⟩

end ScriptLibrary
end ScriptedActors
