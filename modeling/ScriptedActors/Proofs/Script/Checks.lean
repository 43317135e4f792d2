import ScriptedActors.Engine
import ScriptedActors.Proofs.Script.Concatenation
import ScriptedActors.Proofs.Script.Differences

set_option autoImplicit false

/-!
# Checks of all scripts

A check goes through the names of the scripts and looks each one up again. It passes over a name under
which nothing is found. None is passed over: whatever was loaded, each script stands under its own name in
lower case, and the names follow each other in that order.
-/
namespace ScriptedActors
open Text

namespace ScriptLibrary
variable {ε : Type} {library : ScriptLibrary} {table : ActionTable}

structure Keyed (library : ScriptLibrary) : Prop where
  sorted : library.scripts.Sorted
  key : ∀ entry ∈ library.scripts, entry.1 = entry.2.key

theorem Holds.keyed {scripts : List Script} (h : library.Holds scripts) : library.Keyed where
  sorted := h.sorted
  key entry hentry := by
    have hfound := (h.sorted.find?_eq_some_iff entry.1 entry.2).mpr hentry
    rw [h.find?] at hfound
    exact (key_of_lastWith hfound).symm

theorem keyed_empty : ScriptLibrary.empty.Keyed := ⟨List.Pairwise.nil, nofun⟩

theorem keyed_run (calls : List (Call ε)) : (ScriptLibrary.empty.run calls).Keyed := by
  have hheld := held_run calls
  cases hlast : lastLoad calls with
  | none =>
    rw [hlast] at hheld
    rw [hheld]
    exact keyed_empty
  | some scripts =>
    rw [hlast] at hheld
    exact hheld.1.keyed

namespace Keyed

theorem find?_key (h : library.Keyed) {s : Script} (hs : s ∈ library.scripts.values) :
    library.scripts.find? s.key = some s := by
  obtain ⟨entry, hentry, rfl⟩ := List.mem_map.mp hs
  rw [h.sorted.find?_eq_some_iff, ← h.key entry hentry]
  exact hentry

theorem get?_eq_some (h : library.Keyed) {s : Script} (hs : s ∈ library.scripts.values) {name : String}
    (hname : sameName name s.name = true) : library.get? name = some s := by
  rw [get?, (sameName_iff name s.name).mp hname]
  exact h.find?_key hs

/-- Looking the names up again gives the scripts. -/
theorem filterMap_names (h : library.Keyed) : library.names.filterMap library.get? = library.scripts.values := by
  have hfound : ∀ s ∈ library.scripts.values, (library.get? ∘ Script.name) s = some s :=
    fun s hs => h.get?_eq_some hs (sameName_refl s.name)
  rw [names, List.filterMap_map, List.filterMap_congr hfound, List.filterMap_some]

theorem ordered (h : library.Keyed) : library.names.Pairwise fun first second => lower first < lower second := by
  rw [names, Dictionary.values, List.map_map, List.pairwise_map]
  refine List.Pairwise.imp_of_mem ?_ h.sorted
  intro first second hfirst hsecond hlt
  rw [h.key first hfirst, h.key second hsecond] at hlt
  exact hlt

theorem check_eq (h : library.Keyed) (table : ActionTable) :
    library.check table = library.scripts.values.flatMap (diagnosticsOf table) := by
  rw [check, h.filterMap_names]

end Keyed

theorem exists_statement_of_diagnosticsOf {s : Script} {d : Diagnostic} (h : d ∈ diagnosticsOf table s) :
    d.script = s.name ∧ ∃ t ∈ s.statements, t.line = d.line := by
  rw [Script.diagnosticsOf_eq, Script.diagnose, List.mem_filterMap] at h
  obtain ⟨t, ht, hd⟩ := h
  cases hparse : table.parse t.text with
  | ok action =>
    rw [hparse] at hd
    cases hd
  | error error =>
    rw [hparse] at hd
    cases hd
    exact ⟨rfl, t, ht, rfl⟩

theorem diagnosticsOf_eq_nil_iff (s : Script) :
    diagnosticsOf table s = [] ↔ ∃ actions, s.compile table = .ok actions := by
  simp only [Script.compile_eq_ok_iff, exists_and_left, exists_eq, and_true]

structure Checked (table : ActionTable) (library : ScriptLibrary) (report : List Diagnostic) : Prop where
  stored : ∀ entry ∈ library.scripts, entry.1 = lower entry.2.name
  found : ∀ s ∈ library.scripts.values, ∀ name, sameName name s.name = true → library.get? name = some s
  listed : library.names = library.scripts.values.map Script.name
  ordered : library.names.Pairwise fun first second => lower first < lower second
  assembled : report = library.scripts.values.flatMap (diagnosticsOf table)
  clean_iff : report = [] ↔ ∀ s ∈ library.scripts.values, ∃ actions, s.compile table = .ok actions
  located : ∀ d ∈ report, ∃ s ∈ library.scripts.values, d ∈ diagnosticsOf table s ∧
    d.script = s.name ∧ ∃ t ∈ s.statements, t.line = d.line

theorem Keyed.checked (h : library.Keyed) (table : ActionTable) :
    Checked table library (library.check table) where
  stored := h.key
  found _ hs _ hname := h.get?_eq_some hs hname
  listed := rfl
  ordered := h.ordered
  assembled := h.check_eq table
  clean_iff := by
    rw [h.check_eq, List.flatMap_eq_nil_iff]
    simp only [diagnosticsOf_eq_nil_iff]
  located d hd := by
    rw [h.check_eq, List.mem_flatMap] at hd
    obtain ⟨s, hs, hd⟩ := hd
    obtain ⟨hscript, t, ht, hline⟩ := exists_statement_of_diagnosticsOf hd
    exact ⟨s, hs, hd, hscript, t, ht, hline⟩

end ScriptLibrary

namespace Engine
variable {σ τ : Type} [EventFamily τ]

/-- Engines that were started and loaded their scripts again, each time from any files, and did anything
else that leaves the scripts alone. -/
inductive Reached : Engine σ τ → Prop where
  | start {config : Config} {host : Host} {factory : Factory σ} {supply : σ} {draws : Draws}
      {t after : FileTree} {e : Engine σ τ} :
      Engine.start config host factory supply draws t = (.ok e, after) → Reached e
  | reload {e : Engine σ τ} (t : FileTree) : Reached e → Reached (e.reload t).2.1
  | tick {e : Engine σ τ} (t : FileTree) : Reached e → Reached (e.tickLibrary t).2.1
  | aside {e other : Engine σ τ} : Reached e → other.library = e.library → Reached other

theorem library_reload (e : Engine σ τ) (t : FileTree) :
    (e.reload t).2.1.library = (e.library.reload (t.openStore e.config.scriptsPath).1).2 := rfl

theorem library_tickLibrary (e : Engine σ τ) (t : FileTree) :
    (e.tickLibrary t).2.1.library = (e.library.reload (t.openStore e.config.scriptsPath).1).2 := rfl

theorem exists_run_reload {library : ScriptLibrary}
    (h : ∃ calls : List (ScriptLibrary.Call StorageError), library = ScriptLibrary.empty.run calls)
    (t : FileTree) (directory : Path) : ∃ calls : List (ScriptLibrary.Call StorageError),
      (library.reload (t.openStore directory).1).2 = ScriptLibrary.empty.run calls := by
  obtain ⟨calls, rfl⟩ := h
  refine ⟨calls ++ [.reload ⟨(t.makeStore directory).1, (t.makeStore directory).2.loadScripts directory⟩], ?_⟩
  rw [ScriptLibrary.run_append, FileTree.openStore_loaded]
  rfl

theorem Reached.exists_run {e : Engine σ τ} (h : e.Reached) :
    ∃ calls : List (ScriptLibrary.Call StorageError), e.library = ScriptLibrary.empty.run calls := by
  induction h with
  | @start config host factory supply draws t after e hstart =>
    rw [Engine.start] at hstart
    split at hstart
    · cases hstart
    · cases hstart
      exact exists_run_reload ⟨[], rfl⟩ t config.scriptsPath
  | @reload e t _ ih =>
    rw [library_reload]
    exact exists_run_reload ih t e.config.scriptsPath
  | @tick e t _ ih =>
    rw [library_tickLibrary]
    exact exists_run_reload ih t e.config.scriptsPath
  | aside _ hlibrary ih =>
    rw [hlibrary]
    exact ih

end Engine

/-- A check misses no script and repeats none, whatever was loaded: in a library after any calls, with any
table of actions, and in every engine that can be reached. -/
theorem ScriptLibrary.checked_run {ε σ τ : Type} [EventFamily τ] :
    (∀ (calls : List (ScriptLibrary.Call ε)) (table : ActionTable),
      Checked table (ScriptLibrary.empty.run calls) ((ScriptLibrary.empty.run calls).check table)) ∧
    ∀ e : Engine σ τ, e.Reached → Checked ActionTable.builtin e.library e.checkScripts := by
  refine ⟨fun calls table => (keyed_run calls).checked table, ?_⟩
  intro e he
  obtain ⟨calls, hcalls⟩ := he.exists_run
  have hkeyed : e.library.Keyed := hcalls ▸ keyed_run calls
  exact hkeyed.checked ActionTable.builtin

end ScriptedActors
