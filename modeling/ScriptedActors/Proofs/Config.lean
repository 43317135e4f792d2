import ScriptedActors.Engine
import ScriptedActors.Proofs.Files.Saves
import ScriptedActors.Proofs.Json.Records

set_option autoImplicit false

/-!
# Settings that are stored

Settings that could be stored are loaded as they were stored, from the root directory that they
name. An engine starts with them unless its scripts would be loaded again every zero seconds; those
settings can be stored, but no engine starts with them.
-/
namespace ScriptedActors
open Json Text

theorem Path.ofText_of_text? {p : Path} {s : String} (h : p.text? = some s) : Path.ofText s = p := by
  obtain ⟨bytes⟩ := p
  rw [Path.text?] at h
  cases hdecode : Utf8.decode bytes with
  | error fault =>
    rw [hdecode] at h
    cases h
  | ok text =>
    rw [hdecode] at h
    cases h
    rw [Path.ofText, Utf8.encode_of_decode hdecode]

namespace Config

def record (c : Config) (root scriptsDir : String) : List (String × Json) :=
  [("root", .string root), ("scripts_dir", .string scriptsDir),
    ("reload_interval_secs", .int c.reloadIntervalSecs.toNat),
    ("enforce_unique_ids", .bool c.enforceUniqueIds), ("debug", .bool c.debug)]

theorem ofJson_record (c : Config) {root scriptsDir : String} (hroot : c.root.text? = some root)
    (hscripts : c.scriptsDir.text? = some scriptsDir) :
    ofJson (.object (c.record root scriptsDir)) = some c := by
  have hfields : leadingFields fieldNames (.object (c.record root scriptsDir)) =
      some (c.record root scriptsDir |>.map fun member => some member.2) :=
    fieldsOfMembers_keys (show fieldNames.Nodup by decide)
  simp only [ofJson, hfields]
  simp [record, withDefault, asPath, asString, asBool, asWord_toNat, Path.ofText_of_text? hroot,
    Path.ofText_of_text? hscripts]

theorem text?_eq_some {c : Config} {text : String} (h : c.text? = some text) :
    ∃ root scriptsDir, c.root.text? = some root ∧ c.scriptsDir.text? = some scriptsDir ∧
      text = (object (c.record root scriptsDir)).pretty := by
  obtain ⟨v, hv, rfl⟩ := Option.map_eq_some_iff.mp h
  simp only [toJson, pathToJson, Option.bind_eq_bind, Option.pure_def, Option.bind_eq_some_iff,
    Option.map_eq_some_iff, Option.some.injEq] at hv
  obtain ⟨_, ⟨root, hroot, rfl⟩, _, ⟨scriptsDir, hscripts, rfl⟩, rfl⟩ := hv
  exact ⟨root, scriptsDir, hroot, hscripts, rfl⟩

theorem ofBytes?_text {c : Config} {text : String} (h : c.text? = some text) :
    ofBytes? (Utf8.encode text) = some c := by
  obtain ⟨root, scriptsDir, hroot, hscripts, rfl⟩ := text?_eq_some h
  have hread : readStored? fieldNames (Utf8.encode (object (c.record root scriptsDir)).pretty) =
      some (.object (c.record root scriptsDir)) :=
    readStored?_pretty (by simp [record, fieldNames])
      (by simp [record, depth, memberDepth, maxDepth])
      ⟨trivial, trivial, trivial, isWord_toNat _, trivial, trivial, trivial⟩
      ⟨trivial, trivial, trivial, trivial, trivial, trivial, trivial⟩
  rw [ofBytes?, hread]
  exact ofJson_record c hroot hscripts

theorem load_store {c : Config} {t t' : FileTree} (h : c.store t = (.ok (), t')) :
    load c.root t' = .ok c := by
  rw [store] at h
  split at h
  · cases h
  · rename_i text htext
    split at h
    · cases h
    · rename_i saved hsave
      cases h
      have hread := FileTree.read_save hsave
      rw [load, if_pos (FileTree.isFile_of_read hread), FileTree.content, hread]
      simp only [ofBytes?_text htext]

theorem load_init {c : Config} {t t' : FileTree} (h : c.init t = (.ok (), t')) :
    load c.root t' = .ok c := by
  rw [init] at h
  split at h
  · cases h
  · exact load_store h

end Config

namespace Engine
variable {σ τ : Type} [EventFamily τ]

theorem start_eq_ok_iff {c : Config} {host : Host} {factory : Factory σ} {supply : σ} {draws : Draws}
    {t : FileTree} :
    (∃ (e : Engine σ τ) (after : FileTree), start c host factory supply draws t = (.ok e, after) ∧ e.config = c) ↔
      c.reloadIntervalSecs ≠ 0 := by
  rw [start]
  split
  · rename_i hzero
    constructor
    · rintro ⟨e, after, ⟨⟩, -⟩
    · exact fun hne => absurd hzero hne
  · rename_i hne
    exact ⟨fun _ => hne, fun _ => ⟨_, _, rfl, rfl⟩⟩

theorem load_eq_start {c : Config} {root : Path} {t : FileTree} (h : Config.load root t = .ok c)
    (host : Host) (factory : Factory σ) (supply : σ) (draws : Draws) :
    (load root host factory supply draws t : Except ConfigError (Engine σ τ) × FileTree) =
      start c host factory supply draws t := by
  rw [load, h]

/-- Where settings were stored, an engine starts with them exactly if it would not load its scripts
again every zero seconds. -/
theorem load_init_iff {c : Config} {t t' : FileTree} (h : c.init t = (.ok (), t')) (host : Host)
    (factory : Factory σ) (supply : σ) (draws : Draws) :
    (∃ (e : Engine σ τ) (after : FileTree),
      load c.root host factory supply draws t' = (.ok e, after) ∧ e.config = c) ↔
      c.reloadIntervalSecs ≠ 0 := by
  rw [load_eq_start (Config.load_init h)]
  exact start_eq_ok_iff

/-- An engine that starts with the default settings, after they were stored in an empty tree. -/
theorem load_init_default :
    ∃ t', Config.default.init (.empty []) = (.ok (), t') ∧
      ((∃ (e : Engine UniqueIds Empty) (after : FileTree),
          load Config.default.root .detached Factory.plain ⟨fun _ => "", 0⟩ ⟨fun _ => 0, 0⟩ t' =
            (.ok e, after) ∧ e.config = Config.default) ↔ Config.default.reloadIntervalSecs ≠ 0) := by
  have hinit : (Config.default.init (.empty [])).1 = .ok () := by decide +kernel
  exact ⟨_, Prod.ext hinit rfl, load_init_iff (Prod.ext hinit rfl) _ _ _ _⟩

def restless : Config := { Config.default with reloadIntervalSecs := 0 }

/-- Settings with which no engine starts can be stored. -/
theorem not_load_init_restless :
    ¬ ∀ (c : Config) (t t' : FileTree) (host : Host) (factory : Factory UniqueIds) (supply : UniqueIds)
      (draws : Draws), c.init t = (.ok (), t') →
      ∃ (e : Engine UniqueIds Empty) (after : FileTree),
        load c.root host factory supply draws t' = (.ok e, after) ∧ e.config = c := by
  intro h
  have hstored : (restless.init (.empty [])).1 = .ok () := by decide +kernel
  have hinit : restless.init (.empty []) = (.ok (), (restless.init (.empty [])).2) :=
    Prod.ext hstored rfl
  obtain ⟨e, after, hload, -⟩ := h _ _ _ .detached Factory.plain ⟨fun _ => "", 0⟩ ⟨fun _ => 0, 0⟩ hinit
  rw [load_eq_start (Config.load_init hinit)] at hload
  cases hload

end Engine
end ScriptedActors
