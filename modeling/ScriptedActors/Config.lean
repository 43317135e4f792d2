import ScriptedActors.Files.Save
import ScriptedActors.Json.Printer
import ScriptedActors.Json.Reader
import ScriptedActors.Json.Record
import ScriptedActors.Script.Store
set_option autoImplicit false

/-!
# Settings

The settings of an engine are stored in the file `config.json` of its root directory. A setting
that is not stored has its default. The directory in which settings are found is their root,
whatever root they name.
-/
namespace ScriptedActors
open Json Text

structure Config where
  root : Path
  scriptsDir : Path
  reloadIntervalSecs : UInt64
  enforceUniqueIds : Bool
  debug : Bool
deriving DecidableEq

inductive ConfigError where
  | files (error : FileError)
  | storage (error : StorageError)
  | unreadable
  | unwritable
  | invalid (detail : String)
deriving DecidableEq

def ConfigError.message : ConfigError → String
  | .files error => error.message
  | .storage error => s!"Storage error: {error.message}"
  | .unreadable => "Failed to deserialize config"
  | .unwritable => "Failed to serialize config"
  | .invalid detail => s!"Configuration error: {detail}"

namespace Config

def default : Config := ⟨.ofText ".marionette", .ofText "scripts", 60, false, false⟩

def fieldNames : List String :=
  ["root", "scripts_dir", "reload_interval_secs", "enforce_unique_ids", "debug"]

/-- A path as a value; its bytes must be text. -/
def pathToJson (p : Path) : Option Json := p.text?.map .string

def asPath (v : Json) : Option Path := (asString v).map .ofText

def toJson (c : Config) : Option Json := do
  return .object [("root", ← pathToJson c.root), ("scripts_dir", ← pathToJson c.scriptsDir),
    ("reload_interval_secs", .int c.reloadIntervalSecs.toNat),
    ("enforce_unique_ids", .bool c.enforceUniqueIds), ("debug", .bool c.debug)]

def ofJson (v : Json) : Option Config := do
  match ← leadingFields fieldNames v with
  | [root, scriptsDir, reloadIntervalSecs, enforceUniqueIds, debug] =>
    return ⟨← withDefault default.root asPath root,
      ← withDefault default.scriptsDir asPath scriptsDir,
      ← withDefault default.reloadIntervalSecs asWord reloadIntervalSecs,
      ← withDefault default.enforceUniqueIds asBool enforceUniqueIds,
      ← withDefault default.debug asBool debug⟩
  | _ => none

def ofText? (text : String) : Option Config := (readRecord? fieldNames text).bind ofJson

def text? (c : Config) : Option String := c.toJson.map Json.pretty

def fileIn (root : Path) : Path := root.join (.ofText "config.json")

def scriptsPath (c : Config) : Path := c.root.join c.scriptsDir

def makeDirectories (c : Config) (t : FileTree) : Except FileError Unit × FileTree :=
  match t.makeDirectories c.root with
  | (.error e, t) => (.error e, t)
  | (.ok (), t) => t.makeDirectories c.scriptsPath

def store (c : Config) (t : FileTree) : Except ConfigError Unit × FileTree :=
  match c.text? with
  | none => (.error .unwritable, t)
  | some text =>
    match t.save (fileIn c.root) (Utf8.encode text) with
    | (.error e, t) => (.error (.files e), t)
    | (.ok (), t) => (.ok (), t)

def init (c : Config) (t : FileTree) : Except ConfigError Unit × FileTree :=
  match c.makeDirectories t with
  | (.error e, t) => (.error (.files e), t)
  | (.ok (), t) => c.store t

def ofBytes? (bytes : List UInt8) : Option Config := (readStored? fieldNames bytes).bind ofJson

def load (root : Path) (t : FileTree) : Except ConfigError Config :=
  if t.isFile (fileIn root) then
    match t.content (fileIn root) with
    | .error e => .error (.files e)
    | .ok bytes =>
      match ofBytes? bytes with
      | none => .error .unreadable
      | some c => .ok { c with root := root }
  else .error (.storage (.notInitialised root))

end Config
end ScriptedActors
