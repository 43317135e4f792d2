import ScriptedActors.Actor.Basic
import ScriptedActors.Json.Record
set_option autoImplicit false

/-!
# Records of other systems

What another system says about its actors, what importing them reports, and how both are stored.
-/
namespace ScriptedActors
open Json

structure ExternalRecord where
  key : String
  name : String
  kind : Option String
  location : String
deriving DecidableEq

namespace ExternalRecord

def toJson (r : ExternalRecord) : Json :=
  .object [("key", .string r.key), ("name", .string r.name),
    ("kind", match r.kind with | none => .null | some kind => .string kind),
    ("location", .string r.location)]

def fieldNames : List String := ["key", "name", "kind", "location"]

def ofJson (v : Json) : Option ExternalRecord := do
  match ← fields fieldNames v with
  | [key, name, kind, location] =>
    return ⟨← required asString key, ← required asString name, ← nullable asString kind,
      ← required asString location⟩
  | _ => none

end ExternalRecord

structure MigrationReport where
  imported : Nat
  alreadyImported : Nat
  skipped : List String
deriving DecidableEq

namespace MigrationReport

def empty : MigrationReport := ⟨0, 0, []⟩

def toJson (r : MigrationReport) : Json :=
  .object [("imported", .int r.imported), ("already_imported", .int r.alreadyImported),
    ("skipped", .array (r.skipped.map .string))]

def fieldNames : List String := ["imported", "already_imported", "skipped"]

def ofJson (v : Json) : Option MigrationReport := do
  match ← fields fieldNames v with
  | [imported, alreadyImported, skipped] =>
    return ⟨(← required asWord imported).toNat, (← required asWord alreadyImported).toNat,
      ← required asStrings skipped⟩
  | _ => none

end MigrationReport

inductive MigrationError where
  | sourceUnavailable (dependency detail : String)
  | invalidRecord (dependency record detail : String)
  | panicked (dependency : String)
  | actor (dependency : String) (cause : ActorError)
deriving DecidableEq

def MigrationError.message : MigrationError → String
  | .sourceUnavailable dependency detail => s!"{dependency}: source unavailable: {detail}"
  | .invalidRecord dependency record detail => s!"{dependency}: record '{record}' is invalid: {detail}"
  | .panicked dependency => s!"{dependency}: migration panicked"
  | .actor dependency cause => s!"{dependency}: {cause.message}"

/-- Why a source has no records, from the outermost cause to the innermost. -/
structure SourceFault where
  causes : List String

def SourceFault.message (f : SourceFault) : String := ": ".intercalate f.causes

end ScriptedActors
