import ScriptedActors.LiveSet
import ScriptedActors.Location.Fields
import ScriptedActors.Migration.Basic
set_option autoImplicit false

/-!
# Importing actors

A strategy imports the records of one other system. An imported actor has two tags that name the
system and its key there; a record is passed over while a live actor has its tags. A record whose
location cannot be read is skipped, and an actor that cannot be created ends the import.
-/
namespace ScriptedActors

def migratedFromTag : String := "migrated_from"
def sourceKeyTag : String := "source_key"

structure RecordMigration where
  dependency : String
  defaultKind : EntityKind
  records : Except SourceFault (List ExternalRecord)

/-- Whether an actor was imported from a record. -/
def Actor.isImportOf (a : Actor) (dependency key : String) : Bool :=
  a.state.tags.find? migratedFromTag == some dependency && a.state.tags.find? sourceKeyTag == some key

def LiveSet.hasImportOf {σ : Type} (set : LiveSet σ) (dependency key : String) : Bool :=
  set.liveActors.any fun a => a.isImportOf dependency key

namespace RecordMigration
variable {σ : Type}

def kindOf (m : RecordMigration) (r : ExternalRecord) : EntityKind :=
  match r.kind with
  | some kind => EntityKind.ofText kind
  | none => m.defaultKind

def mark (m : RecordMigration) (r : ExternalRecord) (a : Actor) : Actor :=
  ({ a with id := r.name }.change (.tag migratedFromTag m.dependency)).change (.tag sourceKeyTag r.key)

def skipText (m : RecordMigration) (r : ExternalRecord) (e : FieldsError) : String :=
  (MigrationError.invalidRecord m.dependency r.key e.message).message

def importFrom (m : RecordMigration) (host : Host) :
    List ExternalRecord → MigrationReport → LiveSet σ → Except MigrationError MigrationReport × LiveSet σ
  | [], report, set => (.ok report, set)
  | r :: rest, report, set =>
    if set.hasImportOf m.dependency r.key then
      m.importFrom host rest { report with alreadyImported := report.alreadyImported + 1 } set
    else
      match Location.ofText r.location with
      | .error e => m.importFrom host rest { report with skipped := report.skipped ++ [m.skipText r e] } set
      | .ok location =>
        match set.create host (m.kindOf r) location none (m.mark r) with
        | (.error e, set) => (.error (.actor m.dependency e), set)
        | (.ok _, set) => m.importFrom host rest { report with imported := report.imported + 1 } set

def migrate (m : RecordMigration) (host : Host) (set : LiveSet σ) :
    Except MigrationError MigrationReport × LiveSet σ :=
  match m.records with
  | .error fault => (.error (.sourceUnavailable m.dependency fault.message), set)
  | .ok records => m.importFrom host records .empty set

end RecordMigration

inductive Strategy where
  | ofRecords (migration : RecordMigration)
  | panicking (dependency : String)

namespace Strategy
variable {σ : Type}

def dependency : Strategy → String
  | .ofRecords migration => migration.dependency
  | .panicking dependency => dependency

/-- Run a strategy; there is no result if it panics. -/
def migrate (s : Strategy) (host : Host) (set : LiveSet σ) :
    Option (Except MigrationError MigrationReport) × LiveSet σ :=
  match s with
  | .ofRecords migration =>
    let (result, set) := migration.migrate host set
    (some result, set)
  | .panicking _ => (none, set)

end Strategy

structure MigrationOutcome where
  dependency : String
  result : Except MigrationError MigrationReport

abbrev MigrationTable := List Strategy

namespace MigrationTable
variable {σ : Type}

def playerKind : EntityKind := EntityKind.ofText "PLAYER"

def citizens (records : Except SourceFault (List ExternalRecord)) : Strategy :=
  .ofRecords ⟨"Citizens", playerKind, records⟩

def serverNpc (records : Except SourceFault (List ExternalRecord)) : Strategy :=
  .ofRecords ⟨"ServerNPC", playerKind, records⟩

def builtin (citizensRecords serverNpcRecords : Except SourceFault (List ExternalRecord)) :
    MigrationTable :=
  [citizens citizensRecords, serverNpc serverNpcRecords]

def names (table : MigrationTable) : List String := table.map Strategy.dependency

def find? (table : MigrationTable) (dependency : String) : Option Strategy :=
  List.find? (fun s => Text.sameName s.dependency dependency) table

/-- The outcome of a strategy; a panic is an error of it. -/
def outcome (s : Strategy) (host : Host) (set : LiveSet σ) : MigrationOutcome × LiveSet σ :=
  let (result, set) := s.migrate host set
  (⟨s.dependency, result.getD (.error (.panicked s.dependency))⟩, set)

/-- Run the strategies whose systems the host has, whatever becomes of the others. -/
def migrateAll (host : Host) : MigrationTable → LiveSet σ → List MigrationOutcome × LiveSet σ
  | [], set => ([], set)
  | s :: rest, set =>
    if host.hasDependency s.dependency then
      let (first, set) := outcome s host set
      let (outcomes, set) := migrateAll host rest set
      (first :: outcomes, set)
    else migrateAll host rest set

end MigrationTable
end ScriptedActors
