import ScriptedActors.Actor.ControllerTable
import ScriptedActors.Config
import ScriptedActors.Event.Table
import ScriptedActors.Migration.Strategy
import ScriptedActors.Script.Library
set_option autoImplicit false

/-!
# The engine

An engine has the live actors, the scripts and the known events of one host. The actions and the
controllers that scripts may use are fixed. An engine starts with the scripts that can be loaded;
it starts with none if they cannot.
-/
namespace ScriptedActors

/-- Unique ids to come: a source of them and how many were taken. -/
structure UniqueIds where
  source : Nat → String
  taken : Nat

def Factory.plain : Factory UniqueIds where
  construct ids kind location viewers :=
    (.ok (Actor.new (ids.source ids.taken) kind location viewers .idle), { ids with taken := ids.taken + 1 })

structure Engine (σ τ : Type) [EventFamily τ] where
  config : Config
  host : Host
  events : EventTable τ
  actors : LiveSet σ
  migrations : MigrationTable
  library : ScriptLibrary

namespace Engine
variable {σ τ : Type} [EventFamily τ]

def reload (e : Engine σ τ) (t : FileTree) : Except StorageError ReloadSummary × Engine σ τ × FileTree :=
  let (loaded, t) := t.openStore e.config.scriptsPath
  let (summary, library) := e.library.reload loaded
  (summary, { e with library := library }, t)

def tickLibrary (e : Engine σ τ) (t : FileTree) : Bool × Engine σ τ × FileTree :=
  let (summary, e, t) := e.reload t
  (summary.toBool, e, t)

def unloaded (config : Config) (host : Host) (factory : Factory σ) (supply : σ) (draws : Draws) :
    Engine σ τ where
  config := config
  host := host
  events := EventTable.builtin
  actors := .empty factory supply config.enforceUniqueIds draws
  migrations := []
  library := .empty

def start (config : Config) (host : Host) (factory : Factory σ) (supply : σ) (draws : Draws)
    (t : FileTree) : Except ConfigError (Engine σ τ) × FileTree :=
  if config.reloadIntervalSecs = 0 then
    (.error (.invalid "reload_interval_secs must be at least 1"), t)
  else
    let (_, e, t) := (unloaded config host factory supply draws).tickLibrary t
    (.ok e, t)

def load (root : Path) (host : Host) (factory : Factory σ) (supply : σ) (draws : Draws)
    (t : FileTree) : Except ConfigError (Engine σ τ) × FileTree :=
  match Config.load root t with
  | .error error => (.error error, t)
  | .ok config => start config host factory supply draws t

def withMigrations (e : Engine σ τ) (migrations : MigrationTable) : Engine σ τ :=
  { e with migrations := migrations }

/-- Bind an event to a name. The first part says whether a binding was replaced. -/
def registerEvent (e : Engine σ τ) (name : String) (event : KnownEvent τ) : Bool × Engine σ τ :=
  let (replaced, events) := e.events.register name event
  (replaced, { e with events := events })

def create (e : Engine σ τ) (kind : EntityKind) (location : Location) :
    Except ActorError Nat × Engine σ τ :=
  let (result, actors) := e.actors.create e.host kind location none fun a => a
  (result, { e with actors := actors })

/-- Attach the controller that a name stands for to every live actor. Without live actors there is
nothing to look up. -/
def attachAll (e : Engine σ τ) (name : String) : Except LookupError (Engine σ τ) :=
  if e.actors.isEmpty then .ok e
  else
    (ControllerTable.builtin.resolveController name).map fun c =>
      { e with actors := e.actors.attachAll c }

def tickActors (e : Engine σ τ) : Bool × Engine σ τ :=
  let (panicked, actors) := e.actors.tickAll e.host
  (panicked, { e with actors := actors })

def migrate (e : Engine σ τ) : List MigrationOutcome × Engine σ τ :=
  let (outcomes, actors) := e.migrations.migrateAll e.host e.actors
  (outcomes, { e with actors := actors })

def checkScripts (e : Engine σ τ) : List Diagnostic := e.library.check ActionTable.builtin

def shutdown (e : Engine σ τ) : TeardownReport × Engine σ τ :=
  let (report, actors) := e.actors.shutdown
  (report, { e with actors := actors })

end Engine
end ScriptedActors
