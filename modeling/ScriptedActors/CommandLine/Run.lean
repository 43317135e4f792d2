import ScriptedActors.CommandLine.Arguments
import ScriptedActors.Engine
import ScriptedActors.Statement.ActionRecord
import ScriptedActors.Vocabulary
set_option autoImplicit false

/-!
# Commands

A command prints texts, may change files and may fail. Commands that need an engine run it without
a host.
-/
namespace ScriptedActors.CommandLine
open Decimal

/-- What a command prints, and why it fails if it does. -/
structure Outcome where
  printed : List String
  failure : Option String
deriving DecidableEq

def Outcome.ok (printed : List String) : Outcome := ⟨printed, none⟩

def Outcome.error (message : String) : Outcome := ⟨[], some message⟩

def coordinates (x y z : String) : String := s!"x={x} y={y} z={z}"

def decode (shape : Shape) (text : String) : Outcome :=
  match shape with
  | .angle =>
    match EulerAngle.ofText text with
    | .error e => .error e.message
    | .ok a => .ok [coordinates (Style.plain.float a.x) (Style.plain.float a.y) (Style.plain.float a.z)]
  | .position =>
    match Position.ofText text with
    | .error e => .error e.message
    | .ok p => .ok [coordinates (toString p.x) (toString p.y) (toString p.z)]
  | .location =>
    match Location.ofText text with
    | .error e => .error e.message
    | .ok l => .ok [l.text]

def parseStatement (statement : String) : Outcome :=
  match ActionTable.builtin.parse statement with
  | .error e => .error e.message
  | .ok action => .ok [action.text]

def newConfig (root : Path) (reloadIntervalSecs : UInt64) (enforceUniqueIds : Bool) : Config :=
  { Config.default with
    root := root, reloadIntervalSecs := reloadIntervalSecs, enforceUniqueIds := enforceUniqueIds }

def initialise (config : Config) (t : FileTree) : Outcome × FileTree :=
  match config.init t with
  | (.error e, t) => (.error e.message, t)
  | (.ok (), t) => (.ok [s!"Initialized Marionette runtime at {config.root.quoted}"], t)

def withEngine (root : Path) (t : FileTree) (report : Engine UniqueIds Empty → Outcome) :
    Outcome × FileTree :=
  match Engine.load root Host.detached Factory.plain ⟨toString, 0⟩ ⟨fun _ => 0, 0⟩ t with
  | (.error e, t) => (.error e.message, t)
  | (.ok e, t) => (report e, t)

def reloadLine (loadedAt : String) (library : ScriptLibrary) : List String :=
  if library.loadedOnce then ["Last reload: " ++ loadedAt] else []

def status (now : String) (e : Engine UniqueIds Empty) : Outcome :=
  .ok ([s!"Storage root: {e.config.root.quoted}",
      s!"Scripts: {e.library.length} loaded from {e.config.scriptsPath.quoted}"] ++
    reloadLine now e.library ++
    [s!"Reload interval: {e.config.reloadIntervalSecs.toNat}s",
      s!"Unique ids enforced: {e.config.enforceUniqueIds}"])

def check (e : Engine UniqueIds Empty) : Outcome :=
  match e.checkScripts with
  | [] => .ok [s!"{e.library.length} scripts OK"]
  | diagnostics => ⟨diagnostics.map Diagnostic.text, some s!"{diagnostics.length} problems found"⟩

def run (now : String) (invocation : Invocation) (t : FileTree) : Outcome × FileTree :=
  match invocation.command with
  | .init reloadIntervalSecs enforceUniqueIds =>
    initialise (newConfig invocation.root reloadIntervalSecs enforceUniqueIds) t
  | .status => withEngine invocation.root t (status now)
  | .actions => (.ok vocabularyListing, t)
  | .parse statement => (parseStatement statement, t)
  | .codec shape text => (decode shape text, t)
  | .check => withEngine invocation.root t check

end ScriptedActors.CommandLine
