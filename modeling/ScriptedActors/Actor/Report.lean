import ScriptedActors.Actor.Basic
import ScriptedActors.Text.Shown
set_option autoImplicit false

/-!
# Actors in reports

Reports name the parts of an actor and of its state, with texts in quotation marks.
-/
namespace ScriptedActors
open Decimal Text

def reportOf (name : String) (parts : List (String × String)) : String :=
  name ++ " \x7b " ++ ", ".intercalate (parts.map fun part => part.1 ++ ": " ++ part.2) ++ " \x7d"

def reportBool (b : Bool) : String := if b then "true" else "false"

def reportOption {α : Type} (report : α → String) : Option α → String
  | none => "None"
  | some value => "Some(" ++ report value ++ ")"

def reportList (parts : List String) : String := "[" ++ ", ".intercalate parts ++ "]"

def reportDictionary (d : Dictionary String) : String :=
  "\x7b" ++ ", ".intercalate (d.map fun entry => shown entry.1 ++ ": " ++ shown entry.2) ++ "\x7d"

def Location.report (l : Location) : String :=
  reportOf "Location"
    [("world", shown l.world), ("x", Style.report.float l.x), ("y", Style.report.float l.y),
      ("z", Style.report.float l.z), ("yaw", Style.report.float32 l.yaw),
      ("pitch", Style.report.float32 l.pitch)]

def EntityKind.report (k : EntityKind) : String := "EntityKind(" ++ shown k.name ++ ")"

def Actor.report (a : Actor) : String :=
  reportOf "ActorInstance"
    [("id", shown a.id), ("unique_id", shown a.uniqueId), ("kind", a.kind.report),
      ("destroyed", reportBool a.destroyed)]

def Actor.stateReport (a : Actor) : String :=
  reportOf "ActorState"
    [("location", a.state.location.report),
      ("move_target", reportOption Location.report a.state.moveTarget),
      ("look_target", reportOption Location.report a.state.lookTarget),
      ("tags", reportDictionary a.state.tags),
      ("passengers", reportList (a.state.passengers.map shown)),
      ("sleeping", reportBool a.state.sleeping),
      ("controllers", reportList (a.controllerNames.map shown))]

end ScriptedActors
