import ScriptedActors.Actor.Basic
import ScriptedActors.KeywordTable
set_option autoImplicit false

/-!
# The known controllers
-/
namespace ScriptedActors

abbrev ControllerTable := KeywordTable Controller

namespace ControllerTable

def vocabulary : List (String × Controller) :=
  [("Move", .move), ("Gravity", .gravity), ("SmoothLook", .smoothLook),
    ("LookAtPlayer", .lookAtPlayer 0.02), ("LookAtPlayerAlways", .lookAtPlayerAlways),
    ("RandomLookGround", .randomLookGround 0.02),
    ("RandomStrollLand", .randomStrollLand (1.0 / 120.0))]

def empty : ControllerTable := KeywordTable.empty "controller"

def builtin : ControllerTable := empty.registerAll vocabulary

def resolveController (table : ControllerTable) (name : String) : Except LookupError Controller :=
  match table.resolve name with
  | some controller => .ok controller
  | none => .error (.controller name)

def attach (table : ControllerTable) (name : String) (a : Actor) : Except LookupError Actor :=
  (table.resolveController name).map a.attach

end ControllerTable
end ScriptedActors
