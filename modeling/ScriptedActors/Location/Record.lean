import ScriptedActors.Json.Record
import ScriptedActors.Location.Basic
set_option autoImplicit false

/-!
# Locations, blocks and angles as records
-/
namespace ScriptedActors
open Json

def EulerAngle.toJson (a : EulerAngle) : Json :=
  .object [("x", .float a.x), ("y", .float a.y), ("z", .float a.z)]

def EulerAngle.fieldNames : List String := ["x", "y", "z"]

def EulerAngle.ofJson (v : Json) : Option EulerAngle := do
  match ← fields fieldNames v with
  | [x, y, z] => return ⟨← required asFloat x, ← required asFloat y, ← required asFloat z⟩
  | _ => none

def Position.toJson (p : Position) : Json := .object [("x", .int p.x), ("y", .int p.y), ("z", .int p.z)]

def asCoordinate : Json → Option Int := asIntBetween Arithmetic.minBlock Arithmetic.maxBlock

def Position.fieldNames : List String := ["x", "y", "z"]

def Position.ofJson (v : Json) : Option Position := do
  match ← fields fieldNames v with
  | [x, y, z] =>
    return ⟨← required asCoordinate x, ← required asCoordinate y, ← required asCoordinate z⟩
  | _ => none

def Location.toJson (l : Location) : Json :=
  .object [("world", .string l.world), ("x", .float l.x), ("y", .float l.y), ("z", .float l.z),
    ("yaw", .float32 l.yaw), ("pitch", .float32 l.pitch)]

def Location.fieldNames : List String := ["world", "x", "y", "z", "yaw", "pitch"]

def Location.ofJson (v : Json) : Option Location := do
  match ← fields fieldNames v with
  | [world, x, y, z, yaw, pitch] =>
    return ⟨← required asString world, ← required asFloat x, ← required asFloat y,
      ← required asFloat z, ← required asFloat32 yaw, ← required asFloat32 pitch⟩
  | _ => none

end ScriptedActors
