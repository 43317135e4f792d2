import ScriptedActors.Arithmetic
import ScriptedActors.Decimal.Style
set_option autoImplicit false

/-!
# Locations, blocks and angles

A location is a point of a named world with an orientation. Distances exist only inside one
world. The block of a location is each coordinate rounded down.
-/
namespace ScriptedActors
open Decimal Arithmetic

structure EulerAngle where
  x : Float
  y : Float
  z : Float

structure Position where
  x : Int
  y : Int
  z : Int
deriving DecidableEq

/-- A point in a named world, with a horizontal and a vertical rotation in degrees. -/
structure Location where
  world : String
  x : Float
  y : Float
  z : Float
  yaw : Float32
  pitch : Float32

def Position.below (p : Position) : Position := { p with y := p.y - 1 }

namespace Location

def origin : Location := ⟨"", 0, 0, 0, 0, 0⟩

/-- Equality as numbers: zeros of both signs are equal, an undefined number equals nothing. -/
def same (a b : Location) : Bool :=
  a.world == b.world && a.x.beq b.x && a.y.beq b.y && a.z.beq b.z &&
    a.yaw.beq b.yaw && a.pitch.beq b.pitch

def withRotation (l : Location) (yaw pitch : Float32) : Location :=
  { l with yaw := yaw, pitch := pitch }

def length (dx dy dz : Float) : Float := (dx * dx + dy * dy + dz * dz).sqrt

def distance (a b : Location) : Option Float :=
  if a.world = b.world then some (length (b.x - a.x) (b.y - a.y) (b.z - a.z)) else none

def block (l : Location) : Position := ⟨blockOf l.x, blockOf l.y, blockOf l.z⟩

def text (l : Location) : String :=
  ",".intercalate [l.world, Style.plain.float l.x, Style.plain.float l.y, Style.plain.float l.z,
    Style.plain.float32 l.yaw, Style.plain.float32 l.pitch]

end Location
end ScriptedActors
