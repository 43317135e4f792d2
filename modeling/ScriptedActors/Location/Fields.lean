import ScriptedActors.Decimal.Reading
import ScriptedActors.Location.Basic
import ScriptedActors.Text.Blank
import ScriptedActors.Text.Separated
set_option autoImplicit false

/-!
# Locations, blocks and angles as delimited text

Scripts write these values as fields with commas between them, as in `world,1.5,64,-3,90,0`.
Blanks around a field do not count, a blank field is an absent one, and an absent number is zero.
Only fields up to the last one that is not blank are counted.
-/
namespace ScriptedActors
open Decimal

inductive FieldsError where
  | invalidNumber (index : Nat) (text : String) (expected : String)
  | missingWorld
  | tooMany (max found : Nat)
deriving DecidableEq

def FieldsError.message : FieldsError → String
  | .invalidNumber index text expected => s!"field {index} ('{text}') is not a valid {expected}"
  | .missingWorld => "location is missing a world name"
  | .tooMany max found => s!"expected at most {max} fields, found {found}"

structure NumberKind (α : Type) where
  name : String
  zero : α
  read : List Char → Option α

namespace NumberKind

def binary64 : NumberKind Float := ⟨"f64", 0, fun cs => (readFloat cs).filter Float.isFinite⟩

def binary32 : NumberKind Float32 := ⟨"f32", 0, fun cs => (readFloat32 cs).filter Float32.isFinite⟩

def int32 : NumberKind Int :=
  ⟨"i32", 0, fun cs => (readInteger cs).filter fun n =>
    Arithmetic.minBlock ≤ n && n ≤ Arithmetic.maxBlock⟩

end NumberKind

abbrev Fields := List String

namespace Fields

def ofText (text : String) : Fields :=
  (Text.split ',' text.toList).map fun piece => String.ofList (Text.trimChars piece)

/-- How many fields there are up to the last one that is not blank. -/
def count (fields : Fields) : Nat := (fields.reverse.dropWhile (· == "")).length

/-- The field at an index, unless it is absent or blank. -/
def at? (fields : Fields) (index : Nat) : Option String := fields[index]?.filter (· != "")

def read (max : Nat) (text : String) : Except FieldsError Fields :=
  let fields := ofText text
  if max < fields.count then .error (.tooMany max fields.count) else .ok fields

def number {α : Type} (kind : NumberKind α) (fields : Fields) (index : Nat) : Except FieldsError α :=
  match fields.at? index with
  | none => .ok kind.zero
  | some text =>
    match kind.read text.toList with
    | none => .error (.invalidNumber index text kind.name)
    | some value => .ok value

end Fields

def EulerAngle.ofText (text : String) : Except FieldsError EulerAngle := do
  let fields ← Fields.read 3 text
  let x ← fields.number .binary64 0
  let y ← fields.number .binary64 1
  let z ← fields.number .binary64 2
  return ⟨x, y, z⟩

def Position.ofText (text : String) : Except FieldsError Position := do
  let fields ← Fields.read 3 text
  let x ← fields.number .int32 0
  let y ← fields.number .int32 1
  let z ← fields.number .int32 2
  return ⟨x, y, z⟩

def Location.ofText (text : String) : Except FieldsError Location := do
  let fields ← Fields.read 6 text
  let world ← match fields.at? 0 with
    | none => .error .missingWorld
    | some world => .ok world
  let x ← fields.number .binary64 1
  let y ← fields.number .binary64 2
  let z ← fields.number .binary64 3
  let yaw ← fields.number .binary32 4
  let pitch ← fields.number .binary32 5
  return ⟨world, x, y, z, yaw, pitch⟩

end ScriptedActors
