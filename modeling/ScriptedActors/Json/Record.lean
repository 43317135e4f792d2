import ScriptedActors.Arithmetic
import ScriptedActors.Json.Basic
set_option autoImplicit false

/-!
# Records in structured values

A record is read from an object, whose other members are ignored, or from an array of all its
fields in order. No field may be given twice. Numbers are read by their kind: a whole number may
stand for a number with a fraction, never the other way.
-/
namespace ScriptedActors.Json

def valuesOf (key : String) (members : List (String × Json)) : List Json :=
  (members.filter fun member => member.1 == key).map Prod.snd

def fieldsOfMembers (members : List (String × Json)) : List String → Option (List (Option Json))
  | [] => some []
  | name :: names =>
    match valuesOf name members with
    | [] => (fieldsOfMembers members names).map (none :: ·)
    | [value] => (fieldsOfMembers members names).map (some value :: ·)
    | _ => none

def fields (names : List String) : Json → Option (List (Option Json))
  | .object members => fieldsOfMembers members names
  | .array items => if items.length = names.length then some (items.map some) else none
  | _ => none

/-- The fields of a record of which an array may give only the first ones. -/
def leadingFields (names : List String) : Json → Option (List (Option Json))
  | .object members => fieldsOfMembers members names
  | .array items =>
    if items.length ≤ names.length then
      some (items.map some ++ List.replicate (names.length - items.length) none)
    else none
  | _ => none

def required {α : Type} (read : Json → Option α) (field : Option Json) : Option α := field.bind read

def nullable {α : Type} (read : Json → Option α) : Option Json → Option (Option α)
  | none => some none
  | some .null => some none
  | some value => (read value).map some

def withDefault {α : Type} (default : α) (read : Json → Option α) : Option Json → Option α
  | none => some default
  | some value => read value

def asString : Json → Option String
  | .string s => some s
  | _ => none

def asBool : Json → Option Bool
  | .bool b => some b
  | _ => none

def asFloat : Json → Option Float
  | .int n => some (Float.ofInt n)
  | .float x => some x
  | _ => none

def asFloat32 : Json → Option Float32
  | .int n => some (Arithmetic.float32OfInt n)
  | .float x => some (Arithmetic.narrow x)
  | _ => none

def asIntBetween (low high : Int) : Json → Option Int
  | .int n => if low ≤ n ∧ n ≤ high then some n else none
  | _ => none

def asWord : Json → Option UInt64
  | .int n => if 0 ≤ n then some (UInt64.ofNat n.toNat) else none
  | _ => none

def asStrings : Json → Option (List String)
  | .array items => items.mapM asString
  | _ => none

/-- One of several names; a name may also be the key of an object whose only value is null. -/
def asName : Json → Option String
  | .string s => some s
  | .object [(key, .null)] => some key
  | _ => none

def asFieldName : Json → Option String
  | .object [(key, .object [])] => some key
  | v => asName v

end ScriptedActors.Json
