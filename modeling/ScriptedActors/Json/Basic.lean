import ScriptedActors.Dictionary
set_option autoImplicit false

/-!
# Structured values

Metadata, event fields and stored settings are trees of these values. A whole number is an `int`
if 64 bits hold it with or without a sign; every other number is a `float`. The members of an
object stand in the order in which they were written; in a settled value they are a dictionary.
-/
namespace ScriptedActors

inductive Json where
  | null
  | bool (value : Bool)
  | int (value : Int)
  | float (value : Float)
  /-- A number of half the width, which is only ever written. -/
  | float32 (value : Float32)
  | string (value : String)
  | array (items : List Json)
  | object (members : List (String × Json))

namespace Json

mutual
/-- Put the members of every object in the order of their keys; of equal keys the last counts. -/
def settled : Json → Json
  | .array items => .array (settledItems items)
  | .object members => .object (Dictionary.ofList (settledMembers members))
  | .null => .null
  | .bool value => .bool value
  | .int value => .int value
  | .float value => .float value
  | .float32 value => .float32 value
  | .string value => .string value

def settledItems : List Json → List Json
  | [] => []
  | item :: items => item.settled :: settledItems items

def settledMembers : List (String × Json) → List (String × Json)
  | [] => []
  | (key, value) :: members => (key, value.settled) :: settledMembers members
end

end Json
end ScriptedActors
