import ScriptedActors.Decimal.Style
import ScriptedActors.Json.Basic
import ScriptedActors.Text.Shown
set_option autoImplicit false

/-!
# Writing structured values

A value is written on one line without spaces, or with every item and member on a line of its own
and two spaces for each level. Only quotation marks, backslashes and controls are escaped. A
number that is not finite is written as `null`.
-/
namespace ScriptedActors.Json
open Decimal

def escape (c : Char) : List Char :=
  if c = '"' ∨ c = '\\' then ['\\', c]
  else if c = '\x08' then ['\\', 'b']
  else if c = '\x0c' then ['\\', 'f']
  else if c = '\n' then ['\\', 'n']
  else if c = '\r' then ['\\', 'r']
  else if c = '\t' then ['\\', 't']
  else if c.toNat < 0x20 then
    let digits := Text.hexDigits c.toNat
    ['\\', 'u'] ++ List.replicate (4 - digits.length) '0' ++ digits
  else [c]

def stringText (s : String) : String := String.ofList ('"' :: s.toList.flatMap escape ++ ['"'])

def floatText (x : Float) : String := if x.isFinite then Style.data.float x else "null"

def float32Text (x : Float32) : String := if x.isFinite then Style.narrowData.float32 x else "null"

def leafText : Json → String
  | .bool true => "true"
  | .bool false => "false"
  | .int n => String.ofList (if n < 0 then '-' :: Nat.toDigits 10 n.natAbs else Nat.toDigits 10 n.natAbs)
  | .float x => floatText x
  | .float32 x => float32Text x
  | .string s => stringText s
  | _ => "null"

mutual
def compact : Json → String
  | .array items => "[" ++ ",".intercalate (compactItems items) ++ "]"
  | .object members => "\x7b" ++ ",".intercalate (compactMembers members) ++ "\x7d"
  | leaf => leafText leaf

def compactItems : List Json → List String
  | [] => []
  | item :: items => item.compact :: compactItems items

def compactMembers : List (String × Json) → List String
  | [] => []
  | (key, value) :: members => (stringText key ++ ":" ++ value.compact) :: compactMembers members
end

def indent (level : Nat) : String := String.ofList ('\n' :: List.replicate (2 * level) ' ')

/-- Parts on lines of their own, inside two brackets; without parts the brackets touch. -/
def block (level : Nat) (opening closing : String) (parts : List String) : String :=
  if parts = [] then opening ++ closing
  else opening ++ indent (level + 1) ++ ("," ++ indent (level + 1)).intercalate parts ++
    indent level ++ closing

mutual
def prettyAt (level : Nat) : Json → String
  | .array items => block level "[" "]" (prettyItems (level + 1) items)
  | .object members => block level "\x7b" "\x7d" (prettyMembers (level + 1) members)
  | leaf => leafText leaf

def prettyItems (level : Nat) : List Json → List String
  | [] => []
  | item :: items => item.prettyAt level :: prettyItems level items

def prettyMembers (level : Nat) : List (String × Json) → List String
  | [] => []
  | (key, value) :: members =>
    (stringText key ++ ": " ++ value.prettyAt level) :: prettyMembers level members
end

def pretty (v : Json) : String := v.prettyAt 0

end ScriptedActors.Json
