import ScriptedActors.Json.Reader
import ScriptedActors.Statement.Arguments
set_option autoImplicit false

/-!
# The grammar of the built-in actions

Each keyword has a reader for its arguments. Words in the grammar such as `to` and `by` are taken
whenever they stand bare at their place, also where a value of that name could have been meant.
-/
namespace ScriptedActors
open Text Reading

def ticksPerSecond : Nat := 20

def readWord (cs : List Char) : Option Nat :=
  let digits := if cs.head? == some '+' then cs.tail else cs
  if digits = [] ∨ Decimal.afterDigits digits ≠ [] then none
  else
    let n := Decimal.valueOf digits
    if n < UInt64.size then some n else none

/-- A duration in ticks, or in seconds if it ends with `s`; a `t` at the end may be left out. -/
def readDuration (text : String) : Option UInt64 :=
  let cs := (lower text).toList
  let last := cs.getLast?
  let digits := if last = some 's' ∨ last = some 't' then cs.dropLast else cs
  let scale := if last = some 's' then ticksPerSecond else 1
  (readWord digits).bind fun n => if n * scale < UInt64.size then some (UInt64.ofNat (n * scale)) else none

def comparisonNames : List (String × Comparison) :=
  [("==", .eq), ("=", .eq), ("is", .eq), ("!=", .ne), ("not", .ne), (">", .gt), (">=", .ge),
    ("<", .lt), ("<=", .le)]

/-- The value of a metadata argument: a bare word that reads as a structured value is that value,
any other text is a string. -/
def metadataValue : Token → Json
  | .word text => ((Json.read? text).map Json.settled).getD (.string text)
  | token => .string token.text

namespace Grammar

def log : Reading Action := do return .log (← rest "a message")

def wait : Reading Action := do
  let found ← expect "a duration"
  match readDuration found with
  | some ticks => pure (.wait ticks)
  | none => invalid found "expected ticks or seconds (e.g. 20, 5s)"

def js : Reading Action := do return .js (← expect "code")

def set : Reading Action := do
  let name ← expect "a variable name"
  expectLiteral "to"
  let value ← rest "a value"
  return .set name value

def get : Reading Action := do return .get (← expect "a variable name")

def run : Reading Action := do return .run (← expect "a script name")

def check : Reading Action := do
  let left ← expect "a value"
  let op ← expectName "a comparison operator" "expected ==, !=, >, >=, <, <=, is or not" comparisonNames
  let right ← expect "a value"
  return .check left op right

def select : Reading Action := do
  let value ← expect "an actor id"
  if ← accept "by" then
    let key ← expectName "'id' or 'uniqueId'" "expected 'id' or 'uniqueId'"
      [("id", SelectBy.id), ("uniqueid", .uniqueId), ("uuid", .uniqueId)]
    return .select value key
  else return .select value .id

def create : Reading Action := do
  let id ← expect "an actor id"
  let kind ← expect "an entity type"
  let location ← location
  return .create id kind location

def look : Reading Action := do
  let smooth ← accept "smooth"
  let target ← location
  return .look target smooth

def move : Reading Action := do return .move (← location)

def teleport : Reading Action := do return .teleport (← location)

def tag : Reading Action := do
  let setting ← expectName "'set' or 'remove'" "expected 'set' or 'remove'"
    [("set", true), ("remove", false)]
  let key ← expect "a tag key"
  if setting then
    let _ ← accept "to"
    let value ← expect "a tag value"
    return .tag key (some value)
  else return .tag key none

def metadata : Reading Action := do
  let key ← expect "a metadata key"
  let _ ← accept "to"
  match ← next with
  | some token => return .metadata key (metadataValue token)
  | none => missing "a metadata value"

def animation : Reading Action := do return .animation (← expect "an animation name")

def viewer : Reading Action := do
  let op ← collectionOp
  let player ← expect "a player name"
  return .viewer op player

def passenger : Reading Action := do
  let op ← collectionOp
  let uniqueId ← expect "an actor unique id"
  return .passenger op uniqueId

def controller : Reading Action := do
  let op ← collectionOp
  let name ← expect "a controller name"
  return .controller op name

def event : Reading Action := do
  let field ← expect "an event field"
  if ← accept "to" then
    let value ← rest "a value"
    return .event field (some value)
  else return .event field none

def listen : Reading Action := do
  let event ← expect "an event name"
  let body ← expectBlock "a \x7b ... \x7d body"
  return .listen event body

def command : Reading Action := do
  let line ← expect "a command line"
  if ← accept "as" then
    let sender ← expectName "'player', 'op' or 'console'" "expected 'player', 'op' or 'console'"
      [("player", Sender.player), ("op", .operator), ("operator", .operator), ("console", .console),
        ("server", .console)]
    return .command line sender
  else return .command line .player

def permission : Reading Action := do return .permission (← expect "a permission node")

def placeholder : Reading Action := do return .placeholder (← rest "placeholder text")

def constant (action : Action) : Reading Action := pure action

end Grammar
end ScriptedActors
