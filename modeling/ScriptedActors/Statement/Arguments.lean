import ScriptedActors.KeywordTable
import ScriptedActors.Location.Fields
import ScriptedActors.Statement.Action
import ScriptedActors.Statement.Token
set_option autoImplicit false

/-!
# Reading the arguments of a statement

The tokens after the keyword are read from the front. A reader that fails keeps the tokens that
it had not reached; a token that was taken is not given back, also when it turns out to be wrong.
-/
namespace ScriptedActors
open Text

inductive StatementError where
  | empty
  | unknown (error : LookupError)
  | missingArgument (keyword expected : String)
  | invalidArgument (keyword found reason : String)
  | unterminated (fault : TokenFault)
  | trailing (keyword found : String)
deriving DecidableEq

def TokenFault.message : TokenFault → String
  | .unterminatedString => "unterminated string literal"
  | .unterminatedBlock => "unterminated block"

def StatementError.message : StatementError → String
  | .empty => "empty statement"
  | .unknown error => error.message
  | .missingArgument keyword expected => s!"'{keyword}' expects {expected}"
  | .invalidArgument keyword found reason => s!"'{keyword}': invalid argument '{found}' ({reason})"
  | .unterminated fault => fault.message
  | .trailing keyword found => s!"'{keyword}': unexpected trailing input '{found}'"

/-- The keyword of a statement and the tokens that are still to be read. -/
structure Arguments where
  keyword : String
  unread : List Token
deriving DecidableEq

/-- A computation that reads arguments. -/
abbrev Reading (α : Type) := EStateM StatementError Arguments α

namespace Reading

def outcome {α : Type} (reading : Reading α) (arguments : Arguments) :
    Except StatementError α × Arguments :=
  match reading arguments with
  | .ok value rest => (.ok value, rest)
  | .error error rest => (.error error, rest)

def missing {α : Type} (expected : String) : Reading α := fun s =>
  .error (.missingArgument s.keyword expected) s

def invalid {α : Type} (found reason : String) : Reading α := fun s =>
  .error (.invalidArgument s.keyword found reason) s

def peek : Reading (Option Token) := fun s => .ok s.unread.head? s

def isEmpty : Reading Bool := fun s => .ok s.unread.isEmpty s

def next : Reading (Option Token) := fun s => .ok s.unread.head? { s with unread := s.unread.tail }

def expect (expected : String) : Reading String := fun s =>
  match s.unread with
  | [] => missing expected s
  | token :: rest => .ok token.text { s with unread := rest }

def isWord (literal : String) : Token → Bool
  | .word text => sameName text literal
  | _ => false

def accept (literal : String) : Reading Bool := fun s =>
  match s.unread with
  | [] => .ok false s
  | token :: rest => if isWord literal token then .ok true { s with unread := rest } else .ok false s

def expectLiteral (literal : String) : Reading Unit := fun s =>
  match s.unread with
  | [] => missing literal s
  | token :: rest =>
    if isWord literal token then .ok () { s with unread := rest }
    else invalid token.text s!"expected '{literal}'" s

def expectBlock (expected : String) : Reading String := fun s =>
  match s.unread with
  | [] => missing expected s
  | .block body :: rest => .ok body { s with unread := rest }
  | token :: rest => invalid token.text "expected a \x7b ... \x7d block" { s with unread := rest }

/-- Take all tokens; their texts are joined by single spaces. -/
def rest (expected : String) : Reading String := fun s =>
  match s.unread with
  | [] => missing expected s
  | tokens => .ok (join " " (tokens.map Token.text)) { s with unread := [] }

/-- Take a token that one of some names is bound to. -/
def expectName {α : Type} (expected reason : String) (names : List (String × α)) : Reading α := do
  let found ← expect expected
  match names.find? (fun entry => sameName entry.1 found) with
  | some entry => pure entry.2
  | none => invalid found reason

def location : Reading Location := do
  let found ← expect "a location (world,x,y,z)"
  match Location.ofText found with
  | .ok location => pure location
  | .error error => invalid found error.message

def collectionOp : Reading CollectionOp :=
  expectName "'add' or 'remove'" "expected 'add' or 'remove'" [("add", .add), ("remove", .remove)]

def finish : Reading Unit := fun s =>
  match s.unread with
  | [] => .ok () s
  | token :: _ => .error (.trailing s.keyword token.text) s

end Reading
end ScriptedActors
