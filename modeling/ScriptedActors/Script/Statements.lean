import ScriptedActors.Digest
import ScriptedActors.Text.Blank
import ScriptedActors.Text.Separated
set_option autoImplicit false

/-!
# The statements of a script

A script is read line by line, each line trimmed. Outside a statement, blank lines and lines that
begin with `#` are skipped. A statement ends with the first line after which no brace is open;
the lines of a statement are joined by line feeds. Braces in a string do not count, and a string
does not reach beyond its line.
-/
namespace ScriptedActors
open Text

structure Script where
  name : String
  body : String
  /-- A store is free to fill it with any text; `ofText` takes the digest of the body. -/
  digest : String
deriving DecidableEq

def Script.ofText (name body : String) : Script := ⟨name, body, Digest.ofText body⟩

structure Statement where
  line : Nat
  text : String
deriving DecidableEq

/-- Open braces of a line so far, and whether the next character stands in a string or behind a
backslash in one. Depths have no bound here; a count in 32 bits is the same for bodies with fewer than
2 ^ 31 braces. -/
structure BraceCount where
  depth : Int
  inString : Bool
  escaped : Bool

def BraceCount.step (b : BraceCount) (c : Char) : BraceCount :=
  if b.escaped then { b with escaped := false }
  else if b.inString then ⟨b.depth, c != '"', c == '\\'⟩
  else if c = '"' then ⟨b.depth, true, false⟩
  else if c = '{' then ⟨b.depth + 1, false, false⟩
  else if c = '}' then ⟨b.depth - 1, false, false⟩
  else b

def braceBalance (line : List Char) : Int := (line.foldl BraceCount.step ⟨0, false, false⟩).depth

def isSkipped : List Char → Bool
  | [] => true
  | c :: _ => c == '#'

structure OpenStatement where
  line : Nat
  lines : List (List Char)
  depth : Int

namespace OpenStatement

def start (number : Nat) (line : List Char) : OpenStatement := ⟨number, [line], braceBalance line⟩

def add (o : OpenStatement) (line : List Char) : OpenStatement :=
  ⟨o.line, line :: o.lines, o.depth + braceBalance line⟩

def isComplete (o : OpenStatement) : Bool := o.depth ≤ 0

def close (o : OpenStatement) : Statement :=
  ⟨o.line, String.ofList (List.intercalate ['\n'] o.lines.reverse)⟩

end OpenStatement

/-- The statements of trimmed lines, the first of which has a number, after an open statement. -/
def collect (number : Nat) : Option OpenStatement → List (List Char) → List Statement
  | none, [] => []
  | some o, [] => [o.close]
  | none, line :: lines =>
    if isSkipped line then collect (number + 1) none lines
    else
      let o := OpenStatement.start number line
      if o.isComplete then o.close :: collect (number + 1) none lines
      else collect (number + 1) (some o) lines
  | some o, line :: lines =>
    let o := o.add line
    if o.isComplete then o.close :: collect (number + 1) none lines
    else collect (number + 1) (some o) lines

def trimmedLines (text : String) : List (List Char) := (lines text.toList).map trimChars

def Script.statements (s : Script) : List Statement := collect 1 none (trimmedLines s.body)

end ScriptedActors
