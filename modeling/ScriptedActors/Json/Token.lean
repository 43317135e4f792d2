import ScriptedActors.Json.Number
import ScriptedActors.Text.Utf8
set_option autoImplicit false

/-!
# Tokens of structured values

The text of a value is cut into tokens one character at a time. A run of letters, digits, points
and signs is one scalar, and must be `null`, `true`, `false` or a number. Only space, tab, line
feed and carriage return may stand between tokens.

A number that is too large is a token without a value, and so is a string with half of a surrogate
pair or with bytes that are no characters.
-/
namespace ScriptedActors.Json

inductive Token where
  | beginArray
  | endArray
  | beginObject
  | endObject
  | comma
  | colon
  | string (value : Option String)
  | scalar (value : Option Json)

/-- The characters of a string so far in reverse, unless it has no value. -/
abbrev Written := Option (List Char)

inductive Mode where
  | between
  | scalar (text : List Char)
  | string (text : Written)
  | escape (text : Written)
  /-- After `\u`: the code so far, the digits still to come, and a first surrogate if one stands
  before. -/
  | code (text : Written) (value digits : Nat) (first : Option Nat)
  /-- After a first surrogate, where the second must be announced. -/
  | awaitEscape (text : Written) (first : Nat)
  | awaitCode (text : Written) (first : Nat)
  | failed

structure Lexer where
  tokens : List Token
  mode : Mode

def isSpace (c : Char) : Bool := c == ' ' || c == '\t' || c == '\n' || c == '\r'

def isScalar (c : Char) : Bool := c.isAlphanum || c == '.' || c == '-' || c == '+'

def readScalar (cs : List Char) : Option (Option Json) :=
  if cs = "null".toList then some (some .null)
  else if cs = "true".toList then some (some (.bool true))
  else if cs = "false".toList then some (some (.bool false))
  else (NumberText.read cs).map NumberText.value

def hexValue (c : Char) : Option Nat :=
  if c.isDigit then some (c.toNat - 48)
  else if 'a' ≤ c ∧ c ≤ 'f' then some (c.toNat - 87)
  else if 'A' ≤ c ∧ c ≤ 'F' then some (c.toNat - 55)
  else none

def unescape (c : Char) : Option Char :=
  if c = '"' ∨ c = '\\' ∨ c = '/' then some c
  else if c = 'b' then some '\x08'
  else if c = 'f' then some '\x0c'
  else if c = 'n' then some '\n'
  else if c = 'r' then some '\r'
  else if c = 't' then some '\t'
  else none

def Written.push (text : Written) (c : Char) : Written := text.map (c :: ·)

def afterCode (text : Written) (value : Nat) : Option Nat → Mode
  | none =>
    if 0xD800 ≤ value ∧ value < 0xDC00 then .awaitEscape text value
    else if 0xDC00 ≤ value ∧ value < 0xE000 then .string none
    else .string (text.push (Char.ofNat value))
  | some first =>
    if 0xDC00 ≤ value ∧ value < 0xE000 then
      .string (text.push (Char.ofNat (0x10000 + (first - 0xD800) * 0x400 + (value - 0xDC00))))
    else .string none

namespace Lexer

def start (tokens : List Token) (c : Char) : Lexer :=
  if isSpace c then ⟨tokens, .between⟩
  else if c = '[' then ⟨.beginArray :: tokens, .between⟩
  else if c = ']' then ⟨.endArray :: tokens, .between⟩
  else if c = '\x7b' then ⟨.beginObject :: tokens, .between⟩
  else if c = '\x7d' then ⟨.endObject :: tokens, .between⟩
  else if c = ',' then ⟨.comma :: tokens, .between⟩
  else if c = ':' then ⟨.colon :: tokens, .between⟩
  else if c = '"' then ⟨tokens, .string (some [])⟩
  else if isScalar c then ⟨tokens, .scalar [c]⟩
  else ⟨tokens, .failed⟩

def endScalar (tokens : List Token) (text : List Char) : Option (List Token) :=
  (readScalar text.reverse).map fun value => .scalar value :: tokens

def inString (tokens : List Token) (text : Written) (c : Char) : Lexer :=
  if c = '"' then ⟨.string (text.map fun cs => String.ofList cs.reverse) :: tokens, .between⟩
  else if c = '\\' then ⟨tokens, .escape text⟩
  else if c.toNat < 0x20 then ⟨tokens, .failed⟩
  else ⟨tokens, .string (text.push c)⟩

def inEscape (tokens : List Token) (text : Written) (c : Char) : Lexer :=
  if c = 'u' then ⟨tokens, .code text 0 4 none⟩
  else
    match unescape c with
    | some d => ⟨tokens, .string (text.push d)⟩
    | none => ⟨tokens, .failed⟩

def step (l : Lexer) (c : Char) : Lexer :=
  match l.mode with
  | .between => start l.tokens c
  | .scalar text =>
    if isScalar c then ⟨l.tokens, .scalar (c :: text)⟩
    else
      match endScalar l.tokens text with
      | some tokens => start tokens c
      | none => ⟨l.tokens, .failed⟩
  | .string text => inString l.tokens text c
  | .escape text => inEscape l.tokens text c
  | .code text value digits first =>
    match hexValue c with
    | none => ⟨l.tokens, .failed⟩
    | some d =>
      if digits ≤ 1 then ⟨l.tokens, afterCode text (value * 16 + d) first⟩
      else ⟨l.tokens, .code text (value * 16 + d) (digits - 1) first⟩
  | .awaitEscape text first =>
    if c = '\\' then ⟨l.tokens, .awaitCode text first⟩ else inString l.tokens none c
  | .awaitCode text first =>
    if c = 'u' then ⟨l.tokens, .code text 0 4 (some first)⟩ else inEscape l.tokens none c
  | .failed => l

/-- Read bytes that are no character, which may stand in strings. -/
def skip (l : Lexer) : Lexer :=
  match l.mode with
  | .string _ | .awaitEscape _ _ => ⟨l.tokens, .string none⟩
  | _ => ⟨l.tokens, .failed⟩

def piece (l : Lexer) : Text.Utf8.Piece → Lexer
  | .char c => l.step c
  | .invalid _ | .incomplete _ => l.skip

def finish (l : Lexer) : Option (List Token) :=
  match l.mode with
  | .between => some l.tokens.reverse
  | .scalar text => (endScalar l.tokens text).map List.reverse
  | _ => none

end Lexer

def tokens? (cs : List Char) : Option (List Token) := (cs.foldl Lexer.step ⟨[], .between⟩).finish

def tokensOfBytes? (bytes : List UInt8) : Option (List Token) :=
  ((Text.Utf8.pieces bytes).foldl Lexer.piece ⟨[], .between⟩).finish

end ScriptedActors.Json
