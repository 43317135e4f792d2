import ScriptedActors.Text.Blank
set_option autoImplicit false

/-!
# Tokens of a statement

A statement is made of bare words, double-quoted strings and blocks in braces. Inside a string a
backslash keeps the next character as it is, except that `\n` is a line feed. A block keeps its
text as written and trimmed; braces inside it nest, and do not count inside a string of the block.
The text is read one character at a time, so a text may be continued where another one ended.
-/
namespace ScriptedActors
open Text

inductive Token where
  | word (text : String)
  | quoted (text : String)
  | block (text : String)
deriving DecidableEq

def Token.text : Token → String
  | .word text => text
  | .quoted text => text
  | .block text => text

/-- Why a text has no tokens: it ends inside one. -/
inductive TokenFault where
  | unterminatedString
  | unterminatedBlock
deriving DecidableEq

namespace Token

inductive Mode where
  | between
  | word (text : List Char)
  | quoted (text : List Char) (escaped : Bool)
  /-- `depth` counts the open braces inside the block. -/
  | block (text : List Char) (depth : Nat) (inString escaped : Bool)

structure Lexer where
  ended : List Token
  mode : Mode

namespace Lexer

def initial : Lexer := ⟨[], .between⟩

def unescape (c : Char) : Char := if c = 'n' then '\n' else c

def begin (ended : List Token) (c : Char) : Lexer :=
  if isBlank c then ⟨ended, .between⟩
  else if c = '"' then ⟨ended, .quoted [] false⟩
  else if c = '{' then ⟨ended, .block [] 0 false false⟩
  else ⟨ended, .word [c]⟩

def endWord (text : List Char) : Token := .word (String.ofList text.reverse)

def endQuoted (text : List Char) : Token := .quoted (String.ofList text.reverse)

def endBlock (text : List Char) : Token := .block (String.ofList (trimChars text.reverse))

def endsWord (c : Char) : Bool := isBlank c || c == '"' || c == '{'

def stepQuoted (ended : List Token) (text : List Char) (escaped : Bool) (c : Char) : Lexer :=
  if escaped then ⟨ended, .quoted (unescape c :: text) false⟩
  else if c = '\\' then ⟨ended, .quoted text true⟩
  else if c = '"' then ⟨endQuoted text :: ended, .between⟩
  else ⟨ended, .quoted (c :: text) false⟩

def stepBlock (ended : List Token) (text : List Char) (depth : Nat) (inString escaped : Bool)
    (c : Char) : Lexer :=
  if escaped then ⟨ended, .block (c :: text) depth inString false⟩
  else if inString then ⟨ended, .block (c :: text) depth (c != '"') (c == '\\')⟩
  else if c = '"' then ⟨ended, .block (c :: text) depth true false⟩
  else if c = '{' then ⟨ended, .block (c :: text) (depth + 1) false false⟩
  else if c = '}' then
    match depth with
    | 0 => ⟨endBlock text :: ended, .between⟩
    | depth + 1 => ⟨ended, .block (c :: text) depth false false⟩
  else ⟨ended, .block (c :: text) depth false false⟩

def step (l : Lexer) (c : Char) : Lexer :=
  match l.mode with
  | .between => begin l.ended c
  | .word text =>
    if endsWord c then begin (endWord text :: l.ended) c else ⟨l.ended, .word (c :: text)⟩
  | .quoted text escaped => stepQuoted l.ended text escaped c
  | .block text depth inString escaped => stepBlock l.ended text depth inString escaped c

def run (l : Lexer) (cs : List Char) : Lexer := cs.foldl step l

def finish (l : Lexer) : Except TokenFault (List Token) :=
  match l.mode with
  | .between => .ok l.ended.reverse
  | .word text => .ok (endWord text :: l.ended).reverse
  | .quoted .. => .error .unterminatedString
  | .block .. => .error .unterminatedBlock

theorem run_nil (l : Lexer) : l.run [] = l := rfl

theorem run_cons (l : Lexer) (c : Char) (cs : List Char) : l.run (c :: cs) = (l.step c).run cs := rfl

theorem run_append (l : Lexer) (cs ds : List Char) : l.run (cs ++ ds) = (l.run cs).run ds := by
  simp [run]

end Lexer

def scan (text : String) : Except TokenFault (List Token) := (Lexer.initial.run text.toList).finish

/-- A text ends inside a block. -/
def hasOpenBlock (text : String) : Prop := scan text = .error .unterminatedBlock

end Token
end ScriptedActors
