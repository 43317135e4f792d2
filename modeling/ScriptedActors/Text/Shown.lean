import ScriptedActors.Text.Plain
set_option autoImplicit false

/-!
# Texts in quotation marks

Reports show a text in quotation marks with every character that could be mistaken written as an
escape: the quotation mark, the backslash, controls, and all that is not plain. An apostrophe
stands as it is.
-/
namespace ScriptedActors.Text

def hexDigits (n : Nat) : List Char := Nat.toDigits 16 n

def shownChar (c : Char) : List Char :=
  if c = '\x00' then ['\\', '0']
  else if c = '\t' then ['\\', 't']
  else if c = '\r' then ['\\', 'r']
  else if c = '\n' then ['\\', 'n']
  else if c = '"' ∨ c = '\\' then ['\\', c]
  else if isPlain c then [c]
  else ['\\', 'u', '\x7b'] ++ hexDigits c.toNat ++ ['\x7d']

/-- A text in quotation marks, as reports show it. -/
def shown (s : String) : String := String.ofList ('"' :: s.toList.flatMap shownChar ++ ['"'])

end ScriptedActors.Text
