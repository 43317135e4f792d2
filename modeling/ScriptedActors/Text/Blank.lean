set_option autoImplicit false

/-!
# Blank characters

The characters that separate words and that are trimmed from the ends of fields are those with
the Unicode property `White_Space`. No other invisible character counts: a byte order mark or a
zero width space is text.
-/
namespace ScriptedActors.Text

/-- A character with the property `White_Space`. -/
def isBlank (c : Char) : Bool :=
  let n := c.toNat
  (9 ≤ n && n ≤ 13) || n == 0x20 || n == 0x85 || n == 0xA0 || n == 0x1680 ||
    (0x2000 ≤ n && n ≤ 0x200A) || n == 0x2028 || n == 0x2029 || n == 0x202F || n == 0x205F ||
    n == 0x3000

def trimEnd (cs : List Char) : List Char := (cs.reverse.dropWhile isBlank).reverse

def trimChars (cs : List Char) : List Char := trimEnd (cs.dropWhile isBlank)

def trim (s : String) : String := String.ofList (trimChars s.toList)

theorem isBlank_space : isBlank ' ' = true := by decide

end ScriptedActors.Text
