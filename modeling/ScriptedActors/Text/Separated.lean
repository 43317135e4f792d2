set_option autoImplicit false

/-!
# Texts divided by a separator

`split` cuts a text at every occurrence of a separator, so the pieces are one more than the
separators. `lines` cuts at line feeds and has no empty last line: a text that ends with a line
feed has as many lines as line feeds.
-/
namespace ScriptedActors.Text

def split (separator : Char) : List Char → List (List Char)
  | [] => [[]]
  | c :: cs =>
    if c = separator then [] :: split separator cs
    else
      match split separator cs with
      | [] => [[c]]
      | piece :: pieces => (c :: piece) :: pieces

def dropFinalEmpty : List (List Char) → List (List Char)
  | [] => []
  | [[]] => []
  | piece :: pieces => piece :: dropFinalEmpty pieces

def lines (cs : List Char) : List (List Char) := dropFinalEmpty (split '\n' cs)

def join (separator : String) (texts : List String) : String := separator.intercalate texts

theorem split_ne_nil (separator : Char) (cs : List Char) : split separator cs ≠ [] := by
  cases cs with
  | nil => simp [split]
  | cons c cs =>
    unfold split
    split
    · simp
    · split <;> simp

end ScriptedActors.Text
