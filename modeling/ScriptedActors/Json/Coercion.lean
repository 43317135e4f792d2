import ScriptedActors.Json.Printer
import ScriptedActors.Text.Blank
import ScriptedActors.Text.Caseless
set_option autoImplicit false

/-!
# Values where a truth or a text is wanted
-/
namespace ScriptedActors.Json

def affirmatives : List String := ["true", "yes", "on", "1"]

/-- A value as a truth: a number is true unless it is zero, a text if it means yes. -/
def coerceBool : Json → Bool
  | .bool b => b
  | .int n => n != 0
  | .float x => x != 0
  | .float32 x => x != 0
  | .string s => affirmatives.contains (Text.lower (Text.trim s))
  | _ => false

def coerceText : Json → String
  | .string s => s
  | v => v.compact

end ScriptedActors.Json
