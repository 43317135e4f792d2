import ScriptedActors.Location.Basic
set_option autoImplicit false

/-!
# The host

What actors may ask the world they live in.
-/
namespace ScriptedActors

structure Host where
  observers : Location → List String
  playerLocation : String → Option Location
  hasDependency : String → Bool
  /-- Whether a block of a world can be stood on. -/
  isSolid : String → Position → Bool

def Host.detached : Host := ⟨fun _ => [], fun _ => none, fun _ => false, fun _ _ => false⟩

end ScriptedActors
