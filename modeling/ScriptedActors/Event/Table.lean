import ScriptedActors.Event.Descriptor
set_option autoImplicit false

/-!
# The known events
-/
namespace ScriptedActors
open Json

abbrev EventTable (τ : Type) [EventFamily τ] := KeywordTable (KnownEvent τ)

namespace EventTable
variable {τ : Type} [EventFamily τ]

def optionalText : Option String → Json
  | none => .null
  | some text => .string text

def passagePlayer : Passage → Json := fun e => .string e.player
def passageMessage : Passage → Json := fun e => optionalText e.message
def setPassageMessage (v : Json) (e : Passage) : Passage := { e with message := some (coerceText v) }

def utterancePlayer : Utterance → Json := fun e => .string e.player
def utteranceMessage : Utterance → Json := fun e => .string e.message
def utteranceCancelled : Utterance → Json := fun e => .bool e.cancelled
def setUtteranceMessage (v : Json) (e : Utterance) : Utterance := { e with message := coerceText v }
def setUtteranceCancelled (v : Json) (e : Utterance) : Utterance := { e with cancelled := coerceBool v }

def handText (e : Interaction) : String := if e.mainHand then "HAND" else "OFF_HAND"

def join : KnownEvent τ :=
  ⟨.playerJoin, [⟨"player", passagePlayer, none⟩, ⟨"message", passageMessage, some setPassageMessage⟩]⟩

def quit : KnownEvent τ :=
  ⟨.playerQuit, [⟨"player", passagePlayer, none⟩, ⟨"message", passageMessage, some setPassageMessage⟩]⟩

def chat : KnownEvent τ :=
  ⟨.playerChat,
    [⟨"player", utterancePlayer, none⟩, ⟨"message", utteranceMessage, some setUtteranceMessage⟩,
      ⟨"cancelled", utteranceCancelled, some setUtteranceCancelled⟩]⟩

def command : KnownEvent τ :=
  ⟨.playerCommand,
    [⟨"player", utterancePlayer, none⟩, ⟨"command", utteranceMessage, some setUtteranceMessage⟩,
      ⟨"cancelled", utteranceCancelled, some setUtteranceCancelled⟩]⟩

def damage : KnownEvent τ :=
  ⟨.actorDamage,
    [⟨"player", fun (e : Damage) => .string e.player, none⟩,
      ⟨"id", fun (e : Damage) => .string e.id, none⟩,
      ⟨"uniqueId", fun (e : Damage) => .string e.uniqueId, none⟩,
      ⟨"cancelled", fun (e : Damage) => .bool e.cancelled,
        some fun v (e : Damage) => { e with cancelled := coerceBool v }⟩]⟩

def interact : KnownEvent τ :=
  ⟨.actorInteract,
    [⟨"player", fun (e : Interaction) => .string e.player, none⟩,
      ⟨"id", fun (e : Interaction) => .string e.id, none⟩,
      ⟨"uniqueId", fun (e : Interaction) => .string e.uniqueId, none⟩,
      ⟨"action", fun (e : Interaction) => .string (handText e), none⟩,
      ⟨"cancelled", fun (e : Interaction) => .bool e.cancelled,
        some fun v (e : Interaction) => { e with cancelled := coerceBool v }⟩]⟩

def vocabulary : List (String × KnownEvent τ) :=
  [("join", join), ("quit", quit), ("chat", chat), ("command", command), ("npc_damage", damage),
    ("npc_interact", interact)]

def empty : EventTable τ := KeywordTable.empty "event"

def builtin : EventTable τ := empty.registerAll vocabulary

def resolveEvent (table : EventTable τ) (name : String) : Except LookupError (KnownEvent τ) :=
  match table.resolve name with
  | some known => .ok known
  | none => .error (.event name)

end EventTable
end ScriptedActors
