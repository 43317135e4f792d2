set_option autoImplicit false

/-!
# Events of the host

What the host reports about its players and actors, and whatever else it reports. Each type of event
has its own data.
-/
namespace ScriptedActors

/-- The types of events that a host has of its own. -/
class EventFamily (τ : Type) where
  [decEq : DecidableEq τ]
  name : τ → String
  Data : τ → Type

attribute [reducible, instance] EventFamily.decEq

instance : EventFamily Empty := ⟨nofun, nofun⟩

inductive EventType (τ : Type) where
  | playerJoin
  | playerQuit
  | playerChat
  | playerCommand
  | actorDamage
  | actorInteract
  | own (type : τ)
deriving DecidableEq

/-- A player comes or goes; the message is what the others are told. -/
structure Passage where
  player : String
  message : Option String
deriving DecidableEq

structure Utterance where
  player : String
  message : String
  cancelled : Bool
deriving DecidableEq

structure Damage where
  player : String
  id : String
  uniqueId : String
  cancelled : Bool
deriving DecidableEq

structure Interaction where
  player : String
  id : String
  uniqueId : String
  mainHand : Bool
  cancelled : Bool
deriving DecidableEq

section
variable {τ : Type} [EventFamily τ]

def EventType.name : EventType τ → String
  | .playerJoin => "PlayerJoinEvent"
  | .playerQuit => "PlayerQuitEvent"
  | .playerChat => "PlayerChatEvent"
  | .playerCommand => "PlayerCommandEvent"
  | .actorDamage => "ActorDamageEvent"
  | .actorInteract => "ActorInteractEvent"
  | .own type => EventFamily.name type

def EventType.Data : EventType τ → Type
  | .playerJoin => Passage
  | .playerQuit => Passage
  | .playerChat => Utterance
  | .playerCommand => Utterance
  | .actorDamage => Damage
  | .actorInteract => Interaction
  | .own type => EventFamily.Data type

end

structure HostEvent (τ : Type) [EventFamily τ] where
  type : EventType τ
  data : type.Data

namespace HostEvent
variable {τ : Type} [EventFamily τ]

def dataAs? (e : HostEvent τ) (t : EventType τ) : Option t.Data :=
  if h : e.type = t then some (h ▸ e.data) else none

/-- Change an event if it is of a type. The first part says whether it is. -/
def update (e : HostEvent τ) (t : EventType τ) (change : t.Data → t.Data) : Bool × HostEvent τ :=
  match e.dataAs? t with
  | some data => (true, ⟨t, change data⟩)
  | none => (false, e)

theorem dataAs?_self (t : EventType τ) (d : t.Data) : (HostEvent.mk t d).dataAs? t = some d := by
  simp [dataAs?]

theorem dataAs?_of_ne {e : HostEvent τ} {t : EventType τ} (h : e.type ≠ t) : e.dataAs? t = none := by
  rw [dataAs?, dif_neg h]

theorem update_self (t : EventType τ) (d : t.Data) (change : t.Data → t.Data) :
    (HostEvent.mk t d).update t change = (true, ⟨t, change d⟩) := by
  rw [update, dataAs?_self]

theorem update_of_ne {e : HostEvent τ} {t : EventType τ} (h : e.type ≠ t) (change : t.Data → t.Data) :
    e.update t change = (false, e) := by
  rw [update, dataAs?_of_ne h]

end HostEvent
end ScriptedActors
