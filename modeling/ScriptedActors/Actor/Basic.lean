import ScriptedActors.Dictionary
import ScriptedActors.Host
import ScriptedActors.Json.Record
import ScriptedActors.Location.Basic
import ScriptedActors.Text.Blank
import ScriptedActors.Text.Caseless
set_option autoImplicit false

/-!
# Actors

An actor is a live entity of the host world. It is torn down through a handle, at most once. Its
viewers are a list without repetitions. Its controllers have names that differ up to ASCII case;
a controller may be one of the built-in ones or be scripted by a list of effects on its actor.
-/
namespace ScriptedActors
open Text

structure EntityKind where
  name : String
deriving DecidableEq

/-- Kinds are written in capitals and without blanks around them. -/
def EntityKind.ofText (text : String) : EntityKind := ⟨upper (trim text)⟩

def EntityKind.toJson (k : EntityKind) : Json := .string k.name

def EntityKind.ofJson (v : Json) : Option EntityKind := (Json.asString v).map .mk

inductive ActorError where
  | construction (kind detail : String)
  | duplicateUniqueId (uniqueId : String)
  | shutDown
  | teardown (uniqueId detail : String)
deriving DecidableEq

def ActorError.message : ActorError → String
  | .construction kind detail => s!"failed to construct actor '{kind}': {detail}"
  | .duplicateUniqueId uniqueId => s!"unique id {uniqueId} is already live"
  | .shutDown => "actor manager is shut down"
  | .teardown uniqueId detail => s!"teardown of actor {uniqueId} failed: {detail}"

inductive TeardownOutcome where
  | done
  | failed (error : ActorError)
  | panicked
deriving DecidableEq

/-- What tears an actor down, given its unique id. -/
abbrev Handle := String → TeardownOutcome

def Handle.idle : Handle := fun _ => .done

inductive Change where
  | location (value : Location)
  | moveTarget (value : Option Location)
  | lookTarget (value : Option Location)
  | moveSpeed (value : Float)
  | fallVelocity (value : Float)
  | sleeping (value : Bool)
  | passengers (names : List String)
  | animation (name : String)
  | tag (key value : String)
  | metadata (key : String) (value : Json)

mutual
inductive Controller where
  | move
  | gravity
  | smoothLook
  | lookAtPlayer (chance : Float)
  | lookAtPlayerAlways
  | randomLookGround (chance : Float)
  | randomStrollLand (chance : Float)
  /-- Has its effects in every tick, or in none. -/
  | scripted (name : String) (runs : Bool) (effects : List Effect)

inductive Effect where
  | attach (controller : Controller)
  | detach (name : String)
  | tick (host : Host) (count : Nat)
  | destroy
  | addViewer (name : String)
  | removeViewer (name : String)
  | change (change : Change)
  | panic
  /-- Has an effect, and goes on if that panics. -/
  | guard (effect : Effect)
end

def Controller.name : Controller → String
  | .move => "Move"
  | .gravity => "Gravity"
  | .smoothLook => "SmoothLook"
  | .lookAtPlayer _ => "LookAtPlayer"
  | .lookAtPlayerAlways => "LookAtPlayerAlways"
  | .randomLookGround _ => "RandomLookGround"
  | .randomStrollLand _ => "RandomStrollLand"
  | .scripted name .. => name

structure ActorState where
  location : Location
  moveTarget : Option Location
  moveSpeed : Float
  lookTarget : Option Location
  fallVelocity : Float
  tags : Dictionary String
  metadata : Dictionary Json
  passengers : List String
  animations : List String
  sleeping : Bool

structure Actor where
  id : String
  uniqueId : String
  kind : EntityKind
  spawn : Location
  viewers : List String
  state : ActorState
  controllers : List Controller
  destroyed : Bool
  handle : Handle
  /-- How often the handle was asked to tear the actor down. -/
  teardowns : Nat

def ActorState.apply (s : ActorState) : Change → ActorState
  | .location value => { s with location := value }
  | .moveTarget value => { s with moveTarget := value }
  | .lookTarget value => { s with lookTarget := value }
  | .moveSpeed value => { s with moveSpeed := value }
  | .fallVelocity value => { s with fallVelocity := value }
  | .sleeping value => { s with sleeping := value }
  | .passengers names => { s with passengers := names }
  | .animation name => { s with animations := s.animations ++ [name] }
  | .tag key value => { s with tags := s.tags.insert key value }
  | .metadata key value => { s with metadata := s.metadata.insert key value }

namespace Actor

def withoutRepeats (names : List String) : List String :=
  names.foldl (fun kept name => if name ∈ kept then kept else kept ++ [name]) []

def defaultSpeed : Float := 0.2

def new (uniqueId : String) (kind : EntityKind) (location : Location) (viewers : List String)
    (handle : Handle) : Actor where
  id := lower kind.name
  uniqueId := uniqueId
  kind := kind
  spawn := location
  viewers := withoutRepeats viewers
  state := ⟨location, none, defaultSpeed, none, 0, [], [], [], [], false⟩
  controllers := []
  destroyed := false
  handle := handle
  teardowns := 0

def addViewer (a : Actor) (name : String) : Bool × Actor :=
  if name ∈ a.viewers then (false, a) else (true, { a with viewers := a.viewers ++ [name] })

def removeViewer (a : Actor) (name : String) : Bool × Actor :=
  let viewers := a.viewers.filter (· != name)
  (viewers.length != a.viewers.length, { a with viewers := viewers })

def change (a : Actor) (c : Change) : Actor := { a with state := a.state.apply c }

def hasController (a : Actor) (name : String) : Bool :=
  a.controllers.any fun c => sameName c.name name

def controllersBut (a : Actor) (name : String) : List Controller :=
  a.controllers.filter fun c => !sameName c.name name

def detach (a : Actor) (name : String) : Bool × Actor :=
  ((a.controllersBut name).length != a.controllers.length,
    { a with controllers := a.controllersBut name })

/-- Put a controller last, in the place of any of its name. -/
def attach (a : Actor) (c : Controller) : Actor :=
  { a with controllers := a.controllersBut c.name ++ [c] }

def controllerNames (a : Actor) : List String := a.controllers.map Controller.name

def teardownError (a : Actor) : ActorError → ActorError
  | .teardown uniqueId detail => .teardown uniqueId detail
  | other => .teardown a.uniqueId other.message

/-- The outcome of destroying the actor: the handle is asked unless it was asked before. -/
def destroyOutcome (a : Actor) : TeardownOutcome :=
  if a.destroyed then .done
  else
    match a.handle a.uniqueId with
    | .failed error => .failed (a.teardownError error)
    | outcome => outcome

def destroy (a : Actor) : Actor :=
  if a.destroyed then a else { a with destroyed := true, teardowns := a.teardowns + 1 }

def teardownLog (a : Actor) : List String := if a.destroyed then [] else [a.uniqueId]

end Actor
end ScriptedActors
