import ScriptedActors.Event.Basic
import ScriptedActors.Json.Coercion
import ScriptedActors.KeywordTable
set_option autoImplicit false

/-!
# Events as scripts see them

A known event gives names to what scripts may read and write of the events of one type. A name
means the first field that has it, up to ASCII case. An unknown field is reported first, then a
field that cannot be written, and last an event of another type.
-/
namespace ScriptedActors
open Text

structure EventField {τ : Type} [EventFamily τ] (t : EventType τ) where
  name : String
  get : t.Data → Json
  set : Option (Json → t.Data → t.Data)

structure KnownEvent (τ : Type) [EventFamily τ] where
  type : EventType τ
  fields : List (EventField type)

inductive FieldError where
  | unknown (event field : String)
  | readOnly (event field : String)
  | typeMismatch (expected found : String)
deriving DecidableEq

def FieldError.message : FieldError → String
  | .unknown event field => s!"event '{event}' has no field '{field}'"
  | .readOnly event field => s!"field '{field}' of event '{event}' is read-only"
  | .typeMismatch expected found => s!"expected a {expected} instance, got {found}"

namespace KnownEvent
variable {τ : Type} [EventFamily τ]

def field? (known : KnownEvent τ) (name : String) : Option (EventField known.type) :=
  known.fields.find? fun field => sameName field.name name

def fieldNames (known : KnownEvent τ) : List String := known.fields.map fun field => field.name

def isWritable (known : KnownEvent τ) (name : String) : Bool :=
  (known.field? name).any fun field => field.set.isSome

def read (known : KnownEvent τ) (event : HostEvent τ) (name : String) : Except FieldError Json :=
  match known.field? name with
  | none => .error (.unknown known.type.name name)
  | some field =>
    match event.dataAs? known.type with
    | none => .error (.typeMismatch known.type.name event.type.name)
    | some data => .ok (field.get data)

/-- Write to a field of an event in its place: the answer, and the event as it is then. -/
def assign (known : KnownEvent τ) (event : HostEvent τ) (name : String) (value : Json) :
    Except FieldError Unit × HostEvent τ :=
  match known.field? name with
  | none => (.error (.unknown known.type.name name), event)
  | some field =>
    match field.set with
    | none => (.error (.readOnly known.type.name field.name), event)
    | some set =>
      match event.update known.type (set value) with
      | (true, after) => (.ok (), after)
      | (false, after) => (.error (.typeMismatch known.type.name event.type.name), after)

def write (known : KnownEvent τ) (event : HostEvent τ) (name : String) (value : Json) :
    Except FieldError (HostEvent τ) :=
  match known.assign event name value with
  | (.ok (), after) => .ok after
  | (.error error, _) => .error error

end KnownEvent
end ScriptedActors
