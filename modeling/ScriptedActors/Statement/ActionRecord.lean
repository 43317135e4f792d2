import ScriptedActors.Json.Printer
import ScriptedActors.Location.Record
import ScriptedActors.Statement.Action
set_option autoImplicit false

/-!
# Actions as records

A stored action is an object whose member `action` names the kind of action and whose other
members are its fields. It is also read from an array that begins with the name. Each enumerated
field is stored by a name in lower case.
-/
namespace ScriptedActors
open Json

def named {α : Type} (names : List (String × α)) (name : String) : Option α :=
  (names.find? fun entry => entry.1 == name).map Prod.snd

namespace Category

def name : Category → String
  | .system => "system"
  | .state => "state"
  | .parameterizedState => "parameterized_state"
  | .collection => "collection"
  | .host => "host"

def title : Category → String
  | .system => "System"
  | .state => "State"
  | .parameterizedState => "ParameterizedState"
  | .collection => "Collection"
  | .host => "Host"

def names : List (String × Category) :=
  [system, state, parameterizedState, collection, host].map fun c => (c.name, c)

def ofJson (v : Json) : Option Category := (asName v).bind (named names)

end Category

namespace SelectBy

def name : SelectBy → String
  | .id => "id"
  | .uniqueId => "unique_id"

def names : List (String × SelectBy) := [id, uniqueId].map fun s => (s.name, s)

def ofField (v : Json) : Option SelectBy := (asFieldName v).bind (named names)

end SelectBy

namespace CollectionOp

def name : CollectionOp → String
  | .add => "add"
  | .remove => "remove"

def names : List (String × CollectionOp) := [add, remove].map fun o => (o.name, o)

def ofField (v : Json) : Option CollectionOp := (asFieldName v).bind (named names)

end CollectionOp

namespace Comparison

def name : Comparison → String
  | .eq => "eq"
  | .ne => "ne"
  | .gt => "gt"
  | .ge => "ge"
  | .lt => "lt"
  | .le => "le"

def names : List (String × Comparison) := [eq, ne, gt, ge, lt, le].map fun c => (c.name, c)

def ofJson (v : Json) : Option Comparison := (asName v).bind (named names)

def ofField (v : Json) : Option Comparison := (asFieldName v).bind (named names)

end Comparison

namespace Sender

def name : Sender → String
  | .player => "player"
  | .operator => "operator"
  | .console => "console"

def names : List (String × Sender) := [player, operator, console].map fun s => (s.name, s)

def ofField (v : Json) : Option Sender := (asFieldName v).bind (named names)

end Sender

def ofText? : Option String → Json
  | none => .null
  | some text => .string text

namespace Action

def name : Action → String
  | .log _ => "log"
  | .wait _ => "wait"
  | .js _ => "js"
  | .set .. => "set"
  | .get _ => "get"
  | .run _ => "run"
  | .check .. => "check"
  | .pause => "pause"
  | .terminate => "terminate"
  | .respawn => "respawn"
  | .destroy => "destroy"
  | .remove => "remove"
  | .delete => "delete"
  | .stopMoving => "stop_moving"
  | .sleeping => "sleeping"
  | .select .. => "select"
  | .create .. => "create"
  | .look .. => "look"
  | .move _ => "move"
  | .teleport _ => "teleport"
  | .tag .. => "tag"
  | .metadata .. => "meta"
  | .animation _ => "animation"
  | .viewer .. => "viewer"
  | .passenger .. => "passenger"
  | .controller .. => "controller"
  | .event .. => "event"
  | .listen .. => "listen"
  | .command .. => "command"
  | .proceed => "continue"
  | .permission _ => "permission"
  | .placeholder _ => "placeholder"

def members : Action → List (String × Json)
  | .log message => [("message", .string message)]
  | .wait ticks => [("ticks", .int ticks.toNat)]
  | .js source => [("source", .string source)]
  | .set name value => [("variable", .string name), ("value", .string value)]
  | .get name => [("variable", .string name)]
  | .run script => [("script", .string script)]
  | .check left op right =>
    [("left", .string left), ("op", .string op.name), ("right", .string right)]
  | .select value key => [("value", .string value), ("by", .string key.name)]
  | .create id kind location =>
    [("id", .string id), ("kind", .string kind), ("location", location.toJson)]
  | .look target smooth => [("target", target.toJson), ("smooth", .bool smooth)]
  | .move target => [("target", target.toJson)]
  | .teleport target => [("target", target.toJson)]
  | .tag key value => [("key", .string key), ("value", ofText? value)]
  | .metadata key value => [("key", .string key), ("value", value)]
  | .animation name => [("name", .string name)]
  | .viewer op player => [("op", .string op.name), ("player", .string player)]
  | .passenger op uniqueId => [("op", .string op.name), ("unique_id", .string uniqueId)]
  | .controller op name => [("op", .string op.name), ("name", .string name)]
  | .event field value => [("field", .string field), ("value", ofText? value)]
  | .listen name body => [("event", .string name), ("body", .string body)]
  | .command line sender => [("line", .string line), ("sender", .string sender.name)]
  | .permission node => [("node", .string node)]
  | .placeholder text => [("text", .string text)]
  | .pause | .terminate | .respawn | .destroy | .remove | .delete | .stopMoving | .sleeping
  | .proceed => []

def toJson (a : Action) : Json := .object (("action", .string a.name) :: a.members)

/-- Read the fields of an action without fields: those of an array must be absent. -/
def bare (action : Action) : Json → Option Action
  | .object _ => some action
  | .array [] => some action
  | _ => none

def ofOne {α : Type} (field : String) (read : Json → Option α) (make : α → Action) (v : Json) :
    Option Action := do
  match ← fields [field] v with
  | [a] => return make (← required read a)
  | _ => none

def ofTwo {α β : Type} (first second : String) (readFirst : Json → Option α)
    (readSecond : Option Json → Option β) (make : α → β → Action) (v : Json) : Option Action := do
  match ← fields [first, second] v with
  | [a, b] => return make (← required readFirst a) (← readSecond b)
  | _ => none

def ofThree {α β γ : Type} (first second third : String) (readFirst : Json → Option α)
    (readSecond : Json → Option β) (readThird : Json → Option γ) (make : α → β → γ → Action)
    (v : Json) : Option Action := do
  match ← fields [first, second, third] v with
  | [a, b, c] => return make (← required readFirst a) (← required readSecond b) (← required readThird c)
  | _ => none

def ofFields (v : Json) : String → Option Action
  | "log" => ofOne "message" asString .log v
  | "wait" => ofOne "ticks" asWord .wait v
  | "js" => ofOne "source" asString .js v
  | "set" => ofTwo "variable" "value" asString (required asString) .set v
  | "get" => ofOne "variable" asString .get v
  | "run" => ofOne "script" asString .run v
  | "check" => ofThree "left" "op" "right" asString Comparison.ofField asString .check v
  | "pause" => bare .pause v
  | "terminate" => bare .terminate v
  | "respawn" => bare .respawn v
  | "destroy" => bare .destroy v
  | "remove" => bare .remove v
  | "delete" => bare .delete v
  | "stop_moving" => bare .stopMoving v
  | "sleeping" => bare .sleeping v
  | "select" => ofTwo "value" "by" asString (required SelectBy.ofField) .select v
  | "create" => ofThree "id" "kind" "location" asString asString Location.ofJson .create v
  | "look" => ofTwo "target" "smooth" Location.ofJson (required asBool) .look v
  | "move" => ofOne "target" Location.ofJson .move v
  | "teleport" => ofOne "target" Location.ofJson .teleport v
  | "tag" => ofTwo "key" "value" asString (nullable asString) .tag v
  | "meta" => ofTwo "key" "value" asString (required fun w => some w.settled) .metadata v
  | "animation" => ofOne "name" asString .animation v
  | "viewer" => ofTwo "op" "player" CollectionOp.ofField (required asString) .viewer v
  | "passenger" => ofTwo "op" "unique_id" CollectionOp.ofField (required asString) .passenger v
  | "controller" => ofTwo "op" "name" CollectionOp.ofField (required asString) .controller v
  | "event" => ofTwo "field" "value" asString (nullable asString) .event v
  | "listen" => ofTwo "event" "body" asString (required asString) .listen v
  | "command" => ofTwo "line" "sender" asString (required Sender.ofField) .command v
  | "continue" => bare .proceed v
  | "permission" => ofOne "node" asString .permission v
  | "placeholder" => ofOne "text" asString .placeholder v
  | _ => none

def ofJson : Json → Option Action
  | .object members =>
    match valuesOf "action" members with
    | [.string name] => ofFields (.object (members.filter fun member => member.1 != "action")) name
    | _ => none
  | .array (.string name :: items) => ofFields (.array items) name
  | _ => none

def text (a : Action) : String := "[" ++ a.category.title ++ "] " ++ a.toJson.pretty

end Action
end ScriptedActors
