import ScriptedActors.Json.Basic
import ScriptedActors.Location.Basic
set_option autoImplicit false

/-!
# Actions

An action is what one statement of a script asks for. Carrying it out is the business of an
interpreter; here it is only a value, with the category it belongs to.
-/
namespace ScriptedActors

inductive Category where
  | system
  | state
  | parameterizedState
  | collection
  | host
deriving DecidableEq

inductive SelectBy where
  | id
  | uniqueId
deriving DecidableEq

inductive CollectionOp where
  | add
  | remove
deriving DecidableEq

inductive Comparison where
  | eq
  | ne
  | gt
  | ge
  | lt
  | le
deriving DecidableEq

inductive Sender where
  | player
  | operator
  | console
deriving DecidableEq

inductive Action where
  | log (message : String)
  | wait (ticks : UInt64)
  | js (source : String)
  | set (name value : String)
  | get (name : String)
  | run (script : String)
  | check (left : String) (op : Comparison) (right : String)
  | pause
  | terminate
  | respawn
  | destroy
  | remove
  | delete
  | stopMoving
  | sleeping
  | select (value : String) (key : SelectBy)
  | create (id kind : String) (location : Location)
  | look (target : Location) (smooth : Bool)
  | move (target : Location)
  | teleport (target : Location)
  /-- Without a value the tag is removed. -/
  | tag (key : String) (value : Option String)
  | metadata (key : String) (value : Json)
  | animation (name : String)
  | viewer (op : CollectionOp) (player : String)
  | passenger (op : CollectionOp) (uniqueId : String)
  | controller (op : CollectionOp) (name : String)
  /-- Without a value the field is read. -/
  | event (field : String) (value : Option String)
  | listen (event body : String)
  | command (line : String) (sender : Sender)
  | proceed
  | permission (node : String)
  | placeholder (text : String)

def Action.category : Action → Category
  | .log _ | .wait _ | .js _ | .set .. | .get _ | .run _ | .check .. | .pause | .terminate => .system
  | .respawn | .destroy | .remove | .delete | .stopMoving | .sleeping => .state
  | .select .. | .create .. | .look .. | .move _ | .teleport _ | .tag .. | .metadata ..
  | .animation _ => .parameterizedState
  | .viewer .. | .passenger .. | .controller .. => .collection
  | .event .. | .listen .. | .command .. | .proceed | .permission _ | .placeholder _ => .host

end ScriptedActors
