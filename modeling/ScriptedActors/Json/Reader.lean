import ScriptedActors.Json.Token
set_option autoImplicit false

/-!
# Reading structured values

Tokens are read with a stack of the arrays and objects that are still open. At most 127 of them
may be open at once. A text is one value and nothing else.

The members of the outermost object may be ignored by their keys. An ignored member need not have
a value and may hold any number of open arrays and objects.
-/
namespace ScriptedActors.Json

/-- How many arrays and objects may be open at once. -/
def maxDepth : Nat := 127

/-- An open array or object, with what it holds so far in reverse; an object also has the key
whose value is read. -/
inductive Frame where
  | array (items : List Json)
  | object (members : List (String × Json)) (key : String)

inductive Expected where
  | value
  | itemOrEnd
  | keyOrEnd
  | key
  | colon
  | commaOrEnd
  | nothing (value : Json)

structure Reader where
  frames : List Frame
  expected : Expected

namespace Reader

def complete (value : Json) : List Frame → Reader
  | [] => ⟨[], .nothing value⟩
  | .array items :: frames => ⟨.array (value :: items) :: frames, .commaOrEnd⟩
  | .object members key :: frames => ⟨.object ((key, value) :: members) key :: frames, .commaOrEnd⟩

def isIgnored (ignores : String → Bool) : List Frame → Bool
  | [] => false
  | [.object _ key] => ignores key
  | _ :: frames => isIgnored ignores frames

def enter (ignores : String → Bool) (frames : List Frame) (frame : Frame) (expected : Expected) :
    Option Reader :=
  if frames.length < maxDepth || isIgnored ignores frames then some ⟨frame :: frames, expected⟩
  else none

/-- Put a leaf in its place; an ignored one without a value is null. -/
def leaf (ignores : String → Bool) (frames : List Frame) (v : Option Json) : Option Reader :=
  match v with
  | some v => some (complete v frames)
  | none => if isIgnored ignores frames then some (complete .null frames) else none

def value (ignores : String → Bool) (frames : List Frame) : Token → Option Reader
  | .scalar v => leaf ignores frames v
  | .string s => leaf ignores frames (s.map .string)
  | .beginArray => enter ignores frames (.array []) .itemOrEnd
  | .beginObject => enter ignores frames (.object [] "") .keyOrEnd
  | _ => none

def close : List Frame → Token → Option Reader
  | .array items :: frames, .endArray => some (complete (.array items.reverse) frames)
  | .object members _ :: frames, .endObject => some (complete (.object members.reverse) frames)
  | _, _ => none

def key (ignores : String → Bool) : List Frame → Token → Option Reader
  | .object members _ :: frames, .string (some k) => some ⟨.object members k :: frames, .colon⟩
  | .object members _ :: frames, .string none =>
    if isIgnored ignores frames then some ⟨.object members "" :: frames, .colon⟩ else none
  | _, _ => none

def comma : List Frame → Token → Option Reader
  | .array items :: frames, .comma => some ⟨.array items :: frames, .value⟩
  | .object members k :: frames, .comma => some ⟨.object members k :: frames, .key⟩
  | _, _ => none

def step (ignores : String → Bool) (r : Reader) (t : Token) : Option Reader :=
  match r.expected with
  | .value => value ignores r.frames t
  | .itemOrEnd => (close r.frames t).or (value ignores r.frames t)
  | .keyOrEnd => (close r.frames t).or (key ignores r.frames t)
  | .key => key ignores r.frames t
  | .colon =>
    match t with
    | .colon => some ⟨r.frames, .value⟩
    | _ => none
  | .commaOrEnd => (close r.frames t).or (comma r.frames t)
  | .nothing _ => none

def finish (r : Reader) : Option Json :=
  match r.expected with
  | .nothing v => some v
  | _ => none

end Reader

def ofTokens? (ignores : String → Bool) (tokens : List Token) : Option Json :=
  (tokens.foldlM (Reader.step ignores) ⟨[], .value⟩).bind Reader.finish

def read? (text : String) : Option Json := (tokens? text.toList).bind (ofTokens? fun _ => false)

/-- Read a text as a value of which, if it is an object, only members with certain keys count. -/
def readRecord? (names : List String) (text : String) : Option Json :=
  (tokens? text.toList).bind (ofTokens? fun key => !names.contains key)

def readStored? (names : List String) (bytes : List UInt8) : Option Json :=
  (tokensOfBytes? bytes).bind (ofTokens? fun key => !names.contains key)

end ScriptedActors.Json
