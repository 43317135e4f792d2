import ScriptedActors.Config
import ScriptedActors.Statement.Grammar
set_option autoImplicit false

/-!
# Arguments of the command line

The arguments are an optional root directory, the name of a command, and the options and values of
that command. An argument that starts with a hyphen is an option, unless it is a single hyphen or
stands after `--`. No option may be given twice, and no value of a path may be empty.
-/
namespace ScriptedActors.CommandLine

inductive Shape where
  | angle
  | position
  | location
deriving DecidableEq

inductive Command where
  | init (reloadIntervalSecs : UInt64) (enforceUniqueIds : Bool)
  | status
  | actions
  | parse (statement : String)
  | codec (shape : Shape) (text : String)
  | check
deriving DecidableEq

structure Invocation where
  root : Path
  command : Command
deriving DecidableEq

def Shape.ofName : String → Option Shape
  | "angle" => some .angle
  | "position" => some .position
  | "location" => some .location
  | _ => none

/-- An argument that is not a value. -/
def isOption (argument : String) : Bool :=
  match argument.toList with
  | '-' :: _ :: _ => true
  | _ => false

def after? (start argument : String) : Option String :=
  if start.toList.isPrefixOf argument.toList then
    some (String.ofList (argument.toList.drop start.length))
  else none

/-- The value of an option that is given in the same argument, after an equals sign. -/
def attached? (name argument : String) : Option String := after? (name ++ "=") argument

def values? : List String → Option (List String)
  | [] => some []
  | argument :: rest =>
    if argument = "--" then some rest
    else if isOption argument then none
    else (values? rest).map (argument :: ·)

def seconds? (value : String) : Option UInt64 := (readWord value.toList).map UInt64.ofNat

def init? (interval : Option UInt64) (enforce : Bool) : List String → Option Command
  | [] => some (.init (interval.getD Config.default.reloadIntervalSecs) enforce)
  | "--" :: rest =>
    if rest = [] then some (.init (interval.getD Config.default.reloadIntervalSecs) enforce) else none
  | "--enforce-unique-ids" :: rest => if enforce then none else init? interval true rest
  | "--reload-interval" :: value :: rest =>
    match interval, seconds? value with
    | none, some n => init? (some n) enforce rest
    | _, _ => none
  | argument :: rest =>
    match interval, (attached? "--reload-interval" argument).bind seconds? with
    | none, some n => init? (some n) enforce rest
    | _, _ => none

def bare? (command : Command) (arguments : List String) : Option Command :=
  if values? arguments = some [] then some command else none

def command? (name : String) (arguments : List String) : Option Command :=
  match name with
  | "init" => init? none false arguments
  | "status" => bare? .status arguments
  | "actions" => bare? .actions arguments
  | "check" => bare? .check arguments
  | "parse" =>
    match values? arguments with
    | some [statement] => some (.parse statement)
    | _ => none
  | "codec" =>
    match values? arguments with
    | some [shape, text] => (Shape.ofName shape).map fun shape => .codec shape text
    | _ => none
  | _ => none

def attachedRoot? (argument : String) : Option String :=
  ((attached? "--root" argument).or (attached? "-r" argument)).or
    (if argument = "-r" then none else after? "-r" argument)

/-- A root directory, which may be named only once. -/
def root? (before : Option Path) (value : String) : Option Path :=
  if before.isSome || value = "" then none else some (.ofText value)

def invocation? (root : Option Path) : List String → Option Invocation
  | [] => none
  | [name] => (command? name []).map fun command => ⟨root.getD Config.default.root, command⟩
  | argument :: next :: rest =>
    if argument = "--root" ∨ argument = "-r" then
      if isOption next then none
      else (root? root next).bind fun path => invocation? (some path) rest
    else
      match attachedRoot? argument with
      | some value => (root? root value).bind fun path => invocation? (some path) (next :: rest)
      | none => (command? argument (next :: rest)).map fun command => ⟨root.getD Config.default.root, command⟩

def ofArguments? (arguments : List String) : Option Invocation := invocation? none arguments

end ScriptedActors.CommandLine
