import ScriptedActors.Files.Path
set_option autoImplicit false

/-!
# File trees

A file tree holds directories and files by their places, which are lists of names from the root.
Relative paths start from the working directory. A path is followed name by name; every name but
the last must be one of a directory, and a final slash asks for a directory too. Names and paths
have a greatest length.
-/
namespace ScriptedActors
open Text

abbrev Place := List FileName

inductive FileEntry where
  | directory
  | file (content : List UInt8)
deriving DecidableEq

inductive FileFault where
  | notFound
  | busy
  | exists
  | notDirectory
  | isDirectory
  | nameTooLong
  | invalidName
  | noAncestor
deriving DecidableEq

def FileFault.message : FileFault → String
  | .notFound => "No such file or directory (os error 2)"
  | .busy => "Device or resource busy (os error 16)"
  | .exists => "File exists (os error 17)"
  | .notDirectory => "Not a directory (os error 20)"
  | .isDirectory => "Is a directory (os error 21)"
  | .nameTooLong => "File name too long (os error 36)"
  | .invalidName => "file name contained an unexpected NUL byte"
  | .noAncestor => "failed to create whole tree"

structure FileTree where
  entries : List (Place × FileEntry)
  here : Place

namespace FileTree

def empty (here : Place) : FileTree := ⟨[], here⟩

/-- What stands at a place. The working directory and those it is in are always there. -/
def entry? (t : FileTree) (place : Place) : Option FileEntry :=
  if place.isPrefixOf t.here then some .directory
  else (t.entries.find? fun entry => entry.1 == place).map Prod.snd

def put (t : FileTree) (place : Place) (entry : FileEntry) : FileTree :=
  { t with entries := t.entries.filter (fun e => e.1 != place) ++ [(place, entry)] }

def erase (t : FileTree) (place : Place) : FileTree :=
  { t with entries := t.entries.filter fun e => !place.isPrefixOf e.1 }

def maxName : Nat := 255

def step (t : FileTree) (place : Place) (name : FileName) : Except FileFault Place :=
  match t.entry? place with
  | some .directory =>
    if name = [] ∨ name = [dot] then .ok place
    else if name = [dot, dot] then .ok place.dropLast
    else if maxName < name.length then .error .nameTooLong
    else if (t.entry? (place ++ [name])).isSome then .ok (place ++ [name])
    else .error .notFound
  | _ => .error .notDirectory

def start (t : FileTree) (p : Path) : Place := if p.isAbsolute then [] else t.here

def follow (t : FileTree) : Place → List FileName → Except FileFault Place
  | place, [] => .ok place
  | place, name :: names =>
    match t.step place name with
    | .error fault => .error fault
    | .ok next => t.follow next names

def maxPath : Nat := 4095

def checked (p : Path) : Except FileFault Unit :=
  if (0 : UInt8) ∈ p.bytes then .error .invalidName
  else if maxPath < p.bytes.length then .error .nameTooLong
  else if p.bytes = [] then .error .notFound
  else .ok ()

def resolve (t : FileTree) (p : Path) : Except FileFault Place := do
  checked p
  t.follow (t.start p) p.segments

def lookup (t : FileTree) (p : Path) : Option FileEntry :=
  match t.resolve p with
  | .ok place => t.entry? place
  | .error _ => none

def isFile (t : FileTree) (p : Path) : Bool :=
  match t.lookup p with
  | some (.file _) => true
  | _ => false

def isDirectory (t : FileTree) (p : Path) : Bool := t.lookup p == some .directory

def read (t : FileTree) (p : Path) : Except FileFault (List UInt8) := do
  let place ← t.resolve p
  match t.entry? place with
  | some (.file content) => .ok content
  | _ => .error .isDirectory

/-- The place of a name in the directory that other names lead to; what must not be a name of its
own gives a fault. -/
def placeIn (t : FileTree) (start : Place) (names : List FileName) (name : FileName)
    (fault : FileFault) : Except FileFault Place := do
  let place ← t.follow start names
  match t.entry? place with
  | some .directory =>
    if name = [] ∨ name = [dot] ∨ name = [dot, dot] then .error fault
    else if maxName < name.length then .error .nameTooLong
    else .ok (place ++ [name])
  | _ => .error .notDirectory

def target (t : FileTree) (p : Path) (fault : FileFault) : Except FileFault Place := do
  checked p
  t.placeIn (t.start p) p.segments.dropLast (p.segments.getLast?.getD []) fault

/-- Write a file, in the place of any other. -/
def write (t : FileTree) (p : Path) (content : List UInt8) : Except FileFault FileTree := do
  let place ← t.target p .isDirectory
  match t.entry? place with
  | some .directory => .error .isDirectory
  | _ => .ok (t.put place (.file content))

def withoutFinalSlashes (p : Path) : Path :=
  match (p.bytes.reverse.dropWhile (· == slash)).reverse with
  | [] => ⟨p.bytes.take 1⟩
  | bytes => ⟨bytes⟩

def makeDirectory (t : FileTree) (p : Path) : Except FileFault FileTree := do
  checked p
  let place ← t.target (withoutFinalSlashes p) .exists
  match t.entry? place with
  | some _ => .error .exists
  | none => .ok (t.put place .directory)

def makeAllUpTo : Nat → Path → FileTree → Except FileFault Unit × FileTree
  | 0, _, t => (.error .noAncestor, t)
  | steps + 1, p, t =>
    if p.bytes = [] then (.ok (), t)
    else
      match t.makeDirectory p with
      | .ok t => (.ok (), t)
      | .error .notFound =>
        match p.parent? with
        | none => (.error .noAncestor, t)
        | some parent =>
          match makeAllUpTo steps parent t with
          | (.error fault, t) => (.error fault, t)
          | (.ok (), t) =>
            match t.makeDirectory p with
            | .ok t => (.ok (), t)
            | .error fault => (if t.isDirectory p then .ok () else .error fault, t)
      | .error fault => (if t.isDirectory p then .ok () else .error fault, t)

/-- Make a directory and those it is in; what exists is kept. -/
def makeAll (t : FileTree) (p : Path) : Except FileFault Unit × FileTree :=
  makeAllUpTo (p.bytes.length + 1) p t

def rename (t : FileTree) (source destination : Path) : Except FileFault FileTree := do
  let origin ← t.resolve source
  let place ← t.target destination
    (if destination.bytes.getLast? == some slash then .notDirectory else .busy)
  match t.entry? origin, t.entry? place with
  | some (.file content), some (.file _) => .ok ((t.erase origin).put place (.file content))
  | some (.file content), none => .ok ((t.erase origin).put place (.file content))
  | some (.file _), some .directory => .error .isDirectory
  | _, _ => .error .exists

def remove (t : FileTree) (p : Path) : Except FileFault FileTree := do
  let place ← t.resolve p
  if place.isPrefixOf t.here then .error .busy else .ok (t.erase place)

def list (t : FileTree) (place : Place) : List (FileName × FileEntry) :=
  t.entries.filterMap fun entry =>
    if entry.1.dropLast = place then entry.1.getLast?.map fun name => (name, entry.2) else none

/-- The names and entries of a directory that can be reached through a path to it; the path of a
name in it may be too long. -/
def listAt (t : FileTree) (place : Place) (directory : Path) : List (FileName × FileEntry) :=
  (t.list place).filter fun entry => (t.lookup (directory.join ⟨entry.1⟩)).isSome

end FileTree
end ScriptedActors
