import ScriptedActors.Files.Tree
set_option autoImplicit false

/-!
# Saving files

A file is saved by writing a temporary file beside it, which has the extension `tmp`, and moving
that onto it. Then the directory is opened, to make the move last; a path that names no directory
fails there, after the file was saved.
-/
namespace ScriptedActors

inductive FileError where
  | create (temporary : Path)
  | rename (temporary path : Path)
  | openDirectory (path : Path)
  | read (path : Path)
  | makeDirectory (path : Path)
deriving DecidableEq

def FileError.message : FileError → String
  | .create temporary => s!"Failed to create temp file: {temporary.quoted}"
  | .rename temporary path => s!"Failed to rename {temporary.quoted} to {path.quoted}"
  | .openDirectory path => s!"Failed to open directory: {path.quoted}"
  | .read path => s!"Failed to read file: {path.quoted}"
  | .makeDirectory path => s!"Failed to create directory: {path.quoted}"

namespace FileTree

def canOpen (t : FileTree) (p : Path) : Bool := (t.lookup p).isSome

def openParent (t : FileTree) (p : Path) : Except FileError Unit :=
  match p.parent? with
  | none => .ok ()
  | some parent => if t.canOpen parent then .ok () else .error (.openDirectory parent)

def save (t : FileTree) (p : Path) (content : List UInt8) : Except FileError Unit × FileTree :=
  let temporary := p.withExtension "tmp"
  match t.write temporary content with
  | .error _ => (.error (.create temporary), t)
  | .ok written =>
    match written.rename temporary p with
    | .error _ => (.error (.rename temporary p), written)
    | .ok saved => (saved.openParent p, saved)

def content (t : FileTree) (p : Path) : Except FileError (List UInt8) :=
  match t.read p with
  | .ok content => .ok content
  | .error _ => .error (.read p)

def makeDirectories (t : FileTree) (p : Path) : Except FileError Unit × FileTree :=
  match t.makeAll p with
  | (.ok (), t) => (.ok (), t)
  | (.error _, t) => (.error (.makeDirectory p), t)

end FileTree
end ScriptedActors
