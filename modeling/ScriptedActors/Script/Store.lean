import ScriptedActors.Files.Tree
import ScriptedActors.Script.Statements
set_option autoImplicit false

/-!
# Stored scripts

A directory stores one script in each file with the extension `ms`, in any case. The script has
the name of the file without the extension and its text as body. Scripts are loaded in the order of
the bytes of their file names, whatever the order in which the directory lists them.
-/
namespace ScriptedActors
open Text

inductive StorageError where
  | notInitialised (path : Path)
  | malformedScript (path : Path) (detail : String)
  | io (fault : FileFault)
deriving DecidableEq

def StorageError.message : StorageError → String
  | .notInitialised path => s!"Storage not initialised: {path.text}"
  | .malformedScript path detail => s!"Malformed script {path.text}: {detail}"
  | .io fault => s!"IO error: {fault.message}"

def lowerByte (b : UInt8) : UInt8 := if 65 ≤ b ∧ b ≤ 90 then b + 32 else b

def scriptExtension : List UInt8 := Utf8.encode "ms"

def isScriptName (name : FileName) : Bool :=
  (splitExtension name).2.any fun extension => extension.map lowerByte == scriptExtension

def nameLe : FileName → FileName → Bool
  | [], _ => true
  | _ :: _, [] => false
  | a :: as, b :: bs => a < b || (a == b && nameLe as bs)

structure ScriptFile where
  name : FileName
  content : List UInt8

namespace ScriptFile

def ofEntry? : FileName × FileEntry → Option ScriptFile
  | (name, .file content) => if isScriptName name then some ⟨name, content⟩ else none
  | (_, .directory) => none

def read (directory : Path) (f : ScriptFile) : Except StorageError Script :=
  let path := directory.join ⟨f.name⟩
  match Utf8.decode f.content with
  | .error fault => .error (.malformedScript path fault.message)
  | .ok body =>
    match Utf8.decode (splitExtension f.name).1 with
    | .error _ => .error (.malformedScript path "file name is not valid UTF-8")
    | .ok name => .ok (.ofText name body)

def inOrder (files : List ScriptFile) : List ScriptFile := files.mergeSort fun a b => nameLe a.name b.name

end ScriptFile

def scriptsOf (directory : Path) (entries : List (FileName × FileEntry)) :
    Except StorageError (List Script) :=
  (ScriptFile.inOrder (entries.filterMap ScriptFile.ofEntry?)).mapM (ScriptFile.read directory)

namespace FileTree

def makeStore (t : FileTree) (directory : Path) : Except StorageError Unit × FileTree :=
  match t.makeAll directory with
  | (.ok (), t) => (.ok (), t)
  | (.error fault, t) => (.error (.io fault), t)

def loadScripts (t : FileTree) (directory : Path) : Except StorageError (List Script) :=
  match t.resolve directory with
  | .error _ => .error (.notInitialised directory)
  | .ok place =>
    match t.entry? place with
    | some .directory => scriptsOf directory (t.listAt place directory)
    | _ => .error (.notInitialised directory)

def openStore (t : FileTree) (directory : Path) : Except StorageError (List Script) × FileTree :=
  match t.makeStore directory with
  | (.error e, t) => (.error e, t)
  | (.ok (), t) => (t.loadScripts directory, t)

end FileTree
end ScriptedActors
