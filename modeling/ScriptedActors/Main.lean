import ScriptedActors.CommandLine.Run
import Std.Time.Format
set_option autoImplicit false

/-!
# The program

The part of the file system that a command is about is read into a file tree, the command is run on
that tree, and what it changed is written back.
-/
namespace ScriptedActors.Program
open CommandLine Text

partial def entriesAt (path : String) (place : Place) : IO (List (Place × FileEntry)) := do
  try
    let real ← IO.FS.realPath path
    if ← real.isDir then
      let below ← (← real.readDir).toList.mapM fun entry =>
        entriesAt (path ++ "/" ++ entry.fileName) (place ++ [Utf8.encode entry.fileName])
      return (place, .directory) :: below.flatten
    else return [(place, .file (← IO.FS.readBinFile path).data.toList)]
  catch _ => return []

def pathOf (place : Place) : String := String.join (place.map fun name => "/" ++ Utf8.decodeLossy name)

def onward (place : Place) (name : FileName) : Place :=
  if name = [] ∨ name = [dot] then place
  else if name = [dot, dot] then place.dropLast
  else place ++ [name]

def above (place : Place) : List Place := (List.range place.length).map fun n => place.take n

def workingDirectory : IO Place := do
  return ((Path.ofText (← IO.FS.realPath ".").toString).segments).foldl onward []

def treeAt (p : Path) : IO FileTree := do
  let tree := FileTree.empty (← workingDirectory)
  let place := p.segments.foldl onward (tree.start p)
  let directories ← (above place).filterM fun place => do
    try (← IO.FS.realPath (pathOf place ++ "/")).isDir catch _ => return false
  return { tree with
    entries := directories.map (fun place => (place, .directory)) ++ (← entriesAt (pathOf place) place) }

/-- Write an entry; a file is written beside its place and moved there. -/
def writeEntry : Place × FileEntry → IO Unit
  | (place, .directory) => IO.FS.createDirAll (pathOf place)
  | (place, .file content) => do
    let temporary := pathOf place ++ ".tmp"
    IO.FS.writeBinFile temporary ⟨content.toArray⟩
    IO.FS.rename temporary (pathOf place)

def writeChanges (before after : FileTree) : IO Unit := do
  for entry in after.entries do
    if entry ∉ before.entries then writeEntry entry
  for (place, _) in before.entries do
    if (after.entry? place).isNone then IO.FS.removeFile (pathOf place)

def now : IO String := do
  let time := Std.Time.DateTime.ofTimestamp (← Std.Time.Timestamp.now) Std.Time.TimeZone.ZoneRules.UTC
  return time.format "uuuu-MM-dd'T'HH:mm:ss.SSSSSSSSSxxx"

def usage : List String :=
  ["usage: marionette [--root ROOT] init [--reload-interval SECONDS] [--enforce-unique-ids]",
    "       marionette [--root ROOT] status | actions | check",
    "       marionette [--root ROOT] parse STATEMENT",
    "       marionette [--root ROOT] codec angle|position|location TEXT"]

def execute (invocation : Invocation) : IO UInt32 := do
  let before ← treeAt invocation.root
  let (outcome, after) := run (← now) invocation before
  writeChanges before after
  for text in outcome.printed do IO.println text
  match outcome.failure with
  | none => return 0
  | some message =>
    IO.eprintln ("Error: " ++ message)
    return 1

end ScriptedActors.Program

/-- Exit with 2 if the arguments make up no command, and with 1 if the command fails. -/
def main (arguments : List String) : IO UInt32 :=
  match ScriptedActors.CommandLine.ofArguments? arguments with
  | none => do
    for line in ScriptedActors.Program.usage do IO.eprintln line
    return 2
  | some invocation => ScriptedActors.Program.execute invocation
