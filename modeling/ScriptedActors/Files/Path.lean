import ScriptedActors.Text.Shown
import ScriptedActors.Text.Utf8
set_option autoImplicit false

/-!
# Paths

A path is a sequence of bytes, cut into segments by slashes. Empty segments and single dots say
nothing, except for a dot in front and the slash of an absolute path. The rest of a name after its
last dot is its extension, unless that dot stands in front.
-/
namespace ScriptedActors
open Text

abbrev FileName := List UInt8

def slash : UInt8 := 47

def dot : UInt8 := 46

structure Path where
  bytes : List UInt8
deriving DecidableEq

def segmentsOf : List UInt8 → List FileName
  | [] => [[]]
  | b :: bs =>
    if b = slash then [] :: segmentsOf bs
    else
      match segmentsOf bs with
      | [] => [[b]]
      | name :: names => (b :: name) :: names

def splitExtension (name : FileName) : FileName × Option (List UInt8) :=
  if name = [dot, dot] ∨ dot ∉ name then (name, none)
  else
    let extension := (name.reverse.takeWhile (· != dot)).reverse
    let stem := name.take (name.length - extension.length - 1)
    if stem = [] then (name, none) else (stem, some extension)

namespace Path

def ofText (s : String) : Path := ⟨Utf8.encode s⟩

/-- The path as text, unless its bytes are none. -/
def text? (p : Path) : Option String := (Utf8.decode p.bytes).toOption

def text (p : Path) : String := Utf8.decodeLossy p.bytes

def byteEscape (b : UInt8) : List Char :=
  ['\\', 'x'] ++ (Nat.toDigits 16 (b.toNat / 16) ++ Nat.toDigits 16 (b.toNat % 16)).map Char.toUpper

def pieceText : Utf8.Piece → List Char
  | .char c => shownChar c
  | .invalid bytes => bytes.flatMap byteEscape
  | .incomplete bytes => bytes.flatMap byteEscape

def quoted (p : Path) : String :=
  String.ofList ('"' :: (Utf8.pieces p.bytes).flatMap pieceText ++ ['"'])

def segments (p : Path) : List FileName := segmentsOf p.bytes

def isAbsolute (p : Path) : Bool := p.bytes.head? == some slash

def ofSegments (names : List FileName) : Path := ⟨[slash].intercalate names⟩

/-- Drop what says nothing from the end of segments, which are given in reverse. The first segment
stays. -/
def trimmed : List FileName → List FileName
  | [] => []
  | [name] => [name]
  | name :: names => if name = [] ∨ name = [dot] then trimmed names else name :: names

def ascending (p : Path) : List FileName := trimmed p.segments.reverse

def join (p q : Path) : Path :=
  if q.isAbsolute then q
  else if p.bytes = [] ∨ p.bytes.getLast? = some slash then ⟨p.bytes ++ q.bytes⟩
  else ⟨p.bytes ++ slash :: q.bytes⟩

def parent? (p : Path) : Option Path :=
  match p.ascending with
  | [] => none
  | [name] => if name = [] then none else some ⟨[]⟩
  | _ :: names =>
    match trimmed names with
    | [[]] => some ⟨[slash]⟩
    | names => some (ofSegments names.reverse)

def fileName? (p : Path) : Option FileName :=
  match p.ascending with
  | [] => none
  | name :: _ => if name = [] ∨ name = [dot] ∨ name = [dot, dot] then none else some name

def extension? (p : Path) : Option (List UInt8) := p.fileName?.bind fun name => (splitExtension name).2

def shortened (p : Path) : Path := ⟨p.bytes.take (p.bytes.length - (p.extension?.getD []).length)⟩

/-- The path up to the stem of its last name and then an extension, or itself if it has no last
name. -/
def extended (p : Path) (extension : String) : Path :=
  match p.fileName?, p.ascending with
  | some name, _ :: names =>
    ofSegments (((splitExtension name).1 ++ dot :: Utf8.encode extension) :: names).reverse
  | _, _ => p

/-- The path with another extension in the place of its own. What is left without its own may have
no last name any more; then it gets no other. -/
def withExtension (p : Path) (extension : String) : Path := p.shortened.extended extension

end Path
end ScriptedActors
