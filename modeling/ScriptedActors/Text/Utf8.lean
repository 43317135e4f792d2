set_option autoImplicit false

/-!
# Reading bytes as text

Bytes are read from the front. Each piece is a character, or the longest run of bytes that could
have begun one and does not continue: a run cut short by the end of the bytes is incomplete, any
other is invalid.
-/
namespace ScriptedActors.Text.Utf8

inductive Piece where
  | char (c : Char)
  | invalid (bytes : List UInt8)
  | incomplete (bytes : List UInt8)

def continues (b : UInt8) : Bool := 0x80 ≤ b && b ≤ 0xBF

def payload (b : UInt8) : Nat := b.toNat % 64

def secondOfThree (first second : UInt8) : Bool :=
  if first = 0xE0 then 0xA0 ≤ second && second ≤ 0xBF
  else if first = 0xED then 0x80 ≤ second && second ≤ 0x9F
  else continues second

def secondOfFour (first second : UInt8) : Bool :=
  if first = 0xF0 then 0x90 ≤ second && second ≤ 0xBF
  else if first = 0xF4 then 0x80 ≤ second && second ≤ 0x8F
  else continues second

/-- The piece at the front and how many bytes of it stand after its first byte. -/
def front (b : UInt8) (rest : List UInt8) : Piece × Nat :=
  if b < 0x80 then (.char (Char.ofNat b.toNat), 0)
  else if 0xC2 ≤ b && b ≤ 0xDF then
    match rest with
    | [] => (.incomplete [b], 0)
    | c :: _ =>
      if continues c then (.char (Char.ofNat ((b.toNat % 32) * 64 + payload c)), 1)
      else (.invalid [b], 0)
  else if 0xE0 ≤ b && b ≤ 0xEF then
    match rest with
    | [] => (.incomplete [b], 0)
    | c :: rest =>
      if secondOfThree b c then
        match rest with
        | [] => (.incomplete [b, c], 1)
        | d :: _ =>
          if continues d then
            (.char (Char.ofNat ((b.toNat % 16) * 4096 + payload c * 64 + payload d)), 2)
          else (.invalid [b, c], 1)
      else (.invalid [b], 0)
  else if 0xF0 ≤ b && b ≤ 0xF4 then
    match rest with
    | [] => (.incomplete [b], 0)
    | c :: rest =>
      if secondOfFour b c then
        match rest with
        | [] => (.incomplete [b, c], 1)
        | d :: rest =>
          if continues d then
            match rest with
            | [] => (.incomplete [b, c, d], 2)
            | e :: _ =>
              if continues e then
                (.char (Char.ofNat
                  ((b.toNat % 8) * 262144 + payload c * 4096 + payload d * 64 + payload e)), 3)
              else (.invalid [b, c, d], 2)
          else (.invalid [b, c], 1)
      else (.invalid [b], 0)
  else (.invalid [b], 0)

def pieces : List UInt8 → List Piece
  | [] => []
  | b :: rest => (front b rest).1 :: pieces (rest.drop (front b rest).2)
termination_by bytes => bytes.length
decreasing_by
  simp only [List.length_drop, List.length_cons]
  omega

/-- Why bytes are not text: where the first fault stands, and how long it is unless the bytes end
inside it. -/
structure Fault where
  index : Nat
  length : Option Nat

def Fault.message (f : Fault) : String :=
  match f.length with
  | some n => s!"invalid utf-8 sequence of {n} bytes from index {f.index}"
  | none => s!"incomplete utf-8 byte sequence from index {f.index}"

def charactersFrom (index : Nat) : List Piece → Except Fault (List Char)
  | [] => .ok []
  | .char c :: rest => (charactersFrom (index + c.utf8Size) rest).map (c :: ·)
  | .invalid bytes :: _ => .error ⟨index, some bytes.length⟩
  | .incomplete _ :: _ => .error ⟨index, none⟩

def decode (bytes : List UInt8) : Except Fault String :=
  (charactersFrom 0 (pieces bytes)).map String.ofList

def decodeLossy (bytes : List UInt8) : String :=
  String.ofList ((pieces bytes).map fun
    | .char c => c
    | _ => Char.ofNat 0xFFFD)

def encode (s : String) : List UInt8 := s.toUTF8.toList

end ScriptedActors.Text.Utf8
