set_option autoImplicit false

/-!
# Reading decimal numbers

A number is an optional sign, digits with at most one point among them, and an optional exponent;
at least one digit stands before the exponent. The words `inf`, `infinity` and `nan` are numbers
too. A number is rounded once, directly to the width that is asked for.
-/
namespace ScriptedActors.Decimal

def digitsOf (cs : List Char) : List Char := cs.takeWhile Char.isDigit

def afterDigits (cs : List Char) : List Char := cs.dropWhile Char.isDigit

def valueOf (digits : List Char) : Nat := digits.foldl (fun n d => 10 * n + (d.toNat - 48)) 0

def signOf : List Char → Bool × List Char
  | '-' :: cs => (true, cs)
  | '+' :: cs => (false, cs)
  | cs => (false, cs)

def readInteger (cs : List Char) : Option Int :=
  let (negative, digits) := signOf cs
  if digits = [] ∨ afterDigits digits ≠ [] then none
  else if negative then some (-(valueOf digits : Int)) else some (valueOf digits)

/-- A number without a sign: `digits` times ten to the power `scale`. -/
structure Numeral where
  digits : Nat
  scale : Int

def readExponent : List Char → Option Int
  | [] => some 0
  | c :: cs => if c = 'e' ∨ c = 'E' then readInteger cs else none

def fractionOf : List Char → List Char × List Char
  | '.' :: cs => (digitsOf cs, afterDigits cs)
  | cs => ([], cs)

/-- Digits with at most one point among them, and an exponent. -/
def Numeral.read (cs : List Char) : Option Numeral :=
  let whole := digitsOf cs
  let (fraction, rest) := fractionOf (afterDigits cs)
  if whole ++ fraction = [] then none
  else (readExponent rest).map fun e => ⟨valueOf (whole ++ fraction), e - fraction.length⟩

def Numeral.toFloat (n : Numeral) : Float :=
  Float.ofScientific n.digits (n.scale < 0) n.scale.natAbs

def Numeral.toFloat32 (n : Numeral) : Float32 :=
  Float32.ofScientific n.digits (n.scale < 0) n.scale.natAbs

inductive Magnitude where
  | numeral (n : Numeral)
  | infinite
  | undefined

def Magnitude.read (cs : List Char) : Option Magnitude :=
  let word := cs.map Char.toLower
  if word = "inf".toList ∨ word = "infinity".toList then some .infinite
  else if word = "nan".toList then some .undefined
  else (Numeral.read cs).map .numeral

def Magnitude.toFloat : Magnitude → Float
  | .numeral n => n.toFloat
  | .infinite => Float.ofBits 0x7FF0000000000000
  | .undefined => Float.ofBits 0x7FF8000000000000

def Magnitude.toFloat32 : Magnitude → Float32
  | .numeral n => n.toFloat32
  | .infinite => Float32.ofBits 0x7F800000
  | .undefined => Float32.ofBits 0x7FC00000

def readFloat (cs : List Char) : Option Float :=
  let (negative, magnitude) := signOf cs
  (Magnitude.read magnitude).map fun m => if negative then -m.toFloat else m.toFloat

def readFloat32 (cs : List Char) : Option Float32 :=
  let (negative, magnitude) := signOf cs
  (Magnitude.read magnitude).map fun m => if negative then -m.toFloat32 else m.toFloat32

end ScriptedActors.Decimal
