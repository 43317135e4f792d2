set_option autoImplicit false

/-!
# The fewest digits that read back

A positive binary number `m · 2 ^ q` is written with the fewest decimal digits whose nearest
number in its format is that number again. Of two texts of that length the nearer one is taken;
only a tie needs a rule of its own, and that rule is a parameter.
-/
namespace ScriptedActors.Decimal
open Float.Model

/-- A positive decimal number `digits · 10 ^ exponent`. -/
structure Digits where
  digits : Nat
  exponent : Int
deriving DecidableEq

inductive Tie where
  | toEven
  | upward

def nearestBits (format : Format) (d : Digits) : BitVec format.numBits :=
  UnpackedFloat.pack format (UnpackedFloat.ofScientific format d.digits d.exponent)

structure Ratio where
  num : Nat
  den : Nat

def Ratio.ofBinary (m : Nat) (q : Int) : Ratio := ⟨m <<< q.toNat, 1 <<< (-q).toNat⟩

def Ratio.shiftDecimal (r : Ratio) (k : Int) : Ratio :=
  ⟨r.num * Nat.pow 10 (-k).toNat, r.den * Nat.pow 10 k.toNat⟩

def digitCount (n : Nat) : Nat := (Nat.toDigits 10 n).length

def Ratio.leading (r : Ratio) : Int :=
  if r.den ≤ r.num then (digitCount (r.num / r.den) : Int) - 1
  else
    let places := digitCount (r.den / r.num)
    if r.den ≤ r.num * Nat.pow 10 (places - 1) then 1 - (places : Int) else -(places : Int)

/-- Of the two numbers with `n` digits around a fraction, the one to write: it must read back as
the wanted bits, and be the nearer if both do. -/
def Ratio.withDigits {format : Format} (r : Ratio) (wanted : BitVec format.numBits) (tie : Tie)
    (n : Nat) : Option Digits :=
  let exponent := r.leading - n
  let scaled := r.shiftDecimal exponent
  let low := scaled.num / scaled.den
  let twice := 2 * (scaled.num % scaled.den)
  let takeLow :=
    twice < scaled.den || (twice == scaled.den && (match tie with
      | .toEven => low % 2 == 0
      | .upward => false))
  match nearestBits format ⟨low, exponent⟩ == wanted,
      nearestBits format ⟨low + 1, exponent⟩ == wanted with
  | true, true => some ⟨if takeLow then low else low + 1, exponent⟩
  | true, false => some ⟨low, exponent⟩
  | false, true => some ⟨low + 1, exponent⟩
  | false, false => none

def Digits.exact (m : Nat) (q : Int) : Digits :=
  if 0 ≤ q then ⟨m <<< q.toNat, 0⟩ else ⟨m * Nat.pow 5 (-q).toNat, q⟩

def Digits.withoutZeros : Nat → Digits → Digits
  | 0, d => d
  | limit + 1, d =>
    if d.digits % 10 = 0 then withoutZeros limit ⟨d.digits / 10, d.exponent + 1⟩ else d

/-- The fewest digits that read back as `m · 2 ^ q`. Seventeen are enough for binary64. -/
def Digits.shortest (format : Format) (tie : Tie) (m : Nat) (q : Int) (positive : 0 < m) : Digits :=
  let wanted := UnpackedFloat.pack format (.finite .positive m q positive)
  let r := Ratio.ofBinary m q
  let found := (List.range 17).findSome? fun n => r.withDigits wanted tie n
  let d := found.getD (.exact m q)
  d.withoutZeros (digitCount d.digits - 1)

end ScriptedActors.Decimal
