set_option autoImplicit false

/-!
# Exact steps between binary numbers and integers

Rounding down, clamping to the range of block coordinates, narrowing to binary32 and the
remainder of an angle are computed on the exact value `± m · 2 ^ e` of a number.
-/
namespace ScriptedActors.Arithmetic
open Float.Model

def floorOf (sign : UnpackedFloat.Sign) (m : Nat) (e : Int) : Int :=
  sign.apply (m <<< e.toNat : Nat) / (1 <<< (-e).toNat : Nat)

/-- The greatest whole number that is at most `x`, with the sign of a zero kept. -/
def floor (x : Float) : Float :=
  match x.toModel.unpack with
  | .finite s m e _ => if 0 ≤ e then x else Float.ofInt (floorOf s m e)
  | _ => x

def minBlock : Int := -2147483648

def maxBlock : Int := 2147483647

def clampBlock (n : Int) : Int := max minBlock (min n maxBlock)

/-- The block coordinate of `x` rounded down; the coordinate of an undefined number is zero. -/
def blockOf (x : Float) : Int :=
  match x.toModel.unpack with
  | .notANumber => 0
  | .infinity .positive => maxBlock
  | .infinity .negative => minBlock
  | .zero _ => 0
  | .finite s m e _ => clampBlock (floorOf s m e)

def float32Of (u : UnpackedFloat) : Float32 := ⟨Float32.Model.pack u⟩

def narrow (x : Float) : Float32 :=
  match x.toModel.unpack with
  | .finite s m e _ => float32Of (UnpackedFloat.round .binary32 s m e)
  | u => float32Of u

def float32OfInt (n : Int) : Float32 := float32Of (UnpackedFloat.ofInt .binary32 n)

/-- What is left of `± m · 2 ^ e` after whole multiples of `modulus` are taken off its size. -/
def remainderOf (sign : UnpackedFloat.Sign) (m : Nat) (e : Int) (modulus : Nat) : Float32 :=
  let unit := min e 0
  let rest := (m <<< (e - unit).toNat) % (modulus <<< (-unit).toNat)
  if rest = 0 then float32Of (.zero sign) else float32Of (UnpackedFloat.round .binary32 sign rest unit)

def remainder (x : Float32) (modulus : Nat) : Float32 :=
  match x.toModel.unpack with
  | .finite s m e _ => remainderOf s m e modulus
  | .zero s => float32Of (.zero s)
  | _ => float32Of .notANumber

/-- The smaller of two numbers; an undefined one gives way. -/
def lesser (x y : Float) : Float := if x.isNaN then y else if y.isNaN then x else if y < x then y else x

end ScriptedActors.Arithmetic
