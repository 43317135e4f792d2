import ScriptedActors.Decimal.Shortest
set_option autoImplicit false

/-!
# Ways to write a number

All of them write the fewest digits that read back. They differ in where positional writing ends,
in whether a whole number keeps a point, in the sign of a positive exponent, and in ties.
-/
namespace ScriptedActors.Decimal
open Float.Model

structure Style where
  /-- Whether a number is written without an exponent, by the power of ten of its first digit. -/
  positional : Int → Bool
  /-- Whether a whole number keeps a point and a zero. -/
  keepsPoint : Bool
  signsExponent : Bool
  tie : Tie

def Style.plain : Style := ⟨fun _ => true, false, false, .upward⟩

def Style.report : Style := ⟨fun e => -4 ≤ e && e < 16, true, false, .upward⟩

def Style.data : Style := ⟨fun e => -5 ≤ e && e < 16, true, true, .toEven⟩

def Style.narrowData : Style := { Style.data with positional := fun e => -6 ≤ e && e < 13 }

def positionalText (keepsPoint : Bool) (digits : List Char) (place : Int) : List Char :=
  if place ≤ 0 then '0' :: '.' :: List.replicate (-place).toNat '0' ++ digits
  else if digits.length ≤ place.toNat then
    digits ++ List.replicate (place.toNat - digits.length) '0' ++
      (if keepsPoint then ['.', '0'] else [])
  else digits.take place.toNat ++ '.' :: digits.drop place.toNat

def scientificText (signsExponent : Bool) (digits : List Char) (exponent : Int) : List Char :=
  let mantissa :=
    match digits with
    | first :: second :: rest => first :: '.' :: second :: rest
    | _ => digits
  let sign := if exponent < 0 then ['-'] else if signsExponent then ['+'] else []
  mantissa ++ 'e' :: sign ++ Nat.toDigits 10 exponent.natAbs

def Style.magnitude (style : Style) (d : Digits) : List Char :=
  let digits := Nat.toDigits 10 d.digits
  let leading := d.exponent + digits.length - 1
  if style.positional leading then positionalText style.keepsPoint digits (leading + 1)
  else scientificText style.signsExponent digits leading

def signText : UnpackedFloat.Sign → List Char
  | .negative => ['-']
  | .positive => []

def Style.text (style : Style) (format : Format) : UnpackedFloat → List Char
  | .notANumber => "NaN".toList
  | .infinity s => signText s ++ "inf".toList
  | .zero s => signText s ++ '0' :: (if style.keepsPoint then ['.', '0'] else [])
  | .finite s m q h => signText s ++ style.magnitude (.shortest format style.tie m q h)

def Style.float (style : Style) (x : Float) : String :=
  String.ofList (style.text .binary64 x.toModel.unpack)

def Style.float32 (style : Style) (x : Float32) : String :=
  String.ofList (style.text .binary32 x.toModel.unpack)

end ScriptedActors.Decimal
