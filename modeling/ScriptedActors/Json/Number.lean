import ScriptedActors.Decimal.Reading
import ScriptedActors.Json.Basic
set_option autoImplicit false

/-!
# Numbers in structured values

A number keeps as many of its digits as 64 bits hold. A digit of the whole part that is not kept
counts as a factor of ten, one of the fraction is dropped. The kept digits become a binary64
number, which is then scaled by a power of ten in that arithmetic, so the result may differ from
the nearest number in its last place. A number too large to be finite is no number.
-/
namespace ScriptedActors.Json
open Decimal

def maxWord : Nat := 0xffffffffffffffff

/-- Digits kept so far and the power of ten they are to be scaled by. -/
structure Kept where
  digits : Nat
  scale : Int

def Kept.fits (k : Kept) (digit : Nat) : Bool := k.digits * 10 + digit ≤ maxWord

def Kept.whole (k : Kept) : List Nat → Kept
  | [] => k
  | d :: ds =>
    if k.fits d then Kept.whole ⟨k.digits * 10 + d, k.scale⟩ ds
    else ⟨k.digits, k.scale + (d :: ds).length⟩

def Kept.fraction (k : Kept) : List Nat → Kept
  | [] => k
  | d :: ds => if k.fits d then Kept.fraction ⟨k.digits * 10 + d, k.scale - 1⟩ ds else k

def powerOfTen (e : Nat) : Float := Float.ofScientific 1 false e

/-- Scale down by steps of at most 308 powers of ten, until nothing is left. -/
def scaleDown (x : Float) (e : Nat) : Float :=
  if e ≤ 308 then x / powerOfTen e
  else if x == 0 then x
  else scaleDown (x / powerOfTen 308) (e - 308)
termination_by e

def scale (x : Float) (e : Int) : Option Float :=
  if e < 0 then some (scaleDown x e.natAbs)
  else if e ≤ 308 then
    let y := x * powerOfTen e.natAbs
    if y.isInf then none else some y
  else if x == 0 then some x else none

structure NumberText where
  negative : Bool
  whole : List Nat
  fraction : Option (List Nat)
  exponent : Option Int

def digitValues (cs : List Char) : List Nat := cs.map fun c => c.toNat - 48

def plainWhole : List Char → Bool
  | [] => false
  | ['0'] => true
  | c :: _ => c != '0'

def fractionText : List Char → Option (Option (List Nat) × List Char)
  | '.' :: cs =>
    if digitsOf cs = [] then none else some (some (digitValues (digitsOf cs)), afterDigits cs)
  | cs => some (none, cs)

def exponentText : List Char → Option (Option Int)
  | [] => some none
  | c :: cs => if c = 'e' ∨ c = 'E' then (readInteger cs).map some else none

def NumberText.read (cs : List Char) : Option NumberText :=
  let negative := cs.head? == some '-'
  let cs := if negative then cs.tail else cs
  let whole := digitsOf cs
  if plainWhole whole then
    match fractionText (afterDigits cs) with
    | none => none
    | some (fraction, rest) =>
      (exponentText rest).map fun e => ⟨negative, digitValues whole, fraction, e⟩
  else none

def NumberText.toFloat (t : NumberText) : Option Float :=
  let kept := Kept.fraction (Kept.whole ⟨0, 0⟩ t.whole) (t.fraction.getD [])
  (scale (Float.ofNat kept.digits) (kept.scale + t.exponent.getD 0)).map fun x =>
    if t.negative then -x else x

/-- The whole number that a number text stands for, if 64 bits hold it; a negative zero is none. -/
def NumberText.toInt (t : NumberText) : Option Int :=
  let n : Nat := t.whole.foldl (fun n d => n * 10 + d) 0
  if t.fraction.isSome || t.exponent.isSome then none
  else if t.negative then
    if 0 < n && n ≤ 0x8000000000000000 then some (-(n : Int)) else none
  else if n ≤ maxWord then some n
  else none

def NumberText.value (t : NumberText) : Option Json :=
  match t.toInt with
  | some n => some (.int n)
  | none => t.toFloat.map .float

end ScriptedActors.Json
