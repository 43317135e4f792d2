import ScriptedActors.Location.Basic
import ScriptedActors.Proofs.Decimal.Ordering

set_option autoImplicit false

/-!
# Distances have a positive sign

A distance is the root of a sum of squares. Unless it is undefined it has a positive sign, also
where it is zero; so distances within a bound are ordered as their bits are.
-/
namespace ScriptedActors
open Float.Model UnpackedFloat Decimal

variable {spec : Format} {u v : UnpackedFloat}

def IsUnsigned (u : UnpackedFloat) : Prop := u = .notANumber ∨ IsPositive u

namespace IsUnsigned

theorem roundWithAccuracy (m : Nat) (e : Int) (accuracy : Accuracy) :
    IsUnsigned (roundWithAccuracy spec .positive m e accuracy) := by
  refine .inr ?_
  simp only [UnpackedFloat.roundWithAccuracy]
  split <;> rfl

theorem normalize {m : Int} (hm : 0 ≤ m) (e : Int) : IsUnsigned (normalize spec m e .positive) := by
  rw [UnpackedFloat.normalize]
  split
  · rename_i hlt
    exact absurd (Int.compare_eq_lt.mp hlt) (not_lt.mpr hm)
  · exact .inr rfl
  · exact roundWithAccuracy _ _ _

theorem mul_self (u : UnpackedFloat) : IsUnsigned (mul spec u u) := by
  have hsign (s : Sign) : s * s = .positive := by cases s <;> rfl
  cases u with
  | notANumber => exact .inl rfl
  | infinity s => exact .inr (hsign s)
  | zero s => exact .inr (hsign s)
  | finite s m e h =>
    rw [UnpackedFloat.mul, hsign]
    exact roundWithAccuracy _ _ _

theorem add (hu : IsUnsigned u) (hv : IsUnsigned v) : IsUnsigned (add spec u v) := by
  rcases hu with rfl | hu
  · exact .inl rfl
  rcases hv with rfl | hv
  · exact .inl (by cases u <;> rfl)
  cases u with
  | notANumber => exact hu.elim
  | infinity s =>
    obtain rfl : s = .positive := hu
    cases v with
    | notANumber => exact hv.elim
    | infinity t =>
      obtain rfl : t = .positive := hv
      exact .inr rfl
    | zero t => exact .inr rfl
    | finite t n f k => exact .inr rfl
  | zero s =>
    obtain rfl : s = .positive := hu
    cases v with
    | notANumber => exact hv.elim
    | infinity t => exact .inr hv
    | zero t =>
      obtain rfl : t = .positive := hv
      exact .inr rfl
    | finite t n f k => exact .inr hv
  | finite s m e h =>
    obtain rfl : s = .positive := hu
    cases v with
    | notANumber => exact hv.elim
    | infinity t => exact .inr hv
    | zero t => exact .inr rfl
    | finite t n f k =>
      obtain rfl : t = .positive := hv
      exact normalize (Int.add_nonneg (Int.natCast_nonneg _) (Int.natCast_nonneg _)) _

theorem sqrt (hu : IsUnsigned u) : IsUnsigned (sqrt spec u) := by
  rcases hu with rfl | hu
  · exact .inl rfl
  cases u with
  | notANumber => exact hu.elim
  | infinity s =>
    obtain rfl : s = .positive := hu
    exact .inr rfl
  | zero s => exact .inr hu
  | finite s m e h =>
    obtain rfl : s = .positive := hu
    exact roundWithAccuracy _ _ _

theorem unpack {b : BitVec spec.numBits} (hb : unpackSign b = Sign.toBitVec .positive) :
    IsUnsigned (UnpackedFloat.unpack spec b) := by
  have hsign : Sign.ofBitVec (unpackSign b) = .positive := by rw [hb, ofBitVec_toBitVec]
  simp only [UnpackedFloat.unpack, hsign]
  split
  · split
    · exact .inr rfl
    · exact .inl rfl
  · split
    · split
      · exact .inr rfl
      · exact .inr rfl
    · exact .inr rfl

theorem unpackSign_pack (hu : IsUnsigned u) :
    unpackSign (UnpackedFloat.pack spec u) = Sign.toBitVec .positive := by
  rcases hu with rfl | hu
  · exact unpackSign_packComponents _ _ _
  cases u with
  | notANumber => exact hu.elim
  | infinity s =>
    obtain rfl : s = .positive := hu
    exact unpackSign_packComponents _ _ _
  | zero s =>
    obtain rfl : s = .positive := hu
    exact unpackSign_packComponents _ _ _
  | finite s m e h =>
    obtain rfl : s = .positive := hu
    rw [UnpackedFloat.pack]
    split
    · exact unpackSign_packComponents _ _ _
    · split <;> exact unpackSign_packComponents _ _ _

theorem unpack_pack (hu : IsUnsigned u) :
    IsUnsigned (UnpackedFloat.unpack spec (UnpackedFloat.pack spec u)) :=
  unpack hu.unpackSign_pack

end IsUnsigned

namespace Location

theorem isUnsigned_length (dx dy dz : Float) : IsUnsigned (length dx dy dz).toModel.unpack := by
  have square (x : Float) : IsUnsigned (x * x).toModel.unpack :=
    (IsUnsigned.mul_self x.toModel.unpack).unpack_pack
  have sum {x y : Float} (hx : IsUnsigned x.toModel.unpack) (hy : IsUnsigned y.toModel.unpack) :
      IsUnsigned (x + y).toModel.unpack :=
    (hx.add hy).unpack_pack
  exact (sum (sum (square dx) (square dy)) (square dz)).sqrt.unpack_pack

/-- A distance that is at most something is defined. -/
theorem isPositive_distance {here there : Location} {d bound : Float}
    (h : here.distance there = some d) (hle : d ≤ bound) : IsPositive d.toModel.unpack := by
  have hlength : IsUnsigned d.toModel.unpack := by
    rw [distance] at h
    split at h
    · obtain rfl := Option.some.inj h
      exact isUnsigned_length _ _ _
    · cases h
  rcases hlength with hnan | hpositive
  · have hdefined := le_iff_unpack_le.mp hle
    rw [hnan] at hdefined
    cases hdefined
  · exact hpositive

end Location
end ScriptedActors
