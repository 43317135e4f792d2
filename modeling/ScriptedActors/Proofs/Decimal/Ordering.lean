import ScriptedActors.Arithmetic
import ScriptedActors.Proofs.Decimal.Packing

set_option autoImplicit false

/-!
# The order of numbers and the order of their bits

Numbers with a positive sign are ordered as their bits are. The total order of all numbers is that
of their bits, turned round where the sign is negative; it is the order of numbers wherever both
have a positive sign.
-/
namespace ScriptedActors.Decimal
open Float.Model UnpackedFloat Arithmetic

variable {spec : Format}

def IsPositive : UnpackedFloat → Prop
  | .notANumber => False
  | .infinity s => s = .positive
  | .zero s => s = .positive
  | .finite s _ _ _ => s = .positive

theorem toNat_packComponents_positive (exponent : BitVec spec.exponentBits)
    (mantissa : BitVec spec.mantissaBitsWithoutImplicit) :
    (packComponents spec .positive exponent mantissa).toNat =
      exponent.toNat * 2 ^ spec.mantissaBitsWithoutImplicit + mantissa.toNat := by
  rw [packComponents, toNat_append, toNat_append]
  simp [Sign.toBitVec]

theorem unpack_infinity (s : Sign) :
    UnpackedFloat.unpack spec (packComponents spec s (-1#_) 0#_) = .infinity s := by
  simp only [UnpackedFloat.unpack, unpackExponent_packComponents, unpackMantissa_packComponents,
    unpackSign_packComponents, ofBitVec_toBitVec, if_true]

theorem unpack_undefined (s : Sign) {mantissa : BitVec spec.mantissaBitsWithoutImplicit}
    (hm : mantissa ≠ 0#_) :
    UnpackedFloat.unpack spec (packComponents spec s (-1#_) mantissa) = .notANumber := by
  simp only [UnpackedFloat.unpack, unpackExponent_packComponents, unpackMantissa_packComponents,
    if_true, hm, if_false]

/-- The place of a number among those with a positive sign. -/
def place (spec : Format) : UnpackedFloat → Nat
  | .notANumber => 0
  | .infinity _ => (2 ^ spec.exponentBits - 1) * 2 ^ spec.mantissaBitsWithoutImplicit
  | .zero _ => 0
  | .finite _ m e _ => (e - spec.minExponent).toNat * 2 ^ spec.mantissaBitsWithoutImplicit + m

theorem toNat_eq_place (b : BitVec spec.numBits) (hb : IsPositive (UnpackedFloat.unpack spec b)) :
    b.toNat = place spec (UnpackedFloat.unpack spec b) := by
  have hone := biased_minExponent spec
  have hcomponents := packComponents_unpack b
  generalize Sign.ofBitVec (unpackSign b) = s at hcomponents
  generalize unpackExponent b = exponent at hcomponents
  generalize unpackMantissa b = mantissa at hcomponents
  subst hcomponents
  by_cases hfinite : exponent = -1#_
  · subst hfinite
    by_cases hm : mantissa = 0#_
    · subst hm
      rw [unpack_infinity] at hb ⊢
      obtain rfl : s = .positive := hb
      rw [toNat_packComponents_positive, toNat_neg_one, BitVec.toNat_zero, Nat.add_zero]
      rfl
    · rw [unpack_undefined s hm] at hb
      exact hb.elim
  · by_cases hnormal : exponent = 0#_
    · subst hnormal
      by_cases hm : mantissa = 0#_
      · subst hm
        rw [unpack_zero] at hb ⊢
        obtain rfl : s = .positive := hb
        rw [toNat_packComponents_positive, BitVec.toNat_zero, Nat.zero_mul, BitVec.toNat_zero]
        rfl
      · rw [unpack_subnormal s mantissa hm] at hb ⊢
        obtain rfl : s = .positive := hb
        have hzero : (0 - (spec.exponentBias + spec.mantissaBitsWithoutImplicit) + 1 -
            spec.minExponent : Int).toNat = 0 := by
          unfold biased at hone
          omega
        rw [toNat_packComponents_positive, BitVec.toNat_zero, place, hzero]
    · rw [unpack_normal s exponent mantissa hfinite hnormal] at hb ⊢
      obtain rfl : s = .positive := hb
      have hpos : 0 < exponent.toNat := by simpa [BitVec.toNat_pos, BitVec.pos_iff_ne_zero]
      have hstep : ((exponent.toNat : Int) - (spec.exponentBias + spec.mantissaBitsWithoutImplicit) -
          spec.minExponent).toNat + 1 = exponent.toNat := by
        unfold biased at hone
        omega
      rw [toNat_packComponents_positive, place, toNat_one_append, ← Nat.add_assoc, ← Nat.succ_mul,
        Nat.succ_eq_add_one, hstep]

namespace IsCanonical
variable {m n : Nat} {e f : Int}

theorem two_pow_le (h : IsCanonical spec m e) (he : spec.minExponent < e) :
    2 ^ spec.mantissaBitsWithoutImplicit ≤ m := by
  have hlog : m.log2 + 1 = spec.mantissaBits := by
    by_contra hne
    exact absurd (h.eq_minExponent hne) (ne_of_gt he)
  have hle := Nat.log2_self_le (Nat.ne_of_gt h.pos)
  rw [show m.log2 = spec.mantissaBitsWithoutImplicit by unfold Format.mantissaBits at hlog; omega] at hle
  exact hle

theorem lt_two_mul (h : IsCanonical spec m e) : m < 2 * 2 ^ spec.mantissaBitsWithoutImplicit := by
  have hlt := h.lt
  rw [Format.mantissaBits, pow_add, pow_one] at hlt
  exact hlt

theorem place_lt_infinity (h : IsCanonical spec m e) (hrange : InRange spec e) {s t : Sign} :
    place spec (.finite s m e h.pos) < place spec (.infinity t) := by
  have hone := biased_minExponent spec
  have hpos := h.biased_pos
  have hlt := h.lt_two_mul
  have hstep : (e - spec.minExponent).toNat + 2 ≤ 2 ^ spec.exponentBits - 1 := by
    unfold InRange at hrange
    unfold biased at *
    generalize 2 ^ spec.exponentBits = bound at *
    omega
  have hmul := Nat.mul_le_mul_right (2 ^ spec.mantissaBitsWithoutImplicit) hstep
  rw [Nat.add_mul] at hmul
  rw [place, place]
  omega

theorem place_lt_of_exponent_lt (h : IsCanonical spec m e) (k : IsCanonical spec n f) (hlt : e < f)
    {s t : Sign} : place spec (.finite s m e h.pos) < place spec (.finite t n f k.pos) := by
  have hmin := h.minExponent_le
  have hm := h.lt_two_mul
  have hn := k.two_pow_le (by omega)
  have hstep : (e - spec.minExponent).toNat + 1 ≤ (f - spec.minExponent).toNat := by omega
  have hmul := Nat.mul_le_mul_right (2 ^ spec.mantissaBitsWithoutImplicit) hstep
  rw [Nat.add_mul] at hmul
  rw [place, place]
  omega

theorem place_lt_iff (h : IsCanonical spec m e) (k : IsCanonical spec n f) {s t : Sign} :
    place spec (.finite s m e h.pos) < place spec (.finite t n f k.pos) ↔ e < f ∨ e = f ∧ m < n := by
  rcases Int.lt_trichotomy e f with hlt | rfl | hgt
  · exact ⟨fun _ => .inl hlt, fun _ => h.place_lt_of_exponent_lt k hlt⟩
  · rw [place, place]
    omega
  · have hplace := k.place_lt_of_exponent_lt h hgt (s := t) (t := s)
    omega

end IsCanonical

theorem compare_then_eq_lt_iff (e f : Int) (m n : Nat) :
    (compare e f).then (compare m n) = .lt ↔ e < f ∨ e = f ∧ m < n := by
  rw [Ordering.then_eq_lt, Int.compare_eq_lt, Int.compare_eq_eq, Nat.compare_eq_lt]

def IsHeld (spec : Format) : UnpackedFloat → Prop
  | .finite _ m e _ => IsCanonical spec m e ∧ InRange spec e
  | _ => True

theorem isHeld_unpack (hbits : 2 ≤ spec.exponentBits) (b : BitVec spec.numBits) :
    IsHeld spec (UnpackedFloat.unpack spec b) := by
  cases hb : UnpackedFloat.unpack spec b with
  | finite s m e h => exact isCanonical_of_unpack hbits b hb
  | notANumber => trivial
  | infinity s => trivial
  | zero s => trivial

theorem place_infinity_pos (hbits : 2 ≤ spec.exponentBits) (s : Sign) : 0 < place spec (.infinity s) := by
  have hpow : 2 ^ 2 ≤ 2 ^ spec.exponentBits := Nat.pow_le_pow_right (by decide) hbits
  exact Nat.mul_pos (by omega) (Nat.pow_pos (by decide))

theorem lt_iff_place_lt (hbits : 2 ≤ spec.exponentBits) {u v : UnpackedFloat} (hu : IsHeld spec u)
    (hv : IsHeld spec v) (hu' : IsPositive u) (hv' : IsPositive v) :
    u.lt v = true ↔ place spec u < place spec v := by
  have hinfinity := place_infinity_pos hbits
  -- Zero stands before all finite numbers, infinity behind them.
  cases u with
  | notANumber => exact hu'.elim
  | infinity s =>
    obtain rfl : s = .positive := hu'
    cases v with
    | notANumber => exact hv'.elim
    | infinity t =>
      obtain rfl : t = .positive := hv'
      exact ⟨fun h => absurd h Bool.false_ne_true, fun h => absurd h (lt_irrefl _)⟩
    | zero t => exact ⟨fun h => absurd h Bool.false_ne_true, fun h => absurd h (Nat.not_lt_zero _)⟩
    | finite t n f k =>
      have hlt := hv.1.place_lt_infinity hv.2 (s := t) (t := .positive)
      exact ⟨fun h => absurd h Bool.false_ne_true, fun h => absurd h (lt_asymm hlt)⟩
  | zero s =>
    cases v with
    | notANumber => exact hv'.elim
    | infinity t =>
      obtain rfl : t = .positive := hv'
      exact ⟨fun _ => hinfinity .positive, fun _ => rfl⟩
    | zero t => exact ⟨fun h => absurd h Bool.false_ne_true, fun h => absurd h (lt_irrefl _)⟩
    | finite t n f k =>
      obtain rfl : t = .positive := hv'
      exact ⟨fun _ => Nat.lt_of_lt_of_le k (Nat.le_add_left _ _), fun _ => rfl⟩
  | finite s m e h =>
    obtain rfl : s = .positive := hu'
    cases v with
    | notANumber => exact hv'.elim
    | infinity t =>
      obtain rfl : t = .positive := hv'
      exact ⟨fun _ => hu.1.place_lt_infinity hu.2, fun _ => rfl⟩
    | zero t => exact ⟨fun h => absurd h Bool.false_ne_true, fun h => absurd h (Nat.not_lt_zero _)⟩
    | finite t n f k =>
      obtain rfl : t = .positive := hv'
      rw [hu.1.place_lt_iff hv.1, ← compare_then_eq_lt_iff]
      simp [UnpackedFloat.lt, UnpackedFloat.compare]

theorem place_le_infinity {u : UnpackedFloat} (hu : IsHeld spec u) (s : Sign) :
    place spec u ≤ place spec (.infinity s) := by
  cases u with
  | notANumber => exact Nat.zero_le _
  | infinity t => exact le_refl _
  | zero t => exact Nat.zero_le _
  | finite t m e h => exact le_of_lt (hu.1.place_lt_infinity hu.2)

theorem lt_iff_unpack_lt {x y : Float} : x < y ↔ x.toModel.unpack.lt y.toModel.unpack = true :=
  ⟨of_decide_eq_true, decide_eq_true⟩

theorem le_iff_unpack_le {x y : Float} : x ≤ y ↔ x.toModel.unpack.le y.toModel.unpack = true :=
  ⟨of_decide_eq_true, decide_eq_true⟩

/-- The place of a number in the total order: that of its bits, turned round if its sign is negative. -/
def totalPlace (x : Float) : Int :=
  if x.toBits.toNat < 2 ^ 63 then x.toBits.toNat else 2 ^ 63 - 1 - x.toBits.toNat

theorem totalPlace_of_positive {x : Float} (hx : IsPositive x.toModel.unpack) :
    totalPlace x = place .binary64 x.toModel.unpack := by
  have hplace : x.toBits.toNat = place .binary64 x.toModel.unpack := toNat_eq_place _ hx
  have hheld : IsHeld .binary64 x.toModel.unpack := isHeld_unpack (by decide) _
  have hle : place .binary64 x.toModel.unpack ≤ 2047 * 2 ^ 52 := place_le_infinity hheld .positive
  rw [totalPlace, hplace, if_pos (by omega)]

/-- On numbers with a positive sign the total order is the order of numbers. -/
theorem lt_iff_totalPlace_lt {x y : Float} (hx : IsPositive x.toModel.unpack)
    (hy : IsPositive y.toModel.unpack) : x < y ↔ totalPlace x < totalPlace y := by
  rw [lt_iff_unpack_lt, totalPlace_of_positive hx, totalPlace_of_positive hy, Int.ofNat_lt]
  exact lt_iff_place_lt (by decide) (isHeld_unpack (by decide) _) (isHeld_unpack (by decide) _) hx hy

theorem compare_swap (u v : UnpackedFloat) :
    UnpackedFloat.compare v u = (UnpackedFloat.compare u v).map Ordering.swap := by
  cases u with
  | notANumber => cases v <;> rfl
  | infinity s =>
    cases v with
    | infinity t => cases s <;> cases t <;> rfl
    | _ => cases s <;> rfl
  | zero s =>
    cases v with
    | notANumber => rfl
    | zero t => rfl
    | infinity t => cases t <;> rfl
    | finite t n f k => cases t <;> rfl
  | finite s m e h =>
    cases v with
    | notANumber => cases s <;> rfl
    | zero t => cases s <;> rfl
    | infinity t => cases s <;> cases t <;> rfl
    | finite t n f k =>
      cases s <;> cases t <;>
        simp [UnpackedFloat.compare, Ordering.swap_then, Int.compare_swap, Nat.compare_swap]

theorem isSome_compare {u v : UnpackedFloat} (hu : u.isNaN = false) (hv : v.isNaN = false) :
    (UnpackedFloat.compare u v).isSome = true := by
  cases u with
  | notANumber => cases hu
  | infinity s =>
    cases v with
    | notANumber => cases hv
    | _ => cases s <;> rfl
  | zero s =>
    cases v with
    | notANumber => cases hv
    | zero t => rfl
    | infinity t => cases t <;> rfl
    | finite t n f k => cases t <;> rfl
  | finite s m e h =>
    cases v with
    | notANumber => cases hv
    | zero t => cases s <;> rfl
    | infinity t => cases s <;> cases t <;> rfl
    | finite t n f k => cases s <;> cases t <;> rfl

theorem lesser_eq {x y : Float} (hy : y.isNaN = false) : lesser x y = if x ≤ y then x else y := by
  have hswap := compare_swap x.toModel.unpack y.toModel.unpack
  simp only [lesser, hy, lt_iff_unpack_lt, le_iff_unpack_le, UnpackedFloat.lt, UnpackedFloat.le, hswap]
  cases hx : x.isNaN with
  | true =>
    have hundefined : x.toModel.unpack = .notANumber := by
      change x.toModel.unpack.isNaN = true at hx
      cases hu : x.toModel.unpack with
      | notANumber => rfl
      | _ => rw [hu] at hx; cases hx
    rw [hundefined]
    rfl
  | false =>
    obtain ⟨o, ho⟩ := Option.isSome_iff_exists.mp (isSome_compare (u := x.toModel.unpack) hx hy)
    rw [ho]
    cases o <;> rfl

end ScriptedActors.Decimal
