import Mathlib

set_option autoImplicit false

/-!
# Rounding a rational number

A mantissa with its residual bits is a function of a rational number, and shifting it by one bit
halves that number. So rounding gives the same result for all ways to write a number with a
mantissa, an exponent and an accuracy, if they are fine enough for the format.
-/
namespace ScriptedActors.Decimal
open Float.Model UnpackedFloat

/-- The whole part of a number, the bit behind it, and whether anything follows that bit. -/
def residual (y : ℚ) : ExtendedMantissa :=
  ⟨⌊y⌋₊, ⌊2 * y⌋₊ % 2 != 0, decide ((⌊2 * y⌋₊ : ℚ) ≠ 2 * y)⟩

theorem residual_natCast (n : Nat) : residual n = ⟨n, false, false⟩ := by
  have htwice : ⌊2 * (n : ℚ)⌋₊ = 2 * n := by
    rw [show 2 * (n : ℚ) = ((2 * n : Nat) : ℚ) by push_cast; rfl, Nat.floor_natCast]
  rw [residual, Nat.floor_natCast, htwice]
  simp

theorem residual_shiftRightOne (y : ℚ) :
    (residual y).shiftRightOne = residual (y / 2) := by
  have hwhole : ⌊y / 2⌋₊ = ⌊y⌋₊ / 2 := Nat.floor_div_ofNat y 2
  have htwice : 2 * (y / 2) = y := by ring
  have hdouble : ⌊2 * y⌋₊ / 2 = ⌊y⌋₊ := by
    rw [← Nat.floor_div_ofNat (2 * y) 2]
    congr 1
    ring
  -- Half of an even whole number is whole, so nothing follows if nothing followed before.
  have hsticky : (⌊y⌋₊ : ℚ) = y ↔ ⌊2 * y⌋₊ % 2 = 0 ∧ (⌊2 * y⌋₊ : ℚ) = 2 * y := by
    constructor
    · intro hexact
      have hnat : ⌊2 * y⌋₊ = 2 * ⌊y⌋₊ := by
        rw [← hexact, Nat.floor_natCast]
        exact_mod_cast Nat.floor_natCast (R := ℚ) (2 * ⌊y⌋₊)
      rw [hnat]
      refine ⟨by omega, ?_⟩
      push_cast
      rw [hexact]
    · rintro ⟨heven, hexact⟩
      have hnat : ⌊2 * y⌋₊ = 2 * ⌊y⌋₊ := by omega
      rw [hnat] at hexact
      push_cast at hexact
      linarith
  rw [residual, residual, ExtendedMantissa.shiftRightOne, htwice, hwhole]
  congr 1
  by_cases hexact : (⌊y⌋₊ : ℚ) = y
  · obtain ⟨heven, htwice⟩ := hsticky.mp hexact
    simp [hexact, heven, htwice]
  · by_cases heven : ⌊2 * y⌋₊ % 2 = 0
    · have hinexact : (⌊2 * y⌋₊ : ℚ) ≠ 2 * y := fun h => hexact (hsticky.mpr ⟨heven, h⟩)
      simp [hexact, hinexact]
    · simp [hexact, Nat.mod_two_ne_zero.mp heven]

theorem residual_shiftRight (y : ℚ) (k : Nat) :
    residual y >>> k = residual (y / 2 ^ k) := by
  induction k with
  | zero => simp [HShiftRight.hShiftRight, Nat.repeat]
  | succ k ih =>
    change ((residual y) >>> k).shiftRightOne = _
    rw [ih, residual_shiftRightOne, div_div, pow_succ]

theorem floor_two_mul_div (n d : Nat) : ⌊2 * ((n : ℚ) / d)⌋₊ = 2 * n / d := by
  rw [← Nat.floor_div_eq_div (K := ℚ) (2 * n) d]
  congr 1
  push_cast
  ring

theorem residual_div (n d : Nat) (hd : 0 < d) :
    ExtendedMantissa.ofMantissaAndAccuracy (n / d) (accuracyOfFraction (n % d) d) =
      residual ((n : ℚ) / d) := by
  have hwhole : ⌊(n : ℚ) / d⌋₊ = n / d := Nat.floor_div_eq_div n d
  have hexact : ((2 * n / d : Nat) : ℚ) = 2 * ((n : ℚ) / d) ↔ 2 * n / d * d = 2 * n := by
    have hd' : (d : ℚ) ≠ 0 := by positivity
    rw [← mul_div_assoc, eq_div_iff hd']
    exact_mod_cast Iff.rfl
  have hsplit := Nat.div_add_mod n d
  have hlt := Nat.mod_lt n hd
  rw [residual, hwhole, floor_two_mul_div]
  simp only [ne_eq, hexact]
  generalize n / d = q at *
  generalize n % d = r at *
  subst hsplit
  rw [accuracyOfFraction]
  have hdouble : 2 * (d * q + r) = 2 * q * d + 2 * r := by ring
  have hquotient : 2 * (d * q + r) / d = 2 * q + 2 * r / d := by
    rw [show 2 * (d * q + r) = d * (2 * q) + 2 * r by ring, Nat.mul_add_div hd]
  rw [hquotient]
  by_cases hr : r = 0
  · subst hr
    have hq : 2 * q * d = 2 * (d * q) := by ring
    simp [ExtendedMantissa.ofMantissaAndAccuracy, hq]
  · rw [if_neg hr]
    rcases Nat.lt_trichotomy (2 * r) d with hlow | heq | hhigh
    · have hbit : 2 * r / d = 0 := Nat.div_eq_of_lt hlow
      have hne : 2 * q * d ≠ 2 * (d * q + r) := by
        rw [hdouble]
        omega
      rw [Nat.compare_eq_lt.mpr hlow, hbit]
      simp [ExtendedMantissa.ofMantissaAndAccuracy, hne]
    · have hbit : 2 * r / d = 1 := by rw [heq, Nat.div_self hd]
      have hq : (2 * q + 1) * d = 2 * (d * q + r) := by
        rw [hdouble, heq]
        ring
      rw [Nat.compare_eq_eq.mpr heq, hbit]
      simp [ExtendedMantissa.ofMantissaAndAccuracy, hq]
    · have hbit : 2 * r / d = 1 := by
        rw [Nat.div_eq_iff hd]
        omega
      have hne : (2 * q + 1) * d ≠ 2 * (d * q + r) := by
        rw [hdouble, add_mul]
        omega
      rw [Nat.compare_eq_gt.mpr hhigh, hbit]
      simp [ExtendedMantissa.ofMantissaAndAccuracy, hne]

theorem log_mul_zpow (y : ℚ) (hy : 0 < y) (e : Int) : Int.log 2 (y * 2 ^ e) = Int.log 2 y + e := by
  refine eq_of_forall_le_iff fun k => ?_
  have hpos : 0 < y * 2 ^ e := by positivity
  have hsplit : (2 : ℚ) ^ k = 2 ^ (k - e) * 2 ^ e := by
    rw [← zpow_add₀ (by norm_num), Int.sub_add_cancel]
  have hcancel : (2 : ℚ) ^ k ≤ y * 2 ^ e ↔ (2 : ℚ) ^ (k - e) ≤ y := by
    rw [hsplit]
    exact mul_le_mul_iff_of_pos_right (by positivity)
  have hscaled := Int.zpow_le_iff_le_log (b := 2) (x := k) (by norm_num) hpos
  have hplain := Int.zpow_le_iff_le_log (b := 2) (x := k - e) (by norm_num) hy
  push_cast at hscaled hplain
  rw [← hscaled, hcancel, hplain]
  omega

theorem totalExponent_floor (y : ℚ) (e : Int) (hy : ⌊y⌋₊ ≠ 0) :
    totalExponent ⌊y⌋₊ e = Int.log 2 (y * 2 ^ e) + 1 := by
  have hone : 1 ≤ y := by
    by_contra hlt
    exact hy (Nat.floor_eq_zero.mpr (not_le.mp hlt))
  rw [log_mul_zpow y (by linarith) e, Int.log_of_one_le_right 2 hone, totalExponent, Nat.log2_eq_log_two]
  omega

/-- The exponent of the format at which a positive number is rounded. -/
def exponentOf (spec : Format) (x : ℚ) : Int := spec.targetExponent (Int.log 2 x + 1)

theorem targetExponent_mono (spec : Format) {t u : Int} (h : t ≤ u) :
    spec.targetExponent t ≤ spec.targetExponent u := by
  unfold Format.targetExponent
  omega

theorem exponentOf_of_lt (spec : Format) {x : ℚ} {e : Int} (hx : 0 < x) (hlt : x < 2 ^ e)
    (he : e ≤ spec.minExponent) : exponentOf spec x = spec.minExponent := by
  have hlog : Int.log 2 x < e := by
    have hiff := Int.lt_zpow_iff_log_lt (b := 2) (x := e) (by norm_num) hx
    push_cast at hiff
    exact hiff.mp hlt
  unfold exponentOf Format.targetExponent
  omega

def settle (spec : Format) (sign : Sign) (m : Nat) (e : Int) : UnpackedFloat :=
  let shifted := shiftToTargetExponent spec m e .exact
  if h : shifted.1.mantissa = 0 then .zero sign
  else .finite sign shifted.1.mantissa shifted.2 (Nat.pos_of_ne_zero h)

def nearest (spec : Format) (sign : Sign) (x : ℚ) : UnpackedFloat :=
  settle spec sign (residual (x / 2 ^ exponentOf spec x)).roundedMantissa (exponentOf spec x)

/-- Rounding is the same for all mantissas, exponents and accuracies that stand for a number, if
the exponent is fine enough. -/
theorem roundWithAccuracy_eq (spec : Format) (sign : Sign) (m : Nat) (e : Int) (accuracy : Accuracy)
    (x : ℚ) (hx : 0 < x) (hm : ExtendedMantissa.ofMantissaAndAccuracy m accuracy = residual (x / 2 ^ e))
    (hfine : e ≤ exponentOf spec x) (hnonzero : m ≠ 0 ∨ e ≤ spec.minExponent) :
    roundWithAccuracy spec sign m e accuracy = nearest spec sign x := by
  have hmantissa : ⌊x / 2 ^ e⌋₊ = m := by
    have h := congrArg ExtendedMantissa.mantissa hm
    cases accuracy with
    | exact => exact h.symm
    | inexact order => cases order <;> exact h.symm
  have htarget : spec.targetExponent (totalExponent m e) = exponentOf spec x := by
    by_cases hzero : m = 0
    · have hmin := hnonzero.resolve_left (not_not.mpr hzero)
      have hlt : x < 2 ^ e := by
        rw [hzero, Nat.floor_eq_zero, div_lt_one (by positivity)] at hmantissa
        exact hmantissa
      rw [exponentOf_of_lt spec hx hlt hmin, hzero]
      unfold Format.targetExponent totalExponent Format.mantissaBits
      simp only [Nat.log2_zero]
      omega
    · rw [← hmantissa, totalExponent_floor _ e (by rw [hmantissa]; exact hzero),
        div_mul_cancel₀ x (by positivity)]
      rfl
  have hshift : shiftToTargetExponent spec m e accuracy =
      (residual (x / 2 ^ exponentOf spec x), exponentOf spec x) := by
    rw [shiftToTargetExponent, htarget, shiftToExponent, hm]
    obtain ⟨k, hk⟩ := Int.eq_ofNat_of_zero_le (Int.sub_nonneg.mpr hfine)
    have hexponent : exponentOf spec x = e + k := by omega
    rw [hexponent]
    have hto : (e + (k : Int) - e).toNat = k := by omega
    rw [hto, residual_shiftRight, div_div, ← zpow_natCast (2 : ℚ) k, ← zpow_add₀ (by norm_num)]
  change settle spec sign (shiftToTargetExponent spec m e accuracy).1.roundedMantissa
    (shiftToTargetExponent spec m e accuracy).2 = _
  rw [hshift]
  rfl

theorem shiftToTargetExponent_of_le (spec : Format) (m : Nat) (e : Int)
    (h : spec.targetExponent (totalExponent m e) ≤ e) :
    shiftToTargetExponent spec m e .exact = (⟨m, false, false⟩, e) := by
  have hzero : (spec.targetExponent (totalExponent m e) - e).toNat = 0 := by omega
  rw [shiftToTargetExponent, shiftToExponent, hzero]
  simp [HShiftRight.hShiftRight, Nat.repeat, ExtendedMantissa.ofMantissaAndAccuracy]

theorem settle_zero (spec : Format) (sign : Sign) (e : Int) (he : spec.minExponent ≤ e) :
    settle spec sign 0 e = .zero sign := by
  have htarget : spec.targetExponent (totalExponent 0 e) ≤ e := by
    unfold Format.targetExponent totalExponent Format.mantissaBits
    simp only [Nat.log2_zero]
    omega
  simp only [settle, shiftToTargetExponent_of_le spec 0 e htarget]
  rfl

theorem settle_of_lt (spec : Format) (sign : Sign) (m : Nat) (e : Int) (hm : 0 < m)
    (hlt : m < 2 ^ spec.mantissaBits) (he : spec.minExponent ≤ e) :
    settle spec sign m e = .finite sign m e hm := by
  have hlog : m.log2 < spec.mantissaBits := (Nat.log2_lt (by omega)).mpr hlt
  have htarget : spec.targetExponent (totalExponent m e) ≤ e := by
    unfold Format.targetExponent totalExponent
    omega
  simp only [settle, shiftToTargetExponent_of_le spec m e htarget, Nat.ne_of_gt hm, dif_neg, not_false_iff]

/-- A mantissa that was rounded up to one bit more is halved. -/
theorem settle_two_pow (spec : Format) (sign : Sign) (e : Int) (he : spec.minExponent ≤ e) :
    settle spec sign (2 ^ spec.mantissaBits) e =
      .finite sign (2 ^ spec.mantissaBitsWithoutImplicit) (e + 1) (by positivity) := by
  have htarget : spec.targetExponent (totalExponent (2 ^ spec.mantissaBits) e) = e + 1 := by
    unfold Format.targetExponent totalExponent
    rw [Nat.log2_two_pow]
    omega
  have hone : (e + 1 - e).toNat = 1 := by omega
  have hhalf : 2 ^ spec.mantissaBits / 2 = 2 ^ spec.mantissaBitsWithoutImplicit := by
    rw [Format.mantissaBits, pow_add]
    omega
  have hshift : shiftToTargetExponent spec (2 ^ spec.mantissaBits) e .exact =
      (⟨2 ^ spec.mantissaBitsWithoutImplicit, false, false⟩, e + 1) := by
    rw [shiftToTargetExponent, htarget, shiftToExponent, hone]
    change ((ExtendedMantissa.mk (2 ^ spec.mantissaBits) false false).shiftRightOne, _) = _
    rw [ExtendedMantissa.shiftRightOne, hhalf]
    simp [Format.mantissaBits, pow_add]
  have hne : 2 ^ spec.mantissaBitsWithoutImplicit ≠ 0 := by positivity
  simp only [settle, hshift, hne, dif_neg, not_false_iff]

theorem roundedMantissa_bounds (em : ExtendedMantissa) :
    em.mantissa ≤ em.roundedMantissa ∧ em.roundedMantissa ≤ em.mantissa + 1 := by
  obtain ⟨m, round, sticky⟩ := em
  cases round <;> cases sticky <;>
    simp only [ExtendedMantissa.roundedMantissa, ExtendedMantissa.accuracy,
      Accuracy.roundToNearestEven] <;> omega

theorem lt_zpow_log_succ (x : ℚ) : x < 2 ^ (Int.log 2 x + 1) := by
  have h := Int.lt_zpow_succ_log_self (b := 2) (by norm_num) x
  push_cast at h
  exact h

theorem zpow_log_le {x : ℚ} (hx : 0 < x) : 2 ^ Int.log 2 x ≤ x := by
  have h := Int.zpow_log_le_self (b := 2) (by norm_num) hx
  push_cast at h
  exact h

theorem minExponent_le_exponentOf (spec : Format) (x : ℚ) : spec.minExponent ≤ exponentOf spec x := by
  unfold exponentOf Format.targetExponent
  omega

theorem log_le_exponentOf (spec : Format) (x : ℚ) :
    Int.log 2 x + 1 ≤ exponentOf spec x + spec.mantissaBits := by
  unfold exponentOf Format.targetExponent
  omega

def mantissaOf (spec : Format) (x : ℚ) : Nat :=
  (residual (x / 2 ^ exponentOf spec x)).roundedMantissa

theorem scaled_lt (spec : Format) (x : ℚ) : x / 2 ^ exponentOf spec x < 2 ^ spec.mantissaBits := by
  have hpow : (2 : ℚ) ^ (Int.log 2 x + 1) ≤ 2 ^ (exponentOf spec x + spec.mantissaBits) :=
    zpow_le_zpow_right₀ (by norm_num) (log_le_exponentOf spec x)
  rw [zpow_add₀ (by norm_num) (exponentOf spec x), zpow_natCast] at hpow
  rw [div_lt_iff₀ (by positivity), mul_comm]
  exact (lt_zpow_log_succ x).trans_le hpow

theorem mantissaOf_le (spec : Format) {x : ℚ} (hx : 0 < x) :
    mantissaOf spec x ≤ 2 ^ spec.mantissaBits := by
  have hfloor : ⌊x / 2 ^ exponentOf spec x⌋₊ < 2 ^ spec.mantissaBits := by
    rw [Nat.floor_lt (by positivity)]
    exact_mod_cast scaled_lt spec x
  have hbounds := (roundedMantissa_bounds (residual (x / 2 ^ exponentOf spec x))).2
  change mantissaOf spec x ≤ ⌊x / 2 ^ exponentOf spec x⌋₊ + 1 at hbounds
  omega

end ScriptedActors.Decimal
