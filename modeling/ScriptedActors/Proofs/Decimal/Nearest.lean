import ScriptedActors.Proofs.Decimal.Rounding

set_option autoImplicit false

/-!
# The nearest number of a format

A number of the format is nearest to itself, a number below half the least unit rounds to zero,
and products, quotients and decimal numbers are rounded once, from their exact value.
-/
namespace ScriptedActors.Decimal
open Float.Model UnpackedFloat

/-- A mantissa and an exponent as the format has them. -/
structure IsCanonical (spec : Format) (m : Nat) (e : Int) : Prop where
  pos : 0 < m
  exponent : spec.targetExponent (totalExponent m e) = e

namespace IsCanonical
variable {spec : Format} {m : Nat} {e : Int} (h : IsCanonical spec m e)
include h

theorem lt : m < 2 ^ spec.mantissaBits := by
  have hexponent := h.exponent
  unfold Format.targetExponent totalExponent at hexponent
  exact (Nat.log2_lt (Nat.ne_of_gt h.pos)).mp (by omega)

theorem minExponent_le : spec.minExponent ≤ e := by
  have hexponent := h.exponent
  unfold Format.targetExponent at hexponent
  omega

theorem exponentOf_eq : exponentOf spec (m * 2 ^ e) = e := by
  have hfloor : ⌊(m : ℚ)⌋₊ = m := Nat.floor_natCast m
  have htotal := totalExponent_floor (m : ℚ) e (by rw [hfloor]; exact Nat.ne_of_gt h.pos)
  rw [hfloor] at htotal
  rw [exponentOf, ← htotal, h.exponent]

theorem nearest_eq (sign : Sign) : nearest spec sign (m * 2 ^ e) = .finite sign m e h.pos := by
  rw [nearest, h.exponentOf_eq, mul_div_cancel_right₀ _ (by positivity), residual_natCast]
  exact settle_of_lt spec sign m e h.pos h.lt h.minExponent_le

end IsCanonical

/-- A positive number is rounded to zero, at its exponent, or up to one exponent more. -/
theorem nearest_cases (spec : Format) (sign : Sign) {x : ℚ} (hx : 0 < x) :
    (mantissaOf spec x = 0 ∧ nearest spec sign x = .zero sign) ∨
    (∃ h : 0 < mantissaOf spec x, mantissaOf spec x < 2 ^ spec.mantissaBits ∧
      nearest spec sign x = .finite sign (mantissaOf spec x) (exponentOf spec x) h) ∨
    (mantissaOf spec x = 2 ^ spec.mantissaBits ∧ nearest spec sign x =
      .finite sign (2 ^ spec.mantissaBitsWithoutImplicit) (exponentOf spec x + 1) (by positivity)) := by
  have hmin := minExponent_le_exponentOf spec x
  have hle := mantissaOf_le spec hx
  have hnearest : nearest spec sign x = settle spec sign (mantissaOf spec x) (exponentOf spec x) := rfl
  by_cases hzero : mantissaOf spec x = 0
  · rw [hzero] at hnearest
    exact .inl ⟨hzero, hnearest.trans (settle_zero spec sign _ hmin)⟩
  · have hpos := Nat.pos_of_ne_zero hzero
    by_cases hlt : mantissaOf spec x < 2 ^ spec.mantissaBits
    · exact .inr (.inl ⟨hpos, hlt, hnearest.trans (settle_of_lt spec sign _ _ hpos hlt hmin)⟩)
    · have heq : mantissaOf spec x = 2 ^ spec.mantissaBits := by omega
      rw [heq] at hnearest
      exact .inr (.inr ⟨heq, hnearest.trans (settle_two_pow spec sign _ hmin)⟩)

theorem nearest_of_tiny (spec : Format) (sign : Sign) {x : ℚ} (hx : 0 < x)
    (hlt : x < 2 ^ (spec.minExponent - 1)) : nearest spec sign x = .zero sign := by
  have hle : (2 : ℚ) ^ (spec.minExponent - 1) ≤ 2 ^ spec.minExponent :=
    zpow_le_zpow_right₀ (by norm_num) (by omega)
  have hexponent := exponentOf_of_lt spec hx (hlt.trans_le hle) le_rfl
  have hhalf : 2 * (x / 2 ^ spec.minExponent) < 1 := by
    rw [zpow_sub_one₀ (by norm_num)] at hlt
    rw [← mul_div_assoc, div_lt_one (by positivity)]
    linarith
  have htwice : ⌊2 * (x / 2 ^ spec.minExponent)⌋₊ = 0 := Nat.floor_eq_zero.mpr hhalf
  have hwhole : ⌊x / 2 ^ spec.minExponent⌋₊ = 0 := by
    rw [Nat.floor_eq_zero]
    have hpos : 0 < x / 2 ^ spec.minExponent := by positivity
    linarith
  have hrounded : (residual (x / 2 ^ spec.minExponent)).roundedMantissa = 0 := by
    have hzero (sticky : Bool) : (⟨0, 0 % 2 != 0, sticky⟩ : ExtendedMantissa).roundedMantissa = 0 := by
      cases sticky <;> rfl
    rw [residual, hwhole, htwice]
    exact hzero _
  rw [nearest, hexponent, hrounded]
  exact settle_zero spec sign _ le_rfl

theorem roundWithAccuracy_exact (spec : Format) (sign : Sign) (m : Nat) (e : Int) (hm : 0 < m)
    (hfine : e ≤ exponentOf spec (m * 2 ^ e)) :
    roundWithAccuracy spec sign m e .exact = nearest spec sign (m * 2 ^ e) := by
  refine roundWithAccuracy_eq spec sign m e .exact _ (by positivity) ?_ hfine (.inl (Nat.ne_of_gt hm))
  rw [mul_div_cancel_right₀ _ (by positivity), residual_natCast]
  rfl

theorem totalExponent_natCast (m : Nat) (e : Int) (hm : 0 < m) :
    totalExponent m e = Int.log 2 ((m : ℚ) * 2 ^ e) + 1 := by
  have hfloor : ⌊(m : ℚ)⌋₊ = m := Nat.floor_natCast m
  have htotal := totalExponent_floor (m : ℚ) e (by rw [hfloor]; exact Nat.ne_of_gt hm)
  rw [hfloor] at htotal
  exact htotal

theorem log_sub_log_lt {x y : ℚ} (hx : 0 < x) (hy : 0 < y) :
    (2 : ℚ) ^ (Int.log 2 x - Int.log 2 y - 1) < x / y := by
  rw [lt_div_iff₀ hy]
  calc (2 : ℚ) ^ (Int.log 2 x - Int.log 2 y - 1) * y
      < 2 ^ (Int.log 2 x - Int.log 2 y - 1) * 2 ^ (Int.log 2 y + 1) :=
        mul_lt_mul_of_pos_left (lt_zpow_log_succ y) (by positivity)
    _ = 2 ^ Int.log 2 x := by
        rw [← zpow_add₀ (by norm_num)]
        congr 1
        ring
    _ ≤ x := zpow_log_le hx

theorem quotient_scaled (m₁ m₂ : Nat) {e₁ e₂ e : Int} {k : Nat} (hk : e₁ - e₂ - e = k) :
    ((m₁ : ℚ) * 2 ^ e₁) / (m₂ * 2 ^ e₂) / 2 ^ e = ((m₁ * 2 ^ k : Nat) : ℚ) / m₂ := by
  have hpow : (2 : ℚ) ^ e₁ = 2 ^ e₂ * 2 ^ e * 2 ^ k := by
    rw [← zpow_natCast (2 : ℚ) k, ← zpow_add₀ (by norm_num), ← zpow_add₀ (by norm_num)]
    congr 1
    omega
  rw [hpow]
  push_cast
  field_simp

theorem two_zpow_lt_quotient {m₁ m₂ : Nat} (e₁ e₂ : Int) (h₁ : 0 < m₁) (h₂ : 0 < m₂) :
    (2 : ℚ) ^ (totalExponent m₁ e₁ - totalExponent m₂ e₂ - 1) < ((m₁ : ℚ) * 2 ^ e₁) / (m₂ * 2 ^ e₂) := by
  have hlow := log_sub_log_lt (x := (m₁ : ℚ) * 2 ^ e₁) (y := m₂ * 2 ^ e₂) (by positivity) (by positivity)
  rw [totalExponent_natCast m₁ e₁ h₁, totalExponent_natCast m₂ e₂ h₂, add_sub_add_right_eq_sub]
  exact hlow

theorem div_eq_nearest (spec : Format) (s₁ s₂ : Sign) (m₁ m₂ : Nat) (e₁ e₂ : Int) (h₁ : 0 < m₁)
    (h₂ : 0 < m₂) :
    UnpackedFloat.div spec (.finite s₁ m₁ e₁ h₁) (.finite s₂ m₂ e₂ h₂) =
      nearest spec (s₁ / s₂) (((m₁ : ℚ) * 2 ^ e₁) / (m₂ * 2 ^ e₂)) := by
  have hx : 0 < ((m₁ : ℚ) * 2 ^ e₁) / (m₂ * 2 ^ e₂) := by positivity
  have hlow := two_zpow_lt_quotient e₁ e₂ h₁ h₂
  have hquotient := @quotient_scaled m₁ m₂ e₁ e₂
  generalize ((m₁ : ℚ) * 2 ^ e₁) / (m₂ * 2 ^ e₂) = x at *
  generalize htotal : totalExponent m₁ e₁ - totalExponent m₂ e₂ = t at *
  have hlog : t ≤ Int.log 2 x + 1 := by
    have hiff := Int.zpow_le_iff_le_log (b := 2) (x := t - 1) (by norm_num) hx
    push_cast at hiff
    have hle := hiff.mp hlow.le
    omega
  generalize htarget : min (e₁ - e₂) (spec.targetExponent t) = e
  have hle : e ≤ e₁ - e₂ := by omega
  have hfine : e ≤ exponentOf spec x := by
    have hmono := targetExponent_mono spec hlog
    change e ≤ spec.targetExponent (Int.log 2 x + 1)
    omega
  obtain ⟨k, hk⟩ := Int.eq_ofNat_of_zero_le (Int.sub_nonneg.mpr hle)
  have hshift : (e₁ - e₂ - e).toNat = k := by omega
  have hscaled := hquotient hk
  have hresult : UnpackedFloat.div spec (.finite s₁ m₁ e₁ h₁) (.finite s₂ m₂ e₂ h₂) =
      roundWithAccuracy spec (s₁ / s₂) (m₁ * 2 ^ k / m₂) e (accuracyOfFraction (m₁ * 2 ^ k % m₂) m₂) := by
    simp only [UnpackedFloat.div, divCore, htotal, htarget, hshift, Nat.shiftLeft_eq]
  rw [hresult]
  refine roundWithAccuracy_eq spec _ _ e _ x hx ?_ hfine ?_
  · rw [residual_div _ _ h₂, hscaled]
  · by_cases hmin : e ≤ spec.minExponent
    · exact .inr hmin
    · -- Above the least exponent the target leaves room for all digits of the quotient.
      refine .inl ?_
      have hroom : e ≤ t - 1 := by
        unfold Format.targetExponent Format.mantissaBits at htarget
        omega
      have hone : 1 ≤ x / 2 ^ e := by
        rw [le_div_iff₀ (by positivity), one_mul]
        exact (zpow_le_zpow_right₀ (by norm_num) hroom).trans hlow.le
      rw [hscaled] at hone
      have hfloor := Nat.floor_div_eq_div (K := ℚ) (m₁ * 2 ^ k) m₂
      rw [← hfloor]
      exact Nat.ne_of_gt (Nat.floor_pos.mpr hone)

theorem le_exponentOf_of_one_le (spec : Format) {x : ℚ} (hx : 1 ≤ x) :
    -(spec.mantissaBits : Int) ≤ exponentOf spec x := by
  have hlog : 0 ≤ Int.log 2 x := by
    rw [Int.log_of_one_le_right 2 hx]
    exact Int.natCast_nonneg _
  have hle := log_le_exponentOf spec x
  omega

/-- Within the range in which it is computed, a decimal number is rounded once. -/
theorem ofScientific_eq_nearest (spec : Format) (m : Nat) (e : Int) (hm : 0 < m)
    (hhigh : e ≤ 2 ^ spec.exponentBits) (hlow : -((2 ^ spec.exponentBits : Int) + m.log2) ≤ e) :
    UnpackedFloat.ofScientific spec m e = nearest spec .positive (m * 10 ^ e) := by
  rw [UnpackedFloat.ofScientific, dif_neg (Nat.ne_of_gt hm), if_neg (not_lt.mpr hhigh),
    if_neg (not_lt.mpr hlow)]
  by_cases he : 0 ≤ e
  · obtain ⟨k, rfl⟩ := Int.eq_ofNat_of_zero_le he
    have hvalue : ((m <<< spec.mantissaBits * 10 ^ k : Nat) : ℚ) * 2 ^ (-(spec.mantissaBits : Int)) =
        m * 10 ^ (k : Int) := by
      rw [Nat.shiftLeft_eq, zpow_neg, zpow_natCast, zpow_natCast]
      push_cast
      field_simp
    have hone : 1 ≤ (m : ℚ) * 10 ^ (k : Int) := by
      rw [zpow_natCast]
      exact_mod_cast Nat.mul_pos hm (Nat.pow_pos (by decide))
    have hexact := roundWithAccuracy_exact spec .positive (m <<< spec.mantissaBits * 10 ^ k)
      (-(spec.mantissaBits : Int)) (by rw [Nat.shiftLeft_eq]; positivity)
      (by rw [hvalue]; exact le_exponentOf_of_one_le spec hone)
    rw [hvalue] at hexact
    rw [if_pos he, ← hexact]
    simp only [UnpackedFloat.mul, Int.toNat_natCast, Int.add_zero]
    rfl
  · have hquotient := div_eq_nearest spec .positive .positive m (10 ^ (-e).toNat) 0 0 hm
      (Nat.pow_pos (by decide))
    have hvalue : (m : ℚ) * 2 ^ (0 : Int) / (((10 ^ (-e).toNat : Nat) : ℚ) * 2 ^ (0 : Int)) =
        m * 10 ^ e := by
      obtain ⟨k, hk⟩ := Int.eq_ofNat_of_zero_le (show 0 ≤ -e by omega)
      rw [hk, Int.toNat_natCast, show e = -(k : Int) by omega, zpow_neg, zpow_natCast]
      push_cast
      simp [div_eq_mul_inv]
    rw [hvalue] at hquotient
    rw [if_neg he]
    exact hquotient

end ScriptedActors.Decimal
