import ScriptedActors.Proofs.Decimal.Packing

set_option autoImplicit false

/-!
# The bits of decimal numbers

A decimal number whose power of ten is far out of the range of the format is not computed. The
bits are still those of the nearest number, so they depend on the value alone: digits and exponent
may be traded against each other.
-/
namespace ScriptedActors.Decimal
open Float.Model UnpackedFloat

variable {spec : Format}

theorem le_log_of_zpow_le {x : ℚ} (hx : 0 < x) {k : Int} (h : 2 ^ k ≤ x) : k ≤ Int.log 2 x := by
  have hiff := Int.zpow_le_iff_le_log (b := 2) (x := k) (by norm_num) hx
  push_cast at hiff
  exact hiff.mp h

theorem pack_nearest_of_large (s : Sign) {x : ℚ} (h : (2 : ℚ) ^ (2 ^ (spec.exponentBits - 1)) ≤ x) :
    UnpackedFloat.pack spec (nearest spec s x) = packedInfinity spec s := by
  have hx : 0 < x := lt_of_lt_of_le (by positivity) h
  have hlog : ((2 ^ (spec.exponentBits - 1) : Nat) : Int) ≤ Int.log 2 x := by
    refine le_log_of_zpow_le hx ?_
    rw [zpow_natCast]
    exact h
  have hexponent := log_le_exponentOf spec x
  have hbits := two_pow_exponentBits spec
  have hpos : 1 ≤ 2 ^ (spec.exponentBits - 1) := Nat.one_le_two_pow
  have hbias : (spec.exponentBias : Int) = ((2 ^ (spec.exponentBits - 1) : Nat) : Int) - 1 := by
    unfold Format.exponentBias
    omega
  have hout (e : Int) (he : exponentOf spec x ≤ e) : 0 ≤ biased spec e ∧ ¬ InRange spec e := by
    unfold InRange biased Format.mantissaBits at *
    omega
  rcases nearest_cases spec s hx with ⟨hzero, -⟩ | ⟨hm, -, hnearest⟩ | ⟨-, hnearest⟩
  · exfalso
    -- The number has digits in front of the point at its exponent.
    have hfloor := (roundedMantissa_bounds (residual (x / 2 ^ exponentOf spec x))).1
    change ⌊x / 2 ^ exponentOf spec x⌋₊ ≤ mantissaOf spec x at hfloor
    have hle : exponentOf spec x ≤ Int.log 2 x := by
      have hmin : spec.minExponent ≤ 0 := by
        have hpow : (1 : Int) ≤ 2 ^ (spec.exponentBits - 1) := one_le_pow₀ (by norm_num)
        have hm := spec.hm
        unfold Format.minExponent Format.mantissaBits
        omega
      unfold exponentOf Format.targetExponent Format.mantissaBits
      omega
    have hone : 1 ≤ x / 2 ^ exponentOf spec x := by
      rw [le_div_iff₀ (by positivity), one_mul]
      exact (zpow_le_zpow_right₀ (by norm_num) hle).trans (zpow_log_le hx)
    have hpositive := Nat.floor_pos.mpr hone
    omega
  · obtain ⟨hbiased, hrange⟩ := hout (exponentOf spec x) le_rfl
    rw [hnearest, pack_eq_infinity s _ _ hm hbiased hrange]
  · obtain ⟨hbiased, hrange⟩ := hout (exponentOf spec x + 1) (by omega)
    rw [hnearest, pack_eq_infinity s _ _ _ hbiased hrange]

/-- A format whose mantissa is not longer than its exponents reach, so that decimal numbers that
are not computed are beyond its range. -/
structure Wide (spec : Format) : Prop where
  bits : 2 ≤ spec.exponentBits
  mantissa : spec.mantissaBits ≤ 2 ^ (spec.exponentBits - 1)

theorem wide_binary64 : Wide .binary64 := ⟨by decide, by decide⟩

theorem wide_binary32 : Wide .binary32 := ⟨by decide, by decide⟩

theorem two_zpow_le_ten_zpow {e : Int} (he : 0 ≤ e) : (2 : ℚ) ^ e ≤ 10 ^ e := by
  obtain ⟨k, rfl⟩ := Int.eq_ofNat_of_zero_le he
  rw [zpow_natCast, zpow_natCast]
  exact pow_le_pow_left₀ (by norm_num) (by norm_num) k

theorem ten_zpow_le_two_zpow {e : Int} (he : e ≤ 0) : (10 : ℚ) ^ e ≤ 2 ^ (3 * e) := by
  obtain ⟨k, hk⟩ := Int.eq_ofNat_of_zero_le (show 0 ≤ -e by omega)
  rw [show e = -(k : Int) by omega, zpow_mul, zpow_neg, zpow_neg, zpow_natCast, zpow_natCast]
  exact inv_anti₀ (by positivity) (pow_le_pow_left₀ (by norm_num) (by norm_num) k)

theorem lt_two_zpow_log2 {m : Nat} : (m : ℚ) < 2 ^ ((m.log2 : Int) + 1) := by
  have h := Nat.lt_log2_self (n := m)
  rw [show (m.log2 : Int) + 1 = ((m.log2 + 1 : Nat) : Int) by push_cast; rfl, zpow_natCast]
  exact_mod_cast h

theorem pack_ofScientific (hspec : Wide spec) (m : Nat) (e : Int) (hm : 0 < m) :
    UnpackedFloat.pack spec (UnpackedFloat.ofScientific spec m e) =
      UnpackedFloat.pack spec (nearest spec .positive (m * 10 ^ e)) := by
  have hone : (1 : ℚ) ≤ m := by exact_mod_cast hm
  have hpow : (2 : Int) ^ spec.exponentBits = 2 * 2 ^ (spec.exponentBits - 1) := by
    exact_mod_cast two_pow_exponentBits spec
  by_cases hhigh : e > 2 ^ spec.exponentBits
  · have hpos : (0 : Int) ≤ 2 ^ (spec.exponentBits - 1) := by positivity
    have hnonneg : 0 ≤ e := by omega
    have hlarge : (2 : ℚ) ^ (2 ^ (spec.exponentBits - 1)) ≤ m * 10 ^ e := by
      have he : ((2 ^ (spec.exponentBits - 1) : Nat) : Int) ≤ e := by
        push_cast
        omega
      calc (2 : ℚ) ^ (2 ^ (spec.exponentBits - 1))
          = 2 ^ ((2 ^ (spec.exponentBits - 1) : Nat) : Int) := (zpow_natCast _ _).symm
        _ ≤ 2 ^ e := zpow_le_zpow_right₀ (by norm_num) he
        _ ≤ 10 ^ e := two_zpow_le_ten_zpow hnonneg
        _ ≤ m * 10 ^ e := le_mul_of_one_le_left (by positivity) hone
    rw [UnpackedFloat.ofScientific, dif_neg (Nat.ne_of_gt hm), if_pos hhigh, pack_nearest_of_large _ hlarge]
    rfl
  · by_cases hlow : e < -((2 ^ spec.exponentBits : Int) + m.log2)
    · have htiny : (m : ℚ) * 10 ^ e < 2 ^ (spec.minExponent - 1) := by
        have hexponent : ((m.log2 : Int) + 1) + 3 * e ≤ spec.minExponent - 1 := by
          have hmantissa : (spec.mantissaBits : Int) ≤ 2 ^ (spec.exponentBits - 1) := by
            exact_mod_cast hspec.mantissa
          have hpos : (0 : Int) ≤ 2 ^ (spec.exponentBits - 1) := by positivity
          unfold Format.minExponent
          omega
        calc (m : ℚ) * 10 ^ e < 2 ^ ((m.log2 : Int) + 1) * 10 ^ e :=
              mul_lt_mul_of_pos_right lt_two_zpow_log2 (by positivity)
          _ ≤ 2 ^ ((m.log2 : Int) + 1) * 2 ^ (3 * e) := by
              have hneg : e ≤ 0 := by
                have hpos : (0 : Int) ≤ 2 ^ spec.exponentBits := by positivity
                omega
              exact mul_le_mul_of_nonneg_left (ten_zpow_le_two_zpow hneg) (by positivity)
          _ = 2 ^ (((m.log2 : Int) + 1) + 3 * e) := (zpow_add₀ (by norm_num) _ _).symm
          _ ≤ 2 ^ (spec.minExponent - 1) := zpow_le_zpow_right₀ (by norm_num) hexponent
      rw [UnpackedFloat.ofScientific, dif_neg (Nat.ne_of_gt hm), if_neg hhigh, if_pos hlow,
        nearest_of_tiny spec .positive (by positivity) htiny]
    · rw [ofScientific_eq_nearest spec m e hm (not_lt.mp hhigh) (not_lt.mp hlow)]

end ScriptedActors.Decimal
