import ScriptedActors.Proofs.Decimal.Scientific

set_option autoImplicit false

/-!
# Decimal literals

A short literal is computed by one operation on two numbers that the format has exactly, any other
one from its definition. Both give the nearest number.
-/
namespace ScriptedActors.Decimal
open Float.Model UnpackedFloat

variable {spec : Format}

theorem exponentOf_natCast_mul (m : Nat) (e : Int) (hm : 0 < m) :
    exponentOf spec (m * 2 ^ e) = spec.targetExponent (totalExponent m e) := by
  rw [totalExponent_natCast m e hm]
  rfl

theorem round_eq_nearest (sign : Sign) (m : Nat) (e : Int) (hm : 0 < m) :
    UnpackedFloat.round spec sign m e = nearest spec sign (m * 2 ^ e) := by
  generalize htarget : spec.targetExponent (totalExponent m e) = t
  generalize hk : (e - t).toNat = k
  have hvalue : ((m * 2 ^ k : Nat) : ℚ) * 2 ^ (e - k) = m * 2 ^ e := by
    rw [zpow_sub₀ (by norm_num), zpow_natCast]
    push_cast
    field_simp
  have hfine : e - k ≤ exponentOf spec (m * 2 ^ e) := by
    rw [exponentOf_natCast_mul m e hm, htarget]
    omega
  have hexact := roundWithAccuracy_exact spec sign (m * 2 ^ k) (e - k) (by positivity)
    (by rw [hvalue]; exact hfine)
  rw [hvalue] at hexact
  rw [← hexact]
  simp only [UnpackedFloat.round, decreaseExponent, htarget, hk, Nat.shiftLeft_eq]

/-- A number with all digits of the mantissa makes a product that is rounded from its exact value. -/
theorem mul_eq_nearest (s₁ s₂ : Sign) (m₁ m₂ : Nat) (e₁ e₂ : Int) (h₁ : 0 < m₁) (h₂ : 0 < m₂)
    (hm : spec.mantissaBits ≤ m₁.log2 + 1) :
    UnpackedFloat.mul spec (.finite s₁ m₁ e₁ h₁) (.finite s₂ m₂ e₂ h₂) =
      nearest spec (s₁ * s₂) (((m₁ : ℚ) * 2 ^ e₁) * (m₂ * 2 ^ e₂)) := by
  have hpos : 0 < m₁ * m₂ := Nat.mul_pos h₁ h₂
  have hvalue : ((m₁ * m₂ : Nat) : ℚ) * 2 ^ (e₁ + e₂) = ((m₁ : ℚ) * 2 ^ e₁) * (m₂ * 2 ^ e₂) := by
    rw [zpow_add₀ (by norm_num)]
    push_cast
    ring
  have hlog : m₁.log2 ≤ (m₁ * m₂).log2 := by
    rw [Nat.le_log2 (by omega)]
    exact (Nat.log2_self_le (by omega)).trans (Nat.le_mul_of_pos_right m₁ h₂)
  have hexact := roundWithAccuracy_exact spec (s₁ * s₂) (m₁ * m₂) (e₁ + e₂) hpos
    (by
      rw [exponentOf_natCast_mul _ _ hpos]
      unfold Format.targetExponent totalExponent
      omega)
  rw [hvalue] at hexact
  exact hexact

theorem log2_mul_two_pow (n k : Nat) (hn : 0 < n) : (n * 2 ^ k).log2 = n.log2 + k := by
  have hpos : 0 < n * 2 ^ k := by positivity
  rw [Nat.log2_eq_iff (by omega), Nat.add_right_comm, Nat.pow_add, Nat.pow_add]
  exact ⟨Nat.mul_le_mul_right _ (Nat.log2_self_le (by omega)),
    Nat.mul_lt_mul_of_pos_right Nat.lt_log2_self (by positivity)⟩

theorem ofNat_eq_nearest (n : Nat) (hn : 0 < n) :
    UnpackedFloat.ofNat spec n = nearest spec .positive n := by
  have hcompare : compare (n : Int) 0 = .gt := by
    rw [Int.compare_eq_gt]
    omega
  have hround : UnpackedFloat.round spec .positive n 0 = _ := round_eq_nearest .positive n 0 hn
  rw [zpow_zero, mul_one] at hround
  rw [UnpackedFloat.ofNat, UnpackedFloat.ofInt, UnpackedFloat.normalize, hcompare]
  exact hround

theorem unpack_pack_ofNat (hspec : Wide spec) (n : Nat) (hn : 0 < n) (hlt : n < 2 ^ spec.mantissaBits) :
    ∃ m e, ∃ h : 0 < m, UnpackedFloat.unpack spec (UnpackedFloat.pack spec (UnpackedFloat.ofNat spec n)) =
      .finite .positive m e h ∧ (m : ℚ) * 2 ^ e = n ∧ spec.mantissaBits ≤ m.log2 + 1 := by
  have hlog : n.log2 < spec.mantissaBits := (Nat.log2_lt (by omega)).mpr hlt
  obtain ⟨k, hk⟩ : ∃ k, spec.mantissaBits = n.log2 + 1 + k := ⟨spec.mantissaBits - (n.log2 + 1), by omega⟩
  have hlog2 := log2_mul_two_pow n k hn
  have hcanonical : IsCanonical spec (n * 2 ^ k) (-k) := by
    have hwide : (2 : Int) ^ 1 ≤ 2 ^ (spec.exponentBits - 1) :=
      pow_le_pow_right₀ (by norm_num) (by have := hspec.bits; omega)
    refine ⟨by positivity, ?_⟩
    unfold Format.targetExponent totalExponent Format.minExponent
    rw [hlog2]
    omega
  have hvalue : ((n * 2 ^ k : Nat) : ℚ) * 2 ^ (-(k : Int)) = n := by
    rw [zpow_neg, zpow_natCast]
    push_cast
    field_simp
  have hrange : InRange spec (-k) := by
    have hmantissa := hspec.mantissa
    have hbits := two_pow_exponentBits spec
    have hpos : 1 ≤ 2 ^ (spec.exponentBits - 1) := Nat.one_le_two_pow
    unfold InRange biased Format.exponentBias
    unfold Format.mantissaBits at hmantissa
    omega
  have hofNat : UnpackedFloat.ofNat spec n = .finite .positive (n * 2 ^ k) (-k) hcanonical.pos := by
    rw [ofNat_eq_nearest n hn, ← hcanonical.nearest_eq, hvalue]
  refine ⟨n * 2 ^ k, -k, hcanonical.pos, ?_, hvalue, by omega⟩
  rw [hofNat, hcanonical.unpack_pack .positive hrange]

/-- The number of the format whose value is a power of ten. -/
def IsPowerOfTen (u : UnpackedFloat) (e : Nat) : Prop :=
  ∃ m q, ∃ h : 0 < m, u = .finite .positive m q h ∧ (m : ℚ) * 2 ^ q = 10 ^ e

theorem quotient_eq_nearest (hspec : Wide spec) (n e : Nat) (hn : 0 < n) (hlt : n < 2 ^ spec.mantissaBits)
    {u : UnpackedFloat} (hu : IsPowerOfTen u e) :
    UnpackedFloat.div spec
        (UnpackedFloat.unpack spec (UnpackedFloat.pack spec (UnpackedFloat.ofNat spec n))) u =
      nearest spec .positive (n * 10 ^ (-(e : Int))) := by
  obtain ⟨m₁, e₁, h₁, hunpack, hvalue₁, -⟩ := unpack_pack_ofNat hspec n hn hlt
  obtain ⟨m₂, e₂, h₂, rfl, hvalue₂⟩ := hu
  rw [hunpack, div_eq_nearest, hvalue₁, hvalue₂, zpow_neg, zpow_natCast, div_eq_mul_inv]
  rfl

theorem product_eq_nearest (hspec : Wide spec) (n e : Nat) (hn : 0 < n) (hlt : n < 2 ^ spec.mantissaBits)
    {u : UnpackedFloat} (hu : IsPowerOfTen u e) :
    UnpackedFloat.mul spec
        (UnpackedFloat.unpack spec (UnpackedFloat.pack spec (UnpackedFloat.ofNat spec n))) u =
      nearest spec .positive (n * 10 ^ (e : Int)) := by
  obtain ⟨m₁, e₁, h₁, hunpack, hvalue₁, hlog⟩ := unpack_pack_ofNat hspec n hn hlt
  obtain ⟨m₂, e₂, h₂, rfl, hvalue₂⟩ := hu
  rw [hunpack, mul_eq_nearest _ _ _ _ _ _ h₁ h₂ hlog, hvalue₁, hvalue₂, zpow_natCast]
  rfl

def hasValueTen (u : UnpackedFloat) (e : Nat) : Bool :=
  match u with
  | .finite .positive m q _ => m * 2 ^ q.toNat == 10 ^ e * 2 ^ (-q).toNat
  | _ => false

theorem isPowerOfTen_of_value {u : UnpackedFloat} {e : Nat} (h : hasValueTen u e = true) :
    IsPowerOfTen u e := by
  unfold hasValueTen at h
  split at h
  · rename_i m q hm
    refine ⟨m, q, hm, rfl, ?_⟩
    rw [beq_iff_eq] at h
    have hcast : (m : ℚ) * 2 ^ q.toNat = 10 ^ e * 2 ^ (-q).toNat := by exact_mod_cast h
    have hsplit : (2 : ℚ) ^ q * 2 ^ (-q).toNat = 2 ^ q.toNat := by
      rw [← zpow_natCast, ← zpow_natCast, ← zpow_add₀ (by norm_num)]
      congr 1
      omega
    have hne : (2 : ℚ) ^ (-q).toNat ≠ 0 := by positivity
    refine mul_right_cancel₀ hne ?_
    rw [mul_assoc, hsplit, hcast]
  · cases h

theorem hasValueTen_table : ∀ i : Fin Float.exactlyRepresentablePowersOfTen.size,
    hasValueTen Float.exactlyRepresentablePowersOfTen[i].toModel.unpack i = true := by
  decide

theorem hasValueTen_table32 : ∀ i : Fin Float32.exactlyRepresentablePowersOfTen.size,
    hasValueTen Float32.exactlyRepresentablePowersOfTen[i].toModel.unpack i = true := by
  decide

theorem pack_congr {u v : UnpackedFloat}
    (h : UnpackedFloat.pack .binary64 u = UnpackedFloat.pack .binary64 v) :
    Float.Model.pack u = Float.Model.pack v := by
  simp only [Float.Model.pack, h]

theorem pack32_congr {u v : UnpackedFloat}
    (h : UnpackedFloat.pack .binary32 u = UnpackedFloat.pack .binary32 v) :
    Float32.Model.pack u = Float32.Model.pack v := by
  simp only [Float32.Model.pack, h]

def literalExponent (negative : Bool) (e : Nat) : Int := if negative then -(e : Int) else e

theorem toNat_toUInt64 {n : Nat} (h : n < 2 ^ 53) : n.toUInt64.toNat = n := by
  rw [Nat.toUInt64_eq, UInt64.toNat_ofNat']
  exact Nat.mod_eq_of_lt (by omega)

/-- A literal is the nearest number of 64 bits. -/
theorem float_ofScientific (n : Nat) (negative : Bool) (e : Nat) (hn : 0 < n) :
    Float.ofScientific n negative e = .ofModel (Float.Model.pack
      (nearest .binary64 .positive (n * 10 ^ literalExponent negative e))) := by
  rw [Float.ofScientific]
  by_cases hshort : n < 2 ^ 53 ∧ e ≤ 22
  · have htable := isPowerOfTen_of_value (hasValueTen_table ⟨e, Nat.lt_succ_of_le hshort.2⟩)
    have htoNat := toNat_toUInt64 hshort.1
    have hnat : n.toUInt64.toFloat = .ofModel (Float.Model.pack (UnpackedFloat.ofNat .binary64 n)) := by
      change Float.ofModel (Float.Model.pack (UnpackedFloat.ofNat .binary64 n.toUInt64.toNat)) = _
      rw [htoNat]
    rw [dif_pos hshort, hnat]
    cases negative with
    | true =>
      have hquotient := quotient_eq_nearest wide_binary64 n e hn hshort.1 htable
      exact congrArg (fun u => Float.ofModel (Float.Model.pack u)) hquotient
    | false =>
      have hproduct := product_eq_nearest wide_binary64 n e hn hshort.1 htable
      exact congrArg (fun u => Float.ofModel (Float.Model.pack u)) hproduct
  · have hexponent : (if negative = true then Int.negOfNat e else Int.ofNat e) =
        literalExponent negative e := by
      cases negative with
      | true => exact Int.negOfNat_eq
      | false => rfl
    rw [dif_neg hshort, hexponent]
    exact congrArg Float.ofModel (pack_congr (pack_ofScientific wide_binary64 n _ hn))

theorem float32_ofScientific (n : Nat) (negative : Bool) (e : Nat) (hn : 0 < n) :
    Float32.ofScientific n negative e = .ofModel (Float32.Model.pack
      (nearest .binary32 .positive (n * 10 ^ literalExponent negative e))) := by
  rw [Float32.ofScientific]
  by_cases hshort : n < 2 ^ 23 ∧ e ≤ 10
  · have hlt : n < 2 ^ Format.binary32.mantissaBits := hshort.1.trans (by decide)
    have htable := isPowerOfTen_of_value (hasValueTen_table32 ⟨e, Nat.lt_succ_of_le hshort.2⟩)
    have htoNat := toNat_toUInt64 (hshort.1.trans (by decide))
    have hnat : n.toUInt64.toFloat32 = .ofModel (Float32.Model.pack (UnpackedFloat.ofNat .binary32 n)) := by
      change Float32.ofModel (Float32.Model.pack (UnpackedFloat.ofNat .binary32 n.toUInt64.toNat)) = _
      rw [htoNat]
    rw [dif_pos hshort, hnat]
    cases negative with
    | true =>
      have hquotient := quotient_eq_nearest wide_binary32 n e hn hlt htable
      exact congrArg (fun u => Float32.ofModel (Float32.Model.pack u)) hquotient
    | false =>
      have hproduct := product_eq_nearest wide_binary32 n e hn hlt htable
      exact congrArg (fun u => Float32.ofModel (Float32.Model.pack u)) hproduct
  · have hexponent : (if negative = true then Int.negOfNat e else Int.ofNat e) =
        literalExponent negative e := by
      cases negative with
      | true => exact Int.negOfNat_eq
      | false => rfl
    rw [dif_neg hshort, hexponent]
    exact congrArg Float32.ofModel (pack32_congr (pack_ofScientific wide_binary32 n _ hn))

end ScriptedActors.Decimal
