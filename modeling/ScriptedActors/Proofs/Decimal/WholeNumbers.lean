import ScriptedActors.Arithmetic
import ScriptedActors.Proofs.Decimal.Literals

set_option autoImplicit false

/-!
# Whole numbers

A whole number below the size of a mantissa is held exactly: it is its own floor, its block is the
number itself, and the sum of two of them is exact as long as it is such a number again.
-/
namespace ScriptedActors.Decimal
open Float.Model UnpackedFloat Arithmetic

def signedValue (s : Sign) (m : Nat) (e : Int) : ℚ := (s.apply m : Int) * 2 ^ e

theorem signedValue_positive (m : Nat) (e : Int) : signedValue .positive m e = m * 2 ^ e := by
  rw [signedValue, Sign.apply, Int.cast_natCast]

theorem signedValue_negative (m : Nat) (e : Int) : signedValue .negative m e = -(m * 2 ^ e) := by
  rw [signedValue, Sign.apply, Int.cast_neg, Int.cast_natCast, neg_mul]

def signedNearest (spec : Format) (x : ℚ) : UnpackedFloat :=
  if x = 0 then .zero .positive
  else if x < 0 then nearest spec .negative (-x) else nearest spec .positive x

theorem signedNearest_of_pos (spec : Format) {x : ℚ} (hx : 0 < x) :
    signedNearest spec x = nearest spec .positive x := by
  rw [signedNearest, if_neg hx.ne', if_neg hx.le.not_gt]

theorem signedNearest_of_neg (spec : Format) {x : ℚ} (hx : x < 0) :
    signedNearest spec x = nearest spec .negative (-x) := by
  rw [signedNearest, if_neg hx.ne, if_pos hx]

theorem signedNearest_zero (spec : Format) : signedNearest spec 0 = .zero .positive := if_pos rfl

theorem IsCanonical.signedNearest_eq {spec : Format} {m : Nat} {e : Int} (h : IsCanonical spec m e)
    (s : Sign) : signedNearest spec (signedValue s m e) = .finite s m e h.pos := by
  have hpos : (0 : ℚ) < m * 2 ^ e := mul_pos (by exact_mod_cast h.pos) (by positivity)
  cases s with
  | negative =>
    rw [signedValue_negative, signedNearest_of_neg _ (neg_neg_of_pos hpos), neg_neg, h.nearest_eq]
  | positive => rw [signedValue_positive, signedNearest_of_pos _ hpos, h.nearest_eq]

theorem normalize_eq_signedNearest (spec : Format) (m e : Int) :
    UnpackedFloat.normalize spec m e .positive = signedNearest spec (m * 2 ^ e) := by
  have hpow : (0 : ℚ) < 2 ^ e := by positivity
  rcases Int.lt_trichotomy m 0 with hlt | rfl | hgt
  · obtain ⟨n, hn⟩ := Int.eq_ofNat_of_zero_le (show 0 ≤ -m by omega)
    have hx : (m : ℚ) * 2 ^ e < 0 := mul_neg_of_neg_of_pos (by exact_mod_cast hlt) hpow
    have hcast : -((m : ℚ) * 2 ^ e) = n * 2 ^ e := by
      rw [← neg_mul, ← Int.cast_neg, hn, Int.cast_natCast]
    rw [UnpackedFloat.normalize, Int.compare_eq_lt.mpr hlt, signedNearest_of_neg spec hx, hcast, hn]
    exact round_eq_nearest .negative n e (by omega)
  · rw [Int.cast_zero, zero_mul, signedNearest_zero]
    rfl
  · obtain ⟨n, rfl⟩ := Int.eq_ofNat_of_zero_le hgt.le
    have hx : (0 : ℚ) < ((n : Int) : ℚ) * 2 ^ e := mul_pos (by exact_mod_cast hgt) hpow
    rw [UnpackedFloat.normalize, Int.compare_eq_gt.mpr hgt, signedNearest_of_pos spec hx,
      Int.cast_natCast]
    exact round_eq_nearest .positive n e (by omega)

theorem apply_decreaseExponent (s : Sign) (m : Nat) {e t : Int} (h : t ≤ e) :
    ((s.apply (decreaseExponent m e t).1 : Int) : ℚ) * 2 ^ t = signedValue s m e := by
  obtain ⟨k, hk⟩ := Int.eq_ofNat_of_zero_le (Int.sub_nonneg.mpr h)
  have hpow : (2 : ℚ) ^ e = 2 ^ k * 2 ^ t := by
    rw [← zpow_natCast, ← zpow_add₀ (by norm_num)]
    congr 1
    omega
  rw [signedValue, hpow, decreaseExponent, hk, Int.toNat_natCast, Nat.shiftLeft_eq]
  cases s <;>
    · simp only [Sign.apply]
      push_cast
      ring

/-- A sum is rounded once, from its exact value. -/
theorem add_eq_signedNearest (spec : Format) (s₁ s₂ : Sign) (m₁ m₂ : Nat) (e₁ e₂ : Int) (h₁ : 0 < m₁)
    (h₂ : 0 < m₂) :
    UnpackedFloat.add spec (.finite s₁ m₁ e₁ h₁) (.finite s₂ m₂ e₂ h₂) =
      signedNearest spec (signedValue s₁ m₁ e₁ + signedValue s₂ m₂ e₂) := by
  have hsum := normalize_eq_signedNearest spec
    (s₁.apply (decreaseExponent m₁ e₁ (min e₁ e₂)).1 + s₂.apply (decreaseExponent m₂ e₂ (min e₁ e₂)).1)
    (min e₁ e₂)
  rw [Int.cast_add, add_mul, apply_decreaseExponent s₁ m₁ (min_le_left _ _),
    apply_decreaseExponent s₂ m₂ (min_le_right _ _)] at hsum
  exact hsum

/-- The whole number is held exactly. -/
inductive IsWhole (n : Int) : UnpackedFloat → Prop
  | zero : n = 0 → IsWhole n (.zero .positive)
  | finite (s : Sign) (m : Nat) (e : Int) (h : IsCanonical .binary64 m e) :
      InRange .binary64 e → signedValue s m e = n → IsWhole n (.finite s m e h.pos)

theorem floorOf_eq {n : Int} {s : Sign} {m : Nat} {e : Int} (h : signedValue s m e = n) :
    floorOf s m e = n := by
  rw [signedValue] at h
  by_cases he : 0 ≤ e
  · obtain ⟨t, rfl⟩ := Int.eq_ofNat_of_zero_le he
    rw [zpow_natCast] at h
    have hexact : s.apply m * 2 ^ t = n := by exact_mod_cast h
    have hzero : (-(t : Int)).toNat = 0 := by omega
    rw [floorOf, hzero, Int.toNat_natCast, Nat.shiftLeft_eq, ← hexact]
    cases s <;> simp [Sign.apply]
  · obtain ⟨t, ht⟩ := Int.eq_ofNat_of_zero_le (show 0 ≤ -e by omega)
    obtain rfl : e = -(t : Int) := by omega
    have hzero : (-(t : Int)).toNat = 0 := by omega
    have hexact : s.apply m = n * 2 ^ t := by
      rw [zpow_neg, zpow_natCast, ← div_eq_mul_inv, div_eq_iff (by positivity)] at h
      exact_mod_cast h
    rw [floorOf, hzero, neg_neg, Int.toNat_natCast, Nat.shiftLeft_zero, hexact, Nat.one_shiftLeft]
    push_cast
    exact Int.mul_ediv_cancel _ (by positivity)

namespace IsWhole
variable {n k : Int} {u v : UnpackedFloat}

theorem unpack_pack (h : IsWhole n u) :
    UnpackedFloat.unpack .binary64 (UnpackedFloat.pack .binary64 u) = u := by
  cases h with
  | zero => exact unpack_zero .positive
  | finite s m e hcanonical hrange => exact hcanonical.unpack_pack s hrange

theorem eq_signedNearest (h : IsWhole n u) : u = signedNearest .binary64 n := by
  cases h with
  | zero hn => rw [hn, Int.cast_zero, signedNearest_zero]
  | finite s m e hcanonical hrange hvalue => rw [← hvalue, hcanonical.signedNearest_eq]

theorem add (hu : IsWhole n u) (hv : IsWhole k v) :
    UnpackedFloat.add .binary64 u v = signedNearest .binary64 ((n + k : Int) : ℚ) := by
  rw [Int.cast_add]
  cases hu with
  | zero hn =>
    rw [hn, Int.cast_zero, zero_add, ← hv.eq_signedNearest]
    cases hv <;> rfl
  | finite s₁ m₁ e₁ h₁ hrange hvalue₁ =>
    cases hv with
    | zero hk =>
      rw [hk, Int.cast_zero, add_zero, ← hvalue₁, h₁.signedNearest_eq]
      rfl
    | finite s₂ m₂ e₂ h₂ _ hvalue₂ => rw [add_eq_signedNearest, hvalue₁, hvalue₂]

end IsWhole

theorem exists_canonical {n : Nat} (hn : 0 < n) (hlt : n < 2 ^ 53) :
    ∃ m e, IsCanonical .binary64 m e ∧ InRange .binary64 e ∧ (m : ℚ) * 2 ^ e = n := by
  obtain ⟨m, e, h, hunpack, hvalue, -⟩ := unpack_pack_ofNat wide_binary64 n hn hlt
  obtain ⟨hcanonical, hrange⟩ := isCanonical_of_unpack (by decide) _ hunpack
  exact ⟨m, e, hcanonical, hrange, hvalue⟩

theorem float_ofNat {n : Nat} (hn : 0 < n) :
    Float.ofNat n = .ofModel (Float.Model.pack (nearest .binary64 .positive n)) := by
  have hliteral := float_ofScientific n false 0 hn
  rw [show literalExponent false 0 = 0 from rfl, zpow_zero, mul_one] at hliteral
  exact hliteral

/-- Whole numbers below the size of a mantissa are held exactly. -/
theorem isWhole_ofInt {n : Int} (hlow : -2 ^ 53 < n) (hhigh : n < 2 ^ 53) :
    ∃ u, IsWhole n u ∧ Float.ofInt n = .ofModel (Float.Model.pack u) := by
  rcases Int.lt_trichotomy n 0 with hlt | rfl | hgt
  · obtain ⟨k, rfl⟩ := Int.eq_negSucc_of_lt_zero hlt
    obtain ⟨m, e, hcanonical, hrange, hvalue⟩ := exists_canonical (n := k + 1) (by omega) (by omega)
    refine ⟨_, .finite .negative m e hcanonical hrange ?_, ?_⟩
    · rw [signedValue_negative, hvalue, Int.cast_negSucc]
    · have hpack := float_ofNat (n := k + 1) (by omega)
      rw [← hvalue, hcanonical.nearest_eq] at hpack
      have hunpack := hcanonical.unpack_pack .positive hrange
      change Float.neg (Float.ofNat (k + 1)) = _
      rw [hpack]
      change Float.ofModel (Float.Model.pack (UnpackedFloat.neg (UnpackedFloat.unpack .binary64
        (UnpackedFloat.pack .binary64 _)))) = _
      rw [hunpack]
      rfl
  · exact ⟨_, .zero rfl, by decide⟩
  · obtain ⟨k, rfl⟩ := Int.eq_ofNat_of_zero_le hgt.le
    obtain ⟨m, e, hcanonical, hrange, hvalue⟩ := exists_canonical (n := k) (by omega) (by omega)
    refine ⟨_, .finite .positive m e hcanonical hrange ?_, ?_⟩
    · rw [signedValue_positive, hvalue, Int.cast_natCast]
    · rw [← hcanonical.nearest_eq, hvalue]
      exact float_ofNat (by omega)

section
variable {n : Int} (hlow : -2 ^ 53 < n) (hhigh : n < 2 ^ 53)
include hlow hhigh

theorem isWhole_unpack : IsWhole n (Float.ofInt n).toModel.unpack := by
  obtain ⟨u, hu, hofInt⟩ := isWhole_ofInt hlow hhigh
  have hunpack : (Float.ofInt n).toModel.unpack =
      UnpackedFloat.unpack .binary64 (UnpackedFloat.pack .binary64 u) := by rw [hofInt]; rfl
  rw [hunpack, hu.unpack_pack]
  exact hu

theorem ofInt_eq : Float.ofInt n = .ofModel (Float.Model.pack (signedNearest .binary64 n)) := by
  obtain ⟨u, hu, hofInt⟩ := isWhole_ofInt hlow hhigh
  rw [hofInt, hu.eq_signedNearest]

theorem floor_ofInt : floor (Float.ofInt n) = Float.ofInt n := by
  have hwhole := isWhole_unpack hlow hhigh
  rw [floor]
  split
  · rename_i s m e h hunpack
    rw [hunpack] at hwhole
    cases hwhole with
    | finite s m e hcanonical hrange hvalue => rw [floorOf_eq hvalue, ite_self]
  · rfl

theorem ofInt_beq_self : (Float.ofInt n == Float.ofInt n) = true := by
  have hwhole := isWhole_unpack hlow hhigh
  change (Float.ofInt n).toModel.unpack.beq (Float.ofInt n).toModel.unpack = true
  generalize (Float.ofInt n).toModel.unpack = u at hwhole ⊢
  cases hwhole with
  | zero => rfl
  | finite s m e => cases s <;> simp [UnpackedFloat.beq, UnpackedFloat.compare]

end

theorem ofInt_add_one {n : Int} (hlow : -2 ^ 53 < n) (hhigh : n + 1 < 2 ^ 53) :
    Float.ofInt n + 1 = Float.ofInt (n + 1) := by
  have hsum := (isWhole_unpack hlow (by omega)).add (isWhole_unpack (n := 1) (by decide) (by decide))
  rw [ofInt_eq (n := n + 1) (by omega) hhigh, ← hsum]
  rfl

theorem clampBlock_bounds (n : Int) : minBlock ≤ clampBlock n ∧ clampBlock n ≤ maxBlock := by
  unfold clampBlock minBlock maxBlock
  omega

theorem blockOf_bounds (x : Float) : minBlock ≤ blockOf x ∧ blockOf x ≤ maxBlock := by
  rw [blockOf]
  split
  · decide
  · decide
  · decide
  · decide
  · exact clampBlock_bounds _

theorem blockOf_ofInt {n : Int} (hlow : minBlock ≤ n) (hhigh : n ≤ maxBlock) :
    blockOf (Float.ofInt n) = n := by
  unfold minBlock at hlow
  unfold maxBlock at hhigh
  have hwhole := isWhole_unpack (n := n) (by omega) (by omega)
  rw [blockOf]
  generalize (Float.ofInt n).toModel.unpack = u at hwhole ⊢
  cases hwhole with
  | zero hn => exact hn.symm
  | finite s m e hcanonical hrange hvalue =>
    change clampBlock (floorOf s m e) = n
    rw [floorOf_eq hvalue, clampBlock, minBlock, maxBlock]
    omega

end ScriptedActors.Decimal
