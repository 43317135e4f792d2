import ScriptedActors.Decimal.Shortest
import ScriptedActors.Proofs.Decimal.Scientific

set_option autoImplicit false

/-!
# The fewest digits read back

Whatever digits are chosen for a number of a format, their nearest number is that number: a text
that was found was checked, all digits are exact, and zeros at the end make no difference.
-/
namespace ScriptedActors.Decimal
open Float.Model UnpackedFloat

variable {spec : Format}

namespace Digits

def value (d : Digits) : ℚ := d.digits * 10 ^ d.exponent

/-- The nearest number of the format has these bits. -/
structure ReadsAs (spec : Format) (d : Digits) (bits : BitVec spec.numBits) : Prop where
  pos : 0 < d.digits
  nearest : UnpackedFloat.pack spec (nearest spec .positive d.value) = bits

theorem nearestBits_eq (hspec : Wide spec) (d : Digits) (hd : 0 < d.digits) :
    nearestBits spec d = UnpackedFloat.pack spec (Decimal.nearest spec .positive d.value) :=
  pack_ofScientific hspec d.digits d.exponent hd

theorem value_withoutZeros (limit : Nat) (d : Digits) : (d.withoutZeros limit).value = d.value := by
  induction limit generalizing d with
  | zero => rfl
  | succ limit ih =>
    rw [withoutZeros]
    by_cases hzero : d.digits % 10 = 0
    · have hdigits : (d.digits : ℚ) = (d.digits / 10 : Nat) * 10 := by
        have hdiv : d.digits = d.digits / 10 * 10 := by omega
        exact_mod_cast hdiv
      rw [if_pos hzero, ih, value, value, zpow_add_one₀ (by norm_num), hdigits]
      push_cast
      ring
    · rw [if_neg hzero]

theorem withoutZeros_pos (limit : Nat) (d : Digits) (hd : 0 < d.digits) :
    0 < (d.withoutZeros limit).digits := by
  induction limit generalizing d with
  | zero => exact hd
  | succ limit ih =>
    rw [withoutZeros]
    by_cases hzero : d.digits % 10 = 0
    · rw [if_pos hzero]
      exact ih _ (by change 0 < d.digits / 10; omega)
    · rw [if_neg hzero]
      exact hd

theorem value_exact (m : Nat) (q : Int) : (exact m q).value = m * 2 ^ q := by
  rw [exact]
  by_cases hq : 0 ≤ q
  · obtain ⟨k, rfl⟩ := Int.eq_ofNat_of_zero_le hq
    rw [if_pos hq, value, Int.toNat_natCast, Nat.shiftLeft_eq, zpow_zero, zpow_natCast]
    push_cast
    ring
  · obtain ⟨k, hk⟩ := Int.eq_ofNat_of_zero_le (show 0 ≤ -q by omega)
    have hpow : (10 : ℚ) ^ k = 5 ^ k * 2 ^ k := by rw [← mul_pow]; norm_num
    rw [if_neg hq, value, hk, Int.toNat_natCast, Nat.pow_eq, show q = -(k : Int) by omega, zpow_neg, zpow_neg,
      zpow_natCast, zpow_natCast, hpow]
    push_cast
    field_simp

theorem exact_pos (m : Nat) (q : Int) (hm : 0 < m) : 0 < (exact m q).digits := by
  rw [exact]
  split
  · rw [Nat.shiftLeft_eq]
    positivity
  · rw [Nat.pow_eq]
    positivity

theorem nearestBits_of_withDigits {r : Ratio} {wanted : BitVec spec.numBits} {tie : Tie} {n : Nat}
    {d : Digits} (h : r.withDigits wanted tie n = some d) : nearestBits spec d = wanted := by
  simp only [Ratio.withDigits] at h
  split at h
  · rename_i hlow hhigh
    cases h
    have hchoice : ∀ takeLow : Bool, nearestBits spec
        ⟨if takeLow then (r.shiftDecimal (r.leading - n)).num / (r.shiftDecimal (r.leading - n)).den
          else (r.shiftDecimal (r.leading - n)).num / (r.shiftDecimal (r.leading - n)).den + 1,
        r.leading - n⟩ = wanted := by
      intro takeLow
      cases takeLow with
      | true => exact beq_iff_eq.mp hlow
      | false => exact beq_iff_eq.mp hhigh
    exact hchoice _
  · rename_i hlow _
    cases h
    exact beq_iff_eq.mp hlow
  · rename_i _ hhigh
    cases h
    exact beq_iff_eq.mp hhigh
  · cases h

theorem nearestBits_zero (e : Int) : nearestBits spec ⟨0, e⟩ = packedZero spec .positive := rfl

theorem readsAs_shortest (hspec : Wide spec) (tie : Tie) {m : Nat} {q : Int} (h : IsCanonical spec m q)
    (hrange : InRange spec q) : ReadsAs spec (shortest spec tie m q h.pos)
      (UnpackedFloat.pack spec (.finite .positive m q h.pos)) := by
  have hunpack := h.unpack_pack .positive hrange
  generalize hwanted : UnpackedFloat.pack spec (.finite .positive m q h.pos) = wanted at *
  have hchosen : ReadsAs spec (((List.range 17).findSome? fun n =>
      (Ratio.ofBinary m q).withDigits wanted tie n).getD (exact m q)) wanted := by
    cases hfound : (List.range 17).findSome? fun n => (Ratio.ofBinary m q).withDigits wanted tie n with
    | none =>
      refine ⟨exact_pos m q h.pos, ?_⟩
      rw [Option.getD_none, value_exact, h.nearest_eq, hwanted]
    | some d =>
      obtain ⟨n, -, hn⟩ := List.exists_of_findSome?_eq_some hfound
      have hbits := nearestBits_of_withDigits hn
      have hpos : 0 < d.digits := by
        -- No digits would read as zero, which is not the wanted number.
        by_contra hzero
        obtain ⟨digits, exponent⟩ := d
        obtain rfl : digits = 0 := Nat.eq_zero_of_not_pos hzero
        rw [nearestBits_zero] at hbits
        have hunpackZero : UnpackedFloat.unpack spec (packedZero spec .positive) = .zero .positive :=
          unpack_zero .positive
        rw [← hbits, hunpackZero] at hunpack
        cases hunpack
      refine ⟨hpos, ?_⟩
      rw [Option.getD_some, ← nearestBits_eq hspec d hpos, hbits]
  have hshortest : shortest spec tie m q h.pos = withoutZeros
      (digitCount (((List.range 17).findSome? fun n =>
        (Ratio.ofBinary m q).withDigits wanted tie n).getD (exact m q)).digits - 1)
      (((List.range 17).findSome? fun n =>
        (Ratio.ofBinary m q).withDigits wanted tie n).getD (exact m q)) := by
    rw [shortest, hwanted]
  rw [hshortest]
  refine ⟨withoutZeros_pos _ _ hchosen.pos, ?_⟩
  rw [value_withoutZeros]
  exact hchosen.nearest

end Digits
end ScriptedActors.Decimal
