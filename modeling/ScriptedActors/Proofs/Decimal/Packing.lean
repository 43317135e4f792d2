import ScriptedActors.Proofs.Decimal.Nearest

set_option autoImplicit false

/-!
# The bits of a number

A finite number of a format is made of a sign, an exponent and a mantissa, and packing what was
unpacked gives the bits again. A number beyond the largest exponent packs as an infinity.
-/
namespace ScriptedActors.Decimal
open Float.Model UnpackedFloat

theorem finite_congr {s : Sign} {m n : Nat} {e f : Int} (hm : m = n) (he : e = f) (h : 0 < m)
    (k : 0 < n) : UnpackedFloat.finite s m e h = .finite s n f k := by
  subst hm
  subst he
  rfl

theorem ofBitVec_toBitVec (s : Sign) : Sign.ofBitVec s.toBitVec = s := by cases s <;> rfl

theorem toBitVec_ofBitVec (b : BitVec 1) : (Sign.ofBitVec b).toBitVec = b := by
  rw [Sign.ofBitVec]
  by_cases hb : b = 0#1
  · simp [hb, Sign.toBitVec]
  · rw [if_neg hb]
    rcases BitVec.eq_zero_or_eq_one b with h | h
    · exact absurd h hb
    · exact h.symm

variable {spec : Format}

theorem packComponents_unpack (b : BitVec spec.numBits) :
    packComponents spec (Sign.ofBitVec (unpackSign b)) (unpackExponent b) (unpackMantissa b) = b := by
  rw [packComponents, toBitVec_ofBitVec]
  ext i hi
  rw [BitVec.getElem_append]
  by_cases hmantissa : i < spec.mantissaBitsWithoutImplicit
  · rw [dif_pos hmantissa]
    simp [unpackMantissa, BitVec.getLsbD_eq_getElem, hi]
  · rw [dif_neg hmantissa, BitVec.getElem_append]
    by_cases hexponent : i - spec.mantissaBitsWithoutImplicit < spec.exponentBits
    · rw [dif_pos hexponent]
      have hindex : spec.mantissaBitsWithoutImplicit + (i - spec.mantissaBitsWithoutImplicit) = i := by omega
      simp [unpackExponent, hindex, BitVec.getLsbD_eq_getElem, hi]
    · rw [dif_neg hexponent]
      have hbits : spec.numBits = 1 + spec.exponentBits + spec.mantissaBitsWithoutImplicit := rfl
      have hindex : spec.mantissaBitsWithoutImplicit + spec.exponentBits +
          (i - spec.mantissaBitsWithoutImplicit - spec.exponentBits) = i := by omega
      simp [unpackSign, hindex, BitVec.getLsbD_eq_getElem, hi]

def biased (spec : Format) (e : Int) : Int :=
  e + spec.exponentBias + spec.mantissaBitsWithoutImplicit

/-- The number is not beyond the largest exponent. -/
def InRange (spec : Format) (e : Int) : Prop := biased spec e + 1 < (2 ^ spec.exponentBits : Nat)

theorem two_pow_exponentBits (spec : Format) :
    2 ^ spec.exponentBits = 2 * 2 ^ (spec.exponentBits - 1) := by
  rw [← pow_succ', Nat.sub_add_cancel spec.he]

theorem biased_minExponent (spec : Format) : biased spec spec.minExponent = 1 := by
  have hpos : 1 ≤ 2 ^ (spec.exponentBits - 1) := Nat.one_le_two_pow
  unfold biased Format.minExponent Format.exponentBias Format.mantissaBits
  push_cast [hpos]
  ring

theorem not_overflow {e : Int} (he : 0 ≤ biased spec e) (hrange : InRange spec e) :
    ¬ 2 ^ spec.exponentBits ≤ (e + spec.exponentBias + spec.mantissaBitsWithoutImplicit).toNat + 1 := by
  unfold InRange biased at *
  omega

theorem pack_eq_infinity (s : Sign) (m : Nat) (e : Int) (h : 0 < m) (he : 0 ≤ biased spec e)
    (hrange : ¬ InRange spec e) :
    UnpackedFloat.pack spec (.finite s m e h) = packedInfinity spec s := by
  rw [UnpackedFloat.pack]
  refine if_pos ?_
  unfold InRange biased at *
  omega

theorem pack_normal (s : Sign) (m : Nat) (e : Int) (h : 0 < m) (he : 0 ≤ biased spec e)
    (hrange : InRange spec e) (hm : m.log2 + 1 = spec.mantissaBits) :
    UnpackedFloat.pack spec (.finite s m e h) =
      packComponents spec s (BitVec.ofNat _ (biased spec e).toNat) (BitVec.ofNat _ m) := by
  rw [UnpackedFloat.pack]
  simp only [not_overflow he hrange, hm, if_true, if_false]
  rfl

theorem pack_subnormal (s : Sign) (m : Nat) (e : Int) (h : 0 < m) (he : 0 ≤ biased spec e)
    (hrange : InRange spec e) (hm : m.log2 + 1 ≠ spec.mantissaBits) :
    UnpackedFloat.pack spec (.finite s m e h) = packComponents spec s 0#_ (BitVec.ofNat _ m) := by
  rw [UnpackedFloat.pack]
  simp only [not_overflow he hrange, hm, if_false]

theorem toNat_neg_one (n : Nat) : (-1#n).toNat = 2 ^ n - 1 := by
  rw [BitVec.neg_one_eq_allOnes, BitVec.toNat_allOnes]

theorem toNat_append {m n : Nat} (a : BitVec m) (b : BitVec n) :
    (a ++ b).toNat = a.toNat * 2 ^ n + b.toNat := by
  rw [BitVec.toNat_append, ← Nat.shiftLeft_add_eq_or_of_lt b.isLt, Nat.shiftLeft_eq]

theorem toNat_one_append {n : Nat} (b : BitVec n) : (1#1 ++ b).toNat = 2 ^ n + b.toNat := by
  rw [toNat_append]
  simp

theorem unpack_normal (s : Sign) (exponent : BitVec spec.exponentBits)
    (mantissa : BitVec spec.mantissaBitsWithoutImplicit) (hfinite : exponent ≠ -1#_)
    (hnormal : exponent ≠ 0#_) :
    UnpackedFloat.unpack spec (packComponents spec s exponent mantissa) =
      .finite s (1#1 ++ mantissa).toNat
        (exponent.toNat - (spec.exponentBias + spec.mantissaBitsWithoutImplicit)) (by simp) := by
  simp only [UnpackedFloat.unpack, unpackExponent_packComponents, unpackMantissa_packComponents,
    unpackSign_packComponents, ofBitVec_toBitVec, hfinite, hnormal, if_false]

theorem zero_ne_neg_one (spec : Format) : BitVec.ofNat spec.exponentBits 0 ≠ -1#_ := by
  intro h
  have hnat := congrArg BitVec.toNat h
  rw [toNat_neg_one, BitVec.toNat_zero, two_pow_exponentBits] at hnat
  have hpos : 1 ≤ 2 ^ (spec.exponentBits - 1) := Nat.one_le_two_pow
  omega

theorem unpack_subnormal (s : Sign) (mantissa : BitVec spec.mantissaBitsWithoutImplicit)
    (hm : mantissa ≠ 0#_) :
    UnpackedFloat.unpack spec (packComponents spec s 0#_ mantissa) =
      .finite s mantissa.toNat (0 - (spec.exponentBias + spec.mantissaBitsWithoutImplicit) + 1)
        (by simpa [BitVec.toNat_pos, BitVec.pos_iff_ne_zero]) := by
  have hfinite := zero_ne_neg_one spec
  simp only [UnpackedFloat.unpack, unpackExponent_packComponents, unpackMantissa_packComponents,
    unpackSign_packComponents, ofBitVec_toBitVec, hfinite, if_false, if_true, hm, dif_neg,
    not_false_iff, BitVec.toNat_zero]
  rfl

namespace IsCanonical
variable {m : Nat} {e : Int} (h : IsCanonical spec m e)
include h

theorem biased_pos : 1 ≤ biased spec e := by
  have hmin := h.minExponent_le
  have hone := biased_minExponent spec
  unfold biased at *
  omega

theorem eq_minExponent (hm : m.log2 + 1 ≠ spec.mantissaBits) : e = spec.minExponent := by
  have hexponent := h.exponent
  unfold Format.targetExponent totalExponent at hexponent
  omega

theorem unpack_pack (s : Sign) (hrange : InRange spec e) :
    UnpackedFloat.unpack spec (UnpackedFloat.pack spec (.finite s m e h.pos)) = .finite s m e h.pos := by
  have hbiased := h.biased_pos
  by_cases hm : m.log2 + 1 = spec.mantissaBits
  · have hexponent : (BitVec.ofNat spec.exponentBits (biased spec e).toNat).toNat = (biased spec e).toNat := by
      rw [BitVec.toNat_ofNat, Nat.mod_eq_of_lt]
      unfold InRange at hrange
      omega
    have hmantissa : (1#1 ++ BitVec.ofNat spec.mantissaBitsWithoutImplicit m).toNat = m := by
      have hlow := Nat.log2_self_le (Nat.ne_of_gt h.pos)
      have hhigh := h.lt
      rw [show m.log2 = spec.mantissaBitsWithoutImplicit by unfold Format.mantissaBits at hm; omega] at hlow
      rw [Format.mantissaBits, Nat.add_comm, Nat.pow_succ] at hhigh
      rw [toNat_one_append, BitVec.toNat_ofNat, Nat.mod_eq_sub_mod hlow, Nat.mod_eq_of_lt (by omega)]
      omega
    rw [pack_normal s m e h.pos (by omega) hrange hm, unpack_normal]
    · refine finite_congr hmantissa ?_ _ _
      rw [hexponent, Int.toNat_of_nonneg (by omega)]
      unfold biased
      omega
    · intro hone
      rw [hone, toNat_neg_one] at hexponent
      unfold InRange at hrange
      omega
    · intro hzero
      rw [hzero, BitVec.toNat_zero] at hexponent
      omega
  · have hmin := h.eq_minExponent hm
    have hlt : m < 2 ^ spec.mantissaBitsWithoutImplicit := by
      have hlog := (Nat.log2_lt (Nat.ne_of_gt h.pos)).mpr h.lt
      unfold Format.mantissaBits at hm hlog
      exact (Nat.log2_lt (Nat.ne_of_gt h.pos)).mp (by omega)
    have hmantissa : (BitVec.ofNat spec.mantissaBitsWithoutImplicit m).toNat = m := by
      rw [BitVec.toNat_ofNat, Nat.mod_eq_of_lt hlt]
    have hne : BitVec.ofNat spec.mantissaBitsWithoutImplicit m ≠ 0#_ := by
      intro hzero
      rw [hzero, BitVec.toNat_zero] at hmantissa
      exact Nat.ne_of_gt h.pos hmantissa.symm
    rw [pack_subnormal s m e h.pos (by omega) hrange hm, unpack_subnormal s _ hne]
    refine finite_congr hmantissa ?_ _ _
    have hone := biased_minExponent spec
    rw [← hmin] at hone
    unfold biased at hone
    omega

end IsCanonical

theorem unpack_not_finite (s : Sign) (mantissa : BitVec spec.mantissaBitsWithoutImplicit) :
    (UnpackedFloat.unpack spec (packComponents spec s (-1#_) mantissa)).isFinite = false := by
  simp only [UnpackedFloat.unpack, unpackExponent_packComponents, unpackMantissa_packComponents, if_true]
  split <;> rfl

theorem unpack_zero (s : Sign) : UnpackedFloat.unpack spec (packComponents spec s 0#_ 0#_) = .zero s := by
  have hfinite := zero_ne_neg_one spec
  simp only [UnpackedFloat.unpack, unpackExponent_packComponents, unpackMantissa_packComponents,
    unpackSign_packComponents, ofBitVec_toBitVec, hfinite, if_false, if_true, dif_pos]

theorem isCanonical_subnormal (mantissa : BitVec spec.mantissaBitsWithoutImplicit) (hm : mantissa ≠ 0#_) :
    IsCanonical spec mantissa.toNat
      (0 - (spec.exponentBias + spec.mantissaBitsWithoutImplicit) + 1) := by
  have hpos : 0 < mantissa.toNat := by simpa [BitVec.toNat_pos, BitVec.pos_iff_ne_zero]
  have hlog : mantissa.toNat.log2 < spec.mantissaBitsWithoutImplicit :=
    (Nat.log2_lt (Nat.ne_of_gt hpos)).mpr mantissa.isLt
  have hone := biased_minExponent spec
  have hmin : (0 - (spec.exponentBias + spec.mantissaBitsWithoutImplicit) + 1 : Int) =
      spec.minExponent := by
    unfold biased at hone
    omega
  refine ⟨hpos, ?_⟩
  rw [hmin]
  unfold Format.targetExponent totalExponent Format.mantissaBits
  omega

theorem log2_normal (mantissa : BitVec spec.mantissaBitsWithoutImplicit) :
    (1#1 ++ mantissa).toNat.log2 + 1 = spec.mantissaBits := by
  have hlt := mantissa.isLt
  have hne : 2 ^ spec.mantissaBitsWithoutImplicit + mantissa.toNat ≠ 0 := by
    have hpos : 1 ≤ 2 ^ spec.mantissaBitsWithoutImplicit := Nat.one_le_two_pow
    omega
  have hlog : (2 ^ spec.mantissaBitsWithoutImplicit + mantissa.toNat).log2 =
      spec.mantissaBitsWithoutImplicit := by
    rw [Nat.log2_eq_iff hne, Nat.pow_succ]
    omega
  rw [toNat_one_append, hlog, Format.mantissaBits, Nat.add_comm]

theorem biased_normal (exponent : BitVec spec.exponentBits) :
    biased spec (exponent.toNat - (spec.exponentBias + spec.mantissaBitsWithoutImplicit)) =
      exponent.toNat := by
  unfold biased
  omega

theorem isCanonical_normal (exponent : BitVec spec.exponentBits)
    (mantissa : BitVec spec.mantissaBitsWithoutImplicit) (hnormal : exponent ≠ 0#_) :
    IsCanonical spec (1#1 ++ mantissa).toNat
      (exponent.toNat - (spec.exponentBias + spec.mantissaBitsWithoutImplicit)) := by
  have hpos : 0 < exponent.toNat := by simpa [BitVec.toNat_pos, BitVec.pos_iff_ne_zero]
  have hlog := log2_normal mantissa
  have hone := biased_minExponent spec
  have hbiased := biased_normal exponent
  refine ⟨by simp, ?_⟩
  unfold biased at hone hbiased
  unfold Format.targetExponent totalExponent
  omega

theorem inRange_normal (exponent : BitVec spec.exponentBits) (hfinite : exponent ≠ -1#_) :
    InRange spec (exponent.toNat - (spec.exponentBias + spec.mantissaBitsWithoutImplicit)) := by
  have hlt := exponent.isLt
  have hne : exponent.toNat ≠ 2 ^ spec.exponentBits - 1 := by
    intro h
    exact hfinite (BitVec.eq_of_toNat_eq (by rw [toNat_neg_one]; exact h))
  rw [InRange, biased_normal]
  omega

theorem inRange_minExponent (spec : Format) (hbits : 2 ≤ spec.exponentBits) :
    InRange spec spec.minExponent := by
  have hpow : 2 ^ 2 ≤ 2 ^ spec.exponentBits := Nat.pow_le_pow_right (by decide) hbits
  rw [InRange, biased_minExponent]
  omega

/-- What bits hold, case by case. -/
theorem unpack_cases (b : BitVec spec.numBits) :
    (UnpackedFloat.unpack spec b).isFinite = false ∨
    (∃ s, b = packComponents spec s 0#_ 0#_) ∨
    (∃ s mantissa, mantissa ≠ 0#_ ∧ b = packComponents spec s 0#_ mantissa) ∨
    ∃ s exponent mantissa, exponent ≠ -1#_ ∧ exponent ≠ 0#_ ∧ b = packComponents spec s exponent mantissa := by
  have hb := packComponents_unpack b
  generalize Sign.ofBitVec (unpackSign b) = s at hb
  generalize unpackExponent b = exponent at hb
  generalize unpackMantissa b = mantissa at hb
  subst hb
  by_cases hfinite : exponent = -1#_
  · subst hfinite
    exact .inl (unpack_not_finite s mantissa)
  · by_cases hnormal : exponent = 0#_
    · subst hnormal
      by_cases hm : mantissa = 0#_
      · subst hm
        exact .inr (.inl ⟨s, rfl⟩)
      · exact .inr (.inr (.inl ⟨s, mantissa, hm, rfl⟩))
    · exact .inr (.inr (.inr ⟨s, exponent, mantissa, hfinite, hnormal, rfl⟩))

/-- The numbers that bits hold are those of the format. -/
theorem isCanonical_of_unpack (hbits : 2 ≤ spec.exponentBits) (b : BitVec spec.numBits) {s : Sign}
    {m : Nat} {e : Int} {h : 0 < m} (hb : UnpackedFloat.unpack spec b = .finite s m e h) :
    IsCanonical spec m e ∧ InRange spec e := by
  rcases unpack_cases b with hinfinite | ⟨t, rfl⟩ | ⟨t, mantissa, hm, rfl⟩ |
    ⟨t, exponent, mantissa, hfinite, hnormal, rfl⟩
  · rw [hb] at hinfinite
    cases hinfinite
  · rw [unpack_zero] at hb
    cases hb
  · rw [unpack_subnormal t mantissa hm] at hb
    have hcanonical := isCanonical_subnormal mantissa hm
    have hrange := inRange_minExponent spec hbits
    have hone := biased_minExponent spec
    cases hb
    refine ⟨hcanonical, ?_⟩
    unfold InRange biased at *
    omega
  · rw [unpack_normal t exponent mantissa hfinite hnormal] at hb
    have hcanonical := isCanonical_normal exponent mantissa hnormal
    have hrange := inRange_normal exponent hfinite
    cases hb
    exact ⟨hcanonical, hrange⟩

theorem pack_unpack (hbits : 2 ≤ spec.exponentBits) (b : BitVec spec.numBits)
    (hb : (UnpackedFloat.unpack spec b).isFinite = true) :
    UnpackedFloat.pack spec (UnpackedFloat.unpack spec b) = b := by
  rcases unpack_cases b with hinfinite | ⟨s, rfl⟩ | ⟨s, mantissa, hm, rfl⟩ |
    ⟨s, exponent, mantissa, hfinite, hnormal, rfl⟩
  · rw [hinfinite] at hb
    cases hb
  · rw [unpack_zero]
    rfl
  · have hunpack := unpack_subnormal s mantissa hm
    obtain ⟨hcanonical, hrange⟩ := isCanonical_of_unpack hbits _ hunpack
    rw [hunpack, pack_subnormal s _ _ _ (by have := hcanonical.biased_pos; omega) hrange, BitVec.ofNat_toNat,
      BitVec.setWidth_eq]
    have hlog : mantissa.toNat.log2 < spec.mantissaBitsWithoutImplicit :=
      (Nat.log2_lt (Nat.ne_of_gt hcanonical.pos)).mpr mantissa.isLt
    unfold Format.mantissaBits
    omega
  · have hunpack := unpack_normal s exponent mantissa hfinite hnormal
    obtain ⟨hcanonical, hrange⟩ := isCanonical_of_unpack hbits _ hunpack
    rw [hunpack, pack_normal s _ _ _ (by have := hcanonical.biased_pos; omega) hrange
      (log2_normal mantissa), biased_normal, Int.toNat_natCast, BitVec.ofNat_toNat, BitVec.setWidth_eq]
    congr 1
    refine BitVec.eq_of_toNat_eq ?_
    rw [BitVec.toNat_ofNat, toNat_one_append, Nat.add_mod_left, Nat.mod_eq_of_lt mantissa.isLt]

end ScriptedActors.Decimal
