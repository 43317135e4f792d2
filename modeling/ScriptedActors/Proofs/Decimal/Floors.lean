import Mathlib.Data.Rat.Floor
import ScriptedActors.Proofs.Decimal.Ordering
import ScriptedActors.Proofs.Decimal.WholeNumbers

set_option autoImplicit false

/-!
# Numbers rounded down

Rounding down is done on the exact value of a number. What it leaves as it is are the whole numbers
and the infinities.
-/
namespace ScriptedActors.Decimal
open Float.Model UnpackedFloat Arithmetic

/-- A number rounded down and cut to 32 bits. That of an undefined number is zero. -/
def saturatedFloor (x : Float) : Int :=
  match x.toModel.unpack with
  | .notANumber => 0
  | .infinity .positive => 2147483647
  | .infinity .negative => -2147483648
  | .zero _ => 0
  | .finite s m e _ => max (-2147483648) (min ⌊signedValue s m e⌋ 2147483647)

def IsIntegral (x : Float) : Prop :=
  match x.toModel.unpack with
  | .notANumber => False
  | .finite s m e _ => ∃ n : Int, signedValue s m e = n
  | _ => True

theorem signedValue_of_nonneg (s : Sign) (m : Nat) {e : Int} (he : 0 ≤ e) :
    ∃ n : Int, signedValue s m e = n := by
  obtain ⟨t, rfl⟩ := Int.eq_ofNat_of_zero_le he
  refine ⟨s.apply m * 2 ^ t, ?_⟩
  rw [signedValue, zpow_natCast]
  push_cast
  rfl

theorem floorOf_of_neg (s : Sign) (m t : Nat) : floorOf s m (-(t : Int)) = s.apply m / (2 ^ t : Nat) := by
  have hzero : (-(t : Int)).toNat = 0 := by omega
  rw [floorOf, hzero, neg_neg, Int.toNat_natCast, Nat.shiftLeft_zero, Nat.one_shiftLeft]

theorem floorOf_eq_floor (s : Sign) (m : Nat) (e : Int) : floorOf s m e = ⌊signedValue s m e⌋ := by
  by_cases he : 0 ≤ e
  · obtain ⟨n, hn⟩ := signedValue_of_nonneg s m he
    rw [floorOf_eq hn, hn, Int.floor_intCast]
  · obtain ⟨t, ht⟩ := Int.eq_ofNat_of_zero_le (show 0 ≤ -e by omega)
    obtain rfl : e = -(t : Int) := by omega
    have hvalue : signedValue s m (-(t : Int)) = (s.apply m : ℚ) / ((2 ^ t : Nat) : ℚ) := by
      rw [signedValue, zpow_neg, zpow_natCast, div_eq_mul_inv]
      push_cast
      rfl
    rw [floorOf_of_neg, hvalue, Rat.floor_intCast_div_natCast]

theorem blockOf_eq_saturatedFloor (x : Float) : blockOf x = saturatedFloor x := by
  rw [blockOf, saturatedFloor]
  cases x.toModel.unpack with
  | notANumber => rfl
  | infinity s => cases s <;> rfl
  | zero s => rfl
  | finite s m e h =>
    change clampBlock (floorOf s m e) = _
    rw [floorOf_eq_floor]
    rfl

theorem floorOf_bounds {m : Nat} (hm : m < 2 ^ 53) (s : Sign) {e : Int} (he : e < 0) :
    -2 ^ 53 < floorOf s m e ∧ floorOf s m e < 2 ^ 53 := by
  obtain ⟨t, ht⟩ := Int.eq_ofNat_of_zero_le (show 0 ≤ -e by omega)
  obtain rfl : e = -(t : Int) := by omega
  have hsize := Int.natAbs_ediv_le_natAbs (s.apply m) (2 ^ t : Nat)
  have happly : (s.apply (m : Nat) : Int).natAbs = m := by cases s <;> simp [Sign.apply]
  rw [floorOf_of_neg]
  omega

theorem finite_beq_iff {s t : Sign} {m n : Nat} {e f : Int} (h : 0 < m) (k : 0 < n) :
    (UnpackedFloat.finite s m e h).beq (.finite t n f k) = true ↔ s = t ∧ m = n ∧ e = f := by
  cases s <;> cases t <;>
    simp [UnpackedFloat.beq, UnpackedFloat.compare, Ordering.then_eq_eq, and_comm]

theorem beq_whole_iff {s : Sign} {m : Nat} {e n : Int} (h : IsCanonical .binary64 m e)
    {u : UnpackedFloat} (hu : IsWhole n u) :
    (UnpackedFloat.finite s m e h.pos).beq u = true ↔ signedValue s m e = n := by
  constructor
  · intro heq
    cases hu with
    | zero hn => cases s <;> cases heq
    | finite t k f hcanonical hrange hvalue =>
      obtain ⟨rfl, rfl, rfl⟩ := (finite_beq_iff h.pos hcanonical.pos).mp heq
      exact hvalue
  · intro hvalue
    rw [hu.eq_signedNearest, ← hvalue, h.signedNearest_eq]
    exact (finite_beq_iff h.pos h.pos).mpr ⟨rfl, rfl, rfl⟩

theorem beq_floor_of_finite {x : Float} {s : Sign} {m : Nat} {e : Int} {h : 0 < m}
    (hx : x.toModel.unpack = .finite s m e h) :
    (x == floor x) = true ↔ ∃ n : Int, signedValue s m e = n := by
  have hheld : IsHeld .binary64 x.toModel.unpack := isHeld_unpack (by decide) _
  rw [hx] at hheld
  change x.toModel.unpack.beq (floor x).toModel.unpack = true ↔ _
  rw [floor, hx]
  by_cases he : 0 ≤ e
  · simp only [if_pos he, hx]
    exact ⟨fun _ => signedValue_of_nonneg s m he, fun _ => (finite_beq_iff h h).mpr ⟨rfl, rfl, rfl⟩⟩
  · obtain ⟨hlow, hhigh⟩ := floorOf_bounds hheld.1.lt s (not_le.mp he)
    simp only [if_neg he, beq_whole_iff hheld.1 (isWhole_unpack hlow hhigh)]
    refine ⟨fun hvalue => ⟨_, hvalue⟩, ?_⟩
    rintro ⟨n, hn⟩
    rw [floorOf_eq hn, hn]

theorem beq_self_of_unpack {x : Float} {u : UnpackedFloat} (hx : x.toModel.unpack = u) :
    (x == x) = u.beq u := by
  change x.toModel.unpack.beq x.toModel.unpack = _
  rw [hx]

/-- Rounding down leaves the numbers as they are that have no fractional part. -/
theorem beq_floor_iff (x : Float) : (x == floor x) = true ↔ IsIntegral x := by
  cases hx : x.toModel.unpack with
  | finite s m e h => rw [beq_floor_of_finite hx, IsIntegral, hx]
  | notANumber =>
    simp only [floor, IsIntegral, hx, beq_self_of_unpack hx]
    exact ⟨fun h => Bool.noConfusion h, False.elim⟩
  | infinity s =>
    simp only [floor, IsIntegral, hx, beq_self_of_unpack hx]
    cases s <;> exact ⟨fun _ => trivial, fun _ => rfl⟩
  | zero s =>
    simp only [floor, IsIntegral, hx, beq_self_of_unpack hx]
    exact ⟨fun _ => trivial, fun _ => rfl⟩

end ScriptedActors.Decimal
