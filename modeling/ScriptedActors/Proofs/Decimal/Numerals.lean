import ScriptedActors.Decimal.Reading
import ScriptedActors.Decimal.Style
import ScriptedActors.Proofs.Decimal.Fewest

set_option autoImplicit false

/-!
# Digits without an exponent

Wherever the point stands among the digits of a number, the numeral that is read has the value of
the number.
-/
namespace ScriptedActors.Decimal

theorem valueOf_eq_ofDigitChars (cs : List Char) : valueOf cs = Nat.ofDigitChars 10 cs 0 := rfl

theorem valueOf_toDigits (n : Nat) : valueOf (Nat.toDigits 10 n) = n := Nat.ofDigitChars_ten_toDigits

theorem valueOf_zeros_append (k : Nat) (cs : List Char) :
    valueOf (List.replicate k '0' ++ cs) = valueOf cs := by
  rw [valueOf_eq_ofDigitChars, Nat.ofDigitChars_append, Nat.ofDigitChars_replicate_zero, Nat.mul_zero]
  rfl

theorem valueOf_append_zeros (k : Nat) (cs : List Char) :
    valueOf (cs ++ List.replicate k '0') = 10 ^ k * valueOf cs := by
  rw [valueOf_eq_ofDigitChars, Nat.ofDigitChars_append, Nat.ofDigitChars_replicate_zero]
  rfl

theorem isDigit_of_mem_zeros {k : Nat} {c : Char} (h : c ∈ List.replicate k '0') : c.isDigit = true := by
  rw [List.eq_of_mem_replicate h]
  decide

theorem digitsOf_append {digits : List Char} (h : ∀ c ∈ digits, c.isDigit = true) (rest : List Char)
    (hrest : ∀ c ∈ rest.head?, c.isDigit = false) : digitsOf (digits ++ rest) = digits := by
  rw [digitsOf, List.takeWhile_append_of_pos h]
  cases rest with
  | nil => simp
  | cons c rest =>
    have hc : c.isDigit = false := hrest c rfl
    simp [hc]

theorem afterDigits_append {digits : List Char} (h : ∀ c ∈ digits, c.isDigit = true) (rest : List Char)
    (hrest : ∀ c ∈ rest.head?, c.isDigit = false) : afterDigits (digits ++ rest) = rest := by
  rw [afterDigits, List.dropWhile_append_of_pos h]
  cases rest with
  | nil => rfl
  | cons c rest =>
    have hc : c.isDigit = false := hrest c rfl
    simp [hc]

theorem digitsOf_eq_self {digits : List Char} (h : ∀ c ∈ digits, c.isDigit = true) :
    digitsOf digits = digits := by
  have happend := digitsOf_append h [] (by simp)
  rwa [List.append_nil] at happend

theorem afterDigits_eq_nil {digits : List Char} (h : ∀ c ∈ digits, c.isDigit = true) :
    afterDigits digits = [] := by
  have happend := afterDigits_append h [] (by simp)
  rwa [List.append_nil] at happend

theorem Numeral.read_point (whole fraction : List Char) (hwhole : ∀ c ∈ whole, c.isDigit = true)
    (hfraction : ∀ c ∈ fraction, c.isDigit = true) (hne : whole ++ fraction ≠ []) :
    Numeral.read (whole ++ '.' :: fraction) = some ⟨valueOf (whole ++ fraction), -(fraction.length : Int)⟩ := by
  have hpoint : ∀ c ∈ ('.' :: fraction).head?, c.isDigit = false := by
    intro c hc
    cases hc
    decide
  have hparts : fractionOf ('.' :: fraction) = (fraction, []) := by
    rw [fractionOf, digitsOf_eq_self hfraction, afterDigits_eq_nil hfraction]
  rw [Numeral.read]
  simp only [digitsOf_append hwhole _ hpoint, afterDigits_append hwhole _ hpoint, hparts, hne, if_false,
    readExponent, Option.map_some]
  rw [Int.zero_sub]

theorem Numeral.read_whole {digits : List Char} (h : ∀ c ∈ digits, c.isDigit = true) (hne : digits ≠ []) :
    Numeral.read digits = some ⟨valueOf digits, 0⟩ := by
  rw [Numeral.read]
  simp only [digitsOf_eq_self h, afterDigits_eq_nil h, fractionOf, List.append_nil, hne, if_false,
    readExponent, Option.map_some]
  rfl

def Numeral.value (n : Numeral) : ℚ := n.digits * 10 ^ n.scale

theorem isDigit_of_mem_decimal {n : Nat} {c : Char} (h : c ∈ Nat.toDigits 10 n) : c.isDigit = true :=
  Nat.isDigit_of_mem_toDigits (by decide) (by decide) h

/-- The point stands where the first digit has its power of ten. -/
theorem read_positionalText (d : Digits) (hd : 0 < d.digits) :
    ∃ n : Numeral, Numeral.read (positionalText false (Nat.toDigits 10 d.digits)
      (d.exponent + (Nat.toDigits 10 d.digits).length)) = some n ∧ 0 < n.digits ∧ n.value = d.value := by
  have hdigit : ∀ c ∈ Nat.toDigits 10 d.digits, c.isDigit = true := fun c hc => isDigit_of_mem_decimal hc
  have hne : Nat.toDigits 10 d.digits ≠ [] := Nat.toDigits_ne_nil
  have hvalue := valueOf_toDigits d.digits
  generalize Nat.toDigits 10 d.digits = digits at *
  generalize hplace : d.exponent + (digits.length : Int) = place
  rw [positionalText]
  by_cases hfirst : place ≤ 0
  · have hfraction : ∀ c ∈ List.replicate (-place).toNat '0' ++ digits, c.isDigit = true := by
      intro c hc
      rcases List.mem_append.mp hc with hc | hc
      · exact isDigit_of_mem_zeros hc
      · exact hdigit c hc
    have hread := Numeral.read_point ['0'] _ (List.all_eq_true.mp rfl) hfraction (by simp)
    have hdigits : valueOf (['0'] ++ (List.replicate (-place).toNat '0' ++ digits)) = d.digits := by
      rw [← hvalue, ← valueOf_zeros_append (-place).toNat digits]
      exact valueOf_zeros_append 1 _
    rw [hdigits] at hread
    rw [if_pos hfirst]
    refine ⟨_, hread, hd, ?_⟩
    rw [Numeral.value, Digits.value, List.length_append, List.length_replicate,
      show -(((-place).toNat + digits.length : Nat) : Int) = d.exponent by omega]
  · by_cases hlast : digits.length ≤ place.toNat
    · obtain ⟨k, hk⟩ : ∃ k : Nat, d.exponent = k := ⟨d.exponent.toNat, by omega⟩
      have hzeros : place.toNat - digits.length = k := by omega
      have hall : ∀ c ∈ digits ++ List.replicate k '0', c.isDigit = true := by
        intro c hc
        rcases List.mem_append.mp hc with hc | hc
        · exact hdigit c hc
        · exact isDigit_of_mem_zeros hc
      have hread := Numeral.read_whole hall (by simp [hne])
      rw [valueOf_append_zeros, hvalue] at hread
      rw [if_neg hfirst, if_pos hlast, hzeros]
      have hpos : 0 < 10 ^ k * d.digits := by positivity
      refine ⟨_, by simpa using hread, hpos, ?_⟩
      rw [Numeral.value, Digits.value, hk, zpow_zero, zpow_natCast]
      push_cast
      ring
    · have hread := Numeral.read_point (digits.take place.toNat) (digits.drop place.toNat)
        (fun c hc => hdigit c (List.mem_of_mem_take hc))
        (fun c hc => hdigit c (List.mem_of_mem_drop hc)) (by rwa [List.take_append_drop])
      rw [List.take_append_drop, hvalue] at hread
      rw [if_neg hfirst, if_neg hlast]
      refine ⟨_, hread, hd, ?_⟩
      rw [Numeral.value, Digits.value, List.length_drop,
        show -((digits.length - place.toNat : Nat) : Int) = d.exponent by omega]

end ScriptedActors.Decimal
