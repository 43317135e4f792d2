import ScriptedActors.Json.Printer
import ScriptedActors.Json.Token
import ScriptedActors.Proofs.Decimal.ReadBack

set_option autoImplicit false

/-!
# The text of a leaf

Every leaf that is not a string is written as one scalar, and the scalar can be read. A whole number
that 64 bits hold is read as it is written; a number with a fraction is some number text.
-/
namespace ScriptedActors.Json
open Decimal Float.Model UnpackedFloat

structure IsWhole (digits : List Char) : Prop where
  digit : ∀ c ∈ digits, c.isDigit = true
  plain : plainWhole digits = true

namespace IsWhole

theorem zero : IsWhole ['0'] := ⟨List.all_eq_true.mp rfl, rfl⟩

theorem of_head {c : Char} {cs : List Char} (h : ∀ d ∈ c :: cs, d.isDigit = true) (hc : c ≠ '0') :
    IsWhole (c :: cs) := by
  refine ⟨h, ?_⟩
  unfold plainWhole
  split
  · rename_i heq
    cases heq
  · rfl
  · rename_i heq
    cases heq
    exact bne_iff_ne.mpr hc

end IsWhole

theorem exists_toDigits (n : Nat) (hn : 0 < n) :
    ∃ c cs, Nat.toDigits 10 n = c :: cs ∧ c ≠ '0' := by
  induction n using Nat.strong_induction_on with
  | _ n ih =>
    by_cases hlt : n < 10
    · rw [Nat.toDigits_of_lt_base hlt]
      refine ⟨n.digitChar, [], rfl, ?_⟩
      rw [ne_eq, Nat.digitChar_eq_zero]
      omega
    · obtain ⟨c, cs, hdigits, hc⟩ := ih (n / 10) (by omega) (by omega)
      rw [Nat.toDigits_of_base_le (by decide) (by omega), hdigits]
      exact ⟨c, _, rfl, hc⟩

theorem isWhole_toDigits (n : Nat) : IsWhole (Nat.toDigits 10 n) := by
  by_cases hn : 0 < n
  · obtain ⟨c, cs, hdigits, hc⟩ := exists_toDigits n hn
    have hdigit : ∀ d ∈ Nat.toDigits 10 n, d.isDigit = true := fun d hd => isDigit_of_mem_decimal hd
    rw [hdigits] at hdigit ⊢
    exact IsWhole.of_head hdigit hc
  · obtain rfl : n = 0 := by omega
    exact IsWhole.zero

/-- A number text is a sign, a whole part, and what can be read after it. -/
theorem NumberText.read_append (s : Sign) (tail : List Char) {whole rest : List Char}
    {fraction : Option (List Nat)} {exponent : Option Int} (h : IsWhole whole) (htail : ∀ c ∈ tail.head?, c.isDigit = false)
    (hfraction : fractionText tail = some (fraction, rest)) (hexponent : exponentText rest = some exponent) :
    NumberText.read (signText s ++ (whole ++ tail)) =
      some ⟨s == .negative, digitValues whole, fraction, exponent⟩ := by
  have hhead : ((whole ++ tail).head? == some '-') = false := by
    cases whole with
    | nil => exact absurd h.plain (by decide)
    | cons c cs =>
      have hc := h.digit c List.mem_cons_self
      rw [beq_eq_false_iff_ne]
      rintro ⟨⟩
      exact absurd hc (by decide)
  have hdigits := digitsOf_append h.digit tail htail
  have hafter := afterDigits_append h.digit tail htail
  cases s with
  | positive =>
    rw [signText, List.nil_append, NumberText.read]
    simp only [hhead, Bool.false_eq_true, if_false, hdigits, hafter, h.plain, if_true, hfraction,
      hexponent, Option.map_some]
    rfl
  | negative =>
    have hminus : ((signText .negative ++ (whole ++ tail)).head? == some '-') = true := by rfl
    rw [NumberText.read]
    simp only [hminus, if_true]
    rw [show (signText .negative ++ (whole ++ tail)).tail = whole ++ tail from rfl]
    simp only [hdigits, hafter, h.plain, if_true, hfraction, hexponent, Option.map_some]
    rfl

def IsExponent (rest : List Char) : Prop :=
  (∀ c ∈ rest.head?, c.isDigit = false) ∧ (exponentText rest).isSome

theorem isExponent_nil : IsExponent [] := ⟨by simp, rfl⟩

theorem isSome_readInteger {digits : List Char} (h : ∀ c ∈ digits, c.isDigit = true) (hne : digits ≠ [])
    {cs : List Char} {negative : Bool} (hsign : signOf cs = (negative, digits)) :
    (readInteger cs).isSome := by
  rw [readInteger, hsign]
  simp only [hne, afterDigits_eq_nil h, ne_eq, not_true_eq_false, or_false, if_false]
  cases negative with
  | true => rfl
  | false => rfl

theorem signOf_exponentSign {digits : List Char} (h : ∃ c cs, digits = c :: cs ∧ c.isDigit = true)
    (signsExponent : Bool) (e : Int) :
    signOf ((if e < 0 then ['-'] else if signsExponent then ['+'] else []) ++ digits) =
      (decide (e < 0), digits) := by
  obtain ⟨c, cs, rfl, hdigit⟩ := h
  by_cases he : e < 0
  · rw [if_pos he, decide_eq_true he]
    rfl
  · rw [if_neg he, decide_eq_false he]
    cases signsExponent with
    | true => rfl
    | false => exact signOf_of_digit hdigit

theorem isExponent_scientific (signsExponent : Bool) (e : Int) :
    IsExponent ('e' :: (if e < 0 then ['-'] else if signsExponent then ['+'] else []) ++
      Nat.toDigits 10 e.natAbs) := by
  have hdigit : ∀ c ∈ Nat.toDigits 10 e.natAbs, c.isDigit = true := fun c hc => isDigit_of_mem_decimal hc
  obtain ⟨c, cs, hcs⟩ := List.exists_cons_of_ne_nil (Nat.toDigits_ne_nil : Nat.toDigits 10 e.natAbs ≠ [])
  have hsign := signOf_exponentSign ⟨c, cs, hcs, hdigit c (by rw [hcs]; exact List.mem_cons_self)⟩
    signsExponent e
  constructor
  · intro c hc
    cases hc
    decide
  · have hread := isSome_readInteger hdigit Nat.toDigits_ne_nil hsign
    rw [List.cons_append, exponentText, if_pos (.inl rfl), Option.isSome_map]
    exact hread

theorem exists_read_fraction (s : Sign) (fraction : List Char) {whole rest : List Char}
    (h : IsWhole whole) (hfraction : ∀ c ∈ fraction, c.isDigit = true) (hne : fraction ≠ [])
    (hrest : IsExponent rest) :
    (NumberText.read (signText s ++ (whole ++ '.' :: (fraction ++ rest)))).isSome := by
  obtain ⟨exponent, hexponent⟩ := Option.isSome_iff_exists.mp hrest.2
  have hparts : fractionText ('.' :: (fraction ++ rest)) = some (some (digitValues fraction), rest) := by
    rw [fractionText, digitsOf_append hfraction rest hrest.1, if_neg hne,
      afterDigits_append hfraction rest hrest.1]
  rw [NumberText.read_append s _ h (by simp) hparts hexponent]
  rfl

theorem exists_read_exponent (s : Sign) {whole rest : List Char} (h : IsWhole whole)
    (hrest : IsExponent ('e' :: rest)) :
    (NumberText.read (signText s ++ (whole ++ 'e' :: rest))).isSome := by
  obtain ⟨exponent, hexponent⟩ := Option.isSome_iff_exists.mp hrest.2
  rw [NumberText.read_append s _ h (by simp) rfl hexponent]
  rfl

theorem isSome_read_scientific (s : Sign) {c : Char} {cs : List Char}
    (h : ∀ d ∈ c :: cs, d.isDigit = true) (hc : c ≠ '0') (signsExponent : Bool) (e : Int) :
    (NumberText.read (signText s ++ scientificText signsExponent (c :: cs) e)).isSome := by
  have hexponent := isExponent_scientific signsExponent e
  have hone : IsWhole [c] := IsWhole.of_head (fun d hd => h d (by simp_all)) hc
  cases cs with
  | nil =>
    have hread := exists_read_exponent s hone hexponent
    simpa [scientificText] using hread
  | cons d rest =>
    have hread := exists_read_fraction s (d :: rest) hone
      (fun x hx => h x (List.mem_cons_of_mem c hx)) (by simp) hexponent
    simpa [scientificText] using hread

theorem isSome_read_positional (s : Sign) {c : Char} {cs : List Char}
    (h : ∀ d ∈ c :: cs, d.isDigit = true) (hc : c ≠ '0') (place : Int) :
    (NumberText.read (signText s ++ positionalText true (c :: cs) place)).isSome := by
  rw [positionalText]
  by_cases hfirst : place ≤ 0
  · have hread := exists_read_fraction s (List.replicate (-place).toNat '0' ++ c :: cs) IsWhole.zero
      (fun d hd => (List.mem_append.mp hd).elim isDigit_of_mem_zeros (h d)) (by simp)
      isExponent_nil
    rw [if_pos hfirst]
    simpa using hread
  · rw [if_neg hfirst]
    by_cases hlast : (c :: cs).length ≤ place.toNat
    · have hwhole : IsWhole (c :: (cs ++ List.replicate (place.toNat - (c :: cs).length) '0')) :=
        IsWhole.of_head (fun d hd => (List.mem_append.mp
          (show d ∈ c :: cs ++ List.replicate (place.toNat - (c :: cs).length) '0' from hd)).elim (h d)
            isDigit_of_mem_zeros) hc
      have hread := exists_read_fraction s ['0'] hwhole IsWhole.zero.digit (by simp) isExponent_nil
      rw [if_pos hlast]
      simpa using hread
    · obtain ⟨k, hk⟩ : ∃ k, place.toNat = k + 1 := ⟨place.toNat - 1, by omega⟩
      have hwhole : IsWhole (c :: cs.take k) :=
        IsWhole.of_head (fun d hd => h d (List.mem_of_mem_take (i := k + 1) hd)) hc
      have hread := exists_read_fraction s (cs.drop k) hwhole
        (fun d hd => h d (List.mem_cons_of_mem c (List.mem_of_mem_drop hd)))
        (by
          rw [hk, List.length_cons] at hlast
          rw [ne_eq, List.drop_eq_nil_iff]
          omega) isExponent_nil
      rw [if_neg hlast, hk]
      simpa using hread

theorem isScalar_of_isDigit {c : Char} (h : c.isDigit = true) : isScalar c = true := by
  rw [isScalar, Char.isAlphanum, h, Bool.or_true]
  rfl

theorem isScalar_of_mem_signText {s : Sign} {cs : List Char} (h : ∀ c ∈ cs, isScalar c = true) :
    ∀ c ∈ signText s ++ cs, isScalar c = true := by
  intro c hc
  rcases List.mem_append.mp hc with hc | hc
  · cases s with
    | positive => cases hc
    | negative =>
      rw [List.mem_singleton.mp hc]
      decide
  · exact h c hc

theorem isScalar_of_mem_positional {digits : List Char} (h : ∀ c ∈ digits, c.isDigit = true)
    (keepsPoint : Bool) (place : Int) :
    ∀ c ∈ positionalText keepsPoint digits place, isScalar c = true := by
  intro c hc
  rcases mem_positionalText keepsPoint h place c hc with hdigit | rfl
  · exact isScalar_of_isDigit hdigit
  · decide

theorem isScalar_of_mem_scientific {digits : List Char} (h : ∀ c ∈ digits, c.isDigit = true)
    (signsExponent : Bool) (e : Int) :
    ∀ c ∈ scientificText signsExponent digits e, isScalar c = true := by
  have hdigits : ∀ c ∈ digits, isScalar c = true := fun c hc => isScalar_of_isDigit (h c hc)
  have hexponent : ∀ c ∈ Nat.toDigits 10 e.natAbs, isScalar c = true := fun c hc =>
    isScalar_of_isDigit (isDigit_of_mem_decimal hc)
  have hsign : ∀ c ∈ (if e < 0 then ['-'] else if signsExponent then ['+'] else []),
      isScalar c = true := by
    split
    · exact List.all_eq_true.mp rfl
    · split
      · exact List.all_eq_true.mp rfl
      · exact List.all_eq_true.mp rfl
  intro c hc
  simp only [scientificText] at hc
  rcases List.mem_append.mp hc with hc | hc
  · rcases List.mem_append.mp hc with hc | hc
    · split at hc
      · rename_i first second rest
        rcases List.mem_cons.mp hc with rfl | hc
        · exact hdigits c List.mem_cons_self
        · rcases List.mem_cons.mp hc with rfl | hc
          · decide
          · exact hdigits c (List.mem_cons_of_mem _ hc)
      · exact hdigits c hc
    · rcases List.mem_cons.mp hc with rfl | hc
      · decide
      · exact hsign c hc
  · exact hexponent c hc

/-- A text that is one scalar. -/
structure IsScalarText (cs : List Char) : Prop where
  scalar : ∀ c ∈ cs, isScalar c = true
  read : (readScalar cs).isSome

namespace IsScalarText

theorem ne_nil {cs : List Char} (h : IsScalarText cs) : cs ≠ [] := by
  rintro rfl
  exact absurd h.read (by decide)

theorem of_all {cs : List Char} (h : cs.all isScalar = true) (hread : (readScalar cs).isSome = true) :
    IsScalarText cs :=
  ⟨List.all_eq_true.mp h, hread⟩

theorem of_number {cs : List Char} (h : ∀ c ∈ cs, isScalar c = true)
    (hread : (NumberText.read cs).isSome) : IsScalarText cs := by
  refine ⟨h, ?_⟩
  rw [readScalar]
  split
  · rfl
  · split
    · rfl
    · split
      · rfl
      · rwa [Option.isSome_map]

/-- A style that keeps the point of a whole number writes every number as one scalar. -/
theorem of_style {style : Style} (hpoint : style.keepsPoint = true) {spec : Format} (hspec : Wide spec)
    (b : BitVec spec.numBits) (h : (UnpackedFloat.unpack spec b).isFinite = true) :
    IsScalarText (style.text spec (UnpackedFloat.unpack spec b)) := by
  cases hu : UnpackedFloat.unpack spec b with
  | notANumber =>
    rw [hu] at h
    cases h
  | infinity s =>
    rw [hu] at h
    cases h
  | zero s =>
    rw [Style.text, hpoint]
    cases s with
    | positive => exact of_all rfl rfl
    | negative => exact of_all rfl rfl
  | finite s m q hm =>
    obtain ⟨hcanonical, hrange⟩ := isCanonical_of_unpack hspec.bits _ hu
    have hpos := (Digits.readsAs_shortest hspec style.tie hcanonical hrange).pos
    rw [Style.text]
    generalize Digits.shortest spec style.tie m q hm = d at *
    obtain ⟨c, cs, hdigits, hc⟩ := exists_toDigits d.digits hpos
    have hdigit : ∀ x ∈ Nat.toDigits 10 d.digits, x.isDigit = true := fun x hx => isDigit_of_mem_decimal hx
    rw [hdigits] at hdigit
    rw [Style.magnitude, hpoint, hdigits]
    split
    · exact of_number (isScalar_of_mem_signText (isScalar_of_mem_positional hdigit true _))
        (isSome_read_positional s hdigit hc _)
    · exact of_number (isScalar_of_mem_signText (isScalar_of_mem_scientific hdigit _ _))
        (isSome_read_scientific s hdigit hc _ _)

theorem null : IsScalarText "null".toList := of_all rfl rfl

end IsScalarText

theorem readScalar_number {s : Sign} {whole tail : List Char} (h : IsWhole whole) :
    readScalar (signText s ++ (whole ++ tail)) =
      (NumberText.read (signText s ++ (whole ++ tail))).map NumberText.value := by
  have hfirst : ∀ (w : Char) (ws : List Char), w.isDigit = false → w ≠ '-' →
      signText s ++ (whole ++ tail) ≠ w :: ws := by
    intro w ws hdigit hminus heq
    cases s with
    | negative =>
      cases heq
      exact hminus rfl
    | positive =>
      cases whole with
      | nil => exact absurd h.plain (by decide)
      | cons c cs =>
        cases heq
        rw [h.digit w List.mem_cons_self] at hdigit
        cases hdigit
  rw [readScalar, if_neg, if_neg, if_neg]
  · exact hfirst 'f' ['a', 'l', 's', 'e'] (by decide) (by decide)
  · exact hfirst 't' ['r', 'u', 'e'] (by decide) (by decide)
  · exact hfirst 'n' ['u', 'l', 'l'] (by decide) (by decide)

theorem foldl_digitValues (digits : List Char) :
    (digitValues digits).foldl (fun n d => n * 10 + d) 0 = valueOf digits := by
  rw [digitValues, List.foldl_map, valueOf]
  simp only [Nat.mul_comm]

def IsWord (n : Int) : Prop := -0x8000000000000000 ≤ n ∧ n ≤ maxWord

instance (n : Int) : Decidable (IsWord n) := inferInstanceAs (Decidable (_ ∧ _))

theorem leafText_int (n : Int) : (leafText (.int n)).toList =
    signText (if n < 0 then .negative else .positive) ++ (Nat.toDigits 10 n.natAbs ++ []) := by
  rw [leafText, String.toList_ofList]
  by_cases hn : n < 0
  · rw [if_pos hn, if_pos hn, List.append_nil]
    rfl
  · rw [if_neg hn, if_neg hn, List.append_nil]
    rfl

theorem readScalar_int {n : Int} (h : IsWord n) :
    readScalar (leafText (.int n)).toList = some (some (.int n)) := by
  have hread := NumberText.read_append (if n < 0 then .negative else .positive) []
    (isWhole_toDigits n.natAbs) (by simp) rfl rfl
  rw [leafText_int, readScalar_number (isWhole_toDigits n.natAbs), hread, Option.map_some,
    NumberText.value, NumberText.toInt]
  simp only [foldl_digitValues, valueOf_toDigits, Option.isSome_none, Bool.or_self, Bool.false_eq_true,
    if_false]
  obtain ⟨hlow, hhigh⟩ := h
  by_cases hn : n < 0
  · have hbits : (0 < n.natAbs && n.natAbs ≤ 0x8000000000000000) = true := by
      simp only [Bool.and_eq_true, decide_eq_true_eq]
      omega
    have hsign : (Sign.negative == Sign.negative) = true := by decide
    simp only [hn, if_true, hsign, hbits]
    rw [show -(n.natAbs : Int) = n by omega]
  · have hbits : n.natAbs ≤ maxWord := by omega
    have hsign : (Sign.positive == Sign.negative) = false := by decide
    simp only [hn, if_false, hsign, Bool.false_eq_true, hbits, if_true]
    rw [show (n.natAbs : Int) = n by omega]

theorem isScalarText_int (n : Int) : IsScalarText (leafText (.int n)).toList := by
  have hread := NumberText.read_append (if n < 0 then .negative else .positive) []
    (isWhole_toDigits n.natAbs) (by simp) rfl rfl
  rw [leafText_int]
  refine IsScalarText.of_number (isScalar_of_mem_signText fun c hc => ?_) (by rw [hread]; rfl)
  rw [List.append_nil] at hc
  exact isScalar_of_isDigit (isDigit_of_mem_decimal hc)

theorem isScalarText_float (x : Float) : IsScalarText (floatText x).toList := by
  rw [floatText]
  by_cases hx : x.isFinite = true
  · rw [if_pos hx, Style.float, String.toList_ofList]
    exact IsScalarText.of_style rfl wide_binary64 _ hx
  · rw [if_neg hx]
    exact IsScalarText.null

theorem isScalarText_float32 (x : Float32) : IsScalarText (float32Text x).toList := by
  rw [float32Text]
  by_cases hx : x.isFinite = true
  · rw [if_pos hx, Style.float32, String.toList_ofList]
    exact IsScalarText.of_style rfl wide_binary32 _ hx
  · rw [if_neg hx]
    exact IsScalarText.null

/-- A leaf that is written as a scalar. -/
def IsScalarLeaf : Json → Prop
  | .string _ | .array _ | .object _ => False
  | _ => True

theorem isScalarText_leafText {v : Json} (h : IsScalarLeaf v) : IsScalarText (leafText v).toList := by
  cases v with
  | null => exact IsScalarText.null
  | bool b =>
    cases b with
    | true => exact .of_all rfl rfl
    | false => exact .of_all rfl rfl
  | int n => exact isScalarText_int n
  | float x => exact isScalarText_float x
  | float32 x => exact isScalarText_float32 x
  | string s => exact h.elim
  | array items => exact h.elim
  | object members => exact h.elim

def leafValue (v : Json) : Option Json := (readScalar (leafText v).toList).join

theorem readScalar_leafText {v : Json} (h : IsScalarLeaf v) :
    readScalar (leafText v).toList = some (leafValue v) := by
  obtain ⟨value, hvalue⟩ := Option.isSome_iff_exists.mp (isScalarText_leafText h).read
  rw [leafValue, hvalue]
  rfl

theorem leafValue_int {n : Int} (h : IsWord n) : leafValue (.int n) = some (.int n) := by
  rw [leafValue, readScalar_int h]
  rfl

end ScriptedActors.Json
