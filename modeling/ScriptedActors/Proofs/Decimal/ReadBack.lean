import ScriptedActors.Proofs.Decimal.Literals
import ScriptedActors.Proofs.Decimal.Numerals

set_option autoImplicit false

/-!
# Numbers written without an exponent

A finite number that is written with all its digits is read as the same bits, zeros with their
sign. The text has digits, at most one point and a minus sign, and is not empty.
-/
namespace ScriptedActors.Decimal
open Float.Model UnpackedFloat

theorem toLower_of_digit {c : Char} (h : c.isDigit = true) : c.toLower = c := by
  have hdigit : c.val.toNat ≤ 57 := by
    simp only [Char.isDigit, Bool.and_eq_true, decide_eq_true_eq] at h
    exact h.2
  rw [Char.toLower]
  refine dif_neg fun hupper => ?_
  have hletter : 65 ≤ c.val.toNat := hupper.1
  omega

variable {c : Char} {cs : List Char}

theorem signOf_of_digit (h : c.isDigit = true) : signOf (c :: cs) = (false, c :: cs) := by
  unfold signOf
  split
  · rename_i heq
    cases heq
    exact absurd h (by decide)
  · rename_i heq
    cases heq
    exact absurd h (by decide)
  · rfl

theorem Magnitude.read_of_digit (h : c.isDigit = true) :
    Magnitude.read (c :: cs) = (Numeral.read (c :: cs)).map .numeral := by
  have hword : ∀ (w : Char) (ws : List Char), w.isDigit = false →
      (c :: cs).map Char.toLower ≠ w :: ws := by
    intro w ws hw heq
    rw [List.map_cons, toLower_of_digit h, List.cons.injEq] at heq
    rw [heq.1, hw] at h
    cases h
  rw [Magnitude.read, if_neg, if_neg]
  · exact hword 'n' ['a', 'n'] (by decide)
  · rintro (hinf | hinfinity)
    · exact hword 'i' ['n', 'f'] (by decide) hinf
    · exact hword 'i' ['n', 'f', 'i', 'n', 'i', 't', 'y'] (by decide) hinfinity

theorem exists_positionalText {digits : List Char} (h : ∀ c ∈ digits, c.isDigit = true)
    (hne : digits ≠ []) (place : Int) :
    ∃ c rest, positionalText false digits place = c :: rest ∧ c.isDigit = true := by
  obtain ⟨first, others, rfl⟩ := List.exists_cons_of_ne_nil hne
  have hfirst : first.isDigit = true := h first List.mem_cons_self
  rw [positionalText]
  by_cases hplace : place ≤ 0
  · rw [if_pos hplace]
    exact ⟨'0', _, rfl, by decide⟩
  · obtain ⟨k, hk⟩ : ∃ k, place.toNat = k + 1 := ⟨place.toNat - 1, by omega⟩
    rw [if_neg hplace, hk]
    split
    · exact ⟨first, _, rfl, hfirst⟩
    · exact ⟨first, _, rfl, hfirst⟩

theorem mem_positionalText (keepsPoint : Bool) {digits : List Char}
    (h : ∀ c ∈ digits, c.isDigit = true) (place : Int) :
    ∀ c ∈ positionalText keepsPoint digits place, c.isDigit = true ∨ c = '.' := by
  have hzero : ∀ c : Char, c = '0' → c.isDigit = true := by
    rintro c rfl
    decide
  intro c hc
  rw [positionalText] at hc
  split at hc
  · rcases List.mem_append.mp hc with hc | hc
    · rcases List.mem_cons.mp hc with hc | hc
      · exact .inl (hzero c hc)
      · rcases List.mem_cons.mp hc with hc | hc
        · exact .inr hc
        · exact .inl (isDigit_of_mem_zeros hc)
    · exact .inl (h c hc)
  · split at hc
    · rcases List.mem_append.mp hc with hc | hc
      · rcases List.mem_append.mp hc with hc | hc
        · exact .inl (h c hc)
        · exact .inl (isDigit_of_mem_zeros hc)
      · cases keepsPoint with
        | false => cases hc
        | true =>
          rcases List.mem_cons.mp hc with hc | hc
          · exact .inr hc
          · exact .inl (hzero c (List.mem_singleton.mp hc))
    · rcases List.mem_append.mp hc with hc | hc
      · exact .inl (h c (List.mem_of_mem_take hc))
      · rcases List.mem_cons.mp hc with hc | hc
        · exact .inr hc
        · exact .inl (h c (List.mem_of_mem_drop hc))

variable {spec : Format}

theorem plain_magnitude (d : Digits) : Style.plain.magnitude d =
    positionalText false (Nat.toDigits 10 d.digits) (d.exponent + (Nat.toDigits 10 d.digits).length) := by
  rw [Style.magnitude]
  simp only [Style.plain, if_true, Int.sub_add_cancel]

/-- What a text without a sign is read as, for a number and its digits. -/
structure ReadAs (spec : Format) (cs : List Char) (u : UnpackedFloat) : Prop where
  first : ∃ c rest, cs = c :: rest ∧ c.isDigit = true
  plain : ∀ c ∈ cs, c.isDigit = true ∨ c = '.'
  numeral : ∃ n : Numeral, Numeral.read cs = some n ∧ 0 < n.digits ∧
    UnpackedFloat.pack spec (nearest spec .positive n.value) = UnpackedFloat.pack spec u

theorem readAs_magnitude (hspec : Wide spec) {m : Nat} {q : Int} (h : IsCanonical spec m q)
    (hrange : InRange spec q) : ReadAs spec
      (Style.plain.magnitude (.shortest spec .upward m q h.pos)) (.finite .positive m q h.pos) := by
  obtain ⟨hpos, hnearest⟩ := Digits.readsAs_shortest hspec .upward h hrange
  generalize Digits.shortest spec .upward m q h.pos = d at *
  have hdigit : ∀ c ∈ Nat.toDigits 10 d.digits, c.isDigit = true := fun c hc => isDigit_of_mem_decimal hc
  obtain ⟨n, hread, hdigits, hvalue⟩ := read_positionalText d hpos
  rw [plain_magnitude]
  exact ⟨exists_positionalText hdigit Nat.toDigits_ne_nil _, mem_positionalText false hdigit _,
    n, hread, hdigits, by rw [hvalue]; exact hnearest⟩

namespace ReadAs
variable {u : UnpackedFloat} (h : ReadAs spec cs u)
include h

theorem sign (s : Sign) : signOf (signText s ++ cs) = (s == .negative, cs) := by
  obtain ⟨c, rest, rfl, hdigit⟩ := h.first
  cases s with
  | negative => rfl
  | positive => exact signOf_of_digit hdigit

theorem magnitude : ∃ n : Numeral, Magnitude.read cs = some (.numeral n) ∧ 0 < n.digits ∧
    UnpackedFloat.pack spec (nearest spec .positive n.value) = UnpackedFloat.pack spec u := by
  obtain ⟨c, rest, rfl, hdigit⟩ := h.first
  obtain ⟨n, hread, hn⟩ := h.numeral
  exact ⟨n, by rw [Magnitude.read_of_digit hdigit, hread, Option.map_some], hn⟩

end ReadAs

theorem literalExponent_eq (e : Int) : literalExponent (decide (e < 0)) e.natAbs = e := by
  by_cases h : e < 0
  · rw [decide_eq_true h, literalExponent, if_pos rfl]
    omega
  · rw [decide_eq_false h, literalExponent, if_neg Bool.false_ne_true]
    omega

theorem Numeral.toFloat_eq (n : Numeral) (h : 0 < n.digits) :
    n.toFloat = .ofModel (Float.Model.pack (nearest .binary64 .positive n.value)) := by
  rw [Numeral.toFloat, float_ofScientific _ _ _ h, literalExponent_eq]
  rfl

theorem Numeral.toFloat32_eq (n : Numeral) (h : 0 < n.digits) :
    n.toFloat32 = .ofModel (Float32.Model.pack (nearest .binary32 .positive n.value)) := by
  rw [Numeral.toFloat32, float32_ofScientific _ _ _ h, literalExponent_eq]
  rfl

theorem float_pack_unpack (x : Float) (h : x.isFinite = true) :
    Float.ofModel (Float.Model.pack x.toModel.unpack) = x := by
  obtain ⟨bits, hvalid⟩ := x
  have hbits : UnpackedFloat.pack .binary64 (UnpackedFloat.unpack .binary64 bits.toBitVec) = bits.toBitVec :=
    pack_unpack (by decide) _ h
  simp only [Float.Model.pack, Float.Model.unpack, hbits]

theorem float32_pack_unpack (x : Float32) (h : x.isFinite = true) :
    Float32.ofModel (Float32.Model.pack x.toModel.unpack) = x := by
  obtain ⟨bits, hvalid⟩ := x
  have hbits : UnpackedFloat.pack .binary32 (UnpackedFloat.unpack .binary32 bits.toBitVec) = bits.toBitVec :=
    pack_unpack (by decide) _ h
  simp only [Float32.Model.pack, Float32.Model.unpack, hbits]

theorem readFloat_signText {t : List Char} {s : Sign} {m : Nat} {q : Int}
    (h : IsCanonical .binary64 m q) (hrange : InRange .binary64 q)
    (ht : ReadAs .binary64 t (.finite .positive m q h.pos)) :
    readFloat (signText s ++ t) = some (.ofModel (Float.Model.pack (.finite s m q h.pos))) := by
  obtain ⟨n, hmagnitude, hdigits, hnearest⟩ := ht.magnitude
  have hvalue : (Magnitude.numeral n).toFloat =
      .ofModel (Float.Model.pack (.finite .positive m q h.pos)) := by
    rw [Magnitude.toFloat, n.toFloat_eq hdigits]
    exact congrArg Float.ofModel (pack_congr hnearest)
  rw [readFloat, ht.sign s]
  simp only [hmagnitude, Option.map_some, hvalue]
  cases s with
  | positive => rfl
  | negative =>
    have hunpack : (Float.Model.pack (.finite .positive m q h.pos)).unpack = .finite .positive m q h.pos :=
      h.unpack_pack .positive hrange
    exact congrArg (fun u => some (Float.ofModel (Float.Model.pack u.neg))) hunpack

theorem readFloat32_signText {t : List Char} {s : Sign} {m : Nat} {q : Int}
    (h : IsCanonical .binary32 m q) (hrange : InRange .binary32 q)
    (ht : ReadAs .binary32 t (.finite .positive m q h.pos)) :
    readFloat32 (signText s ++ t) = some (.ofModel (Float32.Model.pack (.finite s m q h.pos))) := by
  obtain ⟨n, hmagnitude, hdigits, hnearest⟩ := ht.magnitude
  have hvalue : (Magnitude.numeral n).toFloat32 =
      .ofModel (Float32.Model.pack (.finite .positive m q h.pos)) := by
    rw [Magnitude.toFloat32, n.toFloat32_eq hdigits]
    exact congrArg Float32.ofModel (pack32_congr hnearest)
  rw [readFloat32, ht.sign s]
  simp only [hmagnitude, Option.map_some, hvalue]
  cases s with
  | positive => rfl
  | negative =>
    have hunpack : (Float32.Model.pack (.finite .positive m q h.pos)).unpack = .finite .positive m q h.pos :=
      h.unpack_pack .positive hrange
    exact congrArg (fun u => some (Float32.ofModel (Float32.Model.pack u.neg))) hunpack

def isPlainDigit (c : Char) : Bool := c.isDigit || c == '.' || c == '-'

theorem isPlainDigit_of_mem_signText {s : Sign} (h : ∀ c ∈ cs, c.isDigit = true ∨ c = '.') :
    ∀ c ∈ signText s ++ cs, isPlainDigit c = true := by
  intro c hc
  rw [isPlainDigit]
  rcases List.mem_append.mp hc with hc | hc
  · cases s with
    | positive => cases hc
    | negative =>
      rw [List.mem_singleton.mp hc]
      decide
  · rcases h c hc with hdigit | rfl
    · rw [hdigit]
      rfl
    · decide

/-- What a finite number of a format is written as. -/
theorem plain_text_cases (hspec : Wide spec) (b : BitVec spec.numBits)
    (h : (UnpackedFloat.unpack spec b).isFinite = true) :
    (∃ s, UnpackedFloat.unpack spec b = .zero s ∧
      Style.plain.text spec (UnpackedFloat.unpack spec b) = signText s ++ ['0']) ∨
    ∃ s m q, ∃ hcanonical : IsCanonical spec m q, ∃ t, InRange spec q ∧
      UnpackedFloat.unpack spec b = .finite s m q hcanonical.pos ∧
      Style.plain.text spec (UnpackedFloat.unpack spec b) = signText s ++ t ∧
      ReadAs spec t (.finite .positive m q hcanonical.pos) := by
  cases hu : UnpackedFloat.unpack spec b with
  | notANumber =>
    rw [hu] at h
    cases h
  | infinity s =>
    rw [hu] at h
    cases h
  | zero s => exact .inl ⟨s, rfl, rfl⟩
  | finite s m q hm =>
    obtain ⟨hcanonical, hrange⟩ := isCanonical_of_unpack hspec.bits _ hu
    exact .inr ⟨s, m, q, hcanonical, _, hrange, rfl, rfl, readAs_magnitude hspec hcanonical hrange⟩

theorem isPlainDigit_of_mem_text (hspec : Wide spec) (b : BitVec spec.numBits)
    (h : (UnpackedFloat.unpack spec b).isFinite = true) :
    ∀ c ∈ Style.plain.text spec (UnpackedFloat.unpack spec b), isPlainDigit c = true := by
  rcases plain_text_cases hspec b h with ⟨s, -, htext⟩ | ⟨s, m, q, hcanonical, t, -, -, htext, hread⟩
  · rw [htext]
    exact isPlainDigit_of_mem_signText (by simp)
  · rw [htext]
    exact isPlainDigit_of_mem_signText hread.plain

/-- A finite number of 64 bits is read as it is written. -/
theorem readFloat_plain (x : Float) (h : x.isFinite = true) :
    readFloat (Style.plain.float x).toList = some x := by
  have hx := float_pack_unpack x h
  rw [Style.float, String.toList_ofList]
  rcases plain_text_cases wide_binary64 x.toModel.toBits.toBitVec h with
    ⟨s, hu, htext⟩ | ⟨s, m, q, hcanonical, t, hrange, hu, htext, hread⟩
  · rw [Float.Model.unpack, hu] at hx
    rw [Float.Model.unpack, htext, ← hx]
    cases s with
    | positive => rfl
    | negative => rfl
  · rw [Float.Model.unpack, hu] at hx
    rw [Float.Model.unpack, htext, ← hx]
    exact readFloat_signText hcanonical hrange hread

theorem readFloat32_plain (x : Float32) (h : x.isFinite = true) :
    readFloat32 (Style.plain.float32 x).toList = some x := by
  have hx := float32_pack_unpack x h
  rw [Style.float32, String.toList_ofList]
  rcases plain_text_cases wide_binary32 x.toModel.toBits.toBitVec h with
    ⟨s, hu, htext⟩ | ⟨s, m, q, hcanonical, t, hrange, hu, htext, hread⟩
  · rw [Float32.Model.unpack, hu] at hx
    rw [Float32.Model.unpack, htext, ← hx]
    cases s with
    | positive => rfl
    | negative => rfl
  · rw [Float32.Model.unpack, hu] at hx
    rw [Float32.Model.unpack, htext, ← hx]
    exact readFloat32_signText hcanonical hrange hread

theorem isPlainDigit_float (x : Float) (h : x.isFinite = true) :
    ∀ c ∈ (Style.plain.float x).toList, isPlainDigit c = true := by
  rw [Style.float, String.toList_ofList]
  exact isPlainDigit_of_mem_text wide_binary64 _ h

theorem isPlainDigit_float32 (x : Float32) (h : x.isFinite = true) :
    ∀ c ∈ (Style.plain.float32 x).toList, isPlainDigit c = true := by
  rw [Style.float32, String.toList_ofList]
  exact isPlainDigit_of_mem_text wide_binary32 _ h

end ScriptedActors.Decimal
