import ScriptedActors.Proofs.Decimal.ReadBack
import ScriptedActors.Proofs.Statement.Parsing

set_option autoImplicit false

/-!
# Durations

A duration is digits behind an optional plus sign and in front of an optional unit. It is read as
its exact number of ticks, and refused where that number or the one written has more than 64 bits.
-/
namespace ScriptedActors
open Text Reading

theorem toLower_cases (c : Char) :
    c.toLower = c ∨ (65 ≤ c.toNat ∧ c.toNat ≤ 90 ∧ c.toLower.toNat = c.toNat + 32) := by
  rw [Char.toLower]
  split
  · rename_i hupper
    have hlow : 65 ≤ c.val.toNat := hupper.1
    have hhigh : c.val.toNat ≤ 90 := hupper.2
    refine .inr ⟨hlow, hhigh, ?_⟩
    change (c.val + 32).toNat = c.val.toNat + 32
    rw [UInt32.toNat_add]
    exact Nat.mod_eq_of_lt (by change _ + 32 < _; omega)
  · exact .inl rfl

theorem eq_of_toLower {c d : Char} (h : c.toLower = d) (hd : d.toNat < 97) : c = d := by
  rcases toLower_cases c with hc | ⟨hlow, -, hc⟩
  · exact hc.symm.trans h
  · rw [h] at hc
    omega

theorem eq_or_eq_of_toLower {c d capital : Char} (h : c.toLower = d) (hcapital : capital.toNat + 32 = d.toNat) :
    c = d ∨ c = capital := by
  rcases toLower_cases c with hc | ⟨-, -, hc⟩
  · exact .inl (hc.symm.trans h)
  · rw [h, ← hcapital] at hc
    exact .inr (Char.toNat_inj.mp (by omega))

/-- Digits behind an optional plus sign, and the number they denote. -/
inductive IsNumeral : List Char → Nat → Prop
  | plain (digits : List Char) (hne : digits ≠ []) (h : ∀ c ∈ digits, c.isDigit = true) :
      IsNumeral digits (Nat.ofDigitChars 10 digits 0)
  | plus (digits : List Char) (hne : digits ≠ []) (h : ∀ c ∈ digits, c.isDigit = true) :
      IsNumeral ('+' :: digits) (Nat.ofDigitChars 10 digits 0)

def units : List (List Char × Nat) := [([], 1), (['t'], 1), (['T'], 1), (['s'], 20), (['S'], 20)]

/-- A text for a duration, and the ticks it stands for. -/
inductive IsDuration : String → Nat → Prop
  | intro (cs unit : List Char) (scale n : Nat) (hunit : (unit, scale) ∈ units) (h : IsNumeral cs n)
      (hfits : n < 2 ^ 64) (hscaled : scale * n < 2 ^ 64) : IsDuration (String.ofList (cs ++ unit)) (scale * n)

/-- Texts that are nearly durations: the ticks are too many, the number is missing, there are two
units, or there is a minus sign. -/
inductive NearlyDuration : String → Prop
  | large (cs unit : List Char) (scale n : Nat) (hunit : (unit, scale) ∈ units) (h : IsNumeral cs n)
      (hlarge : 2 ^ 64 ≤ scale * n) : NearlyDuration (String.ofList (cs ++ unit))
  | bareUnit (plus unit : List Char) (scale : Nat) (hplus : plus ∈ [[], ['+']])
      (hunit : (unit, scale) ∈ units) : NearlyDuration (String.ofList (plus ++ unit))
  | twoUnits (front : List Char) (u v : Char) (scale other : Nat) (hu : ([u], scale) ∈ units)
      (hv : ([v], other) ∈ units) : NearlyDuration (String.ofList (front ++ [u] ++ [v]))
  | minus (text : String) (h : '-' ∈ text.toList) : NearlyDuration text

theorem afterDigits_eq_nil_iff (digits : List Char) :
    Decimal.afterDigits digits = [] ↔ ∀ c ∈ digits, c.isDigit = true := List.dropWhile_eq_nil_iff

namespace IsNumeral

theorem exists_last {cs : List Char} {n : Nat} (h : IsNumeral cs n) :
    ∃ front c, cs = front ++ [c] ∧ c.isDigit = true := by
  cases h with
  | plain _ hne hdigits =>
    exact ⟨cs.dropLast, cs.getLast hne, (List.dropLast_concat_getLast hne).symm,
      hdigits _ (List.getLast_mem hne)⟩
  | plus digits hne hdigits =>
    exact ⟨'+' :: digits.dropLast, digits.getLast hne, by
      rw [List.cons_append, List.dropLast_concat_getLast hne], hdigits _ (List.getLast_mem hne)⟩

theorem mem {cs : List Char} {n : Nat} (h : IsNumeral cs n) : ∀ c ∈ cs, c.isDigit = true ∨ c = '+' := by
  intro c hc
  cases h with
  | plain _ _ hdigits => exact .inl (hdigits c hc)
  | plus digits _ hdigits =>
    rcases List.mem_cons.mp hc with rfl | hc
    · exact .inr rfl
    · exact .inl (hdigits c hc)

theorem map_toLower {cs : List Char} {n : Nat} (h : IsNumeral cs n) : cs.map Char.toLower = cs := by
  refine (List.map_congr_left fun c hc => ?_).trans (List.map_id cs)
  rcases h.mem c hc with hdigit | rfl
  · exact Decimal.toLower_of_digit hdigit
  · rfl

theorem of_map_toLower {cs : List Char} {n : Nat} (h : IsNumeral (cs.map Char.toLower) n) :
    IsNumeral cs n := by
  have hcs : cs.map Char.toLower = cs := by
    refine (List.map_congr_left fun c hc => ?_).trans (List.map_id cs)
    have hfolded := h.mem c.toLower (List.mem_map_of_mem hc)
    refine (eq_of_toLower rfl ?_).symm
    rcases hfolded with hdigit | hplus
    · have hhigh := (Char.isDigit_iff_toNat.mp hdigit).2
      exact lt_of_le_of_lt hhigh (by decide)
    · rw [hplus]
      decide
  rwa [hcs] at h

end IsNumeral

theorem readDigits_eq_some_iff (digits : List Char) (n : Nat) :
    (if digits = [] ∨ Decimal.afterDigits digits ≠ [] then none
      else if Decimal.valueOf digits < UInt64.size then some (Decimal.valueOf digits) else none) = some n ↔
      (digits ≠ [] ∧ (∀ c ∈ digits, c.isDigit = true) ∧ n = Nat.ofDigitChars 10 digits 0) ∧ n < 2 ^ 64 := by
  rw [← afterDigits_eq_nil_iff]
  by_cases hbad : digits = [] ∨ Decimal.afterDigits digits ≠ []
  · rw [if_pos hbad]
    constructor
    · rintro ⟨⟩
    · rintro ⟨⟨hne, hafter, -⟩, -⟩
      exact absurd hbad (by simp [hne, hafter])
  · obtain ⟨hne, hafter⟩ := not_or.mp hbad
    rw [if_neg hbad, Option.ite_none_right_eq_some, Option.some.injEq]
    constructor
    · rintro ⟨hfits, rfl⟩
      exact ⟨⟨hne, not_not.mp hafter, rfl⟩, hfits⟩
    · rintro ⟨⟨-, -, rfl⟩, hfits⟩
      exact ⟨hfits, rfl⟩

/-- A number that has more than 64 bits is refused, however many zeros are in front of it. -/
theorem readWord_eq_some_iff (cs : List Char) (n : Nat) :
    readWord cs = some n ↔ IsNumeral cs n ∧ n < 2 ^ 64 := by
  cases cs with
  | nil =>
    constructor
    · rintro ⟨⟩
    · rintro ⟨⟨_, hne, -⟩, -⟩
      exact absurd rfl hne
  | cons c cs =>
    by_cases hplus : c = '+'
    · subst hplus
      refine (readDigits_eq_some_iff cs n).trans (and_congr_left' ⟨?_, ?_⟩)
      · rintro ⟨hne, hall, rfl⟩
        exact .plus cs hne hall
      · intro h
        cases h with
        | plain _ _ hall => exact absurd (hall '+' List.mem_cons_self) (by decide)
        | plus _ hne hall => exact ⟨hne, hall, rfl⟩
    · have hhead : ((c :: cs).head? == some '+') = false := by simpa using hplus
      rw [readWord, hhead]
      refine (readDigits_eq_some_iff (c :: cs) n).trans (and_congr_left' ⟨?_, ?_⟩)
      · rintro ⟨hne, hall, rfl⟩
        exact .plain (c :: cs) hne hall
      · intro h
        cases h with
        | plain _ hne hall => exact ⟨hne, hall, rfl⟩
        | plus => exact absurd rfl hplus

def scaled (scale n : Nat) : Option UInt64 :=
  if n * scale < UInt64.size then some (UInt64.ofNat (n * scale)) else none

theorem readDuration_append (front : List Char) (c : Char) :
    readDuration (String.ofList (front ++ [c])) =
      if c.toLower = 's' then (readWord (front.map Char.toLower)).bind (scaled ticksPerSecond)
      else if c.toLower = 't' then (readWord (front.map Char.toLower)).bind (scaled 1)
      else (readWord ((front ++ [c]).map Char.toLower)).bind (scaled 1) := by
  have hlower : (lower (String.ofList (front ++ [c]))).toList = front.map Char.toLower ++ [c.toLower] := by
    rw [lower, String.toList_ofList, String.toList_ofList, List.map_append, List.map_singleton]
  rw [readDuration, hlower, List.getLast?_concat, List.dropLast_concat]
  by_cases hs : c.toLower = 's'
  · simp only [hs, true_or, if_true]
    rfl
  · by_cases ht : c.toLower = 't'
    · simp only [ht, Option.some.injEq, or_true, if_true]
      rfl
    · simp only [Option.some.injEq, hs, ht, or_self, if_false, List.map_append, List.map_singleton]
      rfl

theorem scaled_eq_some_iff (scale n : Nat) (ticks : UInt64) :
    scaled scale n = some ticks ↔ ticks.toNat = scale * n := by
  rw [scaled, Option.ite_none_right_eq_some, Option.some.injEq, Nat.mul_comm scale]
  constructor
  · rintro ⟨hfits, rfl⟩
    exact UInt64.toNat_ofNat_of_lt hfits
  · intro h
    rw [← h]
    exact ⟨ticks.toNat_lt_size, UInt64.ofNat_toNat⟩

theorem bind_scaled_eq_some_iff (cs : List Char) (scale : Nat) (ticks : UInt64) :
    (readWord cs).bind (scaled scale) = some ticks ↔
      ∃ n, IsNumeral cs n ∧ n < 2 ^ 64 ∧ ticks.toNat = scale * n := by
  simp only [Option.bind_eq_some_iff, readWord_eq_some_iff, scaled_eq_some_iff, and_assoc]

theorem isDuration_of_read {text : String} {ticks : UInt64} (h : readDuration text = some ticks) :
    IsDuration text ticks.toNat := by
  -- The text is folded as a whole before it is read, and folding leaves a number as it is.
  have hintro : ∀ (cs unit : List Char) (scale : Nat), (unit, scale) ∈ units →
      (readWord (cs.map Char.toLower)).bind (scaled scale) = some ticks →
        IsDuration (String.ofList (cs ++ unit)) ticks.toNat := by
    intro cs unit scale hunit hread
    obtain ⟨n, hn, hfits, hticks⟩ := (bind_scaled_eq_some_iff ..).mp hread
    have hbound := ticks.toNat_lt
    rw [hticks] at hbound ⊢
    exact .intro cs unit scale n hunit hn.of_map_toLower hfits hbound
  obtain ⟨cs, rfl⟩ : ∃ cs, text = String.ofList cs := ⟨text.toList, String.ofList_toList.symm⟩
  rcases List.eq_nil_or_concat' cs with rfl | ⟨front, c, rfl⟩
  · cases h
  · rw [readDuration_append] at h
    split_ifs at h with hs ht
    · refine hintro front [c] 20 ?_ h
      rcases eq_or_eq_of_toLower hs (show 'S'.toNat + 32 = 's'.toNat from rfl) with rfl | rfl <;> decide
    · refine hintro front [c] 1 ?_ h
      rcases eq_or_eq_of_toLower ht (show 'T'.toNat + 32 = 't'.toNat from rfl) with rfl | rfl <;> decide
    · have hplain := hintro (front ++ [c]) [] 1 (by decide) h
      rwa [List.append_nil] at hplain

theorem read_of_isDuration {text : String} {ticks : UInt64} (h : IsDuration text ticks.toNat) :
    readDuration text = some ticks := by
  generalize hticks : ticks.toNat = m at h
  cases h with
  | intro cs unit scale n hunit h hfits hscaled =>
    have hread : (readWord (cs.map Char.toLower)).bind (scaled scale) = some ticks := by
      rw [h.map_toLower]
      exact (bind_scaled_eq_some_iff ..).mpr ⟨n, h, hfits, hticks⟩
    simp only [units, List.mem_cons, Prod.mk.injEq, List.not_mem_nil, or_false] at hunit
    rcases hunit with ⟨rfl, rfl⟩ | ⟨rfl, rfl⟩ | ⟨rfl, rfl⟩ | ⟨rfl, rfl⟩ | ⟨rfl, rfl⟩
    · obtain ⟨front, c, rfl, hdigit⟩ := h.exists_last
      have hlower := Decimal.toLower_of_digit hdigit
      have hne : ∀ d : Char, d.isDigit = false → c.toLower ≠ d := by
        rintro d hd rfl
        rw [hlower, hdigit] at hd
        cases hd
      rw [List.append_nil, readDuration_append, if_neg (hne 's' (by decide)), if_neg (hne 't' (by decide))]
      exact hread
    all_goals
      rw [readDuration_append]
      exact hread

theorem readDuration_eq_some_iff (text : String) (ticks : UInt64) :
    readDuration text = some ticks ↔ IsDuration text ticks.toNat := ⟨isDuration_of_read, read_of_isDuration⟩

theorem IsDuration.lt {text : String} {m : Nat} (h : IsDuration text m) : m < 2 ^ 64 := by
  cases h with
  | intro cs unit scale n hunit h hfits hscaled => exact hscaled

theorem unit_cases {unit : List Char} {scale : Nat} (h : (unit, scale) ∈ units) :
    unit = [] ∨ ∃ u, unit = [u] ∧ u.isDigit = false ∧ u ≠ '-' := by
  simp only [units, List.mem_cons, Prod.mk.injEq, List.not_mem_nil, or_false] at h
  rcases h with ⟨rfl, -⟩ | ⟨rfl, -⟩ | ⟨rfl, -⟩ | ⟨rfl, -⟩ | ⟨rfl, -⟩
  · exact .inl rfl
  all_goals exact .inr ⟨_, rfl, by decide, by decide⟩

namespace IsNumeral

theorem last_isDigit {front : List Char} {c : Char} {n : Nat} (h : IsNumeral (front ++ [c]) n) :
    c.isDigit = true := by
  obtain ⟨front', c', heq, hdigit⟩ := h.exists_last
  have hlast : c = c' := by simpa using (List.append_inj' heq rfl).2
  rwa [hlast]

theorem unique {cs : List Char} {n m : Nat} (h : IsNumeral cs n) (h' : IsNumeral cs m) : n = m := by
  cases h with
  | plain _ _ hdigits =>
    cases h' with
    | plain => rfl
    | plus => exact absurd (hdigits '+' List.mem_cons_self) (by decide)
  | plus digits _ _ =>
    cases h' with
    | plain _ _ hdigits => exact absurd (hdigits '+' List.mem_cons_self) (by decide)
    | plus => rfl

/-- A number ends where its unit begins. -/
theorem append_inj {cs ds unit other : List Char} {n m scale scale' : Nat} (h : IsNumeral cs n)
    (h' : IsNumeral ds m) (hunit : (unit, scale) ∈ units) (hother : (other, scale') ∈ units)
    (heq : cs ++ unit = ds ++ other) : cs = ds ∧ unit = other := by
  rcases unit_cases hunit with rfl | ⟨u, rfl, hu, -⟩
  · rcases unit_cases hother with rfl | ⟨v, rfl, hv, -⟩
    · simpa using heq
    · rw [List.append_nil] at heq
      rw [heq] at h
      exact absurd h.last_isDigit (by simp [hv])
  · rcases unit_cases hother with rfl | ⟨v, rfl, hv, -⟩
    · rw [List.append_nil] at heq
      rw [← heq] at h'
      exact absurd h'.last_isDigit (by simp [hu])
    · exact List.append_inj' heq rfl

end IsNumeral

theorem scale_unique : ∀ entry ∈ units, ∀ other ∈ units, entry.1 = other.1 → entry.2 = other.2 := by decide

theorem isDigit_of_unit {u : Char} {scale : Nat} (h : ([u], scale) ∈ units) : u.isDigit = false := by
  rcases unit_cases h with hnil | ⟨v, hv, hdigit, -⟩
  · cases hnil
  · cases hv
    exact hdigit

theorem NearlyDuration.not_isDuration {text : String} (hnearly : NearlyDuration text) (m : Nat) :
    ¬ IsDuration text m := by
  intro h
  generalize htext : text = whole at h
  obtain ⟨cs, unit, scale, n, hunit, h, hfits, hscaled⟩ := h
  cases hnearly with
  | large ds other scale' k hother h' hlarge =>
    obtain ⟨rfl, rfl⟩ := h.append_inj h' hunit hother (String.ofList_injective htext).symm
    rw [show scale = scale' from scale_unique _ hunit _ hother rfl, h.unique h'] at hscaled
    omega
  | bareUnit plus other scale' hplus hother =>
    have heq := String.ofList_injective htext
    obtain ⟨front, c, rfl, hdigit⟩ := h.exists_last
    have hmem : c ∈ plus ++ other := by
      rw [heq]
      simp
    rcases List.mem_append.mp hmem with hc | hc
    · simp only [List.mem_cons, List.not_mem_nil, or_false] at hplus
      rcases hplus with rfl | rfl
      · cases hc
      · rw [List.mem_singleton.mp hc] at hdigit
        exact absurd hdigit (by decide)
    · rcases unit_cases hother with rfl | ⟨u, rfl, hu, -⟩
      · cases hc
      · rw [List.mem_singleton.mp hc, hu] at hdigit
        cases hdigit
  | twoUnits front u v scale' scale'' hu hv =>
    have heq := String.ofList_injective htext
    rcases unit_cases hunit with rfl | ⟨w, rfl, -, -⟩
    · rw [List.append_nil] at heq
      rw [← heq] at h
      exact absurd h.last_isDigit (by simp [isDigit_of_unit hv])
    · obtain ⟨hfront, -⟩ := List.append_inj' heq rfl
      rw [← hfront] at h
      exact absurd h.last_isDigit (by simp [isDigit_of_unit hu])
  | minus _ hminus =>
    rw [htext, String.toList_ofList, List.mem_append] at hminus
    rcases hminus with hc | hc
    · exact absurd (h.mem '-' hc) (by decide)
    · rcases unit_cases hunit with rfl | ⟨u, rfl, -, hu⟩
      · cases hc
      · exact hu (List.mem_singleton.mp hc).symm

namespace ActionTable

theorem wait_mem : ("wait", Grammar.wait) ∈ vocabulary := by
  rw [vocabulary]
  exact List.mem_cons_of_mem _ List.mem_cons_self

theorem parse_wait_token {statement keyword : String} {t : Token}
    (hscan : Token.scan statement = .ok [.word keyword, t]) (hname : sameName "wait" keyword = true) :
    builtin.parse statement =
      match readDuration t.text with
      | some ticks => .ok (.wait ticks)
      | none => .error (.invalidArgument keyword t.text "expected ticks or seconds (e.g. 20, 5s)") := by
  have hread : Grammar.wait ⟨keyword, [t]⟩ =
      (match readDuration t.text with
        | some ticks => pure (.wait ticks)
        | none => invalid t.text "expected ticks or seconds (e.g. 20, 5s)" : Reading Action) ⟨keyword, []⟩ := rfl
  rw [parse_of_scan _ hscan, parseTokens, (resolveAction_eq_ok _ _).mpr ⟨"wait", wait_mem, hname⟩]
  cases hticks : readDuration t.text with
  | some ticks =>
    rw [hticks] at hread
    exact (complete_outcome_eq_ok _ _ _).mpr ⟨_, hread, rfl⟩
  | none =>
    rw [hticks] at hread
    exact (complete_outcome_eq_error _ _ _).mpr (.inl ⟨_, hread⟩)

theorem parse_wait_iff (statement keyword : String) (t : Token)
    (hscan : Token.scan statement = .ok [.word keyword, t]) (hname : sameName "wait" keyword = true) :
    (∀ ticks : UInt64, builtin.parse statement = .ok (.wait ticks) ↔ IsDuration t.text ticks.toNat) ∧
      (∀ n, IsDuration t.text n → ∃ ticks : UInt64, ticks.toNat = n ∧
        builtin.parse statement = .ok (.wait ticks)) ∧
      ((∀ n, ¬ IsDuration t.text n) → builtin.parse statement =
        .error (.invalidArgument keyword t.text "expected ticks or seconds (e.g. 20, 5s)")) ∧
      (NearlyDuration t.text → ∀ n, ¬ IsDuration t.text n) := by
  have hparse := parse_wait_token hscan hname
  have hok : ∀ ticks : UInt64, builtin.parse statement = .ok (.wait ticks) ↔
      IsDuration t.text ticks.toNat := by
    intro ticks
    rw [hparse, ← readDuration_eq_some_iff]
    cases readDuration t.text with
    | some found => simp
    | none => simp
  refine ⟨hok, fun n hn => ?_, fun hnone => ?_, NearlyDuration.not_isDuration⟩
  · have hticks : (UInt64.ofNat n).toNat = n := UInt64.toNat_ofNat_of_lt hn.lt
    exact ⟨.ofNat n, hticks, (hok _).mpr (by rwa [hticks])⟩
  · rw [hparse]
    cases hread : readDuration t.text with
    | some ticks => exact absurd ((readDuration_eq_some_iff ..).mp hread) (hnone _)
    | none => rfl

theorem parse_wait_overflow :
    builtin.parse "WAIT +000922337203685477580S" = .ok (.wait 18446744073709551600) ∧
      builtin.parse "WAIT \"922337203685477581s\"" = .error (.invalidArgument "WAIT" "922337203685477581s"
        "expected ticks or seconds (e.g. 20, 5s)") := by
  constructor
  · have hscan : Token.scan "WAIT +000922337203685477580S" =
        .ok [.word "WAIT", .word "+000922337203685477580S"] := rfl
    have hduration : IsDuration "+000922337203685477580S" (20 * 922337203685477580) :=
      .intro "+000922337203685477580".toList ['S'] 20 922337203685477580 (by decide)
        (.plus "000922337203685477580".toList (by decide) (List.all_eq_true.mp rfl)) (by decide) (by decide)
    exact ((parse_wait_iff _ _ _ hscan (by decide)).1 18446744073709551600).mpr hduration
  · have hscan : Token.scan "WAIT \"922337203685477581s\"" =
        .ok [.word "WAIT", .quoted "922337203685477581s"] := rfl
    have hnearly : NearlyDuration "922337203685477581s" :=
      .large "922337203685477581".toList ['s'] 20 922337203685477581 (by decide)
        (.plain "922337203685477581".toList (by decide) (List.all_eq_true.mp rfl)) (by decide)
    have hwait := parse_wait_iff _ _ _ hscan (by decide)
    exact hwait.2.2.1 (hwait.2.2.2 hnearly)

end ActionTable
end ScriptedActors
