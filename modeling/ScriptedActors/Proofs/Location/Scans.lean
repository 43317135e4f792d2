import ScriptedActors.Proofs.Location.Text

set_option autoImplicit false

/-!
# Numbers of delimited text

The fields of a text are a function of the index, empty where there is none. A slot says which texts
are a number of its kind, apart from how they are read. A computation that reads numbers from
consecutive fields stops at the first that has not the shape of its slot, and names it.
-/
namespace ScriptedActors
open Decimal

namespace Fields

def nth (fields : Fields) (index : Nat) : String := fields[index]?.getD ""

theorem at?_eq_none (fields : Fields) (index : Nat) : fields.at? index = none ↔ fields.nth index = "" := by
  rw [at?, nth]
  cases fields[index]? with
  | none => simp
  | some s => simp [Option.filter]

theorem at?_eq_some (fields : Fields) (index : Nat) (s : String) :
    fields.at? index = some s ↔ fields.nth index = s ∧ s ≠ "" := by
  rw [at?, nth]
  cases fields[index]? with
  | none =>
    simp only [Option.filter_none, Option.getD_none, reduceCtorEq, false_iff, not_and, not_not]
    exact Eq.symm
  | some text =>
    rw [Option.filter_eq_some_iff, Option.getD_some, Option.some.injEq]
    simp

theorem exists_blanks (fields : Fields) : ∃ counted blanks : List String, fields = counted ++ blanks ∧
    counted.length = fields.count ∧ (∀ s ∈ blanks, s = "") ∧ ∀ s ∈ counted.getLast?, s ≠ "" := by
  refine ⟨(fields.reverse.dropWhile (· == "")).reverse, (fields.reverse.takeWhile (· == "")).reverse,
    ?_, ?_, ?_, ?_⟩
  · rw [← List.reverse_append, List.takeWhile_append_dropWhile, List.reverse_reverse]
  · rw [List.length_reverse, count]
  · intro s hs
    have hblank := List.all_eq_true.mp List.all_takeWhile s (List.mem_reverse.mp hs)
    exact beq_iff_eq.mp hblank
  · intro s hs
    rw [List.getLast?_reverse] at hs
    have hnot := List.head?_dropWhile_not (· == "") fields.reverse
    rw [hs] at hnot
    simpa using hnot

theorem nth_of_count_le {fields : Fields} {index : Nat} (h : fields.count ≤ index) : fields.nth index = "" := by
  obtain ⟨counted, blanks, rfl, hlength, hblanks, -⟩ := fields.exists_blanks
  rw [nth, List.getElem?_append_right (by omega)]
  cases hs : blanks[index - counted.length]? with
  | none => rfl
  | some s => exact hblanks s (List.mem_of_getElem? hs)

theorem nth_of_count_eq {fields : Fields} {last : Nat} (h : fields.count = last + 1) : fields.nth last ≠ "" := by
  obtain ⟨counted, blanks, rfl, hlength, -, hlast⟩ := fields.exists_blanks
  have hat : counted[last]? = counted.getLast? := by
    rw [List.getLast?_eq_getElem?, hlength, h, Nat.add_sub_cancel]
  obtain ⟨s, hs⟩ : ∃ s, counted[last]? = some s := ⟨_, List.getElem?_eq_getElem (by omega)⟩
  rw [nth, List.getElem?_append_left (by omega), hs]
  exact hlast s (hat ▸ hs)

theorem count_le_iff (fields : Fields) (max : Nat) :
    fields.count ≤ max ↔ ∀ i, max ≤ i → fields.nth i = "" := by
  constructor
  · exact fun h i hi => nth_of_count_le (h.trans hi)
  · intro h
    by_contra hlt
    obtain ⟨last, hlast⟩ : ∃ last, fields.count = last + 1 := ⟨fields.count - 1, by omega⟩
    exact nth_of_count_eq hlast (h last (by omega))

theorem count_eq_succ_iff (fields : Fields) (last : Nat) :
    fields.count = last + 1 ↔ fields.nth last ≠ "" ∧ ∀ i, last < i → fields.nth i = "" := by
  constructor
  · exact fun h => ⟨nth_of_count_eq h, fun i hi => nth_of_count_le (by omega)⟩
  · rintro ⟨hlast, hrest⟩
    have hle := (fields.count_le_iff (last + 1)).mpr hrest
    have hnot : ¬ fields.count ≤ last := fun h => hlast (nth_of_count_le h)
    omega

/-- Which number a field may be: what it is called, what an absent one is, and which texts are
which number. -/
structure Slot (α : Type) where
  name : String
  zero : α
  Denotes : String → α → Prop

/-- Which texts a field may be. -/
structure Shape where
  name : String
  IsNumber : String → Prop

namespace Slot

def binary64 : Slot Float := ⟨"f64", 0, fun s x => readFloat s.toList = some x ∧ x.isFinite = true⟩

def binary32 : Slot Float32 := ⟨"f32", 0, fun s x => readFloat32 s.toList = some x ∧ x.isFinite = true⟩

def int32 : Slot Int := ⟨"i32", 0, fun s n => readInteger s.toList = some n ∧ -2 ^ 31 ≤ n ∧ n < 2 ^ 31⟩

variable {α : Type}

def shape (slot : Slot α) : Shape := ⟨slot.name, fun s => ∃ x, slot.Denotes s x⟩

def Reads (slot : Slot α) (s : String) (x : α) : Prop := if s = "" then x = slot.zero else slot.Denotes s x

end Slot

def Shape.Admits (shape : Shape) (s : String) : Prop := s = "" ∨ shape.IsNumber s

theorem Slot.admits_iff {α : Type} (slot : Slot α) (s : String) :
    slot.shape.Admits s ↔ ∃ x, slot.Reads s x := by
  unfold Reads
  by_cases hs : s = ""
  · simp [Shape.Admits, hs]
  · simp [Shape.Admits, Slot.shape, hs]

end Fields

structure NumberKind.Fills {α : Type} (kind : NumberKind α) (slot : Fields.Slot α) : Prop where
  name : kind.name = slot.name
  zero : kind.zero = slot.zero
  read : ∀ s x, kind.read s.toList = some x ↔ slot.Denotes s x

namespace NumberKind

theorem binary64_fills : binary64.Fills .binary64 where
  name := rfl
  zero := rfl
  read _ _ := Option.filter_eq_some_iff

theorem binary32_fills : binary32.Fills .binary32 where
  name := rfl
  zero := rfl
  read _ _ := Option.filter_eq_some_iff

theorem int32_fills : int32.Fills .int32 where
  name := rfl
  zero := rfl
  read s n := by
    change (readInteger s.toList).filter _ = some n ↔ _
    rw [Option.filter_eq_some_iff, Bool.and_eq_true, decide_eq_true_eq, decide_eq_true_eq]
    change _ ∧ _ ∧ n ≤ 2 ^ 31 - 1 ↔ _ ∧ _ ∧ n < 2 ^ 31
    rw [Int.le_sub_one_iff]
    rfl

end NumberKind

namespace Fields
variable {α β : Type} {kind : NumberKind α} {slot : Slot α}

theorem number_eq_ok_iff (h : kind.Fills slot) (fields : Fields) (index : Nat) (x : α) :
    fields.number kind index = .ok x ↔ slot.Reads (fields.nth index) x := by
  rw [number, Slot.Reads]
  cases hat : fields.at? index with
  | none => simp [(at?_eq_none ..).mp hat, h.zero, eq_comm]
  | some s =>
    obtain ⟨hnth, hne⟩ := (at?_eq_some ..).mp hat
    rw [hnth, if_neg hne, ← h.read]
    dsimp only
    cases kind.read s.toList with
    | none => simp
    | some value => simp

theorem number_eq_error_iff (h : kind.Fills slot) (fields : Fields) (index : Nat) (e : FieldsError) :
    fields.number kind index = .error e ↔ ¬ slot.shape.Admits (fields.nth index) ∧
      e = .invalidNumber index (fields.nth index) slot.name := by
  rw [slot.admits_iff, ← h.name]
  simp only [← number_eq_ok_iff h]
  rw [number]
  cases hat : fields.at? index with
  | none => simp
  | some s =>
    obtain ⟨rfl, -⟩ := (at?_eq_some ..).mp hat
    dsimp only
    cases kind.read (fields.nth index).toList with
    | none => simp [eq_comm]
    | some value => simp

/-- The first of the fields that does not have its shape. -/
structure FirstBad (field : Nat → String) (first : Nat) (shapes : List Shape) (i : Nat) (shape : Shape) :
    Prop where
  asked : shapes[i]? = some shape
  bad : ¬ shape.Admits (field (first + i))
  before : ∀ j < i, ∀ other, shapes[j]? = some other → other.Admits (field (first + j))

def Faulty (field : Nat → String) (first : Nat) (shapes : List Shape) (e : FieldsError) : Prop :=
  ∃ i shape, FirstBad field first shapes i shape ∧
    e = .invalidNumber (first + i) (field (first + i)) shape.name

theorem faulty_nil (field : Nat → String) (first : Nat) (e : FieldsError) : ¬ Faulty field first [] e := by
  rintro ⟨i, shape, hbad, -⟩
  cases hbad.asked

theorem faulty_cons (field : Nat → String) (first : Nat) (shape : Shape) (shapes : List Shape)
    (e : FieldsError) : Faulty field first (shape :: shapes) e ↔
      (¬ shape.Admits (field first) ∧ e = .invalidNumber first (field first) shape.name) ∨
        (shape.Admits (field first) ∧ Faulty field (first + 1) shapes e) := by
  constructor
  · rintro ⟨i, other, hbad, rfl⟩
    cases i with
    | zero =>
      obtain rfl : shape = other := Option.some.inj hbad.asked
      exact .inl ⟨hbad.bad, rfl⟩
    | succ i =>
      refine .inr ⟨hbad.before 0 (Nat.succ_pos i) shape rfl, i, other, ⟨hbad.asked, ?_, ?_⟩, ?_⟩
      · rw [Nat.add_right_comm]
        exact hbad.bad
      · intro j hj third hthird
        rw [Nat.add_right_comm]
        exact hbad.before (j + 1) (Nat.succ_lt_succ hj) third hthird
      · rw [Nat.add_right_comm, Nat.add_assoc]
  · rintro (⟨hbad, rfl⟩ | ⟨hadmits, i, other, hbad, rfl⟩)
    · exact ⟨0, shape, ⟨rfl, hbad, by simp⟩, rfl⟩
    · refine ⟨i + 1, other, ⟨hbad.asked, ?_, ?_⟩, ?_⟩
      · rw [← Nat.add_assoc, Nat.add_right_comm]
        exact hbad.bad
      · intro j hj third hthird
        cases j with
        | zero =>
          obtain rfl : shape = third := Option.some.inj hthird
          exact hadmits
        | succ j =>
          rw [← Nat.add_assoc, Nat.add_right_comm]
          exact hbad.before j (Nat.lt_of_succ_lt_succ hj) third hthird
      · rw [← Nat.add_assoc, Nat.add_right_comm]

/-- A computation reads numbers from consecutive fields, and stops at the first that is none. -/
structure Scans (fields : Fields) (first : Nat) (shapes : List Shape) (Holds : α → Prop)
    (reading : Except FieldsError α) : Prop where
  error : ∀ e, reading = .error e ↔ Faulty fields.nth first shapes e
  ok : ∀ a, reading = .ok a ↔ Holds a

theorem Scans.congr {fields : Fields} {first : Nat} {shapes : List Shape} {Holds Held : α → Prop}
    {reading : Except FieldsError α} (h : Scans fields first shapes Holds reading)
    (hholds : ∀ a, Holds a ↔ Held a) : Scans fields first shapes Held reading :=
  ⟨h.error, fun a => (h.ok a).trans (hholds a)⟩

theorem scans_pure (fields : Fields) (first : Nat) (a : α) : Scans fields first [] (· = a) (pure a) where
  error e := by
    constructor
    · rintro ⟨⟩
    · exact fun h => (faulty_nil _ _ _ h).elim
  ok b := by
    constructor
    · rintro ⟨⟩
      rfl
    · rintro rfl
      rfl

theorem scans_number (h : kind.Fills slot) (fields : Fields) (first : Nat) {shapes : List Shape}
    {Holds : α → β → Prop} {next : α → Except FieldsError β}
    (hnext : ∀ x, Scans fields (first + 1) shapes (Holds x) (next x)) :
    Scans fields first (slot.shape :: shapes) (fun b => ∃ x, slot.Reads (fields.nth first) x ∧ Holds x b)
      (fields.number kind first >>= next) where
  error e := by
    simp only [Except.bind_eq_error_iff, number_eq_error_iff h, number_eq_ok_iff h, (hnext _).error,
      faulty_cons, slot.admits_iff, exists_and_right]
    rfl
  ok b := by simp only [Except.bind_eq_ok_iff, number_eq_ok_iff h, (hnext _).ok]

end Fields
end ScriptedActors
