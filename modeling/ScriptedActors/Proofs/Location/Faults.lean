import ScriptedActors.Proofs.Location.Scans

set_option autoImplicit false

/-!
# The first fault of delimited text

The answer of a reader of delimited text depends on the fields alone. A field too many is reported
before a missing name, and this before the first field that is not the number that is asked for.
Without a fault the answer is what the fields say. Blanks around fields and blank fields at the end
change no field and so no answer.
-/
namespace ScriptedActors

namespace Fields
variable {α β : Type} {kind : NumberKind α} {slot : Slot α}

/-- What the fields of a text are: whether the first is a name, and which numbers follow. -/
structure Layout where
  named : Bool
  numbers : List Shape

namespace Layout

def first (layout : Layout) : Nat := if layout.named then 1 else 0

def size (layout : Layout) : Nat := layout.first + layout.numbers.length

variable (layout : Layout) (field : Nat → String)

def Fits : Prop := ∀ i, layout.size ≤ i → field i = ""

def HasName : Prop := layout.named = true → field 0 ≠ ""

/-- The error for the first fault of the fields: too many of them, no name, or a number that is
none. -/
inductive Faults : FieldsError → Prop
  | tooMany (last : Nat) (hsurplus : layout.size ≤ last) (hlast : field last ≠ "")
      (hrest : ∀ i, last < i → field i = "") : Faults (.tooMany layout.size (last + 1))
  | missingWorld (hfits : layout.Fits field) (hnamed : layout.named = true) (hblank : field 0 = "") :
      Faults .missingWorld
  | invalidNumber (hfits : layout.Fits field) (hname : layout.HasName field) (i : Nat) (shape : Shape)
      (hbad : FirstBad field layout.first layout.numbers i shape) :
      Faults (.invalidNumber (layout.first + i) (field (layout.first + i)) shape.name)

variable {α : Type} (Holds : (Nat → String) → α → Prop)

/-- An answer is the error for the first fault, or holds what the fields are if they have none. -/
structure Answers (answer : Except FieldsError α) : Prop where
  surplus : (∃ max found, answer = .error (.tooMany max found)) ↔ ∃ i, layout.size ≤ i ∧ field i ≠ ""
  error : ∀ e, answer = .error e ↔ layout.Faults field e
  accepts : layout.Fits field → layout.HasName field →
    (∀ (i : Nat) (shape : Shape), layout.numbers[i]? = some shape →
      shape.Admits (field (layout.first + i))) →
      ∃ a, answer = .ok a
  ok : ∀ a, answer = .ok a ↔ layout.Fits field ∧ layout.HasName field ∧ Holds field a

structure Judges (answer : Except FieldsError α) : Prop where
  error : ∀ e, answer = .error e ↔ (¬ layout.HasName field ∧ e = .missingWorld) ∨
    (layout.HasName field ∧ Faulty field layout.first layout.numbers e)
  ok : ∀ a, answer = .ok a ↔ layout.HasName field ∧ Holds field a

variable {layout field Holds}

theorem not_hasName : ¬ layout.HasName field ↔ layout.named = true ∧ field 0 = "" := by
  simp [HasName]

theorem faults_of_fits (h : layout.Fits field) (e : FieldsError) : layout.Faults field e ↔
    (¬ layout.HasName field ∧ e = .missingWorld) ∨
      (layout.HasName field ∧ Faulty field layout.first layout.numbers e) := by
  constructor
  · rintro (⟨last, hsurplus, hlast, -⟩ | ⟨-, hnamed, hblank⟩ | ⟨-, hname, i, shape, hbad⟩)
    · exact absurd (h last hsurplus) hlast
    · exact .inl ⟨not_hasName.mpr ⟨hnamed, hblank⟩, rfl⟩
    · exact .inr ⟨hname, i, shape, hbad, rfl⟩
  · rintro (⟨hname, rfl⟩ | ⟨hname, i, shape, hbad, rfl⟩)
    · obtain ⟨hnamed, hblank⟩ := not_hasName.mp hname
      exact .missingWorld h hnamed hblank
    · exact .invalidNumber h hname i shape hbad

theorem fits_iff (fields : Fields) : layout.Fits fields.nth ↔ fields.count ≤ layout.size :=
  (fields.count_le_iff layout.size).symm

theorem faults_of_surplus {fields : Fields} (h : layout.size < fields.count) (e : FieldsError) :
    layout.Faults fields.nth e ↔ e = .tooMany layout.size fields.count := by
  have hunfit : ¬ layout.Fits fields.nth := by
    rw [fits_iff]
    omega
  constructor
  · rintro (⟨last, -, hlast, hrest⟩ | ⟨hfits, -, -⟩ | ⟨hfits, -, -, -, -⟩)
    · rw [(fields.count_eq_succ_iff last).mpr ⟨hlast, hrest⟩]
    · exact absurd hfits hunfit
    · exact absurd hfits hunfit
  · rintro rfl
    obtain ⟨last, hlast⟩ : ∃ last, fields.count = last + 1 := ⟨fields.count - 1, by omega⟩
    obtain ⟨hfield, hrest⟩ := (fields.count_eq_succ_iff last).mp hlast
    rw [hlast]
    exact .tooMany last (by omega) hfield hrest

theorem answers_of_iff {fields : Fields} {answer : Except FieldsError α}
    (herror : ∀ e, answer = .error e ↔ layout.Faults fields.nth e)
    (hok : ∀ a, answer = .ok a ↔ layout.Fits fields.nth ∧ layout.HasName fields.nth ∧ Holds fields.nth a) :
    layout.Answers fields.nth Holds answer where
  surplus := by
    constructor
    · rintro ⟨max, found, hfound⟩
      cases (herror _).mp hfound with
      | tooMany last hsurplus hlast hrest => exact ⟨last, hsurplus, hlast⟩
    · rintro ⟨i, hi, hfield⟩
      have hcount : layout.size < fields.count := by
        by_contra hle
        exact hfield ((fits_iff fields).mpr (Nat.le_of_not_lt hle) i hi)
      exact ⟨_, _, (herror _).mpr ((faults_of_surplus hcount _).mpr rfl)⟩
  error := herror
  accepts := by
    intro hfits hname hadmits
    cases answer with
    | ok a => exact ⟨a, rfl⟩
    | error e =>
      rcases (faults_of_fits hfits e).mp ((herror e).mp rfl) with ⟨hnone, -⟩ | ⟨-, i, shape, hbad, -⟩
      · exact absurd hname hnone
      · exact absurd (hadmits i shape hbad.asked) hbad.bad
  ok := hok

theorem answers_of_judges {text : String} {body : Fields → Except FieldsError α}
    (h : layout.Judges (ofText text).nth Holds (body (ofText text))) :
    layout.Answers (ofText text).nth Holds (read layout.size text >>= body) := by
  generalize hfields : ofText text = fields at h
  -- A field too many is answered before the body sees the fields.
  by_cases hcount : layout.size < fields.count
  · have hread : read layout.size text = .error (.tooMany layout.size fields.count) := by
      simp [read, hfields, hcount]
    have hunfit : ¬ layout.Fits fields.nth := by
      rw [fits_iff]
      omega
    rw [hread]
    refine answers_of_iff (fun e => ?_) fun a => ⟨?_, fun hok => absurd hok.1 hunfit⟩
    · rw [faults_of_surplus hcount]
      constructor
      · rintro ⟨⟩
        rfl
      · rintro rfl
        rfl
    · rintro ⟨⟩
  · have hle : fields.count ≤ layout.size := Nat.le_of_not_lt hcount
    have hread : read layout.size text = .ok fields := read_eq_ok.mpr ⟨hfields ▸ hle, hfields.symm⟩
    have hfits : layout.Fits fields.nth := (fits_iff fields).mpr hle
    rw [hread]
    refine answers_of_iff (fun e => (h.error e).trans (faults_of_fits hfits e).symm) fun a => ?_
    exact (h.ok a).trans ⟨fun hok => ⟨hfits, hok⟩, fun hok => hok.2⟩

theorem Answers.unique {answer other : Except FieldsError α} (h : layout.Answers field Holds answer)
    (hother : layout.Answers field Holds other) : answer = other := by
  cases answer with
  | error e => exact ((hother.error e).mpr ((h.error e).mp rfl)).symm
  | ok a => exact ((hother.ok a).mpr ((h.ok a).mp rfl)).symm

theorem judges_of_hasName {fields : Fields} {answer : Except FieldsError α}
    (hname : layout.HasName fields.nth)
    (h : Scans fields layout.first layout.numbers (Holds fields.nth) answer) :
    layout.Judges fields.nth Holds answer := by
  refine ⟨fun e => ?_, fun a => ?_⟩
  · rw [h.error]
    exact ⟨fun hfaulty => .inr ⟨hname, hfaulty⟩, fun hor => (hor.resolve_left fun hnone => hnone.1 hname).2⟩
  · rw [h.ok]
    exact ⟨fun hheld => ⟨hname, hheld⟩, fun hok => hok.2⟩

theorem judges_of_name {numbers : List Shape} {fields : Fields} {next : String → Except FieldsError α}
    (h : Scans fields 1 numbers (Holds fields.nth) (next (fields.nth 0))) :
    (⟨true, numbers⟩ : Layout).Judges fields.nth Holds
      (match fields.at? 0 with
        | none => .error .missingWorld
        | some world => next world) := by
  by_cases hblank : fields.nth 0 = ""
  · have hname : ¬ (⟨true, numbers⟩ : Layout).HasName fields.nth := not_hasName.mpr ⟨rfl, hblank⟩
    rw [(at?_eq_none ..).mpr hblank]
    refine ⟨fun e => ⟨?_, ?_⟩, fun a => ⟨?_, fun hok => absurd hok.1 hname⟩⟩
    · rintro ⟨⟩
      exact .inl ⟨hname, rfl⟩
    · rintro (⟨-, rfl⟩ | ⟨hnamed, -⟩)
      · rfl
      · exact absurd hnamed hname
    · rintro ⟨⟩
  · have hname : (⟨true, numbers⟩ : Layout).HasName fields.nth := fun _ => hblank
    rw [(at?_eq_some ..).mpr ⟨rfl, hblank⟩]
    exact judges_of_hasName hname h

end Layout

def triple {α : Type} (slot : Slot α) : Layout := ⟨false, [slot.shape, slot.shape, slot.shape]⟩

def HoldsTriple {α β : Type} (slot : Slot α) (make : α → α → α → β) (field : Nat → String) (b : β) : Prop :=
  ∃ x y z, slot.Reads (field 0) x ∧ slot.Reads (field 1) y ∧ slot.Reads (field 2) z ∧ b = make x y z

theorem answers_triple (h : kind.Fills slot) (make : α → α → α → β) (text : String) :
    (triple slot).Answers (ofText text).nth (HoldsTriple slot make) (do
      let fields ← read 3 text
      let x ← fields.number kind 0
      let y ← fields.number kind 1
      let z ← fields.number kind 2
      return make x y z) := by
  have hscans := scans_number h (ofText text) 0 fun x => scans_number h _ _ fun y =>
    scans_number h _ _ fun z => scans_pure _ _ (make x y z)
  have hname : (triple slot).HasName (ofText text).nth := by simp [Layout.HasName, triple]
  refine Layout.answers_of_judges (Layout.judges_of_hasName hname (hscans.congr fun b => ?_))
  constructor
  · rintro ⟨x, hx, y, hy, z, hz, rfl⟩
    exact ⟨x, y, z, hx, hy, hz, rfl⟩
  · rintro ⟨x, y, z, hx, hy, hz, rfl⟩
    exact ⟨x, hx, y, hy, z, hz, rfl⟩

end Fields

namespace Location
open Fields

def layout : Layout := ⟨true, [Slot.binary64.shape, Slot.binary64.shape, Slot.binary64.shape,
  Slot.binary32.shape, Slot.binary32.shape]⟩

def Holds (field : Nat → String) (l : Location) : Prop :=
  ∃ x y z yaw pitch, Slot.binary64.Reads (field 1) x ∧ Slot.binary64.Reads (field 2) y ∧
    Slot.binary64.Reads (field 3) z ∧ Slot.binary32.Reads (field 4) yaw ∧
    Slot.binary32.Reads (field 5) pitch ∧ l = ⟨field 0, x, y, z, yaw, pitch⟩

theorem answers_ofText (text : String) :
    layout.Answers (Fields.ofText text).nth Holds (Location.ofText text) := by
  have hscans := fun world =>
    scans_number NumberKind.binary64_fills (Fields.ofText text) 1 fun x =>
      scans_number NumberKind.binary64_fills _ _ fun y =>
        scans_number NumberKind.binary64_fills _ _ fun z =>
          scans_number NumberKind.binary32_fills _ _ fun yaw =>
            scans_number NumberKind.binary32_fills _ _ fun pitch =>
              scans_pure _ _ (⟨world, x, y, z, yaw, pitch⟩ : Location)
  refine Layout.answers_of_judges (Layout.judges_of_name ((hscans _).congr fun l => ⟨?_, ?_⟩))
  · rintro ⟨x, hx, y, hy, z, hz, yaw, hyaw, pitch, hpitch, rfl⟩
    exact ⟨x, y, z, yaw, pitch, hx, hy, hz, hyaw, hpitch, rfl⟩
  · rintro ⟨x, y, z, yaw, pitch, hx, hy, hz, hyaw, hpitch, rfl⟩
    exact ⟨x, hx, y, hy, z, hz, yaw, hyaw, pitch, hpitch, rfl⟩

end Location

def AllBlank (text : String) : Prop := ∀ c ∈ text.toList, Text.isBlank c = true

/-- The second text is the first with more blanks around a field, or with one more comma at the
end. -/
inductive Pads : String → String → Prop
  | front (blanks text : String) (h : AllBlank blanks) : Pads text (blanks ++ text)
  | back (blanks text : String) (h : AllBlank blanks) : Pads text (text ++ blanks)
  | before (blanks text rest : String) (h : AllBlank blanks) :
      Pads (text ++ "," ++ rest) (text ++ blanks ++ "," ++ rest)
  | behind (blanks text rest : String) (h : AllBlank blanks) :
      Pads (text ++ "," ++ rest) (text ++ "," ++ (blanks ++ rest))
  | comma (text : String) : Pads text (text ++ ",")

namespace Fields

theorem ofText_eq_split (text : String) : ofText text =
    (Text.split ',' text.toList).map fun piece => String.ofList (Text.trimChars piece) := rfl

theorem ofText_comma (text rest : String) : ofText (text ++ "," ++ rest) = ofText text ++ ofText rest := by
  have hcomma : (text ++ "," ++ rest).toList = text.toList ++ ',' :: rest.toList := by
    simp
  rw [ofText_eq_split, hcomma, Text.split_append, List.map_append]
  rfl

theorem comma_notMem {blanks : String} (h : AllBlank blanks) : ',' ∉ blanks.toList := fun hcomma =>
  absurd (h ',' hcomma) (by decide)

theorem ofText_front {blanks : String} (h : AllBlank blanks) (text : String) :
    ofText (blanks ++ text) = ofText text := by
  obtain ⟨piece, pieces, htext, hfront⟩ := Text.exists_split_front ',' (comma_notMem h) text.toList
  have htrim : Text.trimChars (blanks.toList ++ (piece ++ [])) = _ := Text.trimChars_blanks h piece (by simp)
  rw [List.append_nil] at htrim
  rw [ofText_eq_split, ofText_eq_split, String.toList_append, hfront, htext, List.map_cons,
    List.map_cons, htrim]

theorem ofText_back {blanks : String} (h : AllBlank blanks) (text : String) :
    ofText (text ++ blanks) = ofText text := by
  obtain ⟨pieces, piece, htext, hback⟩ := Text.exists_split_back ',' (comma_notMem h) text.toList
  have htrim : Text.trimChars ([] ++ (piece ++ blanks.toList)) = _ := Text.trimChars_blanks (by simp) piece h
  rw [List.nil_append] at htrim
  rw [ofText_eq_split, ofText_eq_split, String.toList_append, hback, htext, List.map_append,
    List.map_append, List.map_singleton, List.map_singleton, htrim]

theorem nth_append_blank (fields : Fields) : nth (fields ++ [""]) = fields.nth := by
  funext i
  rw [nth, nth, List.getElem?_append]
  split
  · rfl
  · rename_i hlength
    rw [List.getElem?_eq_none (Nat.le_of_not_lt hlength)]
    cases i - fields.length with
    | zero => rfl
    | succ j => rfl

theorem nth_ofText_of_pads {text padded : String} (h : Pads text padded) :
    (ofText text).nth = (ofText padded).nth := by
  cases h with
  | front blanks text h => rw [ofText_front h]
  | back blanks text h => rw [ofText_back h]
  | before blanks text rest h => rw [ofText_comma, ofText_comma, ofText_back h]
  | behind blanks text rest h => rw [ofText_comma, ofText_comma, ofText_front h]
  | comma text =>
    have hcomma := ofText_comma text ""
    rw [String.append_empty] at hcomma
    rw [hcomma]
    exact (nth_append_blank _).symm

/-- Texts that differ only in padding have the same fields. -/
theorem nth_ofText_of_eqvGen {text other : String} (h : Relation.EqvGen Pads text other) :
    (ofText text).nth = (ofText other).nth := by
  induction h with
  | rel text padded h => exact nth_ofText_of_pads h
  | refl text => rfl
  | symm text other _ ih => exact ih.symm
  | trans text middle other _ _ ih ih' => exact ih.trans ih'

theorem answers_padded {α : Type} {layout : Layout} {Holds : (Nat → String) → α → Prop}
    {reader : String → Except FieldsError α}
    (h : ∀ text, layout.Answers (ofText text).nth Holds (reader text)) {text other : String}
    (hpads : Relation.EqvGen Pads text other) : reader text = reader other := by
  have hother := h other
  rw [← nth_ofText_of_eqvGen hpads] at hother
  exact (h text).unique hother

/-- The three readers answer with the first fault of the fields or with what they say, and however
a text is padded the answer is the same. -/
theorem answers_first_fault :
    (∀ text, Location.layout.Answers (ofText text).nth Location.Holds (Location.ofText text)) ∧
      (∀ text, (triple .int32).Answers (ofText text).nth (HoldsTriple .int32 Position.mk)
        (Position.ofText text)) ∧
      (∀ text, (triple .binary64).Answers (ofText text).nth (HoldsTriple .binary64 EulerAngle.mk)
        (EulerAngle.ofText text)) ∧
      ∀ text other, Relation.EqvGen Pads text other → Location.ofText text = Location.ofText other ∧
        Position.ofText text = Position.ofText other ∧ EulerAngle.ofText text = EulerAngle.ofText other := by
  have hposition := answers_triple NumberKind.int32_fills Position.mk
  have hangle := answers_triple NumberKind.binary64_fills EulerAngle.mk
  refine ⟨Location.answers_ofText, hposition, hangle, fun text other h => ⟨?_, ?_, ?_⟩⟩
  · exact answers_padded Location.answers_ofText h
  · exact answers_padded hposition h
  · exact answers_padded hangle h

theorem answers_first_fault_padded : Relation.EqvGen Pads "w,,x" "w ,,x," ∧
    Location.ofText "w ,,x," = .error (.invalidNumber 2 "x" "f64") := by
  have hblank : AllBlank " " := by simp [AllBlank, Text.isBlank_space]
  have hpads : Relation.EqvGen Pads "w,,x" "w ,,x," :=
    .trans _ "w ,,x" _ (.rel _ _ (.before " " "w" ",x" hblank)) (.rel _ _ (.comma "w ,,x"))
  have hfault : Location.ofText "w,,x" = .error (.invalidNumber 2 "x" "f64") := rfl
  exact ⟨hpads, (answers_first_fault.2.2.2 _ _ hpads).1.symm.trans hfault⟩

end Fields
end ScriptedActors
