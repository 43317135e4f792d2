import ScriptedActors.Location.Fields
import ScriptedActors.Proofs.Decimal.ReadBack
import ScriptedActors.Proofs.Outcomes
import ScriptedActors.Proofs.Text.Pieces

set_option autoImplicit false

/-!
# Locations as text

A location with finite numbers and a trimmed world name without commas is read as it is written.
Every location that is read is of this form.
-/
namespace ScriptedActors
open Decimal

/-- A text that can be a field: something without commas and without blanks at its ends. -/
structure IsField (s : String) : Prop where
  nonempty : s ≠ ""
  commas : ',' ∉ s.toList
  trimmed : Text.trimChars s.toList = s.toList

structure Location.Printable (l : Location) : Prop where
  world : IsField l.world
  x : l.x.isFinite = true
  y : l.y.isFinite = true
  z : l.z.isFinite = true
  yaw : l.yaw.isFinite = true
  pitch : l.pitch.isFinite = true

theorem isBlank_of_isPlainDigit {c : Char} (h : isPlainDigit c = true) :
    Text.isBlank c = false ∧ c ≠ ',' := by
  simp only [isPlainDigit, Char.isDigit, Bool.or_eq_true, Bool.and_eq_true, decide_eq_true_eq,
    beq_iff_eq] at h
  rcases h with (hdigit | rfl) | rfl
  · have hlow : 48 ≤ c.toNat := hdigit.1
    have hhigh : c.toNat ≤ 57 := hdigit.2
    constructor
    · simp only [Text.isBlank, Bool.or_eq_false_iff, Bool.and_eq_false_iff, decide_eq_false_iff_not,
        beq_eq_false_iff_ne]
      omega
    · rintro rfl
      exact absurd hlow (by decide)
  · decide
  · decide

theorem isField_of_plain {s : String} (hne : s ≠ "") (h : ∀ c ∈ s.toList, isPlainDigit c = true) :
    IsField s where
  nonempty := hne
  commas := fun hcomma => (isBlank_of_isPlainDigit (h _ hcomma)).2 rfl
  trimmed := Text.trimChars_eq_self
    (fun c hc => (isBlank_of_isPlainDigit (h c (List.mem_of_mem_head? hc))).1)
    (fun c hc => (isBlank_of_isPlainDigit (h c (List.mem_of_mem_getLast? hc))).1)

theorem isField_float (x : Float) (h : x.isFinite = true) : IsField (Style.plain.float x) := by
  refine isField_of_plain (fun hempty => ?_) (isPlainDigit_float x h)
  have hread := readFloat_plain x h
  rw [hempty] at hread
  cases hread

theorem isField_float32 (x : Float32) (h : x.isFinite = true) : IsField (Style.plain.float32 x) := by
  refine isField_of_plain (fun hempty => ?_) (isPlainDigit_float32 x h)
  have hread := readFloat32_plain x h
  rw [hempty] at hread
  cases hread

namespace Fields

theorem ofText_intercalate (texts : List String) (hne : texts ≠ []) (h : ∀ s ∈ texts, IsField s) :
    ofText (",".intercalate texts) = texts := by
  have hcommas : ∀ piece ∈ texts.map String.toList, ',' ∉ piece := by
    intro piece hpiece
    obtain ⟨s, hs, rfl⟩ := List.mem_map.mp hpiece
    exact (h s hs).commas
  have hsplit := Text.split_intercalate ',' (texts.map String.toList) (by simpa using hne) hcommas
  rw [ofText, String.toList_intercalate, show ",".toList = [','] from rfl, hsplit, List.map_map]
  refine List.map_congr_left (fun s hs => ?_) |>.trans (List.map_id texts)
  change String.ofList (Text.trimChars s.toList) = s
  rw [(h s hs).trimmed, String.ofList_toList]

theorem count_le (fields : Fields) : fields.count ≤ fields.length := by
  have hdropped := (List.dropWhile_sublist (l := fields.reverse) (· == "")).length_le
  rw [List.length_reverse] at hdropped
  exact hdropped

theorem isField_of_at? {text : String} {index : Nat} {s : String} (h : (ofText text).at? index = some s) :
    IsField s := by
  rw [at?, Option.filter_eq_some_iff] at h
  obtain ⟨hget, hne⟩ := h
  obtain ⟨piece, hpiece, rfl⟩ := List.mem_map.mp (List.mem_of_getElem? hget)
  refine ⟨by simpa using hne, ?_, ?_⟩
  · rw [String.toList_ofList]
    exact fun hcomma => Text.notMem_of_mem_split ',' _ piece hpiece (Text.mem_of_mem_trimChars hcomma)
  · rw [String.toList_ofList, Text.trimChars_trimChars]

variable {α : Type} {kind : NumberKind α} {fields : Fields} {index : Nat}

theorem number_of_at? {s : String} {x : α} (hat : fields.at? index = some s)
    (hread : kind.read s.toList = some x) : fields.number kind index = .ok x := by
  rw [number, hat]
  simp only [hread]

theorem number_eq_ok {x : α} (h : fields.number kind index = .ok x) :
    x = kind.zero ∨ ∃ s, kind.read s = some x := by
  rw [number] at h
  split at h
  · cases h
    exact .inl rfl
  · split at h
    · cases h
    · rename_i hread
      cases h
      exact .inr ⟨_, hread⟩

theorem read_eq_ok {max : Nat} {text : String} :
    read max text = .ok fields ↔ (ofText text).count ≤ max ∧ fields = ofText text := by
  rw [read]
  by_cases hmax : max < (ofText text).count
  · simp [hmax]
  · simp only [hmax, if_false, Except.ok.injEq]
    constructor
    · rintro rfl
      exact ⟨by omega, rfl⟩
    · rintro ⟨-, rfl⟩
      rfl

theorem number_binary64_finite {x : Float} (h : fields.number .binary64 index = .ok x) :
    x.isFinite = true := by
  rcases number_eq_ok h with rfl | ⟨s, hread⟩
  · rfl
  · exact (Option.filter_eq_some_iff.mp hread).2

theorem number_binary32_finite {x : Float32} (h : fields.number .binary32 index = .ok x) :
    x.isFinite = true := by
  rcases number_eq_ok h with rfl | ⟨s, hread⟩
  · rfl
  · exact (Option.filter_eq_some_iff.mp hread).2

end Fields

namespace NumberKind

theorem read_binary64 (x : Float) (h : x.isFinite = true) :
    binary64.read (Style.plain.float x).toList = some x := by
  change (readFloat (Style.plain.float x).toList).filter Float.isFinite = some x
  rw [readFloat_plain x h, Option.filter_some, if_pos h]

theorem read_binary32 (x : Float32) (h : x.isFinite = true) :
    binary32.read (Style.plain.float32 x).toList = some x := by
  change (readFloat32 (Style.plain.float32 x).toList).filter Float32.isFinite = some x
  rw [readFloat32_plain x h, Option.filter_some, if_pos h]

end NumberKind

namespace Location

structure Reads (fields : Fields) (l : Location) : Prop where
  count : fields.count ≤ 6
  world : fields.at? 0 = some l.world
  x : fields.number .binary64 1 = .ok l.x
  y : fields.number .binary64 2 = .ok l.y
  z : fields.number .binary64 3 = .ok l.z
  yaw : fields.number .binary32 4 = .ok l.yaw
  pitch : fields.number .binary32 5 = .ok l.pitch

theorem ofText_eq_ok {text : String} {l : Location} :
    Location.ofText text = .ok l ↔ Reads (Fields.ofText text) l := by
  constructor
  · intro h
    rw [Location.ofText, Except.bind_eq_ok_iff] at h
    obtain ⟨_, hread, h⟩ := h
    obtain ⟨hcount, rfl⟩ := Fields.read_eq_ok.mp hread
    split at h
    · cases h
    · rename_i world hworld
      simp only [Except.bind_eq_ok_iff] at h
      obtain ⟨_, ⟨⟩, x, hx, y, hy, z, hz, yaw, hyaw, pitch, hpitch, ⟨⟩⟩ := h
      exact ⟨hcount, hworld, hx, hy, hz, hyaw, hpitch⟩
  · intro h
    rw [Location.ofText, Except.bind_eq_ok_iff]
    refine ⟨_, Fields.read_eq_ok.mpr ⟨h.count, rfl⟩, ?_⟩
    simp only [h.world, Except.bind_eq_ok_iff]
    exact ⟨_, rfl, _, h.x, _, h.y, _, h.z, _, h.yaw, _, h.pitch, rfl⟩

theorem ofText_text {l : Location} (h : l.Printable) : Location.ofText l.text = .ok l := by
  have hfields := Fields.ofText_intercalate [l.world, Style.plain.float l.x,
    Style.plain.float l.y, Style.plain.float l.z, Style.plain.float32 l.yaw,
    Style.plain.float32 l.pitch] (by simp) (by
      simp only [List.forall_mem_cons]
      exact ⟨h.world, isField_float _ h.x, isField_float _ h.y, isField_float _ h.z,
        isField_float32 _ h.yaw, isField_float32 _ h.pitch, by simp⟩)
  have hat : ∀ {s : String}, IsField s → Option.filter (· != "") (some s) = some s := by
    intro s hs
    rw [Option.filter_some, if_pos (by simpa using hs.nonempty)]
  rw [ofText_eq_ok, text, hfields]
  exact {
    count := Fields.count_le _
    world := hat h.world
    x := Fields.number_of_at? (hat (isField_float _ h.x)) (NumberKind.read_binary64 _ h.x)
    y := Fields.number_of_at? (hat (isField_float _ h.y)) (NumberKind.read_binary64 _ h.y)
    z := Fields.number_of_at? (hat (isField_float _ h.z)) (NumberKind.read_binary64 _ h.z)
    yaw := Fields.number_of_at? (hat (isField_float32 _ h.yaw)) (NumberKind.read_binary32 _ h.yaw)
    pitch := Fields.number_of_at? (hat (isField_float32 _ h.pitch))
      (NumberKind.read_binary32 _ h.pitch) }

/-- Every location that is read can be written. -/
theorem printable_of_ofText {text : String} {l : Location} (h : Location.ofText text = .ok l) :
    l.Printable := by
  rw [ofText_eq_ok] at h
  exact {
    world := Fields.isField_of_at? h.world
    x := Fields.number_binary64_finite h.x
    y := Fields.number_binary64_finite h.y
    z := Fields.number_binary64_finite h.z
    yaw := Fields.number_binary32_finite h.yaw
    pitch := Fields.number_binary32_finite h.pitch }

/-- A location is read as it is written exactly if it can be written, and every location that is read
can be, zeros with their sign. -/
theorem retracts_text :
    (∀ l : Location, ofText l.text = .ok l ↔ l.Printable) ∧
      ∀ text l, ofText text = .ok l → l.Printable ∧ ofText l.text = .ok l := by
  constructor
  · intro l
    exact ⟨printable_of_ofText, ofText_text⟩
  · intro text l h
    have hprintable := printable_of_ofText h
    exact ⟨hprintable, ofText_text hprintable⟩

theorem retracts_text_negative_zero :
    let l : Location := ⟨"a \" 1é", -0.0, 1.5, 0, -0.0, 90⟩
    l.Printable ∧ ofText l.text = .ok l ∧ (-0.0 : Float) ≠ 0 ∧
    ofText " é 1 , -0 ,+7e0,, -.5," = .ok ⟨"é 1", -0.0, 7, 0, -0.5, 0⟩ ∧
    ofText (⟨"é 1", -0.0, 7, 0, -0.5, 0⟩ : Location).text = .ok ⟨"é 1", -0.0, 7, 0, -0.5, 0⟩ := by
  intro l
  have hl : l.Printable :=
    ⟨⟨by decide, by decide, by decide⟩, by decide, by decide, by decide, by decide, by decide⟩
  have hread : ofText " é 1 , -0 ,+7e0,, -.5," = .ok ⟨"é 1", -0.0, 7, 0, -0.5, 0⟩ := by rfl
  exact ⟨hl, (retracts_text.1 l).mpr hl, by decide, hread, (retracts_text.2 _ _ hread).2⟩

end Location
end ScriptedActors
