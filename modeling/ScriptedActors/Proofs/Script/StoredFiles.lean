import Mathlib.Tactic.ByContra
import ScriptedActors.Proofs.Text.Utf8
import ScriptedActors.Script.Store

set_option autoImplicit false

/-!
# Files that store scripts

A file name is split at its last dot into a stem and an extension. What is read from a file with the
extension of scripts is the script of its stem and its content, or a complaint if one of the two is
not valid UTF-8.
-/
namespace ScriptedActors
open Text

theorem nameLe_iff (a b : FileName) : nameLe a b = true ↔ a ≤ b := by
  induction a generalizing b with
  | nil => simp [nameLe]
  | cons x a ih =>
    cases b with
    | nil => simp [nameLe]
    | cons y b =>
      rw [nameLe, List.cons_le_cons_iff, Bool.or_eq_true, Bool.and_eq_true, ih, decide_eq_true_iff,
        beq_iff_eq]

/-- A file name that consists of a stem and the extension of scripts, in any case. -/
def IsStemOf (stem name : FileName) : Prop :=
  stem ≠ [] ∧ ∃ extension ∈ ["ms", "mS", "Ms", "MS"], name = stem ++ dot :: Utf8.encode extension

theorem splitExtension_append {stem extension : List UInt8} (hdot : dot ∉ extension)
    (hname : stem ++ dot :: extension ≠ [dot, dot]) :
    splitExtension (stem ++ dot :: extension) =
      if stem = [] then (stem ++ dot :: extension, none) else (stem, some extension) := by
  have hextension :
      ((stem ++ dot :: extension).reverse.takeWhile (· != dot)).reverse = extension := by
    rw [List.reverse_append, List.reverse_cons, List.append_assoc, List.singleton_append,
      List.takeWhile_append_of_pos, List.takeWhile_cons_of_neg, List.append_nil, List.reverse_reverse]
    · simp
    · intro b hb
      rw [List.mem_reverse] at hb
      exact bne_iff_ne.mpr fun heq => hdot (heq ▸ hb)
  have hstem : (stem ++ dot :: extension).take
      ((stem ++ dot :: extension).length - extension.length - 1) = stem := by
    rw [List.length_append, List.length_cons, List.take_append_of_le_length (by omega)]
    exact List.take_of_length_le (by omega)
  rw [splitExtension, if_neg (by simp [hname])]
  dsimp only
  rw [hextension, hstem]

theorem exists_last_dot {name : FileName} (h : dot ∈ name) :
    ∃ stem extension, name = stem ++ dot :: extension ∧ dot ∉ extension := by
  obtain ⟨ending, beginning, hreverse, hdot⟩ := List.eq_append_cons_of_mem (List.mem_reverse.mpr h)
  refine ⟨beginning.reverse, ending.reverse, ?_, fun hmem => hdot (List.mem_reverse.mp hmem)⟩
  rw [← List.reverse_reverse name, hreverse]
  simp

theorem lowerByte_eq_iff (b : UInt8) {small capital : UInt8} (h : 65 ≤ capital.toNat)
    (h' : capital.toNat ≤ 90) (hcase : small.toNat = capital.toNat + 32) :
    lowerByte b = small ↔ b = small ∨ b = capital := by
  have hcapital : 65 ≤ b ∧ b ≤ 90 ↔ 65 ≤ b.toNat ∧ b.toNat ≤ 90 := by
    rw [UInt8.le_iff_toNat_le, UInt8.le_iff_toNat_le]
    rfl
  rw [lowerByte, ← UInt8.toNat_inj, ← UInt8.toNat_inj, ← UInt8.toNat_inj]
  split
  · rename_i hb
    rw [hcapital] at hb
    have hsum : (b + 32).toNat = b.toNat + 32 := by
      rw [UInt8.toNat_add]
      exact Nat.mod_eq_of_lt (by simp; omega)
    omega
  · rename_i hb
    rw [hcapital] at hb
    omega

theorem map_lowerByte_iff (extension : List UInt8) : extension.map lowerByte = scriptExtension ↔
    ∃ spelling ∈ ["ms", "mS", "Ms", "MS"], extension = Utf8.encode spelling := by
  have hm (b : UInt8) : lowerByte b = 109 ↔ b = 109 ∨ b = 77 :=
    lowerByte_eq_iff b (by decide) (by decide) (by decide)
  have hs (b : UInt8) : lowerByte b = 115 ↔ b = 115 ∨ b = 83 :=
    lowerByte_eq_iff b (by decide) (by decide) (by decide)
  have hextension : scriptExtension = [109, 115] := by
    simp [scriptExtension, Utf8.encode_eq, String.utf8EncodeChar]
  have hspellings : (∃ spelling ∈ ["ms", "mS", "Ms", "MS"], extension = Utf8.encode spelling) ↔
      extension = [109, 115] ∨ extension = [109, 83] ∨ extension = [77, 115] ∨ extension = [77, 83] := by
    simp [Utf8.encode_eq, String.utf8EncodeChar]
  rw [hextension, hspellings]
  match extension with
  | [] => simp
  | [a] => simp
  | [a, b] =>
    simp only [List.map_cons, List.map_nil, List.cons.injEq, and_true, hm, hs]
    rw [or_and_right, and_or_left, and_or_left, or_assoc]
  | a :: b :: c :: rest => simp

theorem encode_spelling : ∀ spelling ∈ ["ms", "mS", "Ms", "MS"],
    dot ∉ Utf8.encode spelling ∧ (Utf8.encode spelling).length = 2 := by
  simp [Utf8.encode_eq, String.utf8EncodeChar, dot]

theorem IsStemOf.split {stem name : FileName} (h : IsStemOf stem name) :
    ∃ spelling ∈ ["ms", "mS", "Ms", "MS"], splitExtension name = (stem, some (Utf8.encode spelling)) := by
  obtain ⟨hstem, spelling, hspelling, rfl⟩ := h
  obtain ⟨hdot, hlength⟩ := encode_spelling spelling hspelling
  have hname : stem ++ dot :: Utf8.encode spelling ≠ [dot, dot] := by
    intro heq
    have hsame := congrArg List.length heq
    rw [List.length_append, List.length_cons, hlength] at hsame
    simp at hsame
  exact ⟨spelling, hspelling, by rw [splitExtension_append hdot hname, if_neg hstem]⟩

theorem isScriptName_iff (name : FileName) : isScriptName name = true ↔ ∃ stem, IsStemOf stem name := by
  rw [isScriptName, Option.any_eq_true]
  constructor
  · rintro ⟨extension, hextension, hspelling⟩
    rw [beq_iff_eq, map_lowerByte_iff] at hspelling
    obtain ⟨spelling, hspelling, hencode⟩ := hspelling
    have hdot : dot ∈ name := by
      by_contra hdot
      rw [splitExtension, if_pos (.inr hdot)] at hextension
      cases hextension
    have hname : name ≠ [dot, dot] := by
      intro hname
      rw [splitExtension, if_pos (.inl hname)] at hextension
      cases hextension
    obtain ⟨stem, ending, rfl, hending⟩ := exists_last_dot hdot
    rw [splitExtension_append hending hname] at hextension
    split at hextension
    · cases hextension
    · rename_i hstem
      cases hextension
      exact ⟨stem, hstem, spelling, hspelling, by rw [hencode]⟩
  · rintro ⟨stem, hstem⟩
    obtain ⟨spelling, hspelling, hsplit⟩ := hstem.split
    refine ⟨Utf8.encode spelling, by rw [hsplit], ?_⟩
    rw [beq_iff_eq, map_lowerByte_iff]
    exact ⟨spelling, hspelling, rfl⟩

namespace ScriptFile

/-- A file that stores a script: one with the stem, the content and the digest of the file. -/
structure Stores (f : ScriptFile) (s : Script) : Prop where
  name : IsStemOf (Utf8.encode s.name) f.name
  body : Utf8.encode s.body = f.content
  digest : s.digest = Digest.ofText s.body

def complaint (f : ScriptFile) : String :=
  match Utf8.decode f.content with
  | .error fault => fault.message
  | .ok _ => "file name is not valid UTF-8"

variable {f : ScriptFile} {s t : Script}

theorem Stores.unique (hs : f.Stores s) (ht : f.Stores t) : s = t := by
  obtain ⟨_, _, hsplit⟩ := hs.name.split
  obtain ⟨_, _, hsplit'⟩ := ht.name.split
  have hname := Utf8.encode_injective (congrArg Prod.fst (hsplit.symm.trans hsplit'))
  have hbody := Utf8.encode_injective (hs.body.trans ht.body.symm)
  have hdigest : s.digest = t.digest := by rw [hs.digest, ht.digest, hbody]
  cases s
  cases t
  cases hname
  cases hbody
  cases hdigest
  rfl

theorem read_eq_ok_iff (directory : Path) (h : ∃ stem, IsStemOf stem f.name) :
    f.read directory = .ok s ↔ f.Stores s := by
  obtain ⟨stem, hstem⟩ := h
  obtain ⟨spelling, -, hsplit⟩ := hstem.split
  rw [read, hsplit]
  constructor
  · intro hread
    cases hbody : Utf8.decode f.content with
    | error fault =>
      rw [hbody] at hread
      cases hread
    | ok body =>
      cases hname : Utf8.decode stem with
      | error fault =>
        rw [hbody] at hread
        dsimp only at hread
        rw [hname] at hread
        cases hread
      | ok name =>
        rw [hbody] at hread
        dsimp only at hread
        rw [hname] at hread
        cases hread
        rw [Utf8.decode_eq_ok_iff] at hbody hname
        exact ⟨by rw [Script.ofText, hname]; exact hstem, hbody, rfl⟩
  · intro hs
    obtain ⟨_, _, hsplit'⟩ := hs.name.split
    have hname := congrArg Prod.fst (hsplit.symm.trans hsplit')
    rw [(Utf8.decode_eq_ok_iff f.content s.body).mpr hs.body]
    dsimp only
    rw [(Utf8.decode_eq_ok_iff stem s.name).mpr hname.symm]
    dsimp only
    rw [Script.ofText, ← hs.digest]

theorem read_of_stem (directory : Path) {stem body : String} {name : FileName}
    (h : IsStemOf (Utf8.encode stem) name) :
    read directory ⟨name, Utf8.encode body⟩ = .ok (.ofText stem body) :=
  (read_eq_ok_iff directory ⟨_, h⟩).mpr ⟨h, rfl, rfl⟩

theorem read_eq_error_iff (directory : Path) (h : ∃ stem, IsStemOf stem f.name) (e : StorageError) :
    f.read directory = .error e ↔
      (∀ s, ¬f.Stores s) ∧ e = .malformedScript (directory.join ⟨f.name⟩) f.complaint := by
  simp only [← read_eq_ok_iff directory h]
  rw [read, complaint]
  cases Utf8.decode f.content with
  | error fault => simp [eq_comm]
  | ok body =>
    cases Utf8.decode (splitExtension f.name).1 with
    | error fault => simp [eq_comm]
    | ok name => simp

end ScriptFile
end ScriptedActors
