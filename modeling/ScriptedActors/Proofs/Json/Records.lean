import ScriptedActors.Json.Record
import ScriptedActors.Proofs.Json.Layout

set_option autoImplicit false

/-!
# Records that are written and read

The fields of a record are read as they were written in any order, and other members beside them
change nothing.
-/
namespace ScriptedActors.Json

theorem isWord_toNat (n : UInt64) : IsWord n.toNat := by
  have h := n.toNat_lt
  rw [IsWord, maxWord]
  omega

theorem asWord_toNat (n : UInt64) : asWord (.int n.toNat) = some n := by
  rw [asWord, if_pos (Int.natCast_nonneg _), Int.toNat_natCast, UInt64.ofNat_toNat]

theorem reread_word (n : UInt64) : (Json.int n.toNat).reread.bind asWord = some n := by
  rw [show (Json.int n.toNat).reread = leafValue (.int n.toNat) from rfl,
    leafValue_int (isWord_toNat n), Option.bind_some, asWord_toNat]

theorem memberDepth_le_iff {members : List (String × Json)} {bound : Nat} :
    memberDepth members ≤ bound ↔ ∀ member ∈ members, member.2.depth ≤ bound := by
  induction members with
  | nil => simp [memberDepth]
  | cons member members ih => rw [memberDepth, Nat.max_le, ih, List.forall_mem_cons]

structure IsReread (member read : String × Json) : Prop where
  key : read.1 = member.1
  value : member.2.reread = some read.2

theorem rereadMembers_eq_some_iff {members read : List (String × Json)} :
    rereadMembers members = some read ↔ List.Forall₂ IsReread members read := by
  induction members generalizing read with
  | nil =>
    rw [rereadMembers, Option.some.injEq, List.forall₂_nil_left_iff, eq_comm]
  | cons member members ih =>
    obtain ⟨key, value⟩ := member
    rw [rereadMembers, List.forall₂_cons_left_iff, Option.bind_eq_some_iff]
    simp only [Option.map_eq_some_iff, ih]
    constructor
    · rintro ⟨first, hfirst, rest, hrest, rfl⟩
      exact ⟨(key, first), rest, ⟨rfl, hfirst⟩, hrest, rfl⟩
    · rintro ⟨⟨_, first⟩, rest, ⟨rfl, hfirst⟩, hrest, rfl⟩
      exact ⟨first, hfirst, rest, hrest, rfl⟩

theorem isSome_rereadMembers_iff {members : List (String × Json)} :
    (rereadMembers members).isSome = true ↔ ∀ member ∈ members, member.2.reread.isSome = true := by
  induction members with
  | nil => simp [rereadMembers]
  | cons member members ih =>
    obtain ⟨key, value⟩ := member
    rw [List.forall_mem_cons, ← ih, rereadMembers]
    cases value.reread with
    | none => simp
    | some first => simp

theorem valuesOf_cons (name : String) (member : String × Json) (members : List (String × Json)) :
    valuesOf name (member :: members) =
      if member.1 = name then member.2 :: valuesOf name members else valuesOf name members := by
  rw [valuesOf, List.filter_cons]
  by_cases h : member.1 = name
  · simp [h, valuesOf]
  · simp [h, valuesOf]

theorem valuesOf_append (name : String) (members others : List (String × Json)) :
    valuesOf name (members ++ others) = valuesOf name members ++ valuesOf name others := by
  rw [valuesOf, List.filter_append, List.map_append]
  rfl

theorem valuesOf_eq_nil {name : String} {members : List (String × Json)}
    (h : name ∉ members.map Prod.fst) : valuesOf name members = [] := by
  rw [valuesOf, List.map_eq_nil_iff, List.filter_eq_nil_iff]
  intro member hmember
  rw [beq_iff_eq]
  rintro rfl
  exact h (List.mem_map_of_mem hmember)

theorem valuesOf_of_mem {members : List (String × Json)} (hnodup : (members.map Prod.fst).Nodup)
    {member : String × Json} (h : member ∈ members) : valuesOf member.1 members = [member.2] := by
  induction members with
  | nil => cases h
  | cons first members ih =>
    rw [List.map_cons, List.nodup_cons] at hnodup
    rw [valuesOf_cons]
    rcases List.mem_cons.mp h with rfl | hmem
    · rw [if_pos rfl, valuesOf_eq_nil hnodup.1]
    · have hne : first.1 ≠ member.1 := by
        intro heq
        exact hnodup.1 (heq ▸ List.mem_map_of_mem hmem)
      rw [if_neg hne, ih hnodup.2 hmem]

theorem fieldsOfMembers_keys {members : List (String × Json)} (hnodup : (members.map Prod.fst).Nodup) :
    fieldsOfMembers members (members.map Prod.fst) = some (members.map fun member => some member.2) := by
  have hpart : ∀ part : List (String × Json), (∀ member ∈ part, member ∈ members) →
      fieldsOfMembers members (part.map Prod.fst) = some (part.map fun member => some member.2) := by
    intro part hpart
    induction part with
    | nil => rfl
    | cons member part ih =>
      rw [List.forall_mem_cons] at hpart
      rw [List.map_cons, fieldsOfMembers, valuesOf_of_mem hnodup hpart.1, ih hpart.2]
      rfl
  exact hpart members fun _ h => h

theorem valuesOf_reread {members read : List (String × Json)} (h : List.Forall₂ IsReread members read)
    (name : String) : (valuesOf name members).map reread = (valuesOf name read).map some := by
  induction h with
  | nil => rfl
  | cons hfirst hrest ih =>
    rw [valuesOf_cons, valuesOf_cons, hfirst.key]
    split
    · rw [List.map_cons, List.map_cons, ih, hfirst.value]
    · exact ih

theorem fieldsOfMembers_congr {members others : List (String × Json)} {names : List String}
    (h : ∀ name ∈ names, valuesOf name members = valuesOf name others) :
    fieldsOfMembers members names = fieldsOfMembers others names := by
  induction names with
  | nil => rfl
  | cons name names ih =>
    rw [fieldsOfMembers, fieldsOfMembers, h name List.mem_cons_self,
      ih fun other hother => h other (List.mem_cons_of_mem _ hother)]

/-- The fields of a record in any order, and other members that can be read. -/
def Extends (members record : List (String × Json)) : Prop :=
  ∃ others, members.Perm (record ++ others) ∧ ∀ other ∈ others,
    other.1 ∉ record.map Prod.fst ∧ other.2.depth < maxDepth ∧ other.2.reread.isSome = true

theorem Extends.refl (record : List (String × Json)) : Extends record record :=
  ⟨[], by rw [List.append_nil], nofun⟩

namespace Extends
variable {members record : List (String × Json)}

theorem depth_le (h : Extends members record) (hrecord : (object record).depth ≤ maxDepth) :
    (object members).depth ≤ maxDepth := by
  obtain ⟨others, hperm, hothers⟩ := h
  have hmembers : memberDepth members ≤ 126 := by
    rw [depth, maxDepth] at hrecord
    rw [memberDepth_le_iff]
    intro member hmember
    rcases List.mem_append.mp (hperm.mem_iff.mp hmember) with hfield | hother
    · exact memberDepth_le_iff.mp (Nat.le_of_succ_le_succ hrecord) member hfield
    · exact Nat.le_of_lt_succ (hothers member hother).2.1
  rw [depth, maxDepth]
  omega

theorem isSome_reread (h : Extends members record) :
    (rereadMembers members).isSome = (rereadMembers record).isSome := by
  obtain ⟨others, hperm, hothers⟩ := h
  rw [Bool.eq_iff_iff, isSome_rereadMembers_iff, isSome_rereadMembers_iff]
  constructor
  · intro hall field hfield
    exact hall field (hperm.mem_iff.mpr (List.mem_append_left _ hfield))
  · intro hall member hmember
    rcases List.mem_append.mp (hperm.mem_iff.mp hmember) with hfield | hother
    · exact hall member hfield
    · exact (hothers member hother).2.2

/-- What is read of a field does not depend on what stands beside it. -/
theorem valuesOf_eq (h : Extends members record) (hnodup : (record.map Prod.fst).Nodup)
    {read fields : List (String × Json)} (hread : rereadMembers members = some read)
    (hfields : rereadMembers record = some fields) {name : String} (hname : name ∈ record.map Prod.fst) :
    valuesOf name read = valuesOf name fields := by
  obtain ⟨others, hperm, hothers⟩ := h
  obtain ⟨field, hfield, rfl⟩ := List.mem_map.mp hname
  have hvalue := valuesOf_of_mem hnodup hfield
  have hmembers : valuesOf field.1 members = [field.2] := by
    have hothers' : valuesOf field.1 others = [] := by
      refine valuesOf_eq_nil fun hmem => ?_
      obtain ⟨other, hother, heq⟩ := List.mem_map.mp hmem
      exact (hothers other hother).1 (heq ▸ hname)
    have hvalues : (valuesOf field.1 members).Perm (valuesOf field.1 (record ++ others)) :=
      (hperm.filter _).map _
    rw [valuesOf_append, hvalue, hothers', List.append_nil] at hvalues
    exact List.perm_singleton.mp hvalues
  have hfirst := valuesOf_reread (rereadMembers_eq_some_iff.mp hread) field.1
  have hsecond := valuesOf_reread (rereadMembers_eq_some_iff.mp hfields) field.1
  rw [hmembers, ← hvalue, hsecond] at hfirst
  exact List.map_injective_iff.mpr (Option.some_injective _) hfirst.symm

/-- A reader that only looks at the fields of a record reads the same from all that extends it. -/
theorem reread_bind {α : Type} {read : Json → Option α} (h : Extends members record)
    (hnodup : (record.map Prod.fst).Nodup)
    (hlocal : ∀ all fields, rereadMembers record = some fields →
      (∀ name ∈ record.map Prod.fst, valuesOf name all = valuesOf name fields) →
      read (.object all) = read (.object fields)) :
    (object members).reread.bind read = (object record).reread.bind read := by
  have hsome := h.isSome_reread
  rw [reread, reread, Option.bind_map, Option.bind_map]
  cases hmembers : rereadMembers members with
  | none =>
    cases hrecord : rereadMembers record with
    | none => rfl
    | some fields =>
      rw [hmembers, hrecord] at hsome
      cases hsome
  | some all =>
    cases hrecord : rereadMembers record with
    | none =>
      rw [hmembers, hrecord] at hsome
      cases hsome
    | some fields =>
      exact hlocal all fields hrecord fun name hname => h.valuesOf_eq hnodup hmembers hrecord hname

end Extends

theorem readStored?_pretty {names : List String} {members : List (String × Json)}
    (hnames : ∀ member ∈ members, names.contains member.1 = true)
    (hdepth : (object members).depth ≤ maxDepth) (hreadable : (object members).Every IsReadable)
    (hback : (object members).Every ReadsBack) :
    readStored? names (Text.Utf8.encode (object members).pretty) = some (object members) := by
  have hcounted : ∀ member ∈ members, (!names.contains member.1) = false := by
    intro member hmember
    rw [hnames member hmember, Bool.not_true]
  rw [readStored?, tokensOfBytes?_encode, pretty, (lexes_prettyAt _ 0).tokens?, Option.bind_some,
    ofTokens?_object hcounted hdepth]
  exact (reread_eq_self_iff hreadable).mpr hback

end ScriptedActors.Json
