import ScriptedActors.Proofs.Dictionary
import ScriptedActors.Proofs.Json.Plain

set_option autoImplicit false

/-!
# Settled values

A value whose objects have their keys in order is settled, and so is what it is read as once it was
written. So reading such a value and settling it is reading it.
-/
namespace ScriptedActors.Json

def IsSettled : Json → Prop
  | .object members => Dictionary.Sorted members
  | _ => True

theorem isSettled_of_isPlain (v : Json) (h : v.IsPlain) : v.IsSettled := by
  cases v with
  | object members => exact h.elim
  | _ => trivial

mutual
theorem settled_eq_self {v : Json} (h : v.Every IsSettled) : v.settled = v := by
  cases v with
  | array items => rw [settled, settledItems_eq_self h.2]
  | object members => rw [settled, settledMembers_eq_self h.2, Dictionary.ofList_of_sorted h.1]
  | null => rfl
  | bool b => rfl
  | int n => rfl
  | float x => rfl
  | float32 x => rfl
  | string s => rfl

theorem settledItems_eq_self {items : List Json} (h : EveryItem IsSettled items) :
    settledItems items = items := by
  cases items with
  | nil => rfl
  | cons item items => rw [settledItems, settled_eq_self h.1, settledItems_eq_self h.2]

theorem settledMembers_eq_self {members : List (String × Json)} (h : EveryMember IsSettled members) :
    settledMembers members = members := by
  cases members with
  | nil => rfl
  | cons member members => rw [settledMembers, settled_eq_self h.1, settledMembers_eq_self h.2]
end

theorem keys_rereadMembers {members read : List (String × Json)} (h : rereadMembers members = some read) :
    read.map Prod.fst = members.map Prod.fst := by
  induction members generalizing read with
  | nil =>
    cases h
    rfl
  | cons member members ih =>
    rw [rereadMembers, Option.bind_eq_some_iff] at h
    obtain ⟨first, -, h⟩ := h
    obtain ⟨rest, hrest, rfl⟩ := Option.map_eq_some_iff.mp h
    rw [List.map_cons, List.map_cons, ih hrest]

theorem isSettled_leafValue {v w : Json} (h : leafValue v = some w) : w.Every IsSettled :=
  (isPlain_of_readScalar (Option.join_eq_some_iff.mp h)).1.imp isSettled_of_isPlain

mutual
theorem isSettled_reread {v w : Json} (h : v.Every IsSettled) (hread : v.reread = some w) :
    w.Every IsSettled := by
  cases v with
  | string s =>
    cases hread
    trivial
  | array items =>
    obtain ⟨read, hitems, rfl⟩ := Option.map_eq_some_iff.mp hread
    exact ⟨trivial, isSettled_rereadItems h.2 hitems⟩
  | object members =>
    obtain ⟨read, hmembers, rfl⟩ := Option.map_eq_some_iff.mp hread
    refine ⟨?_, isSettled_rereadMembers h.2 hmembers⟩
    have hsorted : (members.map Prod.fst).Pairwise (· < ·) := List.pairwise_map.mpr h.1
    rw [← keys_rereadMembers hmembers] at hsorted
    exact List.pairwise_map.mp hsorted
  | null => exact isSettled_leafValue hread
  | bool b => exact isSettled_leafValue hread
  | int n => exact isSettled_leafValue hread
  | float x => exact isSettled_leafValue hread
  | float32 x => exact isSettled_leafValue hread

theorem isSettled_rereadItems {items read : List Json} (h : EveryItem IsSettled items)
    (hread : rereadItems items = some read) : EveryItem IsSettled read := by
  cases items with
  | nil =>
    cases hread
    trivial
  | cons item items =>
    rw [rereadItems, Option.bind_eq_some_iff] at hread
    obtain ⟨first, hfirst, hread⟩ := hread
    obtain ⟨rest, hrest, rfl⟩ := Option.map_eq_some_iff.mp hread
    exact ⟨isSettled_reread h.1 hfirst, isSettled_rereadItems h.2 hrest⟩

theorem isSettled_rereadMembers {members read : List (String × Json)} (h : EveryMember IsSettled members)
    (hread : rereadMembers members = some read) : EveryMember IsSettled read := by
  cases members with
  | nil =>
    cases hread
    trivial
  | cons member members =>
    rw [rereadMembers, Option.bind_eq_some_iff] at hread
    obtain ⟨first, hfirst, hread⟩ := hread
    obtain ⟨rest, hrest, rfl⟩ := Option.map_eq_some_iff.mp hread
    exact ⟨isSettled_reread h.1 hfirst, isSettled_rereadMembers h.2 hrest⟩
end

/-- Settling what was read of a settled value changes nothing. -/
theorem settled_reread {v : Json} (h : v.Every IsSettled) : v.reread.map settled = v.reread := by
  cases hread : v.reread with
  | none => rfl
  | some w => rw [Option.map_some, settled_eq_self (isSettled_reread h hread)]

end ScriptedActors.Json
