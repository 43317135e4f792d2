import Mathlib.Data.String.Basic
import ScriptedActors.Dictionary

set_option autoImplicit false

/-!
# Laws of dictionaries

An insertion writes to one key and leaves what is found under every other one. It keeps the keys
strictly increasing.
-/
namespace ScriptedActors

namespace Dictionary
variable {α : Type}

theorem find?_cons (other k : String) (v : α) (rest : Dictionary α) :
    find? other ((k, v) :: rest) = if other = k then some v else find? other rest := by
  rw [find?, List.find?_cons]
  by_cases heq : other = k
  · simp [heq]
  · have hbeq : (k == other) = false := by simp [Ne.symm heq]
    rw [hbeq, if_neg heq, find?]

/-- The order of the keys does not matter for what is found. -/
theorem find?_insert (key other : String) (value : α) (d : Dictionary α) :
    find? other (insert key value d) = if other = key then some value else find? other d := by
  induction d with
  | nil => exact find?_cons other key value []
  | cons entry rest ih =>
    obtain ⟨k, v⟩ := entry
    rw [insert]
    by_cases hlt : key < k
    · rw [if_pos hlt, find?_cons]
    · rw [if_neg hlt]
      by_cases heq : key = k
      · rw [if_pos heq, find?_cons, find?_cons, ← heq]
        by_cases hother : other = key
        · rw [if_pos hother, if_pos hother]
        · rw [if_neg hother, if_neg hother, if_neg hother]
      · rw [if_neg heq, find?_cons, find?_cons, ih]
        by_cases hother : other = k
        · rw [if_pos hother, if_neg (hother ▸ Ne.symm heq)]
          rw [if_pos hother]
        · rw [if_neg hother, if_neg hother]

def Sorted (d : Dictionary α) : Prop := d.Pairwise fun a b => a.1 < b.1

theorem mem_insert {key : String} {value : α} {d : Dictionary α} {entry : String × α}
    (h : entry ∈ insert key value d) : entry = (key, value) ∨ entry ∈ d := by
  induction d with
  | nil => exact .inl (List.mem_singleton.mp h)
  | cons first rest ih =>
    rw [insert] at h
    split at h
    · exact List.mem_cons.mp h
    · split at h
      · rcases List.mem_cons.mp h with heq | hrest
        · exact .inl heq
        · exact .inr (List.mem_cons_of_mem _ hrest)
      · rcases List.mem_cons.mp h with rfl | hrest
        · exact .inr List.mem_cons_self
        · exact (ih hrest).imp id (List.mem_cons_of_mem _)

theorem Sorted.insert {d : Dictionary α} (h : Sorted d) (key : String) (value : α) :
    Sorted (insert key value d) := by
  induction d with
  | nil => exact List.pairwise_singleton _ _
  | cons first rest ih =>
    obtain ⟨hfirst, hrest⟩ := List.pairwise_cons.mp h
    rw [Dictionary.insert]
    split
    · rename_i hlt
      refine List.pairwise_cons.mpr ⟨?_, h⟩
      intro entry hentry
      rcases List.mem_cons.mp hentry with rfl | hentry
      · exact hlt
      · exact lt_trans hlt (hfirst entry hentry)
    · rename_i hnotLt
      split
      · rename_i heq
        exact List.pairwise_cons.mpr ⟨fun entry hentry => heq ▸ hfirst entry hentry, hrest⟩
      · rename_i hne
        refine List.pairwise_cons.mpr ⟨?_, ih hrest⟩
        intro entry hentry
        rcases mem_insert hentry with rfl | hentry
        · exact lt_of_le_of_ne (not_lt.mp hnotLt) (Ne.symm hne)
        · exact hfirst entry hentry

theorem insert_of_greatest {key : String} (value : α) {d : Dictionary α} (h : ∀ entry ∈ d, entry.1 < key) :
    insert key value d = d ++ [(key, value)] := by
  induction d with
  | nil => rfl
  | cons first rest ih =>
    have hfirst := h first List.mem_cons_self
    rw [insert, if_neg (not_lt_of_gt hfirst), if_neg (ne_of_gt hfirst),
      ih fun entry hentry => h entry (List.mem_cons_of_mem _ hentry)]
    rfl

theorem ofList_of_sorted {pairs : List (String × α)} (h : Sorted pairs) : ofList pairs = pairs := by
  have hfold : ∀ front back : List (String × α), Sorted (front ++ back) →
      back.foldl (fun d entry => insert entry.1 entry.2 d) front = front ++ back := by
    intro front back hsorted
    induction back generalizing front with
    | nil => rw [List.foldl_nil, List.append_nil]
    | cons entry back ih =>
      have hgreatest : ∀ other ∈ front, other.1 < entry.1 := fun other hother =>
        (List.pairwise_append.mp hsorted).2.2 other hother entry List.mem_cons_self
      rw [List.append_cons] at hsorted ⊢
      rw [List.foldl_cons, insert_of_greatest entry.2 hgreatest]
      exact ih _ hsorted
  exact hfold [] pairs h

theorem Sorted.find?_eq_some_iff {d : Dictionary α} (h : Sorted d) (key : String) (value : α) :
    find? key d = some value ↔ (key, value) ∈ d := by
  induction d with
  | nil => simp [find?]
  | cons entry rest ih =>
    obtain ⟨k, v⟩ := entry
    obtain ⟨hfirst, hrest⟩ := List.pairwise_cons.mp h
    rw [find?_cons, List.mem_cons, Prod.mk.injEq]
    by_cases hkey : key = k
    · have hother : (key, value) ∉ rest := by
        intro hmem
        exact absurd (hfirst _ hmem) (by simp [hkey])
      simp [hkey, hkey ▸ hother, eq_comm]
    · simp [hkey, ih hrest]

theorem Sorted.nodup_keys {d : Dictionary α} (h : Sorted d) : d.keys.Nodup := by
  rw [keys, List.Nodup, List.pairwise_map]
  exact h.imp fun hlt => ne_of_lt hlt

theorem isNone_find? (key : String) (d : Dictionary α) : (find? key d).isNone = decide (key ∉ d.keys) := by
  rw [Bool.eq_iff_iff, decide_eq_true_iff, find?, Option.isNone_map, Option.isNone_iff_eq_none,
    List.find?_eq_none, keys]
  simp only [List.mem_map, not_exists, not_and, beq_iff_eq]

end Dictionary
end ScriptedActors
