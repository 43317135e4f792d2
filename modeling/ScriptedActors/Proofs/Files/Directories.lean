import Mathlib.Data.List.TakeWhile
import ScriptedActors.Proofs.Files.Saves

set_option autoImplicit false

/-!
# Directories that exist

To make a directory that exists already changes nothing, whatever slashes its path ends with.
-/
namespace ScriptedActors

theorem segmentsOf_append_slash (bytes : List UInt8) :
    segmentsOf (bytes ++ [slash]) = segmentsOf bytes ++ [[]] := by
  induction bytes with
  | nil => rfl
  | cons b bytes ih =>
    rw [List.cons_append, segmentsOf, segmentsOf, ih]
    split
    · rfl
    · cases hsegments : segmentsOf bytes with
      | nil => exact absurd hsegments (segmentsOf_ne_nil bytes)
      | cons name names => rfl

theorem segmentsOf_append_slashes (bytes : List UInt8) (count : Nat) :
    segmentsOf (bytes ++ List.replicate count slash) = segmentsOf bytes ++ List.replicate count [] := by
  induction count with
  | zero => rw [List.replicate_zero, List.replicate_zero, List.append_nil, List.append_nil]
  | succ count ih =>
    rw [List.replicate_succ', List.replicate_succ', ← List.append_assoc, segmentsOf_append_slash, ih,
      List.append_assoc]

namespace FileTree
variable {t : FileTree} {place : Place}

theorem eq_of_follow_empty {last : Place} {count : Nat}
    (h : t.follow place (List.replicate count []) = .ok last) : last = place := by
  induction count with
  | zero =>
    cases h
    rfl
  | succ count ih =>
    rw [List.replicate_succ, follow_cons, Except.bind_eq_ok_iff] at h
    obtain ⟨next, hstep, hrest⟩ := h
    rw [step_of_directory (directory_of_step hstep), if_pos (.inl rfl)] at hstep
    cases hstep
    exact ih hrest

/-- A path is one without slashes at its end, and such slashes; or it is nothing but slashes. -/
theorem withoutFinalSlashes_cases (p : Path) :
    (∃ bytes count, bytes ≠ [] ∧ withoutFinalSlashes p = ⟨bytes⟩ ∧
      p.bytes = bytes ++ List.replicate count slash) ∨
    ∃ count, withoutFinalSlashes p = ⟨p.bytes.take 1⟩ ∧ p.bytes = List.replicate count slash := by
  have hsplit : p.bytes = (p.bytes.reverse.dropWhile (· == slash)).reverse ++
      (p.bytes.reverse.takeWhile (· == slash)).reverse := by
    rw [← List.reverse_append, List.takeWhile_append_dropWhile, List.reverse_reverse]
  have hslashes : (p.bytes.reverse.takeWhile (· == slash)).reverse =
      List.replicate (p.bytes.reverse.takeWhile (· == slash)).length slash := by
    rw [List.eq_replicate_iff]
    refine ⟨List.length_reverse, ?_⟩
    intro b hb
    rw [List.mem_reverse] at hb
    simpa using List.mem_takeWhile_imp hb
  rw [hslashes] at hsplit
  rw [withoutFinalSlashes]
  cases hbytes : (p.bytes.reverse.dropWhile (· == slash)).reverse with
  | nil =>
    rw [hbytes, List.nil_append] at hsplit
    exact .inr ⟨_, rfl, hsplit⟩
  | cons b bytes =>
    rw [hbytes] at hsplit
    exact .inl ⟨_, _, List.cons_ne_nil b bytes, rfl, hsplit⟩

theorem checked_eq_ok_iff (p : Path) :
    checked p = .ok () ↔ (0 : UInt8) ∉ p.bytes ∧ p.bytes.length ≤ maxPath ∧ p.bytes ≠ [] := by
  rw [checked]
  by_cases hzero : (0 : UInt8) ∈ p.bytes
  · simp [hzero]
  · by_cases hlength : maxPath < p.bytes.length
    · simp [hzero, hlength, Nat.not_le_of_lt hlength]
    · by_cases hempty : p.bytes = []
      · simp [hempty]
      · simp [hzero, hempty, Nat.le_of_not_lt hlength]

theorem resolve_withoutFinalSlashes {p : Path} (h : t.resolve p = .ok place) :
    t.resolve (withoutFinalSlashes p) = .ok place := by
  rw [resolve, Except.bind_eq_ok_iff] at h
  obtain ⟨_, hchecked, hfollow⟩ := h
  obtain ⟨hzero, hlength, hnonempty⟩ := (checked_eq_ok_iff p).mp hchecked
  rw [start, Path.isAbsolute, Path.segments] at hfollow
  obtain ⟨bytes, count, hbytes, hq, hp⟩ | ⟨count, hq, hp⟩ := withoutFinalSlashes_cases p
  · have hhead : p.bytes.head? = bytes.head? := by
      rw [hp, List.head?_append, Option.or_of_isSome (List.isSome_head?.mpr hbytes)]
    have hqchecked : checked ⟨bytes⟩ = .ok () := by
      rw [hp, List.mem_append, not_or] at hzero
      rw [hp, List.length_append] at hlength
      exact (checked_eq_ok_iff ⟨bytes⟩).mpr ⟨hzero.1, by dsimp only; omega, hbytes⟩
    rw [hhead, hp, segmentsOf_append_slashes, follow_append, Except.bind_eq_ok_iff] at hfollow
    obtain ⟨last, hlast, hempty⟩ := hfollow
    rw [hq, resolve, hqchecked, eq_of_follow_empty hempty]
    exact hlast
  · cases count with
    | zero => exact absurd hp hnonempty
    | succ count =>
      have hsegments : segmentsOf (List.replicate (count + 1) slash) = List.replicate (count + 2) [] :=
        segmentsOf_append_slashes [] (count + 1)
      rw [hp, hsegments] at hfollow
      rw [hq, hp, List.replicate_succ]
      cases eq_of_follow_empty hfollow
      rfl

/-- Where a path leads to something, there is no room at its last name for anything new. -/
theorem target_of_resolve {p : Path} (h : t.resolve p = .ok place) (fault : FileFault) :
    t.target p fault = .error fault ∨
      ∃ last entry, t.target p fault = .ok last ∧ t.entry? last = some entry := by
  rw [resolve, Except.bind_eq_ok_iff] at h
  obtain ⟨_, hchecked, hfollow⟩ := h
  have hsegments : p.segments ≠ [] := segmentsOf_ne_nil p.bytes
  rw [← List.dropLast_concat_getLast hsegments, follow_append, Except.bind_eq_ok_iff] at hfollow
  obtain ⟨parent, hparent, hlast⟩ := hfollow
  rw [follow_cons, Except.bind_eq_ok_iff] at hlast
  obtain ⟨next, hstep, -⟩ := hlast
  have hdirectory := directory_of_step hstep
  have htarget : t.target p fault =
      if p.segments.getLast hsegments = [] ∨ p.segments.getLast hsegments = [dot] ∨
        p.segments.getLast hsegments = [dot, dot] then .error fault
      else if maxName < (p.segments.getLast hsegments).length then .error .nameTooLong
      else .ok (parent ++ [p.segments.getLast hsegments]) := by
    rw [target, hchecked, List.getLast?_eq_some_getLast hsegments]
    change t.placeIn _ _ (p.segments.getLast hsegments) fault = _
    rw [placeIn, hparent]
    simp only [bind, Except.bind, hdirectory]
  rw [step_of_directory hdirectory] at hstep
  rw [htarget]
  generalize p.segments.getLast hsegments = name at hstep
  by_cases hname : name = [] ∨ name = [dot] ∨ name = [dot, dot]
  · rw [if_pos hname]
    exact .inl rfl
  · rw [if_neg hname]
    rw [← or_assoc, not_or] at hname
    rw [if_neg hname.1, if_neg hname.2] at hstep
    split at hstep
    · cases hstep
    · rename_i hlength
      rw [if_neg hlength]
      split at hstep
      · rename_i hsome
        obtain ⟨entry, hentry⟩ := Option.isSome_iff_exists.mp hsome
        exact .inr ⟨_, entry, rfl, hentry⟩
      · cases hstep

theorem makeDirectory_of_resolve {p : Path} (h : t.resolve p = .ok place) :
    t.makeDirectory p = .error .exists := by
  have hchecked := h
  rw [resolve, Except.bind_eq_ok_iff] at hchecked
  obtain ⟨_, hchecked, -⟩ := hchecked
  rw [makeDirectory, hchecked]
  obtain htarget | ⟨last, entry, htarget, hentry⟩ :=
    target_of_resolve (resolve_withoutFinalSlashes h) .exists
  · rw [htarget]
    rfl
  · rw [htarget]
    simp only [bind, Except.bind, hentry]

theorem makeAll_of_directory {p : Path} (h : t.resolve p = .ok place)
    (hplace : t.entry? place = some .directory) : t.makeAll p = (.ok (), t) := by
  have hdirectory : t.isDirectory p = true := by
    rw [isDirectory, lookup, h]
    exact beq_iff_eq.mpr hplace
  rw [makeAll, makeAllUpTo, makeDirectory_of_resolve h]
  by_cases hempty : p.bytes = []
  · rw [if_pos hempty]
  · rw [if_neg hempty]
    dsimp only
    simp only [hdirectory, if_true]

end FileTree
end ScriptedActors
