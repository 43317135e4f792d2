import ScriptedActors.Text.Blank
import ScriptedActors.Text.Separated

set_option autoImplicit false

/-!
# Cutting a text and joining it again

The pieces of a text do not hold the separator, and joined by it they are the text again. Trimming
only drops characters, and leaves none that is blank at either end.
-/
namespace ScriptedActors.Text

theorem split_eq_splitOn (separator : Char) (cs : List Char) :
    split separator cs = cs.splitOn separator := by
  induction cs with
  | nil => simp [split]
  | cons c cs ih =>
    rw [List.splitOn_cons_eq_if_modifyHead, split]
    by_cases h : c = separator
    · simp [h, ih]
    · have hne := split_ne_nil separator cs
      rw [← ih]
      cases hs : split separator cs with
      | nil => exact absurd hs hne
      | cons piece pieces => simp [h]

theorem split_intercalate (separator : Char) (pieces : List (List Char)) (hne : pieces ≠ [])
    (h : ∀ piece ∈ pieces, separator ∉ piece) :
    split separator ([separator].intercalate pieces) = pieces := by
  rw [split_eq_splitOn]
  exact List.splitOn_intercalate separator h hne

theorem split_of_notMem {separator : Char} {cs : List Char} (h : separator ∉ cs) :
    split separator cs = [cs] := by
  have hsplit := split_intercalate separator [cs] (by simp) (by simpa using h)
  rwa [List.intercalate_singleton] at hsplit

theorem exists_split_front (separator : Char) {front : List Char} (h : separator ∉ front) (cs : List Char) :
    ∃ piece pieces, split separator cs = piece :: pieces ∧
      split separator (front ++ cs) = (front ++ piece) :: pieces := by
  obtain ⟨piece, pieces, hcs⟩ := List.exists_cons_of_ne_nil (split_ne_nil separator cs)
  refine ⟨piece, pieces, hcs, ?_⟩
  induction front with
  | nil => exact hcs
  | cons c front ih =>
    rw [List.mem_cons, not_or] at h
    rw [List.cons_append, split, if_neg (Ne.symm h.1), ih h.2]
    rfl

theorem exists_split_back (separator : Char) {back : List Char} (h : separator ∉ back) (cs : List Char) :
    ∃ pieces piece, split separator cs = pieces ++ [piece] ∧
      split separator (cs ++ back) = pieces ++ [piece ++ back] := by
  induction cs with
  | nil => exact ⟨[], [], rfl, by simpa using split_of_notMem h⟩
  | cons c cs ih =>
    obtain ⟨pieces, piece, hcs, hback⟩ := ih
    rw [List.cons_append, split, split, hcs, hback]
    by_cases hc : c = separator
    · rw [if_pos hc, if_pos hc]
      exact ⟨[] :: pieces, piece, rfl, rfl⟩
    · rw [if_neg hc, if_neg hc]
      cases pieces with
      | nil => exact ⟨[], c :: piece, rfl, rfl⟩
      | cons first pieces => exact ⟨(c :: first) :: pieces, piece, rfl, rfl⟩

theorem intercalate_take (separator : List Char) (pieces : List (List Char)) (count : Nat) :
    separator.intercalate (pieces.take count) <+: separator.intercalate pieces := by
  induction pieces generalizing count with
  | nil => simp
  | cons piece pieces ih =>
    cases count with
    | zero => exact List.nil_prefix
    | succ count =>
      cases pieces with
      | nil => simp
      | cons next rest =>
        cases count with
        | zero =>
          rw [List.intercalate_cons_cons]
          exact ⟨separator ++ separator.intercalate (next :: rest), by simp⟩
        | succ count =>
          have hrest := ih (count + 1)
          rw [List.take_succ_cons] at hrest ⊢
          rw [List.take_succ_cons, List.intercalate_cons_cons, List.intercalate_cons_cons]
          exact (List.prefix_append_right_inj _).mpr hrest

theorem mem_of_mem_intercalate {c : Char} {separator : List Char} {pieces : List (List Char)}
    (h : c ∈ separator.intercalate pieces) : c ∈ separator ∨ ∃ piece ∈ pieces, c ∈ piece := by
  induction pieces with
  | nil => cases h
  | cons piece pieces ih =>
    cases pieces with
    | nil => exact .inr ⟨piece, List.mem_cons_self, by rwa [List.intercalate_singleton] at h⟩
    | cons next rest =>
      rw [List.intercalate_cons_cons, List.mem_append, List.mem_append] at h
      rcases h with (h | h) | h
      · exact .inr ⟨piece, List.mem_cons_self, h⟩
      · exact .inl h
      · obtain h | ⟨other, hother, hc⟩ := ih h
        · exact .inl h
        · exact .inr ⟨other, List.mem_cons_of_mem piece hother, hc⟩

theorem notMem_of_mem_split (separator : Char) (cs : List Char) :
    ∀ piece ∈ split separator cs, separator ∉ piece := by
  induction cs with
  | nil => simp [split]
  | cons c cs ih =>
    rw [split]
    by_cases h : c = separator
    · simpa [h] using ih
    · cases hs : split separator cs with
      | nil => exact absurd hs (split_ne_nil separator cs)
      | cons first rest =>
        rw [hs] at ih
        simp only [List.mem_cons, forall_eq_or_imp] at ih
        simpa [h, Ne.symm h] using ih

theorem mem_of_mem_dropFinalEmpty (pieces : List (List Char)) :
    ∀ piece ∈ dropFinalEmpty pieces, piece ∈ pieces := by
  induction pieces with
  | nil => simp [dropFinalEmpty]
  | cons first rest ih =>
    intro piece h
    unfold dropFinalEmpty at h
    split at h
    · simp at h
    · simp at h
    · rename_i heq
      cases heq
      rcases List.mem_cons.mp h with rfl | h
      · exact List.mem_cons_self
      · exact List.mem_cons_of_mem _ (ih piece h)

theorem newline_notMem_lines (cs : List Char) : ∀ line ∈ lines cs, '\n' ∉ line := fun line h =>
  notMem_of_mem_split '\n' cs line (mem_of_mem_dropFinalEmpty _ line h)

theorem split_append (separator : Char) (cs ds : List Char) :
    split separator (cs ++ separator :: ds) = split separator cs ++ split separator ds := by
  induction cs with
  | nil => simp [split]
  | cons c cs ih =>
    rw [List.cons_append, split, split, ih]
    by_cases hc : c = separator
    · simp [hc]
    · rw [if_neg hc, if_neg hc]
      cases hpieces : split separator cs with
      | nil => exact absurd hpieces (split_ne_nil separator cs)
      | cons piece pieces => rfl

theorem flatMap_split (separator : Char) (cs : List Char) :
    (split separator cs).flatMap (· ++ [separator]) = cs ++ [separator] := by
  induction cs with
  | nil => rfl
  | cons c cs ih =>
    obtain ⟨piece, pieces, hcs⟩ := List.exists_cons_of_ne_nil (split_ne_nil separator cs)
    rw [hcs, List.flatMap_cons] at ih
    rw [split, hcs]
    by_cases hc : c = separator
    · rw [if_pos hc, List.flatMap_cons, List.flatMap_cons, ih, hc]
      rfl
    · rw [if_neg hc, List.flatMap_cons, List.cons_append, List.cons_append, ih]
      rfl

theorem dropFinalEmpty_append (pieces more : List (List Char)) (h : more ≠ []) :
    dropFinalEmpty (pieces ++ more) = pieces ++ dropFinalEmpty more := by
  induction pieces with
  | nil => rfl
  | cons piece pieces ih =>
    have hnext : piece :: (pieces ++ more) ≠ [[]] := by simp [h]
    rw [List.cons_append, dropFinalEmpty, ih, List.cons_append]
    simpa using hnext

/-- The lines of a text end with a line feed, and what stands behind the last line feed is a line too,
unless nothing does. -/
structure AreLines (cs : List Char) (lines : List (List Char)) : Prop where
  newline_free : ∀ line ∈ lines, '\n' ∉ line
  exhaust : ∃ ended rest, cs = ended.flatMap (· ++ ['\n']) ++ rest ∧
    lines = if rest = [] then ended else ended ++ [rest]

theorem areLines_lines (cs : List Char) : AreLines cs (lines cs) := by
  refine ⟨newline_notMem_lines cs, ?_⟩
  obtain ⟨ended, rest, hsplit, -⟩ := exists_split_back '\n' List.not_mem_nil cs
  refine ⟨ended, rest, ?_, ?_⟩
  · have hall := flatMap_split '\n' cs
    rw [hsplit, List.flatMap_append, List.flatMap_singleton, ← List.append_assoc] at hall
    exact (List.append_cancel_right hall).symm
  · rw [lines, hsplit, dropFinalEmpty_append _ _ (List.cons_ne_nil rest [])]
    cases rest with
    | nil => simp [dropFinalEmpty]
    | cons c rest => simp [dropFinalEmpty]

/-- Whole lines stay whole when a text follows them. -/
theorem lines_append {cs : List Char} (h : cs = [] ∨ cs.getLast? = some '\n') (ds : List Char) :
    lines (cs ++ ds) = lines cs ++ lines ds := by
  rcases h with rfl | h
  · rfl
  · obtain ⟨front, rfl⟩ := List.getLast?_eq_some_iff.mp h
    rw [List.append_assoc, List.singleton_append, lines, lines, lines, split_append, split_append,
      dropFinalEmpty_append _ _ (split_ne_nil '\n' ds), dropFinalEmpty_append _ _ (split_ne_nil '\n' [])]
    simp [split, dropFinalEmpty]

theorem mem_of_mem_trimEnd {c : Char} {cs : List Char} (h : c ∈ trimEnd cs) : c ∈ cs := by
  rw [trimEnd, List.mem_reverse] at h
  exact List.mem_reverse.mp ((List.dropWhile_sublist isBlank).mem h)

theorem mem_of_mem_trimChars {c : Char} {cs : List Char} (h : c ∈ trimChars cs) : c ∈ cs :=
  (List.dropWhile_sublist isBlank).mem (mem_of_mem_trimEnd h)

theorem dropWhile_eq_self {p : Char → Bool} {cs : List Char} (h : ∀ c ∈ cs.head?, p c = false) :
    cs.dropWhile p = cs := by
  cases cs with
  | nil => rfl
  | cons c cs =>
    have hc : p c = false := h c rfl
    rw [List.dropWhile_cons, hc]
    rfl

theorem head?_dropWhile {p : Char → Bool} {cs : List Char} :
    ∀ c ∈ (cs.dropWhile p).head?, p c = false := by
  intro c hc
  have hnot := List.head?_dropWhile_not p cs
  rw [hc] at hnot
  exact hnot

theorem trimChars_eq_self {cs : List Char} (hfirst : ∀ c ∈ cs.head?, isBlank c = false)
    (hlast : ∀ c ∈ cs.getLast?, isBlank c = false) : trimChars cs = cs := by
  rw [trimChars, dropWhile_eq_self hfirst, trimEnd, dropWhile_eq_self, List.reverse_reverse]
  rw [List.head?_reverse]
  exact hlast

theorem exists_blanks_trimChars (cs : List Char) : ∃ front back : List Char,
    cs = front ++ (trimChars cs ++ back) ∧ (∀ c ∈ front, isBlank c = true) ∧
      ∀ c ∈ back, isBlank c = true := by
  refine ⟨cs.takeWhile isBlank, ((cs.dropWhile isBlank).reverse.takeWhile isBlank).reverse, ?_, ?_, ?_⟩
  · rw [trimChars, trimEnd, ← List.reverse_append, List.takeWhile_append_dropWhile, List.reverse_reverse,
      List.takeWhile_append_dropWhile]
  · exact fun c hc => List.all_eq_true.mp List.all_takeWhile c hc
  · exact fun c hc => List.all_eq_true.mp List.all_takeWhile c (List.mem_reverse.mp hc)

theorem head?_trimChars (cs : List Char) : ∀ c ∈ (trimChars cs).head?, isBlank c = false := by
  intro c hc
  have hprefix : trimChars cs <+: cs.dropWhile isBlank := by
    rw [trimChars, trimEnd, ← List.reverse_suffix, List.reverse_reverse]
    exact List.dropWhile_suffix isBlank
  have hdropped : ∀ c ∈ (cs.dropWhile isBlank).head?, isBlank c = false := head?_dropWhile
  refine hdropped c ?_
  obtain ⟨back, hback⟩ := hprefix
  rw [← hback, List.head?_append, hc]
  rfl

theorem getLast?_trimChars (cs : List Char) : ∀ c ∈ (trimChars cs).getLast?, isBlank c = false := by
  rw [trimChars, trimEnd, List.getLast?_reverse]
  exact head?_dropWhile

/-- A text without the blanks at its ends. -/
structure IsTrimmed (cs trimmed : List Char) : Prop where
  blanks : ∃ front back, cs = front ++ (trimmed ++ back) ∧ (∀ c ∈ front, isBlank c = true) ∧
    ∀ c ∈ back, isBlank c = true
  first : ∀ c ∈ trimmed.head?, isBlank c = false
  last : ∀ c ∈ trimmed.getLast?, isBlank c = false

theorem isTrimmed_trimChars (cs : List Char) : IsTrimmed cs (trimChars cs) :=
  ⟨exists_blanks_trimChars cs, head?_trimChars cs, getLast?_trimChars cs⟩

theorem trimChars_trimChars (cs : List Char) : trimChars (trimChars cs) = trimChars cs :=
  trimChars_eq_self (head?_trimChars cs) (getLast?_trimChars cs)

theorem trimEnd_append_blanks (cs : List Char) {back : List Char} (h : ∀ c ∈ back, isBlank c = true) :
    trimEnd (cs ++ back) = trimEnd cs := by
  have hback : ∀ c ∈ back.reverse, isBlank c = true := fun c hc => h c (List.mem_reverse.mp hc)
  rw [trimEnd, List.reverse_append, List.dropWhile_append_of_pos hback, trimEnd]

theorem trimChars_blanks {front back : List Char} (hfront : ∀ c ∈ front, isBlank c = true)
    (cs : List Char) (hback : ∀ c ∈ back, isBlank c = true) :
    trimChars (front ++ (cs ++ back)) = trimChars cs := by
  rw [trimChars, List.dropWhile_append_of_pos hfront, List.dropWhile_append]
  cases hcs : cs.dropWhile isBlank with
  | nil =>
    have hnil : (back ++ []).dropWhile isBlank = [] := List.dropWhile_append_of_pos hback
    rw [List.append_nil] at hnil
    rw [trimChars, hcs]
    simp [hnil]
  | cons c rest =>
    simp only [List.isEmpty_cons, Bool.false_eq_true, if_false]
    rw [trimEnd_append_blanks _ hback, trimChars, hcs]

end ScriptedActors.Text
