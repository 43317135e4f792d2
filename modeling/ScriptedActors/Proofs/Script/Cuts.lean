import ScriptedActors.Proofs.Script.OpenBlocks

set_option autoImplicit false

/-!
# How lines are cut into statements

A statement is a block of lines: braces are open after each of its lines but the last. Every other line
is blank or a comment. The blocks stand one behind the other, none is left out and none is counted
twice, and the lines alone determine where they begin and end. Only the last block may be one whose
braces are still open, where the body ends before they close.
-/
namespace ScriptedActors
open Text

def balanceOf (lines : List (List Char)) : Int := (lines.map braceBalance).sum

structure IsBlock (block : List (List Char)) : Prop where
  begins : ∃ line ∈ block.head?, isSkipped line = false
  open_inside : ∀ count, 0 < count → count < block.length → 0 < balanceOf (block.take count)

def statementAt (number : Nat) (block : List (List Char)) : Statement :=
  ⟨number, String.ofList (['\n'].intercalate block)⟩

/-- Lines, the first of which has a number, are cut into statements. -/
inductive Cut : Nat → List (List Char) → List Statement → Prop where
  | nil {number : Nat} : Cut number [] []
  | idle {number : Nat} {line : List Char} {rest : List (List Char)} {statements : List Statement} :
      isSkipped line = true → Cut (number + 1) rest statements → Cut number (line :: rest) statements
  | block {number : Nat} {lines rest : List (List Char)} {statements : List Statement} :
      IsBlock lines → (0 < balanceOf lines → rest = []) → Cut (number + lines.length) rest statements →
      Cut number (lines ++ rest) (statementAt number lines :: statements)

namespace IsBlock
variable {lines others rest more : List (List Char)}

theorem length_pos (h : IsBlock lines) : 0 < lines.length := by
  obtain ⟨line, hline, -⟩ := h.begins
  apply List.length_pos_of_mem
  exact List.mem_of_mem_head? hline

theorem append_ne_nil (h : IsBlock lines) : lines ++ rest ≠ [] := by
  apply List.append_ne_nil_of_left_ne_nil
  exact List.length_pos_iff.mp h.length_pos

theorem not_skipped {line : List Char} (h : IsBlock lines) (hlines : lines ++ more = line :: rest) :
    isSkipped line = false := by
  obtain ⟨first, hfirst, hbegins⟩ := h.begins
  have hhead := congrArg List.head? hlines
  rw [List.head?_append, hfirst, Option.some_or, List.head?_cons, Option.some.injEq] at hhead
  rwa [← hhead]

theorem eq_of_append (h : IsBlock lines) (hother : IsBlock (lines ++ more))
    (hunclosed : 0 < balanceOf lines → more = []) : more = [] := by
  by_contra hmore
  have hpos := List.length_pos_iff.mpr hmore
  have hopen := hother.open_inside lines.length h.length_pos (by rw [List.length_append]; omega)
  rw [List.take_left] at hopen
  exact hmore (hunclosed hopen)

theorem unique (h : IsBlock lines) (hother : IsBlock others) (heq : lines ++ rest = others ++ more)
    (hunclosed : 0 < balanceOf lines → rest = []) (hotherUnclosed : 0 < balanceOf others → more = []) :
    lines = others := by
  rcases List.append_eq_append_iff.mp heq with ⟨c, rfl, hrest⟩ | ⟨c, rfl, hmore⟩
  · have hnone : c = [] := h.eq_of_append hother fun hopen =>
      (List.append_eq_nil_iff.mp (hrest.symm.trans (hunclosed hopen))).1
    rw [hnone, List.append_nil]
  · have hnone : c = [] := hother.eq_of_append h fun hopen =>
      (List.append_eq_nil_iff.mp (hmore.symm.trans (hotherUnclosed hopen))).1
    rw [hnone, List.append_nil]

end IsBlock

namespace OpenStatement
variable {o : OpenStatement}

theorem Gathers.isBlock (h : o.Gathers)
    (hbegins : ∃ line ∈ o.lines.reverse.head?, isSkipped line = false) : IsBlock o.lines.reverse := by
  refine ⟨hbegins, ?_⟩
  rw [List.length_reverse]
  exact h.open_inside

theorem begins_add (line : List Char) (hbegins : ∃ first ∈ o.lines.reverse.head?, isSkipped first = false) :
    ∃ first ∈ (o.add line).lines.reverse.head?, isSkipped first = false := by
  obtain ⟨first, hfirst, hskipped⟩ := hbegins
  refine ⟨first, ?_, hskipped⟩
  rw [add, List.reverse_cons, List.head?_append, hfirst]
  rfl

end OpenStatement

/-- Induction over the lines that are still to be gathered, with and without an open statement. -/
theorem cut_collect (rest : List (List Char)) (hrest : ∀ line ∈ rest, '\n' ∉ line) :
    (∀ number, Cut number rest (collect number none rest)) ∧
      ∀ o : OpenStatement, o.Gathers → (∃ line ∈ o.lines.reverse.head?, isSkipped line = false) →
        o.isComplete = false →
        Cut o.line (o.lines.reverse ++ rest) (collect (o.line + o.lines.length) (some o) rest) := by
  induction rest with
  | nil =>
    refine ⟨fun _ => .nil, ?_⟩
    intro o ho hbegins hopen
    exact .block (ho.isBlock hbegins) (fun _ => rfl) .nil
  | cons line rest ih =>
    obtain ⟨hline, hrest⟩ := List.forall_mem_cons.mp hrest
    obtain ⟨hnone, hsome⟩ := ih hrest
    have hnext (o : OpenStatement) (ho : o.Gathers)
        (hbegins : ∃ line ∈ o.lines.reverse.head?, isSkipped line = false) :
        Cut o.line (o.lines.reverse ++ rest)
          (if o.isComplete then o.close :: collect (o.line + o.lines.length) none rest
            else collect (o.line + o.lines.length) (some o) rest) := by
      cases hcomplete : o.isComplete with
      | true =>
        apply Cut.block (ho.isBlock hbegins)
        · intro hunclosed
          rw [balanceOf, ← ho.depth_eq] at hunclosed
          simp only [OpenStatement.isComplete, decide_eq_true_eq] at hcomplete
          omega
        · rw [List.length_reverse]
          exact hnone _
      | false => exact hsome o ho hbegins hcomplete
    constructor
    · intro number
      rw [collect]
      cases hskipped : isSkipped line with
      | true => exact .idle hskipped (hnone _)
      | false =>
        apply hnext (OpenStatement.start number line) (OpenStatement.start_gathers number line hline)
        exact ⟨line, rfl, hskipped⟩
    · intro o ho hbegins hopen
      have hadded := hnext (o.add line) (o.add_gathers line ho hopen hline)
        (OpenStatement.begins_add line hbegins)
      rw [OpenStatement.add, List.reverse_cons, List.append_assoc, List.length_cons] at hadded
      rw [collect]
      exact hadded

/-- Lines can be cut in one way only. Both cuts begin with the same line, which is skipped in both or
begins a block in both. -/
theorem Cut.unique {number : Nat} {lines : List (List Char)} {statements others : List Statement}
    (h : Cut number lines statements) (hother : Cut number lines others) : statements = others := by
  induction h generalizing others with
  | nil =>
    generalize hlines : ([] : List (List Char)) = lines at hother
    cases hother with
    | nil => rfl
    | idle _ _ => cases hlines
    | block hblock _ _ => exact absurd hlines.symm hblock.append_ne_nil
  | @idle number line rest statements hskipped _ ih =>
    generalize hlines : line :: rest = lines at hother
    cases hother with
    | nil => cases hlines
    | idle _ hrest =>
      cases hlines
      exact ih hrest
    | block hblock _ _ => simp [hblock.not_skipped hlines.symm] at hskipped
  | @block number first rest statements hblock hunclosed _ ih =>
    generalize hlines : first ++ rest = lines at hother
    cases hother with
    | nil => exact absurd hlines hblock.append_ne_nil
    | idle hskipped _ => simp [hblock.not_skipped hlines] at hskipped
    | block hother hotherUnclosed hmore =>
      have hsame := hblock.unique hother hlines hunclosed hotherUnclosed
      subst hsame
      rw [List.append_cancel_left hlines] at ih
      rw [ih hmore]

theorem Script.cut_statements (s : Script) : Cut 1 (trimmedLines s.body) s.statements :=
  (cut_collect _ (newline_notMem_trimmedLines s.body)).1 1

theorem isSkipped_iff (line : List Char) : isSkipped line = true ↔ line = [] ∨ line.head? = some '#' := by
  cases line with
  | nil => simp [isSkipped]
  | cons c line => simp [isSkipped]

theorem IsBlock.begins_after {block : List (List Char)} (h : IsBlock block)
    (before rest : List (List Char)) :
    ∃ line, (before ++ (block ++ rest))[before.length]? = some line ∧
      line ≠ [] ∧ line.head? ≠ some '#' := by
  obtain ⟨line, hline, hskipped⟩ := h.begins
  refine ⟨line, ?_, ?_⟩
  · rw [List.getElem?_append_right (Nat.le_refl _), Nat.sub_self, ← List.head?_eq_getElem?,
      List.head?_append, hline, Option.some_or]
  · rw [← not_or, ← isSkipped_iff, hskipped]
    decide

structure Span where
  first : Nat
  last : Nat

namespace Span

def upTo (s : Span) (lines : List (List Char)) (number : Nat) : List (List Char) :=
  (lines.drop (s.first - 1)).take (number + 1 - s.first)

def statement (lines : List (List Char)) (s : Span) : Statement :=
  statementAt s.first (s.upTo lines s.last)

def Contains (s : Span) (number : Nat) : Prop := s.first ≤ number ∧ number ≤ s.last

theorem upTo_append (before block rest : List (List Char)) (last count : Nat) (h : count ≤ block.length) :
    upTo ⟨before.length + 1, last⟩ (before ++ (block ++ rest)) (before.length + count) =
      block.take count := by
  have hcount : before.length + count + 1 - (before.length + 1) = count := by omega
  rw [upTo, Nat.add_sub_cancel, List.drop_left, hcount, List.take_append_of_le_length h]

end Span

/-- Spans to which all lines from a number on belong that are not idle. -/
structure Covers (start : Nat) (lines : List (List Char)) (spans : List Span) : Prop where
  within : ∀ s ∈ spans, start ≤ s.first ∧ s.first ≤ s.last ∧ s.last ≤ lines.length
  increasing : spans.Pairwise fun s t => s.last < t.first
  begins : ∀ s ∈ spans, ∃ line, lines[s.first - 1]? = some line ∧ line ≠ [] ∧ line.head? ≠ some '#'
  outside : ∀ number, start ≤ number → number ≤ lines.length → (∀ s ∈ spans, ¬s.Contains number) →
    ∃ line, lines[number - 1]? = some line ∧ (line = [] ∨ line.head? = some '#')
  open_inside : ∀ s ∈ spans, ∀ number, s.first ≤ number → number < s.last →
    0 < balanceOf (s.upTo lines number)
  closed : ∀ s ∈ spans, balanceOf (s.upTo lines s.last) ≤ 0 ∨
    (spans.getLast? = some s ∧ s.last = lines.length ∧ 0 < balanceOf (s.upTo lines s.last))

namespace Covers
variable {before rest : List (List Char)} {spans : List Span}

theorem nil (before : List (List Char)) : Covers (before.length + 1) before [] where
  within := by simp
  increasing := List.Pairwise.nil
  begins := by simp
  outside number hstart hlength := by omega
  open_inside := by simp
  closed := by simp

theorem idle {line : List Char} (hskipped : isSkipped line = true)
    (h : Covers (before.length + 1 + 1) (before ++ line :: rest) spans) :
    Covers (before.length + 1) (before ++ line :: rest) spans where
  within s hs := by
    have hwithin := h.within s hs
    omega
  increasing := h.increasing
  begins := h.begins
  outside number hstart hlength hnone := by
    by_cases hfirst : number = before.length + 1
    · refine ⟨line, ?_, (isSkipped_iff line).mp hskipped⟩
      simp [hfirst]
    · exact h.outside number (by omega) hlength hnone
  open_inside := h.open_inside
  closed := h.closed

theorem eq_nil_of_end {start : Nat} {lines : List (List Char)} (h : Covers start lines spans)
    (hend : lines.length < start) : spans = [] := by
  apply List.eq_nil_iff_forall_not_mem.mpr
  intro s hs
  have hwithin := h.within s hs
  omega

theorem block {block : List (List Char)} (hblock : IsBlock block)
    (hunclosed : 0 < balanceOf block → rest = [])
    (h : Covers (before.length + 1 + block.length) (before ++ (block ++ rest)) spans) :
    Covers (before.length + 1) (before ++ (block ++ rest))
      (⟨before.length + 1, before.length + block.length⟩ :: spans) := by
  have hpos := hblock.length_pos
  have hlength : (before ++ (block ++ rest)).length = before.length + (block.length + rest.length) := by
    simp
  constructor
  case within =>
    refine List.forall_mem_cons.mpr ⟨⟨Nat.le_refl _, ?_⟩, ?_⟩
    · change before.length + 1 ≤ before.length + block.length ∧ before.length + block.length ≤ _
      omega
    · intro s hs
      have hwithin := h.within s hs
      omega
  case increasing =>
    refine List.pairwise_cons.mpr ⟨?_, h.increasing⟩
    intro s hs
    have hwithin := h.within s hs
    change before.length + block.length < s.first
    omega
  case begins => exact List.forall_mem_cons.mpr ⟨hblock.begins_after before rest, h.begins⟩
  case outside =>
    intro number hstart hend hnone
    obtain ⟨hfirst, hnone⟩ := List.forall_mem_cons.mp hnone
    refine h.outside number ?_ hend hnone
    change ¬(before.length + 1 ≤ number ∧ number ≤ before.length + block.length) at hfirst
    omega
  case open_inside =>
    refine List.forall_mem_cons.mpr ⟨?_, h.open_inside⟩
    intro number (hfirst : before.length + 1 ≤ number) (hlast : number < before.length + block.length)
    obtain ⟨count, rfl⟩ := Nat.exists_eq_add_of_le (Nat.le_of_succ_le hfirst)
    rw [Span.upTo_append before block rest _ count (by omega)]
    exact hblock.open_inside count (by omega) (by omega)
  case closed =>
    refine List.forall_mem_cons.mpr ⟨?_, ?_⟩
    · rw [Span.upTo_append before block rest _ block.length (Nat.le_refl _), List.take_length]
      by_cases hopen : 0 < balanceOf block
      · -- Nothing follows a block that is not closed.
        rw [hunclosed hopen, List.length_nil] at hlength
        rw [hunclosed hopen] at h ⊢
        refine .inr ⟨?_, hlength.symm, hopen⟩
        rw [h.eq_nil_of_end (by omega)]
        rfl
      · exact .inl (by omega)
    · intro s hs
      refine (h.closed s hs).imp id ?_
      rintro ⟨hlast, hend⟩
      refine ⟨?_, hend⟩
      rw [List.getLast?_cons, hlast]
      rfl

end Covers

theorem Cut.covers {number : Nat} {lines : List (List Char)} {statements : List Statement}
    (h : Cut number lines statements) (before : List (List Char)) (hnumber : before.length + 1 = number) :
    ∃ spans, Covers number (before ++ lines) spans ∧
      statements = spans.map (Span.statement (before ++ lines)) := by
  induction h generalizing before with
  | nil =>
    rw [List.append_nil, ← hnumber]
    exact ⟨[], Covers.nil before, rfl⟩
  | @idle number line rest statements hskipped _ ih =>
    obtain ⟨spans, hcovers, hspans⟩ := ih (before ++ [line]) (by simp [hnumber])
    rw [List.append_assoc, List.singleton_append, ← hnumber] at hcovers
    rw [List.append_assoc, List.singleton_append] at hspans
    rw [← hnumber]
    exact ⟨spans, hcovers.idle hskipped, hspans⟩
  | @block number first rest statements hblock hunclosed _ ih =>
    obtain ⟨spans, hcovers, hspans⟩ := ih (before ++ first) (by rw [List.length_append]; omega)
    rw [List.append_assoc, ← hnumber] at hcovers
    rw [List.append_assoc] at hspans
    rw [← hnumber]
    refine ⟨_, hcovers.block hblock hunclosed, ?_⟩
    rw [List.map_cons, ← hspans, Span.statement,
      Span.upTo_append before first rest _ first.length (Nat.le_refl _), List.take_length]

def IsBody (body : String) (lines : List (List Char)) : Prop :=
  ∃ whole, AreLines body.toList whole ∧ List.Forall₂ IsTrimmed whole lines

theorem isBody_trimmedLines (body : String) : IsBody body (trimmedLines body) := by
  refine ⟨_, areLines_lines body.toList, ?_⟩
  rw [trimmedLines, List.forall₂_map_right_iff]
  exact List.forall₂_same.mpr fun line _ => isTrimmed_trimChars line

/-- The statements of a script cover the lines of its body: none is lost, counted twice or misnumbered. -/
theorem Script.covers_statements (s : Script) : ∃ lines spans, IsBody s.body lines ∧
    Covers 1 lines spans ∧ s.statements = spans.map (Span.statement lines) := by
  obtain ⟨spans, hcovers, hspans⟩ := s.cut_statements.covers [] rfl
  exact ⟨trimmedLines s.body, spans, isBody_trimmedLines s.body, hcovers, hspans⟩

/-- A comment inside a statement, a brace that closes none, a brace in a string and a block that stays
open. -/
theorem Script.covers_every_kind_of_line :
    let s : Script := .ofText "s"
      "# head\n\nlisten join \x7b\n# note\n  log x\n\x7d\r\nlog \x7d \x7b\n log \"\x7b\" y \n\nrun \x7b\n\n"
    (∃ lines spans, IsBody s.body lines ∧ Covers 1 lines spans ∧
      s.statements = spans.map (Span.statement lines)) ∧
    s.statements = [⟨3, "listen join \x7b\n# note\nlog x\n\x7d"⟩, ⟨7, "log \x7d \x7b"⟩, ⟨8, "log \"\x7b\" y"⟩,
      ⟨10, "run \x7b\n"⟩] :=
  ⟨covers_statements _, by decide⟩

end ScriptedActors
