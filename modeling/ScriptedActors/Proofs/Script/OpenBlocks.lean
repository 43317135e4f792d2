import ScriptedActors.Proofs.Script.BraceReading
import ScriptedActors.Proofs.Text.Pieces

set_option autoImplicit false

/-!
# Where statements end, and where blocks end

By rule a statement ends at a line feed unless a block is open. The script decides by the braces of
its lines, the tokens by those of the whole text, and the two may disagree: a closing brace outside
all blocks, or a string that goes on over a line feed, makes the script end a statement inside a
block or go on after one. The rule holds of a statement exactly if what its lines miscount never
turns the decision at the end of a line.
-/
namespace ScriptedActors
open Text

namespace Statement

def lines (t : Statement) : List (List Char) := split '\n' t.text.toList

def upTo (t : Statement) (count : Nat) : String :=
  String.ofList (['\n'].intercalate (t.lines.take count))

def balance (t : Statement) (count : Nat) : Int := ((t.lines.take count).map braceBalance).sum

def miscount (t : Statement) (count : Nat) : Int := (BraceReading.of (t.upTo count).toList).miscount

/-- At each line end at which the script decides, the miscount does not turn its decision. The
script does not decide at the end of a body. -/
def InStep (t : Statement) : Prop :=
  ∀ count, 0 < count → count ≤ t.lines.length → (count = t.lines.length → t.balance count ≤ 0) →
    (0 < t.balance count + t.miscount count ↔ 0 < t.balance count)

end Statement

/-- The rule: a block is open at the end of each line of a statement but the last, and none at the
end of the statement, unless it is the last one and the body ended before its braces did. -/
structure Script.EndsOutsideBlocks (s : Script) (t : Statement) : Prop where
  open_inside : ∀ count, 0 < count → count < t.lines.length → Token.hasOpenBlock (t.upTo count)
  closed_after : Token.hasOpenBlock t.text →
    s.statements.getLast? = some t ∧ 0 < t.balance t.lines.length

namespace OpenStatement

structure Gathers (o : OpenStatement) : Prop where
  lines_ne_nil : o.lines ≠ []
  newline_free : ∀ line ∈ o.lines, '\n' ∉ line
  depth_eq : o.depth = (o.lines.reverse.map braceBalance).sum
  open_inside : ∀ count, 0 < count → count < o.lines.length →
    0 < ((o.lines.reverse.take count).map braceBalance).sum

theorem start_gathers (number : Nat) (line : List Char) (h : '\n' ∉ line) :
    (start number line).Gathers where
  lines_ne_nil := by simp [start]
  newline_free := by simpa [start] using h
  depth_eq := by simp [start]
  open_inside count h0 h1 := by
    simp only [start, List.length_singleton] at h1
    omega

theorem add_gathers (o : OpenStatement) (line : List Char) (ho : o.Gathers)
    (hopen : o.isComplete = false) (h : '\n' ∉ line) : (o.add line).Gathers where
  lines_ne_nil := by simp [add]
  newline_free := by simpa [add] using ⟨h, ho.newline_free⟩
  depth_eq := by simp [add, ho.depth_eq]
  open_inside count h0 h1 := by
    simp only [add, List.length_cons] at h1
    have hle : count ≤ o.lines.reverse.length := by
      rw [List.length_reverse]
      omega
    rw [add, List.reverse_cons, List.take_append_of_le_length hle]
    by_cases hlt : count < o.lines.length
    · exact ho.open_inside count h0 hlt
    · rw [List.take_of_length_le (by rw [List.length_reverse]; omega), ← ho.depth_eq]
      simpa [isComplete] using hopen

theorem close_lines (o : OpenStatement) (h : o.Gathers) : o.close.lines = o.lines.reverse := by
  rw [Statement.lines, close, String.toList_ofList]
  apply split_intercalate
  · simpa using h.lines_ne_nil
  · intro line hline
    exact h.newline_free line (List.mem_reverse.mp hline)

theorem close_balance (o : OpenStatement) (h : o.Gathers) :
    o.close.balance o.close.lines.length = o.depth := by
  rw [Statement.balance, List.take_length, close_lines o h, h.depth_eq]

end OpenStatement

structure Statement.Gathered (statements : List Statement) (t : Statement) : Prop where
  newline_free : ∀ line ∈ t.lines, '\n' ∉ line
  text_eq : t.upTo t.lines.length = t.text
  open_inside : ∀ count, 0 < count → count < t.lines.length → 0 < t.balance count
  last_of_open : 0 < t.balance t.lines.length → statements.getLast? = some t

namespace OpenStatement

theorem close_gathered (o : OpenStatement) (h : o.Gathers) (statements : List Statement)
    (hlast : 0 < o.depth → statements.getLast? = some o.close) : o.close.Gathered statements where
  newline_free := by
    rw [close_lines o h]
    intro line hline
    exact h.newline_free line (List.mem_reverse.mp hline)
  text_eq := by
    rw [Statement.upTo, List.take_length, close_lines o h]
    rfl
  open_inside := by
    unfold Statement.balance
    rw [close_lines o h, List.length_reverse]
    exact h.open_inside
  last_of_open := by
    rw [close_balance o h]
    exact hlast

end OpenStatement

theorem Statement.Gathered.cons {t : Statement} {statements : List Statement}
    (h : t.Gathered statements) (first : Statement) : t.Gathered (first :: statements) where
  newline_free := h.newline_free
  text_eq := h.text_eq
  open_inside := h.open_inside
  last_of_open hopen := by
    rw [List.getLast?_cons, h.last_of_open hopen]
    rfl

theorem collect_gathered (rest : List (List Char)) (number : Nat) (pending : Option OpenStatement)
    (hrest : ∀ line ∈ rest, '\n' ∉ line) (hpending : ∀ o ∈ pending, o.Gathers ∧ o.isComplete = false) :
    ∀ t ∈ collect number pending rest, t.Gathered (collect number pending rest) := by
  induction rest generalizing number pending with
  | nil =>
    cases pending with
    | none => simp [collect]
    | some o =>
      have ho := (hpending o rfl).1
      simp only [collect, List.mem_singleton, forall_eq]
      exact o.close_gathered ho _ fun _ => rfl
  | cons line rest ih =>
    obtain ⟨hline, hrest⟩ := List.forall_mem_cons.mp hrest
    -- Both kinds of lines end in the same way: the statement is complete after the line or goes on.
    have hnext (o : OpenStatement) (ho : o.Gathers) :
        ∀ t ∈ (if o.isComplete then o.close :: collect (number + 1) none rest
            else collect (number + 1) (some o) rest),
          t.Gathered (if o.isComplete then o.close :: collect (number + 1) none rest
            else collect (number + 1) (some o) rest) := by
      cases hc : o.isComplete with
      | true =>
        simp only [if_true, List.mem_cons]
        rintro t (rfl | ht)
        · refine o.close_gathered ho _ fun hopen => ?_
          simp only [OpenStatement.isComplete, decide_eq_true_eq] at hc
          omega
        · exact (ih (number + 1) none hrest (by simp) t ht).cons _
      | false => exact ih (number + 1) (some o) hrest (by simp [ho, hc])
    cases pending with
    | none =>
      rw [collect]
      cases hs : isSkipped line with
      | true => exact ih (number + 1) none hrest (by simp)
      | false => exact hnext _ (OpenStatement.start_gathers number line hline)
    | some o =>
      obtain ⟨ho, hopen⟩ := hpending o rfl
      exact hnext _ (o.add_gathers line ho hopen hline)

theorem newline_notMem_trimmedLines (text : String) : ∀ line ∈ trimmedLines text, '\n' ∉ line := by
  intro line hline
  obtain ⟨raw, hraw, rfl⟩ := List.mem_map.mp hline
  intro hmem
  exact newline_notMem_lines _ raw hraw (mem_of_mem_trimChars hmem)

theorem Script.statement_gathered (s : Script) (t : Statement) (h : t ∈ s.statements) :
    t.Gathered s.statements :=
  collect_gathered _ 1 none (newline_notMem_trimmedLines s.body) (by simp) t h

namespace Statement.Gathered
variable {t : Statement} {statements : List Statement}

theorem hasOpenBlock_upTo (h : t.Gathered statements) (count : Nat) :
    Token.hasOpenBlock (t.upTo count) ↔ 0 < t.balance count + t.miscount count := by
  have hcounted : (BraceReading.of (t.upTo count).toList).counted = t.balance count := by
    rw [upTo, String.toList_ofList]
    refine BraceReading.counted_of_lines _ fun line hline => ?_
    exact h.newline_free line (List.mem_of_mem_take hline)
  have hdepth := BraceReading.depth_of (t.upTo count).toList
  rw [BraceReading.hasOpenBlock_iff, miscount, ← hcounted, ← hdepth]
  omega

end Statement.Gathered

theorem Statement.lines_length_pos (t : Statement) : 0 < t.lines.length :=
  List.length_pos_iff.mpr (split_ne_nil _ _)

/-- A statement ends where the rule says exactly if its miscount never turns a decision. -/
theorem endsOutsideBlocks_iff (s : Script) (t : Statement) (h : t ∈ s.statements) :
    s.EndsOutsideBlocks t ↔ t.InStep := by
  have hg := s.statement_gathered t h
  constructor
  · intro hrule count h0 hle hdecides
    by_cases hlt : count < t.lines.length
    · have hopen := (hg.hasOpenBlock_upTo count).mp (hrule.open_inside count h0 hlt)
      exact ⟨fun _ => hg.open_inside count h0 hlt, fun _ => hopen⟩
    · obtain rfl : count = t.lines.length := by omega
      have hbalance := hdecides rfl
      refine ⟨fun hopen => ?_, fun hpos => by omega⟩
      rw [← hg.hasOpenBlock_upTo, hg.text_eq] at hopen
      exact (hrule.closed_after hopen).2
  · intro hstep
    refine ⟨fun count h0 hlt => ?_, fun hopen => ?_⟩
    · rw [hg.hasOpenBlock_upTo, hstep count h0 (by omega) (by omega)]
      exact hg.open_inside count h0 hlt
    · have hpos : 0 < t.balance t.lines.length := by
        by_contra hle
        rw [← hg.text_eq, hg.hasOpenBlock_upTo,
          hstep _ t.lines_length_pos (Nat.le_refl _) (by omega)] at hopen
        exact hle hopen
      exact ⟨hg.last_of_open hpos, hpos⟩

/-- A string of the statement goes on over two line feeds and no brace stands next to it. -/
theorem endsOutsideBlocks_long_string :
    Script.EndsOutsideBlocks (.ofText "poem" "js \x7b\n  say \"a\n  b\"\n\x7d\nlog x") ⟨1, "js \x7b\nsay \"a\nb\"\n\x7d"⟩ := by
  refine (endsOutsideBlocks_iff _ _ (by decide)).mpr fun count h0 hle _ => ?_
  have hlength : Statement.lines ⟨1, "js \x7b\nsay \"a\nb\"\n\x7d"⟩ =
      ["js \x7b".toList, "say \"a".toList, "b\"".toList, "\x7d".toList] := by decide
  rw [hlength] at hle
  simp only [List.length_cons, List.length_nil] at hle
  interval_cases count <;> decide

/-- The first statement ends inside the block that it opens, and is not the last. -/
theorem not_endsOutsideBlocks_stray :
    (⟨1, "log \x7d \x7b"⟩ : Statement) ∈ Script.statements (.ofText "greeter" "log \x7d \x7b\nlog x\n\x7d") ∧
      ¬ Script.EndsOutsideBlocks (.ofText "greeter" "log \x7d \x7b\nlog x\n\x7d") ⟨1, "log \x7d \x7b"⟩ := by
  refine ⟨by decide, fun hrule => ?_⟩
  have hlast := (hrule.closed_after rfl).1
  revert hlast
  decide

/-- The rule holds where no closing brace stands outside blocks and every line but the last ends
outside strings. -/
theorem endsOutsideBlocks_of_closed_strings (s : Script) (t : Statement) (h : t ∈ s.statements)
    (hstray : (BraceReading.of t.text.toList).stray = 0)
    (hstrings : ∀ count, 0 < count → count < t.lines.length →
      (BraceReading.of (t.upTo count).toList).whole = .outside) :
    s.EndsOutsideBlocks t := by
  have hg := s.statement_gathered t h
  rw [endsOutsideBlocks_iff s t h]
  intro count h0 hle _
  have hcarried : (BraceReading.of (t.upTo count).toList).carried = 0 := by
    rw [Statement.upTo, String.toList_ofList]
    refine BraceReading.run_lines_carried _ .initial
      (fun line hline => hg.newline_free line (List.mem_of_mem_take hline)) rfl rfl ?_
    intro earlier h1 hlt
    rw [List.length_take] at hlt
    have hends := hstrings earlier h1 (by omega)
    rw [Statement.upTo, String.toList_ofList] at hends
    rwa [List.take_take, Nat.min_eq_left (by omega)]
  have hprefix : (BraceReading.of (t.upTo count).toList).stray ≤ 0 := by
    obtain ⟨rest, hrest⟩ := intercalate_take ['\n'] t.lines count
    rw [← hstray, ← hg.text_eq, Statement.upTo, Statement.upTo, String.toList_ofList,
      String.toList_ofList, List.take_length, ← hrest, BraceReading.of, BraceReading.of,
      BraceReading.run_append]
    exact BraceReading.stray_le_run rest _
  have hmiscount : t.miscount count = 0 := by
    rw [Statement.miscount, BraceReading.miscount]
    omega
  rw [hmiscount, Int.add_zero]

end ScriptedActors
