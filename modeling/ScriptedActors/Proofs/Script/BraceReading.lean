import Mathlib
import ScriptedActors.Script.Statements
import ScriptedActors.Statement.Token

set_option autoImplicit false

/-!
# Two readings of the braces of a text

Tokens read a text as a whole: a string goes on over a line feed, and a closing brace outside all
blocks is part of a word. A script counts the braces of each line by itself: no string reaches
beyond its line, and every closing brace outside a string counts. `BraceReading` follows both
readings at once and keeps what the second one miscounts, so the open blocks of a text are the
braces that its lines count plus the miscount.
-/
namespace ScriptedActors
open Text

structure StringState where
  inString : Bool
  escaped : Bool
deriving DecidableEq

namespace StringState

def outside : StringState := ⟨false, false⟩

def step (s : StringState) (c : Char) : StringState :=
  if s.escaped then { s with escaped := false }
  else if s.inString then ⟨c != '"', c == '\\'⟩
  else ⟨c == '"', false⟩

def value (s : StringState) (c : Char) : Int :=
  if s.escaped || s.inString then 0 else if c = '{' then 1 else if c = '}' then -1 else 0

end StringState

structure BraceReading where
  whole : StringState
  line : StringState
  depth : Nat
  counted : Int
  stray : Nat
  /-- Braces that only the whole text shows outside strings, less those that only a line shows
  there. -/
  carried : Int

namespace BraceReading

def initial : BraceReading := ⟨.outside, .outside, 0, 0, 0, 0⟩

def step (r : BraceReading) (c : Char) : BraceReading where
  whole := r.whole.step c
  line := if c = '\n' then .outside else r.line.step c
  depth := (r.depth + r.whole.value c).toNat
  counted := r.counted + r.line.value c
  stray := if r.depth + r.whole.value c < 0 then r.stray + 1 else r.stray
  carried := r.carried + (r.whole.value c - r.line.value c)

def run (r : BraceReading) (cs : List Char) : BraceReading := cs.foldl step r

def of (cs : List Char) : BraceReading := initial.run cs

/-- What the lines miscount: a stray brace is one too few, and a brace that a string carried over a
line feed hides or shows is one too many or too few. -/
def miscount (r : BraceReading) : Int := r.stray + r.carried

theorem run_append (r : BraceReading) (cs ds : List Char) : r.run (cs ++ ds) = (r.run cs).run ds := by
  simp [run]

theorem run_cons (r : BraceReading) (c : Char) (cs : List Char) :
    r.run (c :: cs) = (r.step c).run cs := rfl

end BraceReading

theorem StringState.value_bounds (s : StringState) (c : Char) : -1 ≤ s.value c ∧ s.value c ≤ 1 := by
  unfold value
  split_ifs <;> omega

namespace BraceReading

def Accounts (r : BraceReading) : Prop := (r.depth : Int) = r.counted + r.miscount

theorem step_accounts (r : BraceReading) (c : Char) (h : r.Accounts) : (r.step c).Accounts := by
  unfold Accounts miscount at *
  have hv := r.whole.value_bounds c
  simp only [step]
  split_ifs with hneg <;> omega

theorem run_accounts (cs : List Char) (r : BraceReading) (h : r.Accounts) : (r.run cs).Accounts := by
  induction cs generalizing r with
  | nil => exact h
  | cons c cs ih => exact ih (r.step c) (step_accounts r c h)

theorem depth_of (cs : List Char) : ((of cs).depth : Int) = (of cs).counted + (of cs).miscount :=
  run_accounts cs initial rfl

/-- What a lexer and the reading of the whole text know of each other. -/
def Follows (r : BraceReading) : Token.Mode → Prop
  | .between | .word _ => r.depth = 0 ∧ r.whole = .outside
  | .quoted _ escaped => r.depth = 0 ∧ r.whole = ⟨true, escaped⟩
  | .block _ depth inString escaped =>
    r.depth = depth + 1 ∧ r.whole = ⟨inString, escaped⟩

theorem begin_follows (r : BraceReading) (ended : List Token) (c : Char) (hd : r.depth = 0)
    (hw : r.whole = .outside) : (r.step c).Follows (Token.Lexer.begin ended c).mode := by
  have hs : (r.step c).whole = ⟨c == '"', false⟩ := by simp [step, hw, StringState.step, StringState.outside]
  have hn : (r.step c).depth = (if c = '{' then 1 else 0) := by
    simp only [step, hd, hw, StringState.value, StringState.outside]
    split_ifs <;> simp_all
  unfold Token.Lexer.begin
  split_ifs with hb hq ho
  · have hq : c ≠ '"' := by rintro rfl; exact absurd hb (by decide)
    have ho : c ≠ '{' := by rintro rfl; exact absurd hb (by decide)
    exact ⟨by rw [hn, if_neg ho], by rw [hs]; simp [hq, StringState.outside]⟩
  · subst hq
    exact ⟨by rw [hn]; decide, by rw [hs]; rfl⟩
  · subst ho
    exact ⟨by rw [hn]; decide, by rw [hs]; rfl⟩
  · exact ⟨by rw [hn, if_neg ho], by rw [hs]; simp [hq, StringState.outside]⟩

theorem word_follows (r : BraceReading) (c : Char) (text : List Char) (hd : r.depth = 0)
    (hw : r.whole = .outside) (hc : Token.Lexer.endsWord c = false) :
    (r.step c).Follows (.word text) := by
  simp only [Token.Lexer.endsWord, Bool.or_eq_false_iff, beq_eq_false_iff_ne] at hc
  obtain ⟨⟨-, hq⟩, ho⟩ := hc
  refine ⟨?_, ?_⟩
  · simp only [step, hd, hw, StringState.value, StringState.outside, ho]
    split_ifs <;> simp_all
  · simp [step, hw, StringState.step, StringState.outside, hq]

theorem quoted_follows (r : BraceReading) (ended : List Token) (text : List Char) (escaped : Bool)
    (c : Char) (hd : r.depth = 0) (hw : r.whole = ⟨true, escaped⟩) :
    (r.step c).Follows (Token.Lexer.stepQuoted ended text escaped c).mode := by
  have hn : (r.step c).depth = 0 := by simp [step, hd, hw, StringState.value]
  unfold Token.Lexer.stepQuoted
  split_ifs with he hb hq
  · exact ⟨hn, by simp [step, hw, StringState.step, he]⟩
  · exact ⟨hn, by simp [step, hw, StringState.step, he, hb]⟩
  · exact ⟨hn, by simp [step, hw, StringState.step, he, hq, StringState.outside]⟩
  · exact ⟨hn, by simp [step, hw, StringState.step, he, hb, hq]⟩

theorem block_follows (r : BraceReading) (ended : List Token) (text : List Char) (depth : Nat)
    (inString escaped : Bool) (c : Char) (hd : r.depth = depth + 1)
    (hw : r.whole = ⟨inString, escaped⟩) :
    (r.step c).Follows (Token.Lexer.stepBlock ended text depth inString escaped c).mode := by
  unfold Token.Lexer.stepBlock
  split_ifs with he hi hq ho hc
  · refine ⟨?_, by simp [step, hw, StringState.step, he]⟩
    simp only [step, hd, hw, StringState.value, he, Bool.true_or, if_true]
    omega
  · refine ⟨?_, by simp [step, hw, StringState.step, he, hi]⟩
    simp only [step, hd, hw, StringState.value, hi, Bool.or_true, if_true]
    omega
  · refine ⟨?_, by simp [step, hw, StringState.step, he, hi, hq]⟩
    simp only [step, hd, hw, StringState.value, he, hi, hq]
    simp
  · refine ⟨?_, by simp [step, hw, StringState.step, he, hi, ho]⟩
    simp only [step, hd, hw, StringState.value, he, hi, ho]
    simp
    omega
  · have hw' : (r.step c).whole = .outside := by
      simp [step, hw, StringState.step, he, hi, hc, StringState.outside]
    have hvalue : r.whole.value c = -1 := by simp [hw, StringState.value, he, hi, hc]
    have hn : (r.step c).depth = depth := by
      change (r.depth + r.whole.value c).toNat = depth
      rw [hd, hvalue]
      omega
    cases depth with
    | zero => exact ⟨hn, hw'⟩
    | succ depth => exact ⟨hn, hw'⟩
  · refine ⟨?_, by simp [step, hw, StringState.step, he, hi, hq]⟩
    simp only [step, hd, hw, StringState.value, he, hi, ho, hc]
    simp

theorem step_follows (r : BraceReading) (l : Token.Lexer) (c : Char) (h : r.Follows l.mode) :
    (r.step c).Follows (l.step c).mode := by
  unfold Token.Lexer.step
  cases hm : l.mode with
  | between =>
    rw [hm] at h
    exact begin_follows r l.ended c h.1 h.2
  | word text =>
    rw [hm] at h
    dsimp only
    cases hc : Token.Lexer.endsWord c with
    | true => exact begin_follows r _ c h.1 h.2
    | false => exact word_follows r c _ h.1 h.2 hc
  | quoted text escaped =>
    rw [hm] at h
    exact quoted_follows r l.ended text escaped c h.1 h.2
  | block text depth inString escaped =>
    rw [hm] at h
    exact block_follows r l.ended text depth inString escaped c h.1 h.2

theorem run_follows (cs : List Char) (r : BraceReading) (l : Token.Lexer) (h : r.Follows l.mode) :
    (r.run cs).Follows (l.run cs).mode := by
  induction cs generalizing r l with
  | nil => exact h
  | cons c cs ih => exact ih (r.step c) (l.step c) (step_follows r l c h)

/-- A text has an open block exactly if its reading has. -/
theorem hasOpenBlock_iff (text : String) : Token.hasOpenBlock text ↔ 0 < (of text.toList).depth := by
  have h : (of text.toList).Follows (Token.Lexer.initial.run text.toList).mode :=
    run_follows text.toList initial Token.Lexer.initial ⟨rfl, rfl⟩
  unfold Token.hasOpenBlock Token.scan Token.Lexer.finish
  cases hm : (Token.Lexer.initial.run text.toList).mode with
  | between | word _ | quoted _ _ =>
    rw [hm] at h
    simp [h.1]
  | block text depth inString escaped =>
    rw [hm] at h
    simp [h.1]

theorem braceCount_step (b : BraceCount) (c : Char) :
    b.step c = ⟨b.depth + StringState.value ⟨b.inString, b.escaped⟩ c,
      (StringState.step ⟨b.inString, b.escaped⟩ c).inString,
      (StringState.step ⟨b.inString, b.escaped⟩ c).escaped⟩ := by
  obtain ⟨depth, inString, escaped⟩ := b
  simp only [BraceCount.step, StringState.value, StringState.step]
  split_ifs
  all_goals simp_all
  all_goals omega

theorem value_newline (s : StringState) : s.value '\n' = 0 := by
  unfold StringState.value
  split_ifs with h ho hc
  · rfl
  · exact absurd ho (by decide)
  · exact absurd hc (by decide)
  · rfl

theorem run_counted (line : List Char) (r : BraceReading) (b : BraceCount) (h : '\n' ∉ line)
    (hr : r.line = ⟨b.inString, b.escaped⟩) :
    (r.run line).counted = r.counted + ((line.foldl BraceCount.step b).depth - b.depth) := by
  induction line generalizing r b with
  | nil => simp [run]
  | cons c line ih =>
    obtain ⟨hc, hline⟩ := not_or.mp (mt List.mem_cons.mpr h)
    have hb := braceCount_step b c
    have hstep : (r.step c).line = ⟨(b.step c).inString, (b.step c).escaped⟩ := by
      simp [step, Ne.symm hc, hr, hb]
    have hcount : (r.step c).counted = r.counted + ((b.step c).depth - b.depth) := by
      simp only [step, hr, hb]
      omega
    rw [run_cons, ih (r.step c) (b.step c) hline hstep, hcount, List.foldl_cons]
    omega

theorem run_lines_counted (lines : List (List Char)) (r : BraceReading)
    (h : ∀ line ∈ lines, '\n' ∉ line) (hr : r.line = .outside) :
    (r.run (['\n'].intercalate lines)).counted = r.counted + (lines.map braceBalance).sum := by
  induction lines generalizing r with
  | nil => simp [run]
  | cons line lines ih =>
    have hline : (r.run line).counted = r.counted + braceBalance line := by
      rw [run_counted line r ⟨0, false, false⟩ (h line List.mem_cons_self) hr, Int.sub_zero]
      rfl
    cases lines with
    | nil =>
      rw [List.intercalate_singleton, hline, List.map_singleton, List.sum_singleton]
    | cons next rest =>
      have hrest := ih ((r.run line).step '\n') (fun l hl => h l (List.mem_cons_of_mem _ hl)) (by simp [step])
      have hnewline : ((r.run line).step '\n').counted = (r.run line).counted := by
        simp [step, value_newline]
      rw [List.intercalate_cons_cons, List.append_assoc, List.singleton_append, run_append, run_cons,
        hrest, hnewline, hline]
      simp only [List.map_cons, List.sum_cons]
      omega

theorem counted_of_lines (lines : List (List Char)) (h : ∀ line ∈ lines, '\n' ∉ line) :
    (of (['\n'].intercalate lines)).counted = (lines.map braceBalance).sum := by
  have hr := run_lines_counted lines initial h rfl
  rw [of, hr]
  exact Int.zero_add _

theorem stray_le_step (r : BraceReading) (c : Char) : r.stray ≤ (r.step c).stray := by
  simp only [step]
  split_ifs <;> omega

theorem stray_le_run (cs : List Char) (r : BraceReading) : r.stray ≤ (r.run cs).stray := by
  induction cs generalizing r with
  | nil => exact Nat.le_refl _
  | cons c cs ih => exact Nat.le_trans (stray_le_step r c) (ih (r.step c))

theorem run_line_carried (line : List Char) (r : BraceReading) (h : '\n' ∉ line)
    (hr : r.whole = r.line) : (r.run line).carried = r.carried := by
  induction line generalizing r with
  | nil => rfl
  | cons c line ih =>
    obtain ⟨hc, hline⟩ := not_or.mp (mt List.mem_cons.mpr h)
    rw [run_cons, ih (r.step c) hline (by simp [step, Ne.symm hc, hr])]
    simp [step, hr]

/-- Nothing is carried where every line but the last ends outside strings. -/
theorem run_lines_carried (lines : List (List Char)) (r : BraceReading)
    (h : ∀ line ∈ lines, '\n' ∉ line) (hw : r.whole = .outside) (hl : r.line = .outside)
    (hends : ∀ count, 0 < count → count < lines.length →
      (r.run (['\n'].intercalate (lines.take count))).whole = .outside) :
    (r.run (['\n'].intercalate lines)).carried = r.carried := by
  induction lines generalizing r with
  | nil => rfl
  | cons line lines ih =>
    have hline := run_line_carried line r (h line List.mem_cons_self) (hw.trans hl.symm)
    cases lines with
    | nil => rw [List.intercalate_singleton, hline]
    | cons next rest =>
      have hout : (r.run line).whole = .outside := by
        simpa using hends 1 Nat.one_pos (by simp)
      have hfeed : ((r.run line).step '\n').whole = .outside := by
        rw [step, hout]
        rfl
      rw [List.intercalate_cons_cons, List.append_assoc, List.singleton_append, run_append, run_cons,
        ih ((r.run line).step '\n') (fun l hl => h l (List.mem_cons_of_mem _ hl)) hfeed (by simp [step])]
      · simp [step, value_newline, hline]
      · intro count h0 h1
        obtain ⟨count, rfl⟩ := Nat.exists_eq_succ_of_ne_zero (Nat.pos_iff_ne_zero.mp h0)
        have hlater := hends (count + 2) (by omega) (by simpa using h1)
        rw [List.take_succ_cons, List.take_succ_cons, List.intercalate_cons_cons, List.append_assoc,
          List.singleton_append, run_append, run_cons] at hlater
        rw [List.take_succ_cons]
        exact hlater

end BraceReading
end ScriptedActors
