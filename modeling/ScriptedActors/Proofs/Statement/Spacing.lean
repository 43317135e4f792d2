import ScriptedActors.Proofs.Statement.Printing

set_option autoImplicit false

/-!
# Blanks between tokens

A text that ends outside strings and blocks is read apart from what follows it behind a blank: what
follows is read as if it stood alone. So it does not matter which blanks stand between such texts, and
how many.
-/
namespace ScriptedActors
open Text

namespace Token

def IsGap (text : String) : Prop := text.toList ≠ [] ∧ ∀ c ∈ text.toList, isBlank c = true

def IsComplete (text : String) : Prop := ∃ tokens, scan text = .ok tokens

/-- Texts that differ in nothing but the blanks behind complete parts of them. -/
inductive Respaced : String → String → Prop where
  | refl (text : String) : Respaced text text
  | gap {part gap other s t : String} : IsComplete part → IsGap gap → IsGap other → Respaced s t →
      Respaced (part ++ gap ++ s) (part ++ other ++ t)

namespace Lexer

def behind (earlier : List Token) (l : Lexer) : Lexer := ⟨l.ended ++ earlier, l.mode⟩

theorem begin_behind (earlier ended : List Token) (c : Char) :
    begin (ended ++ earlier) c = (begin ended c).behind earlier := by
  unfold begin
  split_ifs
  · rfl
  · rfl
  · rfl
  · rfl

theorem step_behind (earlier : List Token) (l : Lexer) (c : Char) :
    (l.behind earlier).step c = (l.step c).behind earlier := by
  obtain ⟨ended, mode⟩ := l
  cases mode with
  | between => exact begin_behind earlier ended c
  | word text =>
    by_cases hc : endsWord c = true
    · simp only [step, behind, hc, if_true]
      exact begin_behind earlier (endWord text :: ended) c
    · simp [step, behind, hc]
  | quoted text escaped =>
    simp only [step, behind, stepQuoted]
    split_ifs
    · rfl
    · rfl
    · rfl
    · rfl
  | block text depth inString escaped =>
    change (⟨ended ++ earlier, inBlock text ⟨depth, inString, escaped⟩⟩ : Lexer).step c =
      ((⟨ended, inBlock text ⟨depth, inString, escaped⟩⟩ : Lexer).step c).behind earlier
    rw [step_block, step_block]
    cases Nesting.step ⟨depth, inString, escaped⟩ c with
    | none => rfl
    | some m => rfl

theorem run_behind (earlier : List Token) (l : Lexer) (cs : List Char) :
    (l.behind earlier).run cs = (l.run cs).behind earlier := by
  induction cs generalizing l with
  | nil => rfl
  | cons c cs ih => rw [run_cons, run_cons, step_behind, ih]

theorem finish_behind (earlier : List Token) (l : Lexer) :
    (l.behind earlier).finish = l.finish.map (earlier.reverse ++ ·) := by
  obtain ⟨ended, mode⟩ := l
  cases mode with
  | between => simp [behind, finish, Except.map]
  | word text => simp [behind, finish, Except.map]
  | quoted text escaped => rfl
  | block text depth inString escaped => rfl

/-- A blank ends the token that goes on, if that may end. -/
theorem step_blank {l : Lexer} {tokens : List Token} (h : l.finish = .ok tokens) {c : Char}
    (hc : isBlank c = true) : l.step c = ⟨tokens.reverse, .between⟩ := by
  obtain ⟨ended, mode⟩ := l
  cases mode with
  | between =>
    cases h
    simp [step, begin, hc]
  | word text =>
    cases h
    simp [step, begin, endsWord, hc]
  | quoted text escaped => cases h
  | block text depth inString escaped => cases h

theorem run_gap {l : Lexer} {tokens : List Token} (h : l.finish = .ok tokens) {gap : List Char}
    (hgap : gap ≠ []) (hblank : ∀ c ∈ gap, isBlank c = true) :
    l.run gap = ⟨tokens.reverse, .between⟩ := by
  induction gap generalizing l with
  | nil => exact absurd rfl hgap
  | cons c cs ih =>
    obtain ⟨hc, hcs⟩ := List.forall_mem_cons.mp hblank
    rw [run_cons, step_blank h hc]
    cases cs with
    | nil => rfl
    | cons d ds =>
      refine ih ?_ (List.cons_ne_nil d ds) hcs
      rw [finish, List.reverse_reverse]

end Lexer

section Reading
variable {text gap : String} {tokens : List Token}

theorem run_append_gap (h : scan text = .ok tokens) (hgap : IsGap gap) (rest : String) :
    Lexer.initial.run (text ++ gap ++ rest).toList =
      (Lexer.initial.run rest.toList).behind tokens.reverse := by
  rw [String.toList_append, String.toList_append, Lexer.run_append, Lexer.run_append,
    Lexer.run_gap h hgap.1 hgap.2, ← Lexer.run_behind]
  rfl

theorem scan_append_gap (h : scan text = .ok tokens) (hgap : IsGap gap) (rest : String) :
    scan (text ++ gap ++ rest) = (scan rest).map (tokens ++ ·) := by
  rw [scan, run_append_gap h hgap, Lexer.finish_behind, List.reverse_reverse, scan]

theorem Respaced.scan_eq {s t : String} (h : Respaced s t) : scan s = scan t := by
  induction h with
  | refl text => rfl
  | gap hpart hgap hother _ ih =>
    obtain ⟨tokens, htokens⟩ := hpart
    rw [scan_append_gap htokens hgap, scan_append_gap htokens hother, ih]

end Reading

structure ReadApart (text : String) (tokens : List Token) : Prop where
  ok : ∀ gap rest more, IsGap gap → scan rest = .ok more → scan (text ++ gap ++ rest) = .ok (tokens ++ more)
  error : ∀ gap rest fault, IsGap gap → scan rest = .error fault →
    scan (text ++ gap ++ rest) = .error fault
  spacing : ∀ gap other s t, IsGap gap → IsGap other → Respaced s t →
    scan (text ++ gap ++ s) = scan (text ++ other ++ t)
  kept : ∀ gap rest, IsGap gap → Lexer.initial.run (text ++ gap ++ rest).toList =
    ⟨(Lexer.initial.run rest.toList).ended ++ tokens.reverse, (Lexer.initial.run rest.toList).mode⟩

/-- A complete text is read apart from whatever follows it behind a blank. -/
theorem readApart_of_scan {text : String} {tokens : List Token} (h : scan text = .ok tokens) :
    ReadApart text tokens where
  ok gap rest more hgap hrest := by
    rw [scan_append_gap h hgap, hrest]
    rfl
  error gap rest fault hgap hrest := by
    rw [scan_append_gap h hgap, hrest]
    rfl
  spacing gap other s t hgap hother hrespaced := by
    have hcomplete : IsComplete text := ⟨tokens, h⟩
    exact (Respaced.gap hcomplete hgap hother hrespaced).scan_eq
  kept gap rest hgap := run_append_gap h hgap rest

/-- Behind a block with a brace in a string and a word that would go on, a line feed and a no-break
space, and then a block that is not closed. -/
theorem readApart_unclosed_rest :
    let text := "listen \"a b\" \x7blog \"\x7d\"\x7dx"
    let tokens : List Token := [.word "listen", .quoted "a b", .block "log \"\x7d\"", .word "x"]
    let gap := "\n\u00a0"
    scan text = .ok tokens ∧ IsGap gap ∧ ReadApart text tokens ∧
      scan (text ++ gap ++ "y") = .ok (tokens ++ [.word "y"]) ∧
      scan (text ++ gap ++ "y\x7b") = .error .unterminatedBlock := by
  intro text tokens gap
  have hscan : scan text = .ok tokens := by decide
  have hgap : IsGap gap := by
    refine ⟨by decide, ?_⟩
    intro c hc
    have hmem : c = '\n' ∨ c = '\u00a0' := by simpa [gap] using hc
    rcases hmem with rfl | rfl
    · decide
    · decide
  have hread := readApart_of_scan hscan
  have hy : scan "y" = .ok [.word "y"] := by decide
  have hopen : scan "y\x7b" = .error .unterminatedBlock := by decide
  exact ⟨hscan, hgap, hread, hread.ok gap "y" _ hgap hy, hread.error gap _ _ hgap hopen⟩

end Token
end ScriptedActors
