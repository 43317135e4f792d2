import ScriptedActors.Proofs.Script.BraceReading
import ScriptedActors.Proofs.Text.Pieces

set_option autoImplicit false

/-!
# Tokens as text

Tokens with single spaces between them are a text that has exactly these tokens, if every word is
one that could have been read and every block is trimmed and balanced. The tokens of any text are
of this form.
-/
namespace ScriptedActors
open Text

structure Nesting where
  depth : Nat
  strings : StringState
deriving DecidableEq

namespace Nesting

def start : Nesting := ⟨0, .outside⟩

/-- Read a character, unless it closes a brace that is not open. -/
def step (n : Nesting) (c : Char) : Option Nesting :=
  if n.strings.escaped || n.strings.inString then some ⟨n.depth, n.strings.step c⟩
  else if c = '{' then some ⟨n.depth + 1, n.strings⟩
  else if c = '}' then
    match n.depth with
    | 0 => none
    | depth + 1 => some ⟨depth, n.strings⟩
  else some ⟨n.depth, n.strings.step c⟩

def run (n : Nesting) (cs : List Char) : Option Nesting := cs.foldlM step n

theorem run_nil (n : Nesting) : n.run [] = some n := rfl

theorem run_cons (n : Nesting) (c : Char) (cs : List Char) :
    n.run (c :: cs) = (n.step c).bind fun m => m.run cs := rfl

theorem run_append (n : Nesting) (cs ds : List Char) :
    n.run (cs ++ ds) = (n.run cs).bind fun m => m.run ds := by
  simp [run, List.foldlM_append]

end Nesting

/-- No brace closes one that is not open, and neither a brace nor a string is left open. -/
def Balanced (cs : List Char) : Prop := Nesting.start.run cs = some Nesting.start

instance (cs : List Char) : Decidable (Balanced cs) := inferInstanceAs (Decidable (_ = _))

namespace Token

def IsBare (cs : List Char) : Prop := cs ≠ [] ∧ ∀ c ∈ cs, Lexer.endsWord c = false

def WellFormed : Token → Prop
  | .word text => IsBare text.toList
  | .quoted _ => True
  | .block text => trimChars text.toList = text.toList ∧ Balanced text.toList

def escape (c : Char) : List Char := if c = '"' ∨ c = '\\' then ['\\', c] else [c]

def quote (cs : List Char) : List Char := '"' :: (cs.flatMap escape ++ ['"'])

def print : Token → List Char
  | .word text => text.toList
  | .quoted text => quote text.toList
  | .block text => '{' :: (text.toList ++ ['}'])

def printAll (tokens : List Token) : String := String.ofList ([' '].intercalate (tokens.map print))

namespace Lexer

theorem run_word (ended : List Token) (text cs : List Char) (h : ∀ c ∈ cs, endsWord c = false) :
    (⟨ended, .word text⟩ : Lexer).run cs = ⟨ended, .word (cs.reverse ++ text)⟩ := by
  induction cs generalizing text with
  | nil => rfl
  | cons c cs ih =>
    have hc := h c List.mem_cons_self
    have hcs : ∀ d ∈ cs, endsWord d = false := fun d hd => h d (List.mem_cons_of_mem c hd)
    rw [run_cons, step]
    simp only [hc, Bool.false_eq_true, if_false]
    rw [ih (c :: text) hcs, List.reverse_cons, List.append_assoc]
    rfl

theorem run_escape (ended : List Token) (text : List Char) (c : Char) :
    (⟨ended, .quoted text false⟩ : Lexer).run (escape c) = ⟨ended, .quoted (c :: text) false⟩ := by
  by_cases hc : c = '"' ∨ c = '\\'
  · rw [escape, if_pos hc]
    rcases hc with rfl | rfl <;> rfl
  · rw [escape, if_neg hc]
    obtain ⟨hquote, hbackslash⟩ := not_or.mp hc
    simp [run, step, stepQuoted, hquote, hbackslash]

theorem run_quoted (ended : List Token) (text cs : List Char) :
    (⟨ended, .quoted text false⟩ : Lexer).run (cs.flatMap escape) =
      ⟨ended, .quoted (cs.reverse ++ text) false⟩ := by
  induction cs generalizing text with
  | nil => rfl
  | cons c cs ih =>
    rw [List.flatMap_cons, run_append, run_escape, ih, List.reverse_cons, List.append_assoc]
    rfl

def inBlock (text : List Char) (n : Nesting) : Mode :=
  .block text n.depth n.strings.inString n.strings.escaped

theorem step_block (ended : List Token) (text : List Char) (n : Nesting) (c : Char) :
    (⟨ended, inBlock text n⟩ : Lexer).step c =
      match n.step c with
      | some m => ⟨ended, inBlock (c :: text) m⟩
      | none => ⟨endBlock text :: ended, .between⟩ := by
  obtain ⟨depth, inString, escaped⟩ := n
  simp only [step, inBlock, stepBlock, Nesting.step, StringState.step]
  cases escaped with
  | true => simp
  | false =>
    cases inString with
    | true => simp
    | false =>
      by_cases hquote : c = '"'
      · subst hquote
        simp
      · by_cases hopen : c = '{'
        · subst hopen
          simp
        · by_cases hclose : c = '}'
          · subst hclose
            cases depth with
            | zero => simp
            | succ depth => simp
          · simp [hquote, hopen, hclose]

theorem run_block (ended : List Token) (text cs : List Char) (n m : Nesting) (h : n.run cs = some m) :
    (⟨ended, inBlock text n⟩ : Lexer).run cs = ⟨ended, inBlock (cs.reverse ++ text) m⟩ := by
  induction cs generalizing n text with
  | nil =>
    rw [Nesting.run_nil] at h
    cases h
    rfl
  | cons c cs ih =>
    rw [Nesting.run_cons] at h
    obtain ⟨middle, hstep, hrun⟩ := Option.bind_eq_some_iff.mp h
    rw [run_cons, step_block, hstep]
    dsimp only
    rw [ih (c :: text) middle hrun, List.reverse_cons, List.append_assoc]
    rfl

/-- A lexer that has read some tokens, the last of which may still go on. -/
structure Settles (l : Lexer) (ended : List Token) : Prop where
  finish : l.finish = .ok ended.reverse
  space : l.step ' ' = ⟨ended, .between⟩

theorem settles_between (ended : List Token) : Settles ⟨ended, .between⟩ ended := ⟨rfl, rfl⟩

theorem settles_word (ended : List Token) (text : String) (h : IsBare text.toList) :
    Settles ((⟨ended, .between⟩ : Lexer).run text.toList) (.word text :: ended) := by
  obtain ⟨hne, hbare⟩ := h
  cases hcs : text.toList with
  | nil => exact absurd hcs hne
  | cons c cs =>
    rw [hcs] at hbare
    have hfirst := hbare c List.mem_cons_self
    simp only [endsWord, Bool.or_eq_false_iff, beq_eq_false_iff_ne] at hfirst
    obtain ⟨⟨hblank, hquote⟩, hopen⟩ := hfirst
    have hbegin : (⟨ended, .between⟩ : Lexer).step c = ⟨ended, .word [c]⟩ := by
      simp [step, begin, hblank, hquote, hopen]
    have hrun : (⟨ended, .between⟩ : Lexer).run (c :: cs) = ⟨ended, .word (cs.reverse ++ [c])⟩ := by
      rw [run_cons, hbegin, run_word ended [c] cs fun d hd => hbare d (List.mem_cons_of_mem c hd)]
    have hword : endWord (cs.reverse ++ [c]) = .word text := by
      rw [endWord, List.reverse_append, List.reverse_reverse]
      exact congrArg Token.word (String.toList_inj.mp (by simp [hcs]))
    rw [hrun]
    refine ⟨?_, ?_⟩
    · change Except.ok (endWord _ :: ended).reverse = _
      rw [hword]
    · change begin (endWord _ :: ended) ' ' = _
      rw [hword]
      rfl

theorem run_quote (ended : List Token) (text : String) :
    (⟨ended, .between⟩ : Lexer).run (quote text.toList) = ⟨.quoted text :: ended, .between⟩ := by
  rw [quote, run_cons, run_append]
  change ((⟨ended, .quoted [] false⟩ : Lexer).run _).run ['"'] = _
  rw [run_quoted, List.append_nil]
  change (⟨endQuoted text.toList.reverse :: ended, .between⟩ : Lexer) = _
  rw [endQuoted, List.reverse_reverse, String.ofList_toList]

theorem run_braces (ended : List Token) (text : String) (htrimmed : trimChars text.toList = text.toList)
    (hbalanced : Balanced text.toList) : (⟨ended, .between⟩ : Lexer).run ('{' :: (text.toList ++ ['}'])) =
      ⟨.block text :: ended, .between⟩ := by
  rw [run_cons, run_append]
  change ((⟨ended, inBlock [] .start⟩ : Lexer).run _).run ['}'] = _
  rw [run_block ended [] text.toList .start .start hbalanced, List.append_nil]
  change (⟨endBlock text.toList.reverse :: ended, .between⟩ : Lexer) = _
  rw [endBlock, List.reverse_reverse, htrimmed, String.ofList_toList]

theorem settles_print (ended : List Token) (t : Token) (h : t.WellFormed) :
    Settles ((⟨ended, .between⟩ : Lexer).run t.print) (t :: ended) := by
  cases t with
  | word text => exact settles_word ended text h
  | quoted text =>
    rw [print, run_quote]
    exact settles_between _
  | block text =>
    rw [print, run_braces ended text h.1 h.2]
    exact settles_between _

theorem settles_printAll (tokens ended : List Token) (h : ∀ t ∈ tokens, t.WellFormed) :
    Settles ((⟨ended, .between⟩ : Lexer).run ([' '].intercalate (tokens.map print)))
      (tokens.reverse ++ ended) := by
  induction tokens generalizing ended with
  | nil => exact settles_between ended
  | cons t tokens ih =>
    have ht := settles_print ended t (h t List.mem_cons_self)
    cases tokens with
    | nil => simpa using ht
    | cons next rest =>
      have hrest := ih (t :: ended) fun u hu => h u (List.mem_cons_of_mem t hu)
      rw [List.map_cons, List.map_cons, List.intercalate_cons_cons, run_append, run_append]
      change Settles ((((⟨ended, .between⟩ : Lexer).run t.print).step ' ').run _) _
      rw [ht.space]
      simpa using hrest

end Lexer

theorem scan_printAll (tokens : List Token) (h : ∀ t ∈ tokens, t.WellFormed) :
    scan (printAll tokens) = .ok tokens := by
  have hsettles := (Lexer.settles_printAll tokens [] h).finish
  rw [List.append_nil, List.reverse_reverse] at hsettles
  rw [scan, printAll, String.toList_ofList]
  exact hsettles

end Token

namespace Nesting

theorem step_blank (n : Nesting) (c : Char) (hc : isBlank c = true) :
    ∃ strings, n.step c = some ⟨n.depth, strings⟩ ∧ strings.inString = n.strings.inString ∧
      (n.strings = .outside → strings = .outside) := by
  have hquote : c ≠ '"' := by
    rintro rfl
    exact absurd hc (by decide)
  have hopen : c ≠ '{' := by
    rintro rfl
    exact absurd hc (by decide)
  have hclose : c ≠ '}' := by
    rintro rfl
    exact absurd hc (by decide)
  obtain ⟨depth, inString, escaped⟩ := n
  simp only [step, StringState.step, hopen, hclose, if_false]
  cases escaped with
  | true => exact ⟨_, rfl, rfl, by simp [StringState.outside]⟩
  | false =>
    cases inString with
    | true => exact ⟨_, rfl, by simp [hquote], by simp [StringState.outside]⟩
    | false => exact ⟨_, rfl, by simp [hquote], by simp [StringState.outside, hquote]⟩

theorem run_blanks (cs : List Char) (n : Nesting) (hcs : ∀ c ∈ cs, isBlank c = true) :
    ∃ strings, n.run cs = some ⟨n.depth, strings⟩ ∧ strings.inString = n.strings.inString ∧
      (n.strings = .outside → strings = .outside) := by
  induction cs generalizing n with
  | nil => exact ⟨n.strings, rfl, rfl, id⟩
  | cons c cs ih =>
    obtain ⟨first, hfirst, hin, hout⟩ := step_blank n c (hcs c List.mem_cons_self)
    obtain ⟨last, hlast, hin', hout'⟩ := ih ⟨n.depth, first⟩ fun d hd => hcs d (List.mem_cons_of_mem c hd)
    refine ⟨last, ?_, hin'.trans hin, fun h => hout' (hout h)⟩
    rw [run_cons, hfirst]
    exact hlast

theorem eq_start_of_step {n : Nesting} {c : Char} (h : n.step c = none) : n = start := by
  obtain ⟨depth, inString, escaped⟩ := n
  simp only [step] at h
  split at h
  · cases h
  · split at h
    · cases h
    · split at h
      · cases depth with
        | zero => simp_all [start, StringState.outside]
        | succ depth => cases h
      · cases h

def Regular (n : Nesting) : Prop := n.strings.escaped = true → n.strings.inString = true

theorem step_regular {n m : Nesting} {c : Char} (hn : n.Regular) (h : n.step c = some m) : m.Regular := by
  obtain ⟨depth, inString, escaped⟩ := n
  simp only [Regular, step, StringState.step] at *
  split at h
  · cases h
    cases escaped <;> cases inString <;> simp_all
  · split at h
    · cases h
      exact hn
    · split at h
      · cases depth with
        | zero => cases h
        | succ depth =>
          cases h
          exact hn
      · cases h
        simp_all

theorem run_regular {cs : List Char} {n m : Nesting} (hn : n.Regular) (h : n.run cs = some m) :
    m.Regular := by
  induction cs generalizing n with
  | nil =>
    cases h
    exact hn
  | cons c cs ih =>
    obtain ⟨middle, hstep, hrun⟩ := Option.bind_eq_some_iff.mp h
    exact ih (step_regular hn hstep) hrun

end Nesting

/-- A string that is open in front of blanks is open behind them, so a balanced text stays balanced
without the blanks at its ends. -/
theorem Balanced.trimChars {cs : List Char} (h : Balanced cs) : Balanced (trimChars cs) := by
  obtain ⟨front, back, hcs, hfront, hback⟩ := exists_blanks_trimChars cs
  obtain ⟨strings, hrun, -, hout⟩ := Nesting.run_blanks front .start hfront
  rw [Balanced, hcs, Nesting.run_append, hrun, hout rfl] at h
  change Nesting.start.run (Text.trimChars cs ++ back) = _ at h
  rw [Nesting.run_append] at h
  obtain ⟨n, hn, hlast⟩ := Option.bind_eq_some_iff.mp h
  obtain ⟨strings', hrun', hin, -⟩ := Nesting.run_blanks back n hback
  rw [hrun'] at hlast
  have hregular := Nesting.run_regular (by simp [Nesting.Regular, Nesting.start, StringState.outside]) hn
  obtain ⟨depth, inString, escaped⟩ := n
  cases hlast
  cases escaped with
  | true => exact absurd (hin.trans (hregular rfl)) (by decide)
  | false =>
    cases inString with
    | true => exact absurd hin (by decide)
    | false => exact hn

namespace Token

namespace Lexer

/-- The tokens that ended are well formed, and the one that goes on can still become so. -/
def Sound (l : Lexer) : Prop :=
  (∀ t ∈ l.ended, t.WellFormed) ∧
    match l.mode with
    | .between | .quoted .. => True
    | .word text => IsBare text.reverse
    | .block text depth inString escaped =>
      Nesting.start.run text.reverse = some ⟨depth, inString, escaped⟩

theorem sound_cons {ended : List Token} (hended : ∀ t ∈ ended, t.WellFormed) {t : Token}
    (ht : t.WellFormed) : ∀ u ∈ t :: ended, u.WellFormed := by
  intro u hu
  rcases List.mem_cons.mp hu with rfl | hu
  · exact ht
  · exact hended u hu

theorem begin_sound {ended : List Token} (hended : ∀ t ∈ ended, t.WellFormed) (c : Char) :
    (begin ended c).Sound := by
  unfold begin
  split
  · exact ⟨hended, trivial⟩
  · split
    · exact ⟨hended, trivial⟩
    · split
      · exact ⟨hended, rfl⟩
      · refine ⟨hended, by simp, ?_⟩
        simp_all [endsWord]

theorem endWord_wellFormed {text : List Char} (h : IsBare text.reverse) : (endWord text).WellFormed := by
  rw [endWord, WellFormed, String.toList_ofList]
  exact h

theorem endBlock_wellFormed {text : List Char} (h : Balanced text.reverse) :
    (endBlock text).WellFormed := by
  rw [endBlock, WellFormed, String.toList_ofList]
  exact ⟨trimChars_trimChars _, h.trimChars⟩

theorem step_sound {l : Lexer} (h : l.Sound) (c : Char) : (l.step c).Sound := by
  obtain ⟨ended, mode⟩ := l
  obtain ⟨hended, hmode⟩ := h
  cases mode with
  | between => exact begin_sound hended c
  | word text =>
    change (if endsWord c = true then begin (endWord text :: ended) c
      else ⟨ended, .word (c :: text)⟩ : Lexer).Sound
    by_cases hc : endsWord c = true
    · rw [if_pos hc]
      exact begin_sound (sound_cons hended (endWord_wellFormed hmode)) c
    · rw [if_neg hc]
      refine ⟨hended, by simp, ?_⟩
      intro d hd
      rw [List.reverse_cons, List.mem_append, List.mem_singleton] at hd
      rcases hd with hd | rfl
      · exact hmode.2 d hd
      · simpa using hc
  | quoted text escaped =>
    simp only [step, stepQuoted]
    split
    · exact ⟨hended, trivial⟩
    · split
      · exact ⟨hended, trivial⟩
      · split
        · exact ⟨sound_cons hended trivial, trivial⟩
        · exact ⟨hended, trivial⟩
  | block text depth inString escaped =>
    rw [show (⟨ended, .block text depth inString escaped⟩ : Lexer) =
      ⟨ended, inBlock text ⟨depth, inString, escaped⟩⟩ from rfl, step_block]
    cases hstep : Nesting.step ⟨depth, inString, escaped⟩ c with
    | some m =>
      refine ⟨hended, ?_⟩
      change Nesting.start.run (c :: text).reverse = some m
      rw [List.reverse_cons, Nesting.run_append, hmode]
      change (Nesting.step ⟨depth, inString, escaped⟩ c).bind _ = _
      rw [hstep]
      rfl
    | none =>
      dsimp only at hmode
      rw [Nesting.eq_start_of_step hstep] at hmode
      exact ⟨sound_cons hended (endBlock_wellFormed hmode), trivial⟩

theorem run_sound (cs : List Char) {l : Lexer} (h : l.Sound) : (l.run cs).Sound := by
  induction cs generalizing l with
  | nil => exact h
  | cons c cs ih => exact ih (step_sound h c)

end Lexer

theorem wellFormed_of_scan {text : String} {tokens : List Token} (h : scan text = .ok tokens) :
    ∀ t ∈ tokens, t.WellFormed := by
  have hsound : (Lexer.initial.run text.toList).Sound := Lexer.run_sound _ ⟨by simp [Lexer.initial], trivial⟩
  rw [scan] at h
  generalize Lexer.initial.run text.toList = l at h hsound
  obtain ⟨ended, mode⟩ := l
  obtain ⟨hended, hmode⟩ := hsound
  cases mode with
  | between =>
    cases h
    simpa using hended
  | word text =>
    cases h
    intro t ht
    exact Lexer.sound_cons hended (Lexer.endWord_wellFormed hmode) t (List.mem_reverse.mp ht)
  | quoted text escaped => cases h
  | block text depth inString escaped => cases h

/-- Tokens are read back from their text exactly if they are well formed, and the tokens of any text
are. -/
theorem scan_retracts :
    (∀ tokens, scan (printAll tokens) = .ok tokens ↔ ∀ t ∈ tokens, t.WellFormed) ∧
      ∀ text tokens, scan text = .ok tokens →
        (∀ t ∈ tokens, t.WellFormed) ∧ scan (printAll tokens) = .ok tokens := by
  refine ⟨?_, ?_⟩
  · intro tokens
    exact ⟨wellFormed_of_scan, scan_printAll tokens⟩
  · intro text tokens h
    have hwellFormed := wellFormed_of_scan h
    exact ⟨hwellFormed, scan_printAll tokens hwellFormed⟩

end Token
end ScriptedActors
