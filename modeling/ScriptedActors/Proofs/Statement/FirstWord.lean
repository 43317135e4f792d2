import ScriptedActors.Proofs.Statement.Printing

set_option autoImplicit false

/-!
# The first word of a text

Where the first token of a text is a bare word, the text starts with that word behind blanks, and
the word goes on to the first character that ends words.
-/
namespace ScriptedActors
open Text

namespace Token

structure StartsWith (cs : List Char) (word : String) : Prop where
  bare : IsBare word.toList
  split : ∃ front back : List Char, cs = front ++ (word.toList ++ back) ∧
    (∀ c ∈ front, isBlank c = true) ∧ ∀ c ∈ back.head?, Lexer.endsWord c = true

namespace Lexer

theorem begin_ended (ended : List Token) (c : Char) : (begin ended c).ended = ended := by
  unfold begin
  split_ifs <;> rfl

theorem exists_step_ended (l : Lexer) (c : Char) : ∃ more, (l.step c).ended = more ++ l.ended := by
  obtain ⟨ended, mode⟩ := l
  cases mode with
  | between => exact ⟨[], begin_ended ended c⟩
  | word text =>
    by_cases hc : endsWord c = true
    · refine ⟨[endWord text], ?_⟩
      simp only [step, hc, if_true, begin_ended]
      rfl
    · exact ⟨[], by simp [step, hc]⟩
  | quoted text escaped =>
    simp only [step, stepQuoted]
    split_ifs
    · exact ⟨[], rfl⟩
    · exact ⟨[], rfl⟩
    · exact ⟨[endQuoted text], rfl⟩
    · exact ⟨[], rfl⟩
  | block text depth inString escaped =>
    rw [show (⟨ended, .block text depth inString escaped⟩ : Lexer) =
      ⟨ended, inBlock text ⟨depth, inString, escaped⟩⟩ from rfl, step_block]
    cases Nesting.step ⟨depth, inString, escaped⟩ c with
    | some m => exact ⟨[], rfl⟩
    | none => exact ⟨[endBlock text], rfl⟩

theorem exists_run_ended (cs : List Char) (l : Lexer) : ∃ more, (l.run cs).ended = more ++ l.ended := by
  induction cs generalizing l with
  | nil => exact ⟨[], rfl⟩
  | cons c cs ih =>
    obtain ⟨first, hfirst⟩ := exists_step_ended l c
    obtain ⟨more, hmore⟩ := ih (l.step c)
    exact ⟨more ++ first, by rw [run_cons, hmore, hfirst, List.append_assoc]⟩

theorem head_of_ended {l : Lexer} {t first : Token} {cs : List Char} {tokens : List Token}
    (hended : l.ended = [t]) (h : (l.run cs).finish = .ok (first :: tokens)) : first = t := by
  obtain ⟨more, hmore⟩ := exists_run_ended cs l
  rw [hended] at hmore
  generalize l.run cs = last at h hmore
  obtain ⟨ended, mode⟩ := last
  obtain rfl : ended = more ++ [t] := hmore
  cases mode with
  | between =>
    have hlist : (more ++ [t]).reverse = first :: tokens := Except.ok.inj h
    simp only [List.reverse_append, List.reverse_singleton, List.singleton_append, List.cons.injEq] at hlist
    exact hlist.1.symm
  | word text =>
    have hlist : (endWord text :: (more ++ [t])).reverse = first :: tokens := Except.ok.inj h
    simp only [List.reverse_cons, List.reverse_append, List.reverse_nil, List.nil_append,
      List.cons_append, List.cons.injEq] at hlist
    exact hlist.1.symm
  | quoted text escaped => cases h
  | block text depth inString escaped => cases h

theorem finish_quoted_ne (cs text : List Char) (escaped : Bool) (word : String) (tokens : List Token) :
    ((⟨[], .quoted text escaped⟩ : Lexer).run cs).finish ≠ .ok (.word word :: tokens) := by
  induction cs generalizing text escaped with
  | nil => simp [run_nil, finish]
  | cons c cs ih =>
    intro h
    rw [run_cons] at h
    simp only [step, stepQuoted] at h
    split_ifs at h
    · exact ih _ _ h
    · exact ih _ _ h
    · cases head_of_ended rfl h
    · exact ih _ _ h

theorem finish_block_ne (cs text : List Char) (n : Nesting) (word : String) (tokens : List Token) :
    ((⟨[], inBlock text n⟩ : Lexer).run cs).finish ≠ .ok (.word word :: tokens) := by
  induction cs generalizing text n with
  | nil => simp [run_nil, finish, inBlock]
  | cons c cs ih =>
    intro h
    rw [run_cons, step_block] at h
    cases hstep : n.step c with
    | some m =>
      rw [hstep] at h
      exact ih _ _ h
    | none =>
      rw [hstep] at h
      cases head_of_ended rfl h

theorem exists_word_back {cs text : List Char} {word : String} {tokens : List Token}
    (h : ((⟨[], .word text⟩ : Lexer).run cs).finish = .ok (.word word :: tokens)) :
    ∃ back, text.reverse ++ cs = word.toList ++ back ∧ ∀ c ∈ back.head?, endsWord c = true := by
  induction cs generalizing text with
  | nil =>
    cases h
    exact ⟨[], by simp, by simp⟩
  | cons c cs ih =>
    rw [run_cons] at h
    -- What ends here is the first token, so it is the word.
    by_cases hc : endsWord c = true
    · have hended : ((⟨[], .word text⟩ : Lexer).step c).ended = [endWord text] := by
        simp only [step, hc, if_true, begin_ended]
      cases head_of_ended hended h
      exact ⟨c :: cs, by simp, by simpa using hc⟩
    · have hstep : (⟨[], .word text⟩ : Lexer).step c = ⟨[], .word (c :: text)⟩ := by simp [step, hc]
      rw [hstep] at h
      obtain ⟨back, hback, hends⟩ := ih h
      exact ⟨back, by rw [← hback]; simp, hends⟩

/-- Blanks are skipped, and what does not start a string or a block starts a word. -/
theorem exists_front {cs : List Char} {word : String} {tokens : List Token}
    (h : ((⟨[], .between⟩ : Lexer).run cs).finish = .ok (.word word :: tokens)) :
    ∃ front back, cs = front ++ (word.toList ++ back) ∧ (∀ c ∈ front, isBlank c = true) ∧
      ∀ c ∈ back.head?, endsWord c = true := by
  induction cs with
  | nil => cases h
  | cons c cs ih =>
    rw [run_cons] at h
    change ((begin [] c).run cs).finish = _ at h
    unfold begin at h
    split_ifs at h with hblank hquote hopen
    · obtain ⟨front, back, rfl, hfront, hback⟩ := ih h
      exact ⟨c :: front, back, rfl, List.forall_mem_cons.mpr ⟨hblank, hfront⟩, hback⟩
    · exact (finish_quoted_ne _ _ _ _ _ h).elim
    · exact (finish_block_ne _ _ .start _ _ h).elim
    · obtain ⟨back, hback, hends⟩ := exists_word_back h
      exact ⟨[], back, hback, by simp, hends⟩

end Lexer

theorem startsWith_of_scan {text word : String} {tokens : List Token}
    (h : scan text = .ok (.word word :: tokens)) : StartsWith text.toList word where
  bare := wellFormed_of_scan h _ List.mem_cons_self
  split := Lexer.exists_front h

end Token
end ScriptedActors
