import ScriptedActors.Proofs.Json.Numbers

set_option autoImplicit false

/-!
# The tokens of a written value

A text stands for some tokens if reading it between two tokens adds them. Texts on both sides of a
bracket, comma or colon keep their tokens, so a value on one line has the tokens of its parts.
-/
namespace ScriptedActors.Json
open Text

theorem isScalar_of_isSpace {c : Char} (h : isSpace c = true) : isScalar c = false := by
  simp only [isSpace, Bool.or_eq_true, beq_iff_eq] at h
  rcases h with ((rfl | rfl) | rfl) | rfl
  · decide
  · decide
  · decide
  · decide

namespace Lexer

def run (l : Lexer) (cs : List Char) : Lexer := cs.foldl step l

theorem run_nil (l : Lexer) : l.run [] = l := rfl

theorem run_cons (l : Lexer) (c : Char) (cs : List Char) : l.run (c :: cs) = (l.step c).run cs := rfl

theorem run_append (l : Lexer) (cs ds : List Char) : l.run (cs ++ ds) = (l.run cs).run ds := by
  simp [run]

/-- The tokens in reverse if the text ends here, unless it ends inside a string. -/
def ended (l : Lexer) : Option (List Token) :=
  match l.mode with
  | .between => some l.tokens
  | .scalar text => endScalar l.tokens text
  | _ => none

theorem finish_eq (l : Lexer) : l.finish = l.ended.map List.reverse := by
  obtain ⟨tokens, mode⟩ := l
  cases mode <;> rfl

theorem step_of_ended {l : Lexer} {tokens : List Token} {c : Char} (h : l.ended = some tokens)
    (hc : isScalar c = false) : l.step c = start tokens c := by
  obtain ⟨before, mode⟩ := l
  cases mode with
  | between =>
    cases h
    rfl
  | scalar text =>
    rw [ended] at h
    simp only [step, hc, Bool.false_eq_true, if_false]
    simp only at h
    rw [h]
  | _ => cases h

theorem start_space (tokens : List Token) {c : Char} (h : isSpace c = true) :
    start tokens c = ⟨tokens, .between⟩ := by
  rw [start, if_pos h]

theorem start_scalar (tokens : List Token) {c : Char} (h : isScalar c = true) :
    start tokens c = ⟨tokens, .scalar [c]⟩ := by
  have hne : ∀ d, isScalar d = false → c ≠ d := by
    rintro d hd rfl
    rw [h] at hd
    cases hd
  have hspace : isSpace c = false := by
    rw [Bool.eq_false_iff]
    intro hspace
    rw [isScalar_of_isSpace hspace] at h
    cases h
  simp [start, hspace, h, hne '[' (by decide), hne ']' (by decide), hne '\x7b' (by decide),
    hne '\x7d' (by decide), hne ',' (by decide), hne ':' (by decide), hne '"' (by decide)]

theorem run_scalar (tokens : List Token) (text cs : List Char) (h : ∀ c ∈ cs, isScalar c = true) :
    (⟨tokens, .scalar text⟩ : Lexer).run cs = ⟨tokens, .scalar (cs.reverse ++ text)⟩ := by
  induction cs generalizing text with
  | nil => rfl
  | cons c cs ih =>
    have hc := h c List.mem_cons_self
    rw [run_cons, step]
    simp only [hc, if_true]
    rw [ih (c :: text) fun d hd => h d (List.mem_cons_of_mem c hd), List.reverse_cons, List.append_assoc]
    rfl

theorem hexDigits_control : ∀ n : Fin 32,
    List.replicate (4 - (hexDigits n).length) '0' ++ hexDigits n =
        ['0', '0', (n.val / 16).digitChar, (n.val % 16).digitChar] ∧
      hexValue (n.val / 16).digitChar = some (n.val / 16) ∧
      hexValue (n.val % 16).digitChar = some (n.val % 16) := by
  decide

theorem run_control (tokens : List Token) (text : List Char) (c : Char) (h : c.toNat < 32) :
    (⟨tokens, .string (some text)⟩ : Lexer).run (['\\', 'u'] ++
        List.replicate (4 - (hexDigits c.toNat).length) '0' ++ hexDigits c.toNat) =
      ⟨tokens, .string (some (c :: text))⟩ := by
  obtain ⟨hdigits, hfirst, hsecond⟩ := hexDigits_control ⟨c.toNat, h⟩
  have hzero : hexValue '0' = some 0 := by decide
  have hvalue : c.toNat / 16 * 16 + c.toNat % 16 = c.toNat := by omega
  have hcode : afterCode (some text) c.toNat none = .string (some (c :: text)) := by
    rw [afterCode]
    simp only [show ¬ (0xD800 ≤ c.toNat ∧ c.toNat < 0xDC00) by omega,
      show ¬ (0xDC00 ≤ c.toNat ∧ c.toNat < 0xE000) by omega, if_false, Char.ofNat_toNat]
    rfl
  rw [List.append_assoc, hdigits]
  simp [run, step, inString, inEscape, hzero, hfirst, hsecond, hvalue, hcode]

theorem run_escape (tokens : List Token) (text : List Char) (c : Char) :
    (⟨tokens, .string (some text)⟩ : Lexer).run (escape c) = ⟨tokens, .string (some (c :: text))⟩ := by
  unfold escape
  split
  · rename_i hc
    rcases hc with rfl | rfl <;> rfl
  · rename_i hquote
    obtain ⟨hquote, hbackslash⟩ := not_or.mp hquote
    split
    · subst c
      rfl
    · split
      · subst c
        rfl
      · split
        · subst c
          rfl
        · split
          · subst c
            rfl
          · split
            · subst c
              rfl
            · split
              · rename_i hcontrol
                exact run_control tokens text c hcontrol
              · rename_i hcontrol
                rw [run_cons, step]
                simp only [inString, hquote, hbackslash, hcontrol, if_false]
                rfl

theorem run_string (tokens : List Token) (text cs : List Char) :
    (⟨tokens, .string (some text)⟩ : Lexer).run (cs.flatMap escape) =
      ⟨tokens, .string (some (cs.reverse ++ text))⟩ := by
  induction cs generalizing text with
  | nil => rfl
  | cons c cs ih =>
    rw [List.flatMap_cons, run_append, run_escape, ih, List.reverse_cons, List.append_assoc]
    rfl

end Lexer

/-- A text has these tokens, whatever stands before it. -/
def Lexes (cs : List Char) (tokens : List Token) : Prop :=
  ∀ before, ((⟨before, .between⟩ : Lexer).run cs).ended = some (tokens.reverse ++ before)

def IsMark (c : Char) (t : Token) : Prop :=
  isScalar c = false ∧ ∀ before, Lexer.start before c = ⟨t :: before, .between⟩

theorem isMark_comma : IsMark ',' .comma := ⟨by decide, fun _ => rfl⟩

theorem isMark_colon : IsMark ':' .colon := ⟨by decide, fun _ => rfl⟩

theorem isMark_beginArray : IsMark '[' .beginArray := ⟨by decide, fun _ => rfl⟩

theorem isMark_endArray : IsMark ']' .endArray := ⟨by decide, fun _ => rfl⟩

theorem isMark_beginObject : IsMark '\x7b' .beginObject := ⟨by decide, fun _ => rfl⟩

theorem isMark_endObject : IsMark '\x7d' .endObject := ⟨by decide, fun _ => rfl⟩

namespace Lexes

theorem nil : Lexes [] [] := fun _ => rfl

theorem tokens? {cs : List Char} {tokens : List Token} (h : Lexes cs tokens) :
    Json.tokens? cs = some tokens := by
  have hended := h []
  rw [Json.tokens?, Lexer.finish_eq]
  change ((⟨[], .between⟩ : Lexer).run cs).ended.map List.reverse = _
  rw [hended, List.append_nil, Option.map_some, List.reverse_reverse]

theorem append_mark {cs ds : List Char} {ts us : List Token} {c : Char} {t : Token} (hcs : Lexes cs ts)
    (hc : IsMark c t) (hds : Lexes ds us) : Lexes (cs ++ c :: ds) (ts ++ t :: us) := by
  intro before
  rw [Lexer.run_append, Lexer.run_cons, Lexer.step_of_ended (hcs before) hc.1, hc.2, hds]
  simp

theorem spaces_append {spaces cs : List Char} {tokens : List Token}
    (hspaces : ∀ c ∈ spaces, isSpace c = true) (h : Lexes cs tokens) : Lexes (spaces ++ cs) tokens := by
  intro before
  induction spaces with
  | nil => exact h before
  | cons c spaces ih =>
    rw [List.cons_append, Lexer.run_cons, Lexer.step, Lexer.start_space _ (hspaces c List.mem_cons_self)]
    exact ih fun d hd => hspaces d (List.mem_cons_of_mem c hd)

theorem append_spaces {spaces cs : List Char} {tokens : List Token}
    (hspaces : ∀ c ∈ spaces, isSpace c = true) (h : Lexes cs tokens) : Lexes (cs ++ spaces) tokens := by
  intro before
  cases spaces with
  | nil =>
    rw [List.append_nil]
    exact h before
  | cons c spaces =>
    have hc := hspaces c List.mem_cons_self
    have hrest := spaces_append (fun d hd => hspaces d (List.mem_cons_of_mem c hd)) nil
    rw [Lexer.run_append, Lexer.run_cons, Lexer.step_of_ended (h before) (isScalar_of_isSpace hc),
      Lexer.start_space _ hc]
    rw [List.append_nil] at hrest
    exact hrest _

theorem scalar {cs : List Char} {value : Option Json} (h : IsScalarText cs)
    (hread : readScalar cs = some value) : Lexes cs [.scalar value] := by
  have hscalar := h.scalar
  have hne := h.ne_nil
  intro before
  obtain ⟨c, cs, rfl⟩ := List.exists_cons_of_ne_nil hne
  rw [Lexer.run_cons, Lexer.step]
  simp only
  rw [Lexer.start_scalar before (hscalar c List.mem_cons_self),
    Lexer.run_scalar before [c] cs fun d hd => hscalar d (List.mem_cons_of_mem c hd)]
  rw [Lexer.ended]
  simp only [Lexer.endScalar, List.reverse_append, List.reverse_reverse, List.reverse_singleton,
    List.singleton_append, hread, Option.map_some]

theorem leaf {v : Json} (h : IsScalarLeaf v) : Lexes (leafText v).toList [.scalar (leafValue v)] :=
  scalar (isScalarText_leafText h) (readScalar_leafText h)

theorem string (s : String) : Lexes (stringText s).toList [.string (some s)] := by
  intro before
  rw [stringText, String.toList_ofList, List.cons_append, Lexer.run_cons, Lexer.run_append]
  change (((⟨before, .string (some [])⟩ : Lexer).run _).run ['"']).ended = _
  rw [Lexer.run_string, List.append_nil]
  simp [Lexer.run, Lexer.step, Lexer.inString, Lexer.ended]

theorem intercalate_spaced {spaces : List Char} (hspaces : ∀ c ∈ spaces, isSpace c = true)
    {texts : List (List Char)} {tokens : List (List Token)} (h : List.Forall₂ Lexes texts tokens) :
    Lexes ((',' :: spaces).intercalate texts) ([Token.comma].intercalate tokens) := by
  induction h with
  | nil => exact nil
  | cons hfirst hrest ih =>
    cases hrest with
    | nil =>
      rw [List.intercalate_singleton, List.intercalate_singleton]
      exact hfirst
    | cons hsecond hmore =>
      rw [List.intercalate_cons_cons, List.intercalate_cons_cons, List.append_assoc, List.append_assoc]
      exact hfirst.append_mark isMark_comma (spaces_append hspaces ih)

theorem intercalate {texts : List (List Char)} {tokens : List (List Token)}
    (h : List.Forall₂ Lexes texts tokens) :
    Lexes ([','].intercalate texts) ([Token.comma].intercalate tokens) :=
  intercalate_spaced (List.forall_mem_nil _) h

theorem bracket {cs : List Char} {tokens : List Token} {opening closing : Char} {first last : Token}
    (hfirst : IsMark opening first) (h : Lexes cs tokens) (hlast : IsMark closing last) :
    Lexes (opening :: (cs ++ [closing])) (first :: (tokens ++ [last])) :=
  nil.append_mark hfirst (h.append_mark hlast nil)

end Lexes

mutual
def tokens : Json → List Token
  | .string s => [.string (some s)]
  | .array items => .beginArray :: ([Token.comma].intercalate (itemTokens items) ++ [.endArray])
  | .object members => .beginObject :: ([Token.comma].intercalate (memberTokens members) ++ [.endObject])
  | leaf => [.scalar (leafValue leaf)]

def itemTokens : List Json → List (List Token)
  | [] => []
  | item :: items => item.tokens :: itemTokens items

def memberTokens : List (String × Json) → List (List Token)
  | [] => []
  | (key, value) :: members =>
    (.string (some key) :: .colon :: value.tokens) :: memberTokens members
end

mutual
theorem lexes_compact (v : Json) : Lexes v.compact.toList v.tokens := by
  cases v with
  | string s => exact Lexes.string s
  | array items =>
    have h := (Lexes.intercalate (lexes_compactItems items)).bracket isMark_beginArray isMark_endArray
    rw [compact, String.toList_append, String.toList_append, String.toList_intercalate]
    exact h
  | object members =>
    have h := (Lexes.intercalate (lexes_compactMembers members)).bracket isMark_beginObject isMark_endObject
    rw [compact, String.toList_append, String.toList_append, String.toList_intercalate]
    exact h
  | null => exact Lexes.leaf trivial
  | bool b => exact Lexes.leaf trivial
  | int n => exact Lexes.leaf trivial
  | float x => exact Lexes.leaf trivial
  | float32 x => exact Lexes.leaf trivial

theorem lexes_compactItems (items : List Json) :
    List.Forall₂ Lexes ((compactItems items).map String.toList) (itemTokens items) := by
  cases items with
  | nil => exact .nil
  | cons item items => exact .cons (lexes_compact item) (lexes_compactItems items)

theorem lexes_compactMembers (members : List (String × Json)) :
    List.Forall₂ Lexes ((compactMembers members).map String.toList) (memberTokens members) := by
  cases members with
  | nil => exact .nil
  | cons member members =>
    obtain ⟨key, value⟩ := member
    have h := (Lexes.string key).append_mark isMark_colon (lexes_compact value)
    rw [compactMembers, memberTokens, List.map_cons, String.toList_append, String.toList_append,
      List.append_assoc]
    exact .cons h (lexes_compactMembers members)
end

end ScriptedActors.Json
