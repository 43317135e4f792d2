import ScriptedActors.Proofs.Json.Reading
import ScriptedActors.Proofs.Text.Utf8

set_option autoImplicit false

/-!
# Values on several lines

The spaces between the parts of a value say nothing: on several lines it has the tokens that it has
on one. So both texts are read alike, and so are the bytes of a text.
-/
namespace ScriptedActors.Json
open Text

theorem isSpace_of_mem_indent (level : Nat) : ∀ c ∈ (indent level).toList, isSpace c = true := by
  intro c h
  rw [indent, String.toList_ofList] at h
  rcases List.mem_cons.mp h with rfl | h
  · decide
  · obtain ⟨-, rfl⟩ := List.mem_replicate.mp h
    decide

theorem lexes_block (level : Nat) {opening closing : String} {first last : Char} {t u : Token}
    (hopening : opening.toList = [first]) (hfirst : IsMark first t) (hclosing : closing.toList = [last])
    (hlast : IsMark last u) {parts : List String} {tokens : List (List Token)}
    (h : List.Forall₂ Lexes (parts.map String.toList) tokens) :
    Lexes (block level opening closing parts).toList
      (t :: ([Token.comma].intercalate tokens ++ [u])) := by
  rw [block]
  split
  · rename_i hparts
    subst hparts
    cases h
    rw [String.toList_append, hopening, hclosing]
    exact Lexes.nil.bracket hfirst hlast
  · have hinner := Lexes.intercalate_spaced (isSpace_of_mem_indent (level + 1)) h
    have hspaced := (hinner.spaces_append (isSpace_of_mem_indent (level + 1))).append_spaces
      (isSpace_of_mem_indent level)
    have htext := hspaced.bracket hfirst hlast
    simp only [String.toList_append, String.toList_intercalate, hopening, hclosing] at htext ⊢
    simpa using htext

mutual
theorem lexes_prettyAt (v : Json) (level : Nat) : Lexes (v.prettyAt level).toList v.tokens := by
  cases v with
  | string s => exact Lexes.string s
  | array items =>
    exact lexes_block level rfl isMark_beginArray rfl isMark_endArray (lexes_prettyItems items (level + 1))
  | object members =>
    exact lexes_block level rfl isMark_beginObject rfl isMark_endObject
      (lexes_prettyMembers members (level + 1))
  | null => exact Lexes.leaf trivial
  | bool b => exact Lexes.leaf trivial
  | int n => exact Lexes.leaf trivial
  | float x => exact Lexes.leaf trivial
  | float32 x => exact Lexes.leaf trivial

theorem lexes_prettyItems (items : List Json) (level : Nat) :
    List.Forall₂ Lexes ((prettyItems level items).map String.toList) (itemTokens items) := by
  cases items with
  | nil => exact .nil
  | cons item items => exact .cons (lexes_prettyAt item level) (lexes_prettyItems items level)

theorem lexes_prettyMembers (members : List (String × Json)) (level : Nat) :
    List.Forall₂ Lexes ((prettyMembers level members).map String.toList) (memberTokens members) := by
  cases members with
  | nil => exact .nil
  | cons member members =>
    obtain ⟨key, value⟩ := member
    have hspace : ∀ c ∈ [' '], isSpace c = true := List.forall_mem_singleton.mpr rfl
    have hvalue := (lexes_prettyAt value level).spaces_append hspace
    have h := (Lexes.string key).append_mark isMark_colon hvalue
    have htext : (stringText key ++ ": " ++ value.prettyAt level).toList =
        (stringText key).toList ++ ':' :: ([' '] ++ (value.prettyAt level).toList) := by
      rw [String.toList_append, String.toList_append, List.append_assoc]
      rfl
    rw [← htext] at h
    exact .cons h (lexes_prettyMembers members level)
end

def IsTextOf (text : String) (v : Json) : Prop := text = v.compact ∨ text = v.pretty

theorem IsTextOf.tokens? {text : String} {v : Json} (h : IsTextOf text v) :
    Json.tokens? text.toList = some v.tokens := by
  rcases h with rfl | rfl
  · exact (lexes_compact v).tokens?
  · exact (lexes_prettyAt v 0).tokens?

/-- A value that is not nested too deep is written and read again, on one line or on several. -/
theorem IsTextOf.read? {text : String} {v : Json} (htext : IsTextOf text v) (h : v.depth ≤ maxDepth) :
    Json.read? text = v.reread := by
  rw [Json.read?, htext.tokens?, Option.bind_some, ofTokens?_tokens v h]

theorem tokensOfBytes?_encode (s : String) : tokensOfBytes? (Utf8.encode s) = tokens? s.toList := by
  rw [tokensOfBytes?, Utf8.pieces_encode, List.foldl_map]
  rfl

end ScriptedActors.Json
