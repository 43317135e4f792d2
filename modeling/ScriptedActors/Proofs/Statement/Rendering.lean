import ScriptedActors.Proofs.Json.Settled
import ScriptedActors.Proofs.Location.Text
import ScriptedActors.Proofs.Statement.Durations
import ScriptedActors.Proofs.Statement.Printing

set_option autoImplicit false

/-!
# Actions as statements

Every action has one statement: the keyword, every text in quotation marks, and the words of the
grammar bare. A statement of this kind is parsed to its action, unless a metadata value holds a
number that is not read as it is written.
-/
namespace ScriptedActors
open Text Reading

def Comparison.word : Comparison → String
  | .eq => "=="
  | .ne => "!="
  | .gt => ">"
  | .ge => ">="
  | .lt => "<"
  | .le => "<="

def SelectBy.word : SelectBy → String
  | .id => "id"
  | .uniqueId => "uniqueId"

def CollectionOp.word : CollectionOp → String
  | .add => "add"
  | .remove => "remove"

def Sender.word : Sender → String
  | .player => "player"
  | .operator => "op"
  | .console => "console"

namespace Action

def keyword : Action → String
  | .log _ => "log"
  | .wait _ => "wait"
  | .js _ => "js"
  | .set .. => "set"
  | .get _ => "get"
  | .run _ => "run"
  | .check .. => "check"
  | .pause => "pause"
  | .terminate => "terminate"
  | .respawn => "respawn"
  | .destroy => "destroy"
  | .remove => "remove"
  | .delete => "delete"
  | .stopMoving => "still"
  | .sleeping => "sleeping"
  | .select .. => "select"
  | .create .. => "create"
  | .look .. => "look"
  | .move _ => "move"
  | .teleport _ => "teleport"
  | .tag .. => "tag"
  | .metadata .. => "meta"
  | .animation _ => "animation"
  | .viewer .. => "viewer"
  | .passenger .. => "passenger"
  | .controller .. => "controller"
  | .event .. => "event"
  | .listen .. => "listen"
  | .command .. => "command"
  | .proceed => "continue"
  | .permission _ => "permission"
  | .placeholder _ => "placeholder"

/-- A metadata value: a string in quotation marks, any other value bare and on one line. -/
def valueToken : Json → Token
  | .string s => .quoted s
  | v => .word v.compact

def arguments : Action → List Token
  | .log text | .js text | .get text | .run text | .animation text | .permission text
  | .placeholder text => [.quoted text]
  | .wait ticks => [.word (Nat.repr ticks.toNat)]
  | .set name value => [.quoted name, .word "to", .quoted value]
  | .check left op right => [.quoted left, .word op.word, .quoted right]
  | .pause | .terminate | .respawn | .destroy | .remove | .delete | .stopMoving | .sleeping | .proceed => []
  | .select value key => [.quoted value, .word "by", .word key.word]
  | .create id kind location => [.quoted id, .quoted kind, .quoted location.text]
  | .look target false => [.quoted target.text]
  | .look target true => [.word "smooth", .quoted target.text]
  | .move target | .teleport target => [.quoted target.text]
  | .tag key none => [.word "remove", .quoted key]
  | .tag key (some value) => [.word "set", .quoted key, .word "to", .quoted value]
  | .metadata key value => [.quoted key, .word "to", valueToken value]
  | .viewer op text | .passenger op text | .controller op text => [.word op.word, .quoted text]
  | .event field none => [.quoted field]
  | .event field (some value) => [.quoted field, .word "to", .quoted value]
  | .listen name body => [.quoted name, .block body]
  | .command line sender => [.quoted line, .word "as", .word sender.word]

def tokens (a : Action) : List Token := .word a.keyword :: a.arguments

def render (a : Action) : String := Token.printAll a.tokens

/-- An action that a statement can ask for. -/
def Canonical : Action → Prop
  | .create _ _ location | .look location _ | .move location | .teleport location => location.Printable
  | .listen _ body => trimChars body.toList = body.toList ∧ Balanced body.toList
  | .metadata _ value => (∃ s, value = .string s) ∨ value.Every Json.IsPlain ∧ value.depth ≤ Json.maxDepth
  | _ => True

def FloatsReadBack : Action → Prop
  | .metadata _ value => value.Every Json.ReadsBack
  | _ => True

def production : Action → Production
  | .log _ => Production.Rest .log
  | .wait _ => Production.Wait
  | .js _ => Production.One .js
  | .set .. => Production.Set
  | .get _ => Production.One .get
  | .run _ => Production.One .run
  | .check .. => Production.Check
  | .select .. => Production.Select
  | .create .. => Production.Create
  | .look .. => Production.Look
  | .move _ => Production.Place .move
  | .teleport _ => Production.Place .teleport
  | .tag .. => Production.Tag
  | .metadata .. => Production.Metadata
  | .animation _ => Production.One .animation
  | .viewer .. => Production.Collection .viewer
  | .passenger .. => Production.Collection .passenger
  | .controller .. => Production.Collection .controller
  | .event .. => Production.Event
  | .listen .. => Production.Listen
  | .command .. => Production.Command
  | .permission _ => Production.One .permission
  | .placeholder _ => Production.Rest .placeholder
  | bare => Production.Bare bare

theorem production_mem (a : Action) : (a.keyword, a.production) ∈ Production.ofKeyword := by
  unfold Production.ofKeyword
  cases a <;> simp [keyword, production]

theorem endsWord_of_isPlainText {c : Char} (h : Json.isPlainText c = true) :
    Token.Lexer.endsWord c = false := by
  have hrange : ∀ low high : Nat, low ≤ c.toNat → c.toNat ≤ high → 48 ≤ low → high ≤ 122 →
      Token.Lexer.endsWord c = false := by
    intro low high hlow hhigh hleast hmost
    have hblank : isBlank c = false := by
      simp only [isBlank, Bool.or_eq_false_iff, Bool.and_eq_false_iff, decide_eq_false_iff_not,
        beq_eq_false_iff_ne]
      omega
    have hne : ∀ d : Char, d.toNat < 48 ∨ 122 < d.toNat → (c == d) = false := by
      intro d hd
      rw [beq_eq_false_iff_ne]
      rintro rfl
      omega
    rw [Token.Lexer.endsWord, hblank, hne '"' (by decide), hne '{' (by decide)]
    rfl
  have hscalar : Json.isScalar c = true → Token.Lexer.endsWord c = false := by
    intro hc
    simp only [Json.isScalar, Char.isAlphanum, Char.isAlpha, Char.isUpper, Char.isLower, Char.isDigit,
      Bool.or_eq_true, Bool.and_eq_true, decide_eq_true_eq, beq_iff_eq] at hc
    rcases hc with ((((hupper | hlower) | hdigit) | rfl) | rfl) | rfl
    · exact hrange 65 90 hupper.1 hupper.2 (by decide) (by decide)
    · exact hrange 97 122 hlower.1 hlower.2 (by decide) (by decide)
    · exact hrange 48 57 hdigit.1 hdigit.2 (by decide) (by decide)
    · decide
    · decide
    · decide
  simp only [Json.isPlainText, Bool.or_eq_true, beq_iff_eq] at h
  rcases h with ((h | rfl) | rfl) | rfl
  · exact hscalar h
  · decide
  · decide
  · decide

theorem isBare_compact {v : Json} (h : v.Every Json.IsPlain) : Token.IsBare v.compact.toList := by
  refine ⟨?_, fun c hc => endsWord_of_isPlainText (Json.isPlainText_compact h c hc)⟩
  cases v with
  | array items => simp [Json.compact]
  | string s => exact h.elim
  | object members => exact h.1.elim
  | null => exact (Json.isScalarText_leafText (v := .null) trivial).ne_nil
  | bool b => exact (Json.isScalarText_leafText (v := .bool b) trivial).ne_nil
  | int n => exact (Json.isScalarText_leafText (v := .int n) trivial).ne_nil
  | float x => exact (Json.isScalarText_leafText (v := .float x) trivial).ne_nil
  | float32 x => exact h.elim

theorem isBare_repr (n : Nat) : Token.IsBare (Nat.repr n).toList := by
  have htext : (Nat.repr n).toList = Nat.toDigits 10 n := String.toList_ofList
  rw [htext]
  refine ⟨Nat.toDigits_ne_nil, fun c hc => endsWord_of_isPlainText ?_⟩
  rw [Json.isPlainText, Json.isScalar_of_isDigit (Decimal.isDigit_of_mem_decimal hc)]
  rfl

def isBareText (text : String) : Bool :=
  !text.toList.isEmpty && text.toList.all fun c => !Token.Lexer.endsWord c

theorem isBare_of_isBareText {text : String} (h : isBareText text = true) : Token.IsBare text.toList := by
  rw [isBareText, Bool.and_eq_true] at h
  refine ⟨by simpa using h.1, fun c hc => ?_⟩
  have hword := List.all_eq_true.mp h.2 c hc
  simpa using hword

theorem isBare_keyword (a : Action) : Token.IsBare a.keyword.toList := by
  have hall : ((Production.ofKeyword.map Prod.fst).all isBareText) = true := by decide
  exact isBare_of_isBareText (List.all_eq_true.mp hall _ (List.mem_map_of_mem a.production_mem))

theorem wellFormed_valueToken {v : Json} (h : (∃ s, v = .string s) ∨ v.Every Json.IsPlain) :
    (valueToken v).WellFormed := by
  rcases h with ⟨s, rfl⟩ | hplain
  · trivial
  · have hbare := isBare_compact hplain
    cases v with
    | string s => trivial
    | _ => exact hbare

theorem wellFormed_arguments {a : Action} (h : a.Canonical) : ∀ t ∈ a.arguments, t.WellFormed := by
  have hto : (Token.word "to").WellFormed := isBare_of_isBareText rfl
  have hby : (Token.word "by").WellFormed := isBare_of_isBareText rfl
  have has : (Token.word "as").WellFormed := isBare_of_isBareText rfl
  have hsmooth : (Token.word "smooth").WellFormed := isBare_of_isBareText rfl
  have hset : (Token.word "set").WellFormed := isBare_of_isBareText rfl
  have hremove : (Token.word "remove").WellFormed := isBare_of_isBareText rfl
  have hcomparison : ∀ op : Comparison, (Token.word op.word).WellFormed := by
    intro op
    cases op <;> exact isBare_of_isBareText rfl
  have hcollection : ∀ op : CollectionOp, (Token.word op.word).WellFormed := by
    intro op
    cases op <;> exact isBare_of_isBareText rfl
  have hselect : ∀ key : SelectBy, (Token.word key.word).WellFormed := by
    intro key
    cases key <;> exact isBare_of_isBareText rfl
  have hsender : ∀ sender : Sender, (Token.word sender.word).WellFormed := by
    intro sender
    cases sender <;> exact isBare_of_isBareText rfl
  have hquoted : ∀ text, (Token.quoted text).WellFormed := fun _ => trivial
  have hrepr : ∀ n, (Token.word (Nat.repr n)).WellFormed := isBare_repr
  cases a with
  | metadata key value =>
    have hvalue := wellFormed_valueToken (h.imp_right And.left)
    simp [arguments, hto, hquoted, hvalue]
  | listen name body =>
    have hbody : (Token.block body).WellFormed := h
    simp [arguments, hquoted, hbody]
  | look target smooth => cases smooth <;> simp [arguments, hquoted, hsmooth]
  | tag key value => cases value <;> simp [arguments, hquoted, hset, hremove, hto]
  | event field value => cases value <;> simp [arguments, hquoted, hto]
  | _ => simp [arguments, hquoted, hto, hby, has, hcomparison, hcollection, hselect, hsender, hrepr]

theorem scan_render {a : Action} (h : a.Canonical) : Token.scan a.render = .ok a.tokens :=
  Token.scan_printAll a.tokens
    (List.forall_mem_cons.mpr ⟨isBare_keyword a, wellFormed_arguments h⟩)

theorem readDuration_repr (ticks : UInt64) : readDuration (Nat.repr ticks.toNat) = some ticks := by
  have hnumeral : IsNumeral (Nat.toDigits 10 ticks.toNat) ticks.toNat := by
    have hplain := IsNumeral.plain (Nat.toDigits 10 ticks.toNat) Nat.toDigits_ne_nil fun c hc =>
      Decimal.isDigit_of_mem_decimal hc
    rwa [Nat.ofDigitChars_ten_toDigits] at hplain
  have hfits : 1 * ticks.toNat < 2 ^ 64 := by
    rw [Nat.one_mul]
    exact ticks.toNat_lt
  have hduration := IsDuration.intro _ [] 1 _ (by decide) hnumeral ticks.toNat_lt hfits
  rw [List.append_nil, Nat.one_mul] at hduration
  exact read_of_isDuration hduration

theorem fits_of_read?_bare {text : String} (h : Token.IsBare text.toList) {v : Json}
    (hread : Json.read? text = some v) : Json.Fits v 0 := by
  have hnot : ∀ c, Token.Lexer.endsWord c = true → c ∉ text.toList := by
    intro c hc hmem
    rw [h.2 c hmem] at hc
    cases hc
  exact Json.fits_of_read? (hnot '"' (by decide)) (hnot '\x7b' (by decide)) hread

/-- What a bare word is read as has nothing to be put in order. -/
theorem metadataValue_word {text : String} (h : Token.IsBare text.toList) :
    metadataValue (.word text) = (Json.read? text).getD (.string text) := by
  rw [metadataValue]
  cases hread : Json.read? text with
  | none => rfl
  | some v => exact Json.settled_eq_self ((fits_of_read?_bare h hread).plain.imp Json.isSettled_of_isPlain)

theorem metadataValue_valueToken_iff {v : Json}
    (h : (∃ s, v = .string s) ∨ v.Every Json.IsPlain ∧ v.depth ≤ Json.maxDepth) :
    metadataValue (valueToken v) = v ↔ v.Every Json.ReadsBack := by
  rcases h with ⟨s, rfl⟩ | ⟨hplain, hdepth⟩
  · exact ⟨fun _ => trivial, fun _ => rfl⟩
  · have hbare := isBare_compact hplain
    have hiff := Json.read?_compact_eq_self_iff hdepth (hplain.imp Json.isReadable_of_isPlain)
    have htoken : valueToken v = .word v.compact := by
      cases v with
      | string s => exact hplain.elim
      | _ => rfl
    rw [htoken, ← hiff, metadataValue_word hbare]
    cases Json.read? v.compact with
    | none =>
      constructor
      · intro hstring
        rw [Option.getD_none] at hstring
        rw [← hstring] at hplain
        exact hplain.elim
      · rintro ⟨⟩
    | some w => rw [Option.getD_some, Option.some.injEq]

theorem says_comparison (op : Comparison) : (Token.word op.word).Says op.words := by
  cases op <;> exact ⟨_, List.mem_cons_self, sameName_refl _⟩

theorem says_collection (op : CollectionOp) : (Token.word op.word).Says op.words := by
  cases op <;> exact ⟨_, List.mem_cons_self, sameName_refl _⟩

theorem says_select (key : SelectBy) : (Token.word key.word).Says key.words := by
  cases key <;> exact ⟨_, List.mem_cons_self, by decide⟩

theorem says_sender (sender : Sender) : (Token.word sender.word).Says sender.words := by
  cases sender <;> exact ⟨_, List.mem_cons_self, sameName_refl _⟩

theorem production_metadata_iff {key : String} {value : Json} (h : (Action.metadata key value).Canonical) :
    Production.Metadata [.quoted key, .word "to", valueToken value] (.metadata key value) ↔
      value.Every Json.ReadsBack := by
  have hvalue := metadataValue_valueToken_iff h
  constructor
  · intro hproduction
    refine hvalue.mp ?_
    generalize haction : Action.metadata key value = a at hproduction
    cases hproduction
    injection haction with _ heq
    exact heq.symm
  · intro hreads
    have hproduction := Production.Metadata.withTo (.quoted key) (.word "to") (valueToken value) (by decide)
    rw [hvalue.mpr hreads] at hproduction
    exact hproduction

theorem production_arguments {a : Action} (h : a.Canonical) :
    a.production a.arguments a ↔ a.FloatsReadBack := by
  have hplain : ∀ text : String, Reading.isWord "smooth" (.quoted text) = false := fun _ => rfl
  have hof : ∀ {P : Prop}, P → (P ↔ True) := fun hp => ⟨fun _ => trivial, fun _ => hp⟩
  cases a with
  | metadata key value => exact production_metadata_iff h
  | log text => exact hof (.intro [.quoted text] (List.cons_ne_nil _ _))
  | wait ticks => exact hof (.intro (.word (Nat.repr ticks.toNat)) ticks (readDuration_repr ticks))
  | js text => exact hof (.intro (.quoted text))
  | set name value =>
    exact hof (.intro (.quoted name) (.word "to") [.quoted value] (by decide) (List.cons_ne_nil _ _))
  | get text => exact hof (.intro (.quoted text))
  | run text => exact hof (.intro (.quoted text))
  | check left op right =>
    exact hof (.intro op (.quoted left) (.word op.word) (.quoted right) (says_comparison op))
  | select value key =>
    exact hof (.by key (.quoted value) (.word "by") (.word key.word) (by decide) (says_select key))
  | create id kind location =>
    exact hof (.intro (.quoted id) (.quoted kind) (.quoted location.text) location (Location.ofText_text h))
  | look target smooth =>
    have htarget := Location.ofText_text h
    cases smooth with
    | false => exact hof (.plain (.quoted target.text) target (hplain _) htarget)
    | true => exact hof (.smooth (.word "smooth") (.quoted target.text) target (by decide) htarget)
  | move target => exact hof (.intro (.quoted target.text) target (Location.ofText_text h))
  | teleport target => exact hof (.intro (.quoted target.text) target (Location.ofText_text h))
  | tag key value =>
    cases value with
    | none => exact hof (.remove (.word "remove") (.quoted key) ⟨_, List.mem_cons_self, sameName_refl _⟩)
    | some value =>
      exact hof (.setTo (.word "set") (.quoted key) (.word "to") (.quoted value)
        ⟨_, List.mem_cons_self, sameName_refl _⟩ (by decide))
  | animation text => exact hof (.intro (.quoted text))
  | viewer op text => exact hof (.intro op (.word op.word) (.quoted text) (says_collection op))
  | passenger op text => exact hof (.intro op (.word op.word) (.quoted text) (says_collection op))
  | controller op text => exact hof (.intro op (.word op.word) (.quoted text) (says_collection op))
  | event field value =>
    cases value with
    | none => exact hof (.read (.quoted field))
    | some value =>
      exact hof (.write (.quoted field) (.word "to") [.quoted value] (by decide) (List.cons_ne_nil _ _))
  | listen name body => exact hof (.intro (.quoted name) body)
  | command line sender =>
    exact hof (.as sender (.quoted line) (.word "as") (.word sender.word) (by decide) (says_sender sender))
  | permission text => exact hof (.intro (.quoted text))
  | placeholder text => exact hof (.intro [.quoted text] (List.cons_ne_nil _ _))
  | _ => exact hof .intro

/-- The statement of an action is parsed to the action exactly if its numbers are read as written. -/
theorem parse_render_iff {a : Action} (h : a.Canonical) :
    ActionTable.builtin.parse a.render = .ok a ↔ a.FloatsReadBack := by
  rw [ActionTable.parse_of_scan _ (scan_render h)]
  exact (ActionTable.parseTokens_eq_ok_iff a.keyword a.keyword a.production a.arguments a a.production_mem
    (sameName_refl _)).trans (production_arguments h)

end Action
end ScriptedActors
