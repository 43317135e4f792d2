import ScriptedActors.Proofs.KeywordTable
import ScriptedActors.Statement.Grammar

set_option autoImplicit false

/-!
# When a reader of arguments succeeds

For each reader of arguments: the tokens on which it succeeds, its result, and the tokens that it
leaves. A reader composed of others is opened by `bind_eq_ok` and these facts, one part at a time.
`bind_eq_error` opens it where it fails.
-/
namespace ScriptedActors
open Text KeywordTable

namespace Reading
variable {α β : Type}

theorem bind_eq_ok (reading : Reading α) (next : α → Reading β) (s s' : Arguments) (b : β) :
    (reading >>= next) s = .ok b s' ↔ ∃ a middle, reading s = .ok a middle ∧ next a middle = .ok b s' := by
  change EStateM.bind reading next s = .ok b s' ↔ _
  unfold EStateM.bind
  cases h : reading s with
  | ok a middle =>
    constructor
    · exact fun hnext => ⟨a, middle, rfl, hnext⟩
    · rintro ⟨_, _, ⟨⟩, hnext⟩
      exact hnext
  | error error middle => simp

theorem bind_eq_error (reading : Reading α) (next : α → Reading β) (s s' : Arguments) (e : StatementError) :
    (reading >>= next) s = .error e s' ↔
      reading s = .error e s' ∨ ∃ a middle, reading s = .ok a middle ∧ next a middle = .error e s' := by
  change EStateM.bind reading next s = .error e s' ↔ _
  unfold EStateM.bind
  cases h : reading s with
  | ok a middle =>
    constructor
    · exact fun hnext => .inr ⟨a, middle, rfl, hnext⟩
    · rintro (⟨⟨⟩⟩ | ⟨_, _, ⟨⟩, hnext⟩)
      exact hnext
  | error error middle => simp

theorem pure_eq_ok (a b : α) (s s' : Arguments) :
    (pure a : Reading α) s = .ok b s' ↔ b = a ∧ s' = s := by
  change EStateM.Result.ok a s = .ok b s' ↔ _
  rw [EStateM.Result.ok.injEq]
  constructor
  · rintro ⟨rfl, rfl⟩
    exact ⟨rfl, rfl⟩
  · rintro ⟨rfl, rfl⟩
    exact ⟨rfl, rfl⟩

theorem missing_ne_ok (expected : String) (s s' : Arguments) (a : α) :
    (missing expected : Reading α) s ≠ .ok a s' := by simp [missing]

theorem invalid_ne_ok (found reason : String) (s s' : Arguments) (a : α) :
    (invalid found reason : Reading α) s ≠ .ok a s' := by simp [invalid]

theorem expect_eq_ok (expected : String) (s s' : Arguments) (text : String) :
    expect expected s = .ok text s' ↔
      ∃ token rest, s.unread = token :: rest ∧ text = token.text ∧ s' = ⟨s.keyword, rest⟩ := by
  obtain ⟨keyword, tokens⟩ := s
  cases tokens with
  | nil => simp [expect, missing]
  | cons token rest =>
    constructor
    · rintro ⟨⟩
      exact ⟨token, rest, rfl, rfl, rfl⟩
    · rintro ⟨_, _, ⟨⟩, rfl, rfl⟩
      rfl

theorem next_eq_ok (s s' : Arguments) (token : Option Token) :
    next s = .ok token s' ↔ token = s.unread.head? ∧ s' = ⟨s.keyword, s.unread.tail⟩ := by
  simp only [next, EStateM.Result.ok.injEq, eq_comm]

/-- The next token is not this word. -/
def LacksWord (literal : String) (tokens : List Token) : Prop :=
  ∀ token ∈ tokens.head?, isWord literal token = false

theorem accept_eq_ok (literal : String) (s s' : Arguments) (taken : Bool) :
    accept literal s = .ok taken s' ↔
      (taken = true ∧ ∃ word rest, s.unread = word :: rest ∧ isWord literal word = true ∧
        s' = ⟨s.keyword, rest⟩) ∨
      (taken = false ∧ LacksWord literal s.unread ∧ s' = s) := by
  obtain ⟨keyword, tokens⟩ := s
  cases tokens with
  | nil =>
    constructor
    · rintro ⟨⟩
      exact .inr ⟨rfl, by simp [LacksWord], rfl⟩
    · rintro (⟨_, _, _, ⟨⟩, _⟩ | ⟨rfl, -, rfl⟩)
      rfl
  | cons token rest =>
    cases h : isWord literal token with
    | true =>
      simp only [accept, h, if_true]
      constructor
      · rintro ⟨⟩
        exact .inl ⟨rfl, token, rest, rfl, h, rfl⟩
      · rintro (⟨rfl, _, _, ⟨⟩, -, rfl⟩ | ⟨-, hlacks, -⟩)
        · rfl
        · rw [hlacks token rfl] at h
          exact absurd h (by decide)
    | false =>
      simp only [accept, h, Bool.false_eq_true, if_false]
      constructor
      · rintro ⟨⟩
        exact .inr ⟨rfl, by simpa [LacksWord] using h, rfl⟩
      · rintro (⟨-, _, _, ⟨⟩, hword, -⟩ | ⟨rfl, -, rfl⟩)
        · rw [h] at hword
          exact absurd hword (by decide)
        · rfl

theorem expectLiteral_eq_ok (literal : String) (s s' : Arguments) (u : Unit) :
    expectLiteral literal s = .ok u s' ↔
      ∃ word rest, s.unread = word :: rest ∧ isWord literal word = true ∧ s' = ⟨s.keyword, rest⟩ := by
  obtain ⟨keyword, tokens⟩ := s
  cases tokens with
  | nil => simp [expectLiteral, missing]
  | cons token rest =>
    cases h : isWord literal token with
    | true =>
      simp only [expectLiteral, h, if_true]
      constructor
      · rintro ⟨⟩
        exact ⟨token, rest, rfl, h, rfl⟩
      · rintro ⟨_, _, ⟨⟩, -, rfl⟩
        rfl
    | false => simp [expectLiteral, invalid, h]

theorem expectBlock_eq_ok (expected : String) (s s' : Arguments) (body : String) :
    expectBlock expected s = .ok body s' ↔
      ∃ rest, s.unread = .block body :: rest ∧ s' = ⟨s.keyword, rest⟩ := by
  obtain ⟨keyword, tokens⟩ := s
  cases tokens with
  | nil => simp [expectBlock, missing]
  | cons token rest =>
    cases token with
    | block text =>
      constructor
      · rintro ⟨⟩
        exact ⟨rest, rfl, rfl⟩
      · rintro ⟨_, ⟨⟩, rfl⟩
        rfl
    | word text | quoted text => simp [expectBlock, invalid]

theorem rest_eq_ok (expected : String) (s s' : Arguments) (text : String) :
    rest expected s = .ok text s' ↔
      s.unread ≠ [] ∧ text = join " " (s.unread.map Token.text) ∧ s' = ⟨s.keyword, []⟩ := by
  obtain ⟨keyword, tokens⟩ := s
  cases tokens with
  | nil => simp [rest, missing]
  | cons token tokens => simp [rest, eq_comm]

theorem finish_eq_ok (s s' : Arguments) (u : Unit) :
    finish s = .ok u s' ↔ s.unread = [] ∧ s' = s := by
  obtain ⟨keyword, tokens⟩ := s
  cases tokens with
  | nil => simp [finish, eq_comm]
  | cons token rest => simp [finish]

theorem finish_eq_error (s s' : Arguments) (e : StatementError) :
    finish s = .error e s' ↔
      ∃ token rest, s.unread = token :: rest ∧ e = .trailing s.keyword token.text ∧ s' = s := by
  obtain ⟨keyword, tokens⟩ := s
  cases tokens with
  | nil => simp [finish]
  | cons token rest => simp [finish, eq_comm]

theorem expectName_eq_ok (expected reason : String) (names : List (String × α)) (h : Distinct names)
    (s s' : Arguments) (value : α) :
    expectName expected reason names s = .ok value s' ↔
      ∃ token rest, s.unread = token :: rest ∧
        (∃ name, (name, value) ∈ names ∧ sameName name token.text = true) ∧
        s' = ⟨s.keyword, rest⟩ := by
  rw [expectName, bind_eq_ok]
  constructor
  · rintro ⟨text, middle, hexpect, hfind⟩
    obtain ⟨token, rest, hunread, rfl, rfl⟩ := (expect_eq_ok ..).mp hexpect
    cases hf : names.find? (fun entry => sameName entry.1 token.text) with
    | none =>
      rw [hf] at hfind
      exact (invalid_ne_ok _ _ _ _ _ hfind).elim
    | some entry =>
      rw [hf] at hfind
      obtain ⟨rfl, rfl⟩ := (pure_eq_ok ..).mp hfind
      exact ⟨token, rest, hunread, ⟨entry.1, (find?_eq_some names h _ _).mp hf⟩, rfl⟩
  · rintro ⟨token, rest, hunread, ⟨name, hname⟩, rfl⟩
    refine ⟨token.text, ⟨s.keyword, rest⟩, (expect_eq_ok ..).mpr ⟨token, rest, hunread, rfl, rfl⟩, ?_⟩
    have hf := (find?_eq_some names h token.text (name, value)).mpr hname
    rw [hf]
    rfl

theorem location_eq_ok (s s' : Arguments) (l : Location) :
    location s = .ok l s' ↔
      ∃ token rest, s.unread = token :: rest ∧ Location.ofText token.text = .ok l ∧
        s' = ⟨s.keyword, rest⟩ := by
  rw [location, bind_eq_ok]
  constructor
  · rintro ⟨text, middle, hexpect, hread⟩
    obtain ⟨token, rest, hunread, rfl, rfl⟩ := (expect_eq_ok ..).mp hexpect
    cases hl : Location.ofText token.text with
    | error error =>
      rw [hl] at hread
      exact (invalid_ne_ok _ _ _ _ _ hread).elim
    | ok value =>
      rw [hl] at hread
      obtain ⟨rfl, rfl⟩ := (pure_eq_ok ..).mp hread
      exact ⟨token, rest, hunread, hl, rfl⟩
  · rintro ⟨token, rest, hunread, hl, rfl⟩
    refine ⟨token.text, ⟨s.keyword, rest⟩, (expect_eq_ok ..).mpr ⟨token, rest, hunread, rfl, rfl⟩, ?_⟩
    rw [hl]
    rfl

end Reading
end ScriptedActors
