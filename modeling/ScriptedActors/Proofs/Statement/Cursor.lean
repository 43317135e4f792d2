import ScriptedActors.Proofs.Statement.Productions

set_option autoImplicit false

/-!
# Arguments behind an index

The readers of arguments hold the tokens that are still to be read. Here all tokens are held, and an
index into them says how many were taken. There is one more way to fail then: the tokens from an index
on do not exist if it is behind the end. Every operation on such a cursor gives what the reader of the
same name gives on the tokens from the index on. It leaves the index where it was or moves it on, never
behind the end, so the operations on a cursor do not fail in the new way.
-/
namespace ScriptedActors
open Reading

/-! ## Readers composed of other readers -/

namespace Reading

def all : Reading (List Token) := fun s => .ok s.unread { s with unread := [] }

theorem expect_eq (expected : String) : expect expected = (do
    match ← next with
    | some token => pure token.text
    | none => missing expected) := by
  funext s
  obtain ⟨keyword, tokens⟩ := s
  cases tokens with
  | nil => rfl
  | cons token rest => rfl

theorem expectLiteral_eq (literal : String) : expectLiteral literal = (do
    if ← accept literal then pure ()
    else
      match ← peek with
      | some token => invalid token.text s!"expected '{literal}'"
      | none => missing literal) := by
  funext s
  obtain ⟨keyword, tokens⟩ := s
  cases tokens with
  | nil => rfl
  | cons token rest =>
    change (if isWord literal token = true then _ else _) = EStateM.bind (accept literal) _ _
    unfold EStateM.bind
    cases h : isWord literal token with
    | true => simp only [accept, h, if_true]; rfl
    | false => simp only [accept, h]; rfl

theorem expectBlock_eq (expected : String) : expectBlock expected = (do
    match ← next with
    | some (.block body) => pure body
    | some token => invalid token.text "expected a \x7b ... \x7d block"
    | none => missing expected) := by
  funext s
  obtain ⟨keyword, tokens⟩ := s
  cases tokens with
  | nil => rfl
  | cons token rest => cases token <;> rfl

theorem rest_eq (expected : String) : rest expected = (do
    if ← isEmpty then missing expected
    else
      let tokens ← all
      pure (Token.joined tokens)) := by
  funext s
  obtain ⟨keyword, tokens⟩ := s
  cases tokens with
  | nil => rfl
  | cons token rest => rfl

theorem collectionOp_eq : collectionOp = (do
    let found ← expect "'add' or 'remove'"
    if Text.sameName "add" found then pure .add
    else if Text.sameName "remove" found then pure .remove
    else invalid found "expected 'add' or 'remove'") := by
  rw [collectionOp, expectName]
  congr 1
  funext found
  cases hadd : Text.sameName "add" found with
  | true => simp [hadd]
  | false =>
    cases hremove : Text.sameName "remove" found with
    | true => simp [hadd, hremove]
    | false => simp [hadd, hremove]

end Reading

/-! ## The same readers on a cursor -/

/-- The tokens of a keyword, and how many of them were taken. -/
structure Cursor where
  keyword : String
  tokens : List Token
  index : Nat

namespace Cursor
variable {α β : Type} {c c' c'' : Cursor}

inductive Fault where
  | statement (error : StatementError)
  | outside

/-- A computation that moves a cursor. -/
abbrev Walk (α : Type) := EStateM Fault Cursor α

def Walk.outcome (walk : Walk α) (c : Cursor) : Except Fault α × Cursor :=
  match walk c with
  | .ok value c' => (.ok value, c')
  | .error fault c' => (.error fault, c')

def start (keyword : String) (tokens : List Token) : Cursor := ⟨keyword, tokens, 0⟩

def arguments (c : Cursor) : Arguments := ⟨c.keyword, c.tokens.drop c.index⟩

def advance (c : Cursor) : Cursor := { c with index := c.index + 1 }

def missing (expected : String) : Walk α := fun c =>
  .error (.statement (.missingArgument c.keyword expected)) c

def invalid (found reason : String) : Walk α := fun c =>
  .error (.statement (.invalidArgument c.keyword found reason)) c

def peek : Walk (Option Token) := fun c => .ok c.tokens[c.index]? c

def isEmpty : Walk Bool := fun c => .ok (decide (c.tokens.length ≤ c.index)) c

def next : Walk (Option Token) := fun c =>
  match c.tokens[c.index]? with
  | some token => .ok (some token) c.advance
  | none => .ok none c

def expect (expected : String) : Walk String := do
  match ← next with
  | some token => pure token.text
  | none => missing expected

def accept (literal : String) : Walk Bool := fun c =>
  match c.tokens[c.index]? with
  | some token => if isWord literal token then .ok true c.advance else .ok false c
  | none => .ok false c

def expectLiteral (literal : String) : Walk Unit := do
  if ← accept literal then pure ()
  else
    match ← peek with
    | some token => invalid token.text s!"expected '{literal}'"
    | none => missing literal

def expectBlock (expected : String) : Walk String := do
  match ← next with
  | some (.block body) => pure body
  | some token => invalid token.text "expected a \x7b ... \x7d block"
  | none => missing expected

/-- Take the tokens from the index on, if there is such a part of the tokens. -/
def all : Walk (List Token) := fun c =>
  if c.index ≤ c.tokens.length then .ok (c.tokens.drop c.index) { c with index := c.tokens.length }
  else .error .outside c

def rest (expected : String) : Walk String := do
  if ← isEmpty then missing expected
  else
    let tokens ← all
    pure (Token.joined tokens)

def location : Walk Location := do
  let found ← expect "a location (world,x,y,z)"
  match Location.ofText found with
  | .ok location => pure location
  | .error error => invalid found error.message

def collectionOp : Walk CollectionOp := do
  let found ← expect "'add' or 'remove'"
  if Text.sameName "add" found then pure .add
  else if Text.sameName "remove" found then pure .remove
  else invalid found "expected 'add' or 'remove'"

def finish : Walk Unit := fun c =>
  match c.tokens[c.index]? with
  | some token => .error (.statement (.trailing c.keyword token.text)) c
  | none => .ok () c

/-! ## A cursor gives what the arguments behind its index give -/

/-- A cursor comes from another one by moving on, and stands on the tokens or right behind them. -/
structure Leads (c c' : Cursor) : Prop where
  keyword : c'.keyword = c.keyword
  tokens : c'.tokens = c.tokens
  onward : c.index ≤ c'.index
  inside : c'.index ≤ c'.tokens.length

theorem Leads.refl (h : c.index ≤ c.tokens.length) : c.Leads c := ⟨rfl, rfl, Nat.le_refl _, h⟩

theorem Leads.trans (h : c.Leads c') (h' : c'.Leads c'') : c.Leads c'' where
  keyword := h'.keyword.trans h.keyword
  tokens := h'.tokens.trans h.tokens
  onward := Nat.le_trans h.onward h'.onward
  inside := h'.inside

theorem Leads.advance {token : Token} (h : c.tokens[c.index]? = some token) : c.Leads c.advance where
  keyword := rfl
  tokens := rfl
  onward := Nat.le_succ c.index
  inside := (List.getElem?_eq_some_iff.mp h).1

inductive Agrees (c : Cursor) :
    EStateM.Result Fault Cursor α → EStateM.Result StatementError Arguments α → Prop where
  | ok (a : α) (c' : Cursor) (h : c.Leads c') : Agrees c (.ok a c') (.ok a c'.arguments)
  | error (error : StatementError) (c' : Cursor) (h : c.Leads c') :
      Agrees c (.error (.statement error) c') (.error error c'.arguments)

/-- A walk does on every cursor what a reader does on its arguments. -/
def Follows (walk : Walk α) (reading : Reading α) : Prop :=
  ∀ c : Cursor, c.index ≤ c.tokens.length → Agrees c (walk c) (reading c.arguments)

theorem Agrees.of_leads {r : EStateM.Result Fault Cursor α}
    {r' : EStateM.Result StatementError Arguments α} (h : c.Leads c') (hagrees : Agrees c' r r') :
    Agrees c r r' := by
  cases hagrees with
  | ok a c'' hleads => exact .ok a c'' (h.trans hleads)
  | error error c'' hleads => exact .error error c'' (h.trans hleads)

theorem follows_pure (a : α) : Follows (pure a) (pure a) := fun c hc => .ok a c (.refl hc)

theorem follows_missing (expected : String) :
    Follows (missing expected : Walk α) (Reading.missing expected) :=
  fun c hc => .error (.missingArgument c.keyword expected) c (.refl hc)

theorem follows_invalid (found reason : String) :
    Follows (invalid found reason : Walk α) (Reading.invalid found reason) :=
  fun c hc => .error (.invalidArgument c.keyword found reason) c (.refl hc)

theorem Follows.bind {walk : Walk α} {reading : Reading α} {nextWalk : α → Walk β}
    {nextReading : α → Reading β} (h : Follows walk reading)
    (hnext : ∀ a, Follows (nextWalk a) (nextReading a)) :
    Follows (walk >>= nextWalk) (reading >>= nextReading) := by
  intro c hc
  have hfirst := h c hc
  change Agrees c (EStateM.bind walk nextWalk c) (EStateM.bind reading nextReading c.arguments)
  unfold EStateM.bind
  generalize walk c = r, reading c.arguments = r' at hfirst
  cases hfirst with
  -- The second walk starts where the first one ended, which is not behind the end.
  | ok a c' hleads => exact .of_leads hleads (hnext a c' hleads.inside)
  | error error c' hleads => exact .error error c' hleads

theorem next_cases (c : Cursor) :
    (c.tokens[c.index]? = none ∧ c.arguments = ⟨c.keyword, []⟩) ∨
      ∃ token, c.tokens[c.index]? = some token ∧
        c.arguments = ⟨c.keyword, token :: c.advance.arguments.unread⟩ := by
  cases h : c.tokens[c.index]? with
  | none =>
    refine .inl ⟨rfl, ?_⟩
    rw [arguments, List.drop_eq_nil_of_le (List.getElem?_eq_none_iff.mp h)]
  | some token =>
    obtain ⟨hlt, rfl⟩ := List.getElem?_eq_some_iff.mp h
    refine .inr ⟨_, rfl, ?_⟩
    rw [arguments, List.drop_eq_getElem_cons hlt]
    rfl

theorem follows_peek : Follows peek Reading.peek := by
  intro c hc
  have hhead : c.arguments.unread.head? = c.tokens[c.index]? := List.head?_drop
  rw [peek, Reading.peek, hhead]
  exact .ok _ c (.refl hc)

theorem follows_isEmpty : Follows isEmpty Reading.isEmpty := by
  intro c hc
  have hempty : c.arguments.unread.isEmpty = decide (c.tokens.length ≤ c.index) := by
    rw [Bool.eq_iff_iff, List.isEmpty_iff, decide_eq_true_iff]
    exact List.drop_eq_nil_iff
  rw [isEmpty, Reading.isEmpty, hempty]
  exact .ok _ c (.refl hc)

theorem follows_next : Follows next Reading.next := by
  intro c hc
  rcases c.next_cases with ⟨hindex, harguments⟩ | ⟨token, hindex, harguments⟩
  · simp only [next, Reading.next, hindex, harguments]
    rw [List.tail_nil, ← harguments]
    exact .ok none c (.refl hc)
  · simp only [next, Reading.next, hindex, harguments]
    exact .ok (some token) c.advance (.advance hindex)

theorem follows_accept (literal : String) : Follows (accept literal) (Reading.accept literal) := by
  intro c hc
  rcases c.next_cases with ⟨hindex, harguments⟩ | ⟨token, hindex, harguments⟩
  · simp only [accept, Reading.accept, hindex, harguments]
    rw [← harguments]
    exact .ok false c (.refl hc)
  · simp only [accept, Reading.accept, hindex, harguments]
    split
    · exact .ok true c.advance (.advance hindex)
    · rw [← harguments]
      exact .ok false c (.refl hc)

theorem follows_finish : Follows finish Reading.finish := by
  intro c hc
  rcases c.next_cases with ⟨hindex, harguments⟩ | ⟨token, hindex, harguments⟩
  · simp only [finish, Reading.finish, hindex, harguments]
    rw [← harguments]
    exact .ok () c (.refl hc)
  · simp only [finish, Reading.finish, hindex, harguments]
    rw [← harguments]
    exact .error _ c (.refl hc)

theorem follows_all : Follows all Reading.all := by
  intro c hc
  have hend : ({ c.arguments with unread := [] } : Arguments) =
      arguments { c with index := c.tokens.length } := by
    change _ = Arguments.mk c.keyword (c.tokens.drop c.tokens.length)
    rw [List.drop_length]
    rfl
  rw [all, if_pos hc, Reading.all, hend]
  exact .ok _ _ ⟨rfl, rfl, hc, Nat.le_refl _⟩

theorem follows_expect (expected : String) : Follows (expect expected) (Reading.expect expected) := by
  rw [expect_eq]
  refine follows_next.bind fun token => ?_
  cases token with
  | none => exact follows_missing expected
  | some token => exact follows_pure token.text

theorem follows_expectLiteral (literal : String) :
    Follows (expectLiteral literal) (Reading.expectLiteral literal) := by
  rw [expectLiteral_eq]
  refine (follows_accept literal).bind fun taken => ?_
  cases taken with
  | true => exact follows_pure ()
  | false =>
    refine follows_peek.bind fun token => ?_
    cases token with
    | none => exact follows_missing literal
    | some token => exact follows_invalid _ _

theorem follows_expectBlock (expected : String) :
    Follows (expectBlock expected) (Reading.expectBlock expected) := by
  rw [expectBlock_eq]
  refine follows_next.bind fun token => ?_
  cases token with
  | none => exact follows_missing expected
  | some token =>
    cases token with
    | block body => exact follows_pure body
    | word text | quoted text => exact follows_invalid _ _

/-- The tokens from the index on exist where all of them are taken. -/
theorem follows_rest (expected : String) : Follows (rest expected) (Reading.rest expected) := by
  rw [rest_eq]
  refine follows_isEmpty.bind fun ended => ?_
  cases ended with
  | true => exact follows_missing expected
  | false => exact follows_all.bind fun tokens => follows_pure (Token.joined tokens)

theorem follows_location : Follows location Reading.location := by
  refine (follows_expect _).bind fun found => ?_
  cases Location.ofText found with
  | ok location => exact follows_pure location
  | error error => exact follows_invalid _ _

theorem follows_collectionOp : Follows collectionOp Reading.collectionOp := by
  rw [collectionOp_eq]
  refine (follows_expect _).bind fun found => ?_
  split
  · exact follows_pure CollectionOp.add
  · split
    · exact follows_pure CollectionOp.remove
    · exact follows_invalid _ _

end Cursor
end ScriptedActors
