import ScriptedActors.Proofs.Statement.Cursor
import ScriptedActors.Proofs.Statement.Recognition

set_option autoImplicit false

/-!
# Calls that read the arguments of a statement

Whatever is called on the arguments of a keyword, in whatever order and with whatever success, the tokens
are read from the front and none of them twice. A call leaves all tokens, takes the next one, or, where
the rest is asked for, takes all. A token that was taken is what the call gives, or its text, or what the
text stands for, or it is the argument that the call finds wrong. Where the tokens are all kept and an index
says how many were taken, the index never goes back and never goes behind the end.
-/
namespace ScriptedActors
open Reading

namespace Reading

section Refusals
variable (keyword : String) {token : Token} (rest : List Token)

theorem expectLiteral_unmatched {literal : String} (h : isWord literal token = false) :
    expectLiteral literal ⟨keyword, token :: rest⟩ =
      .error (.invalidArgument keyword token.text s!"expected '{literal}'") ⟨keyword, token :: rest⟩ := by
  simp only [expectLiteral, h, Bool.false_eq_true, if_false]
  rfl

theorem location_refused {error : FieldsError} (h : Location.ofText token.text = .error error) :
    location ⟨keyword, token :: rest⟩ =
      .error (.invalidArgument keyword token.text error.message) ⟨keyword, rest⟩ := by
  refine (bind_eq_error ..).mpr (.inr ⟨token.text, ⟨keyword, rest⟩, rfl, ?_⟩)
  rw [h]
  rfl

theorem collectionOp_refused (h : ∀ op : CollectionOp, ¬token.Says op.words) :
    collectionOp ⟨keyword, token :: rest⟩ =
      .error (.invalidArgument keyword token.text "expected 'add' or 'remove'") ⟨keyword, rest⟩ := by
  have hadd : ¬Text.sameName "add" token.text = true :=
    fun hsame => h .add ⟨"add", List.mem_singleton_self _, hsame⟩
  have hremove : ¬Text.sameName "remove" token.text = true :=
    fun hsame => h .remove ⟨"remove", List.mem_singleton_self _, hsame⟩
  rw [collectionOp_eq]
  refine (bind_eq_error ..).mpr (.inr ⟨token.text, ⟨keyword, rest⟩, rfl, ?_⟩)
  rw [if_neg hadd, if_neg hremove]
  rfl

end Refusals

inductive Call where
  | peek
  | isEmpty
  | next
  | expect (expected : String)
  | accept (literal : String)
  | expectLiteral (literal : String)
  | expectBlock (expected : String)
  | rest (expected : String)
  | location
  | collectionOp
  | finish

inductive Answer where
  | token (token : Option Token)
  | flag (value : Bool)
  | text (text : String)
  | location (location : Location)
  | op (op : CollectionOp)
  | done

namespace Call

def reading : Call → Reading Answer
  | .peek => do return .token (← Reading.peek)
  | .isEmpty => do return .flag (← Reading.isEmpty)
  | .next => do return .token (← Reading.next)
  | .expect expected => do return .text (← Reading.expect expected)
  | .accept literal => do return .flag (← Reading.accept literal)
  | .expectLiteral literal => do Reading.expectLiteral literal; return .done
  | .expectBlock expected => do return .text (← Reading.expectBlock expected)
  | .rest expected => do return .text (← Reading.rest expected)
  | .location => do return .location (← Reading.location)
  | .collectionOp => do return .op (← Reading.collectionOp)
  | .finish => do Reading.finish; return .done

def walk : Call → Cursor.Walk Answer
  | .peek => do return .token (← Cursor.peek)
  | .isEmpty => do return .flag (← Cursor.isEmpty)
  | .next => do return .token (← Cursor.next)
  | .expect expected => do return .text (← Cursor.expect expected)
  | .accept literal => do return .flag (← Cursor.accept literal)
  | .expectLiteral literal => do Cursor.expectLiteral literal; return .done
  | .expectBlock expected => do return .text (← Cursor.expectBlock expected)
  | .rest expected => do return .text (← Cursor.rest expected)
  | .location => do return .location (← Cursor.location)
  | .collectionOp => do return .op (← Cursor.collectionOp)
  | .finish => do Cursor.finish; return .done

theorem follows_walk (call : Call) : Cursor.Follows call.walk call.reading := by
  cases call with
  | peek => exact Cursor.follows_peek.bind fun token => Cursor.follows_pure _
  | isEmpty => exact Cursor.follows_isEmpty.bind fun ended => Cursor.follows_pure _
  | next => exact Cursor.follows_next.bind fun token => Cursor.follows_pure _
  | expect expected => exact (Cursor.follows_expect _).bind fun text => Cursor.follows_pure _
  | accept literal => exact (Cursor.follows_accept _).bind fun taken => Cursor.follows_pure _
  | expectLiteral literal => exact (Cursor.follows_expectLiteral _).bind fun _ => Cursor.follows_pure _
  | expectBlock expected => exact (Cursor.follows_expectBlock _).bind fun body => Cursor.follows_pure _
  | rest expected => exact (Cursor.follows_rest _).bind fun text => Cursor.follows_pure _
  | location => exact Cursor.follows_location.bind fun location => Cursor.follows_pure _
  | collectionOp => exact Cursor.follows_collectionOp.bind fun op => Cursor.follows_pure _
  | finish => exact Cursor.follows_finish.bind fun _ => Cursor.follows_pure _

inductive Looks : Call → Prop
  | peek : Looks .peek
  | isEmpty : Looks .isEmpty
  | finish : Looks .finish

inductive Awaits : Call → String → Prop
  | expect (expected : String) : Awaits (.expect expected) expected
  | expectLiteral (literal : String) : Awaits (.expectLiteral literal) literal
  | expectBlock (expected : String) : Awaits (.expectBlock expected) expected
  | rest (expected : String) : Awaits (.rest expected) expected
  | location : Awaits .location "a location (world,x,y,z)"
  | collectionOp : Awaits .collectionOp "'add' or 'remove'"

inductive Shows (token : Token) : Call → Answer → Prop
  | next : Shows token .next (.token (some token))
  | expect (expected : String) : Shows token (.expect expected) (.text token.text)
  | accept (literal : String) (h : isWord literal token = true) :
      Shows token (.accept literal) (.flag true)
  | expectLiteral (literal : String) (h : isWord literal token = true) :
      Shows token (.expectLiteral literal) .done
  | expectBlock (expected body : String) (h : token = .block body) :
      Shows token (.expectBlock expected) (.text body)
  | location (l : Location) (h : Location.ofText token.text = .ok l) :
      Shows token .location (.location l)
  | collectionOp (op : CollectionOp) (h : token.Says op.words) : Shows token .collectionOp (.op op)

/-- What a call gives that is there to take a token, and takes none. -/
inductive Declines (s : Arguments) : Call → Answer → Prop
  | next (h : s.unread = []) : Declines s .next (.token none)
  | accept (literal : String) (h : LacksWord literal s.unread) :
      Declines s (.accept literal) (.flag false)

inductive Refuses (token : Token) : Call → String → Prop
  | expectBlock (expected : String) (h : ∀ body, token ≠ .block body) :
      Refuses token (.expectBlock expected) "expected a \x7b ... \x7d block"
  | location (error : FieldsError) (h : Location.ofText token.text = .error error) :
      Refuses token .location error.message
  | collectionOp (h : ∀ op : CollectionOp, ¬token.Says op.words) :
      Refuses token .collectionOp "expected 'add' or 'remove'"

inductive Stays (s : Arguments) : Call → Except StatementError Answer → Prop
  | peek : Stays s .peek (.ok (.token s.unread.head?))
  | isEmpty : Stays s .isEmpty (.ok (.flag s.unread.isEmpty))
  | finished (h : s.unread = []) : Stays s .finish (.ok .done)
  | trailing (token : Token) (rest : List Token) (h : s.unread = token :: rest) :
      Stays s .finish (.error (.trailing s.keyword token.text))
  | ended (h : s.unread = []) : Stays s .next (.ok (.token none))
  | refused (literal : String) (h : LacksWord literal s.unread) :
      Stays s (.accept literal) (.ok (.flag false))
  | unmatched (literal : String) (token : Token) (rest : List Token) (h : s.unread = token :: rest)
      (hword : isWord literal token = false) : Stays s (.expectLiteral literal)
        (.error (.invalidArgument s.keyword token.text s!"expected '{literal}'"))
  | missing (call : Call) (expected : String) (hawaits : call.Awaits expected) (h : s.unread = []) :
      Stays s call (.error (.missingArgument s.keyword expected))

/-- How a call ends, and what it leaves of the arguments. -/
inductive Moves (s : Arguments) (call : Call) : Except StatementError Answer × Arguments → Prop
  | stays (answer : Except StatementError Answer) (h : Stays s call answer) : Moves s call (answer, s)
  | shows (token : Token) (rest : List Token) (hunread : s.unread = token :: rest) (a : Answer)
      (h : Shows token call a) : Moves s call (.ok a, ⟨s.keyword, rest⟩)
  | refuses (token : Token) (rest : List Token) (hunread : s.unread = token :: rest) (reason : String)
      (h : Refuses token call reason) :
      Moves s call (.error (.invalidArgument s.keyword token.text reason), ⟨s.keyword, rest⟩)
  | all (expected : String) (hcall : call = .rest expected) (h : s.unread ≠ []) :
      Moves s call (.ok (.text (Token.joined s.unread)), ⟨s.keyword, []⟩)

theorem moves_ended (keyword : String) (call : Call) :
    Moves ⟨keyword, []⟩ call (call.reading.outcome ⟨keyword, []⟩) := by
  cases call with
  | peek => exact .stays _ .peek
  | isEmpty => exact .stays _ .isEmpty
  | next => exact .stays _ (.ended rfl)
  | expect expected => exact .stays _ (.missing _ _ (.expect expected) rfl)
  | accept literal => exact .stays _ (.refused literal (by simp [LacksWord]))
  | expectLiteral literal => exact .stays _ (.missing _ _ (.expectLiteral literal) rfl)
  | expectBlock expected => exact .stays _ (.missing _ _ (.expectBlock expected) rfl)
  | rest expected => exact .stays _ (.missing _ _ (.rest expected) rfl)
  | location => exact .stays _ (.missing _ _ .location rfl)
  | collectionOp => exact .stays _ (.missing _ _ .collectionOp rfl)
  | finish => exact .stays _ (.finished rfl)

section Outcomes
variable {α : Type} {read : Reading α} {s s' : Arguments}

theorem outcome_of_ok (give : α → Answer) {a : α} (h : read s = .ok a s') :
    outcome (do return give (← read)) s = (.ok (give a), s') := by
  have hbind : (do return give (← read) : Reading Answer) s = .ok (give a) s' :=
    (bind_eq_ok ..).mpr ⟨a, s', h, rfl⟩
  rw [outcome, hbind]

theorem outcome_of_error (give : α → Answer) {e : StatementError} (h : read s = .error e s') :
    outcome (do return give (← read)) s = (.error e, s') := by
  have hbind : (do return give (← read) : Reading Answer) s = .error e s' :=
    (bind_eq_error ..).mpr (.inl h)
  rw [outcome, hbind]

end Outcomes

section Front
variable (keyword : String) (token : Token) (rest : List Token)

theorem moves_accept (literal : String) : Moves ⟨keyword, token :: rest⟩ (.accept literal)
    ((Call.accept literal).reading.outcome ⟨keyword, token :: rest⟩) := by
  cases hword : isWord literal token with
  | true =>
    have hread := (accept_eq_ok literal ⟨keyword, token :: rest⟩ ⟨keyword, rest⟩ true).mpr
      (.inl ⟨rfl, token, rest, rfl, hword, rfl⟩)
    rw [reading, outcome_of_ok _ hread]
    exact .shows token rest rfl _ (.accept literal hword)
  | false =>
    have hlacks : LacksWord literal (token :: rest) := by simpa [LacksWord] using hword
    have hread := (accept_eq_ok literal ⟨keyword, token :: rest⟩ _ false).mpr (.inr ⟨rfl, hlacks, rfl⟩)
    rw [reading, outcome_of_ok _ hread]
    exact .stays _ (.refused literal hlacks)

theorem moves_expectLiteral (literal : String) : Moves ⟨keyword, token :: rest⟩ (.expectLiteral literal)
    ((Call.expectLiteral literal).reading.outcome ⟨keyword, token :: rest⟩) := by
  cases hword : isWord literal token with
  | true =>
    have hread := (expectLiteral_eq_ok literal ⟨keyword, token :: rest⟩ ⟨keyword, rest⟩ ()).mpr
      ⟨token, rest, rfl, hword, rfl⟩
    rw [reading, outcome_of_ok _ hread]
    exact .shows token rest rfl _ (.expectLiteral literal hword)
  | false =>
    rw [reading, outcome_of_error _ (expectLiteral_unmatched keyword rest hword)]
    exact .stays _ (.unmatched literal token rest rfl hword)

theorem moves_location : Moves ⟨keyword, token :: rest⟩ .location
    (Call.location.reading.outcome ⟨keyword, token :: rest⟩) := by
  cases hl : Location.ofText token.text with
  | ok l =>
    have hread := (location_eq_ok ⟨keyword, token :: rest⟩ ⟨keyword, rest⟩ l).mpr
      ⟨token, rest, rfl, hl, rfl⟩
    rw [reading, outcome_of_ok _ hread]
    exact .shows token rest rfl _ (.location l hl)
  | error error =>
    rw [reading, outcome_of_error _ (location_refused keyword rest hl)]
    exact .refuses token rest rfl _ (.location error hl)

theorem moves_collectionOp : Moves ⟨keyword, token :: rest⟩ .collectionOp
    (Call.collectionOp.reading.outcome ⟨keyword, token :: rest⟩) := by
  by_cases hsays : ∃ op : CollectionOp, token.Says op.words
  · obtain ⟨op, hop⟩ := hsays
    have hread := (collectionOp_eq_ok ⟨keyword, token :: rest⟩ ⟨keyword, rest⟩ op).mpr
      ⟨token, rest, rfl, hop, rfl⟩
    rw [reading, outcome_of_ok _ hread]
    exact .shows token rest rfl _ (.collectionOp op hop)
  · have hnot := not_exists.mp hsays
    rw [reading, outcome_of_error _ (collectionOp_refused keyword rest hnot)]
    exact .refuses token rest rfl _ (.collectionOp hnot)

end Front

theorem moves_next (keyword : String) (token : Token) (rest : List Token) (call : Call) :
    Moves ⟨keyword, token :: rest⟩ call (call.reading.outcome ⟨keyword, token :: rest⟩) := by
  cases call with
  | peek => exact .stays _ .peek
  | isEmpty => exact .stays _ .isEmpty
  | next => exact .shows token rest rfl _ .next
  | expect expected => exact .shows token rest rfl _ (.expect expected)
  | accept literal => exact moves_accept keyword token rest literal
  | expectLiteral literal => exact moves_expectLiteral keyword token rest literal
  | expectBlock expected =>
    cases token with
    | block body => exact .shows _ rest rfl _ (.expectBlock expected body rfl)
    | word text | quoted text => exact .refuses _ rest rfl _ (.expectBlock expected nofun)
  | rest expected => exact .all expected rfl (List.cons_ne_nil _ _)
  | location => exact moves_location keyword token rest
  | collectionOp => exact moves_collectionOp keyword token rest
  | finish => exact .stays _ (.trailing token rest rfl)

theorem moves (call : Call) (s : Arguments) : Moves s call (call.reading.outcome s) := by
  obtain ⟨keyword, unread⟩ := s
  cases unread with
  | nil => exact moves_ended keyword call
  | cons token rest => exact moves_next keyword token rest call

namespace Moves
variable {s s' : Arguments} {call : Call} {a : Answer} {e : StatementError}

theorem of_looks {answer : Except StatementError Answer} (h : Moves s call (answer, s'))
    (hlooks : Looks call) : s' = s := by
  cases h with
  | stays _ _ => rfl
  | shows token rest hunread a hshows => cases hlooks <;> cases hshows
  | refuses token rest hunread reason hrefuses => cases hlooks <;> cases hrefuses
  | all expected hcall hne =>
    subst hcall
    cases hlooks

theorem of_refused {literal : String} (h : Moves s (.accept literal) (.ok (.flag false), s')) :
    s' = s := by
  cases h with
  | stays _ _ => rfl
  | shows token rest hunread a hshows => cases hshows

theorem of_unmatched {literal : String} (h : Moves s (.expectLiteral literal) (.error e, s')) :
    s' = s := by
  cases h with
  | stays _ _ => rfl
  | refuses token rest hunread reason hrefuses => cases hrefuses

theorem of_missing {keyword expected : String}
    (h : Moves s call (.error (.missingArgument keyword expected), s')) : s' = s := by
  cases h
  rfl

theorem of_rest {expected : String} (h : Moves s (.rest expected) (.ok a, s')) :
    s'.unread = [] ∧ a = .text (Token.joined s.unread) := by
  cases h with
  | stays _ hstays => cases hstays
  | shows token rest hunread a hshows => cases hshows
  | all _ _ hne => exact ⟨rfl, rfl⟩

theorem of_ok (h : Moves s call (.ok a, s')) (hlooks : ¬Looks call)
    (hrest : ∀ expected, call ≠ .rest expected) :
    (s' = s ∧ Declines s call a) ∨ ∃ token, s.unread = token :: s'.unread ∧ Shows token call a := by
  cases h with
  | stays _ hstays =>
    refine .inl ⟨rfl, ?_⟩
    cases hstays with
    | peek => exact absurd .peek hlooks
    | isEmpty => exact absurd .isEmpty hlooks
    | finished hunread => exact absurd .finish hlooks
    | ended hunread => exact .next hunread
    | refused literal hlacks => exact .accept literal hlacks
  | shows token rest hunread a hshows => exact .inr ⟨token, hunread, hshows⟩
  | all expected hcall hne => exact absurd hcall (hrest expected)

theorem of_error (h : Moves s call (.error e, s')) :
    s' = s ∨ ∃ token reason, s.unread = token :: s'.unread ∧ Refuses token call reason ∧
      e = .invalidArgument s.keyword token.text reason := by
  cases h with
  | stays _ hstays => exact .inl rfl
  | refuses token rest hunread reason hrefuses => exact .inr ⟨token, reason, hunread, hrefuses, rfl⟩

end Moves
end Call

def after (s : Arguments) (calls : List Call) : Arguments :=
  calls.foldl (fun s call => (call.reading.outcome s).2) s

def cursorAfter (c : Cursor) (calls : List Call) : Cursor :=
  calls.foldl (fun c call => (call.walk.outcome c).2) c

/-- The arguments of a keyword are those of its tokens that stand behind the index of a cursor, and the
index is not behind the end. -/
structure Stands (keyword : String) (tokens : List Token) (c : Cursor) (s : Arguments) : Prop where
  keyword_eq : c.keyword = keyword
  tokens_eq : c.tokens = tokens
  inside : c.index ≤ tokens.length
  arguments : s = ⟨keyword, tokens.drop c.index⟩

namespace Stands
variable {keyword : String} {tokens : List Token} {c c' : Cursor} {s s' : Arguments} {token : Token}

theorem start (keyword : String) (tokens : List Token) :
    Stands keyword tokens (.start keyword tokens) ⟨keyword, tokens⟩ := ⟨rfl, rfl, Nat.zero_le _, rfl⟩

theorem arguments_eq (h : Stands keyword tokens c s) : c.arguments = s := by
  rw [h.arguments, Cursor.arguments, h.keyword_eq, h.tokens_eq]

theorem leads (h : Stands keyword tokens c s) (hleads : c.Leads c') :
    Stands keyword tokens c' c'.arguments := by
  have htokens := hleads.tokens.trans h.tokens_eq
  have hkeyword := hleads.keyword.trans h.keyword_eq
  refine ⟨hkeyword, htokens, htokens ▸ hleads.inside, ?_⟩
  rw [Cursor.arguments, hkeyword, htokens]

theorem length_unread (h : Stands keyword tokens c s) : s.unread.length = tokens.length - c.index := by
  rw [h.arguments, List.length_drop]

theorem index_eq (h : Stands keyword tokens c s) (h' : Stands keyword tokens c' s') (heq : s' = s) :
    c'.index = c.index := by
  have hlength := h.length_unread
  have hlength' := h'.length_unread
  have hinside := h.inside
  have hinside' := h'.inside
  rw [heq] at hlength'
  omega

theorem index_succ (h : Stands keyword tokens c s) (h' : Stands keyword tokens c' s')
    (hunread : s.unread = token :: s'.unread) :
    c'.index = c.index + 1 ∧ tokens[c.index]? = some token := by
  have hlength := h.length_unread
  have hlength' := h'.length_unread
  have hinside := h.inside
  have hinside' := h'.inside
  have hhead : tokens[c.index]? = s.unread.head? := by rw [h.arguments, List.head?_drop]
  rw [hunread, List.length_cons] at hlength
  rw [hunread] at hhead
  exact ⟨by omega, hhead⟩

end Stands

/-- On a cursor whose index is not behind the end a call gives what it gives on the arguments, so it does
not ask for tokens behind the end, and the index moves on and stays there. -/
theorem outcome_walk (call : Call) (c : Cursor) (h : c.index ≤ c.tokens.length) :
    ∃ answer c', call.walk.outcome c = (answer.mapError .statement, c') ∧
      call.reading.outcome c.arguments = (answer, c'.arguments) ∧ c.Leads c' := by
  have hagrees := call.follows_walk c h
  unfold Cursor.Walk.outcome outcome
  generalize call.walk c = r, call.reading c.arguments = r' at hagrees
  cases hagrees with
  | ok a c' hleads => exact ⟨.ok a, c', rfl, rfl, hleads⟩
  | error error c' hleads => exact ⟨.error error, c', rfl, rfl, hleads⟩

theorem stands_after {keyword : String} {tokens : List Token} {c : Cursor} {s : Arguments}
    (h : Stands keyword tokens c s) (calls : List Call) :
    Stands keyword tokens (cursorAfter c calls) (after s calls) := by
  induction calls generalizing c s with
  | nil => exact h
  | cons call calls ih =>
    -- Whether the call fails does not matter: what it leaves is behind the new index in both cases.
    obtain ⟨answer, c', hwalk, hreading, hleads⟩ := outcome_walk call c (h.tokens_eq ▸ h.inside)
    have hcursor : cursorAfter c (call :: calls) = cursorAfter c' calls := by
      rw [cursorAfter, List.foldl_cons, hwalk]
      rfl
    have harguments : after s (call :: calls) = after c'.arguments calls := by
      rw [after, List.foldl_cons, ← h.arguments_eq, hreading]
      rfl
    rw [hcursor, harguments]
    exact ih (h.leads hleads)

/-- What a call does where the arguments `s` are those behind the index of `c`: it gives `answer` and
leaves `s'` and `c'`. -/
structure Forward (keyword : String) (tokens : List Token) (call : Call) (c : Cursor) (s : Arguments)
    (answer : Except StatementError Answer) (c' : Cursor) (s' : Arguments) : Prop where
  walk : call.walk.outcome c = (answer.mapError .statement, c')
  reading : call.reading.outcome s = (answer, s')
  stood : Stands keyword tokens c s
  stands : Stands keyword tokens c' s'
  onward : c.index ≤ c'.index
  suffix : s'.unread <:+ s.unread
  within : s'.unread <:+ tokens
  looks : Call.Looks call → c'.index = c.index
  refused : ∀ literal, call = .accept literal → answer = .ok (.flag false) → c'.index = c.index
  unmatched : ∀ literal e, call = .expectLiteral literal → answer = .error e → c'.index = c.index
  missing : ∀ keyword expected, answer = .error (.missingArgument keyword expected) → c'.index = c.index
  rest : ∀ expected a, call = .rest expected → answer = .ok a →
    c'.index = tokens.length ∧ a = .text (Token.joined (tokens.drop c.index))
  succeeds : ∀ a, answer = .ok a → ¬Call.Looks call → (∀ expected, call ≠ .rest expected) →
    (c'.index = c.index ∧ Call.Declines s call a) ∨
    (c'.index = c.index + 1 ∧ ∃ token, tokens[c.index]? = some token ∧ Call.Shows token call a)
  fails : ∀ e, answer = .error e → c'.index = c.index ∨
    (c'.index = c.index + 1 ∧ ∃ token reason, tokens[c.index]? = some token ∧
      Call.Refuses token call reason ∧ e = .invalidArgument keyword token.text reason)

/-- Whatever was called before on the tokens of a keyword, with or without success, a call only moves
forward over them. -/
theorem forward_calls (keyword : String) (tokens : List Token) (calls : List Call) (call : Call) :
    ∃ answer c' s', Forward keyword tokens call (cursorAfter (.start keyword tokens) calls)
      (after ⟨keyword, tokens⟩ calls) answer c' s' := by
  have h := stands_after (.start keyword tokens) calls
  generalize cursorAfter (.start keyword tokens) calls = c, after ⟨keyword, tokens⟩ calls = s at h
  obtain ⟨answer, c', hwalk, hreading, hleads⟩ := outcome_walk call c (h.tokens_eq ▸ h.inside)
  rw [h.arguments_eq] at hreading
  have hmoves : Call.Moves s call (answer, c'.arguments) := hreading ▸ call.moves s
  have h' := h.leads hleads
  refine ⟨answer, c', c'.arguments, ?_⟩
  constructor
  case walk => exact hwalk
  case reading => exact hreading
  case stood => exact h
  case stands => exact h'
  case onward => exact hleads.onward
  case suffix =>
    rw [h'.arguments, h.arguments]
    exact List.drop_suffix_drop_left tokens hleads.onward
  case within =>
    rw [h'.arguments]
    exact List.drop_suffix c'.index tokens
  case looks => exact fun hlooks => h.index_eq h' (hmoves.of_looks hlooks)
  case refused =>
    rintro literal rfl rfl
    exact h.index_eq h' hmoves.of_refused
  case unmatched =>
    rintro literal e rfl rfl
    exact h.index_eq h' hmoves.of_unmatched
  case missing =>
    rintro other expected rfl
    exact h.index_eq h' hmoves.of_missing
  case rest =>
    rintro expected a rfl rfl
    obtain ⟨hunread, htext⟩ := hmoves.of_rest
    rw [h.arguments] at htext
    have hlength := h'.length_unread
    have hinside := h'.inside
    rw [hunread, List.length_nil] at hlength
    exact ⟨by omega, htext⟩
  case succeeds =>
    rintro a rfl hlooks hrest
    rcases hmoves.of_ok hlooks hrest with ⟨heq, hdeclines⟩ | ⟨token, hunread, hshows⟩
    · exact .inl ⟨h.index_eq h' heq, hdeclines⟩
    · obtain ⟨hindex, htoken⟩ := h.index_succ h' hunread
      exact .inr ⟨hindex, token, htoken, hshows⟩
  case fails =>
    rintro e rfl
    rcases hmoves.of_error with heq | ⟨token, reason, hunread, hrefuses, rfl⟩
    · exact .inl (h.index_eq h' heq)
    · obtain ⟨hindex, htoken⟩ := h.index_succ h' hunread
      rw [h.arguments]
      exact .inr ⟨hindex, token, reason, htoken, hrefuses, rfl⟩

/-- A word that is no block is lost to the call that wanted a block, and not to one that wanted another
word. -/
example : after ⟨"listen", [.word "join", .word "to", .word "all", .block "log hi"]⟩
    [.peek, .expect "an event name", .expectBlock "a body", .accept "to", .expectLiteral "to"] =
    ⟨"listen", [.word "all", .block "log hi"]⟩ := by decide

end Reading
end ScriptedActors
