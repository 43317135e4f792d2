import ScriptedActors.Proofs.Statement.Careful
import ScriptedActors.Proofs.Statement.FirstWord

set_option autoImplicit false

/-!
# What the errors of a statement name

A statement is refused because its text does not scan, because it starts with no keyword, because
an argument is missing or wrong, or because tokens are left. Errors about arguments name the first
word as it is written and one of the tokens behind it, an error about tokens that are left the first
of them.
-/
namespace ScriptedActors
open Text Reading KeywordTable

namespace ActionTable

def Unbound (word : String) : Prop := ∀ entry ∈ vocabulary, sameName entry.1 word = false

inductive Foreign : Token → Prop
  | word (text : String) (h : Unbound text) : Foreign (.word text)
  | quoted (text : String) : Foreign (.quoted text)
  | block (text : String) : Foreign (.block text)

theorem resolveAction_eq_error (keyword : String) (e : LookupError) :
    builtin.resolveAction keyword = .error e ↔ Unbound keyword ∧ e = .action keyword := by
  have hnone : builtin.resolve keyword = none ↔ Unbound keyword := by
    simp [resolve, builtin_entries, Unbound]
  rw [← hnone, resolveAction]
  cases builtin.resolve keyword with
  | some reading => simp
  | none => simp [eq_comm]

theorem careful_of_resolveAction {keyword : String} {reading : Reading Action}
    (h : builtin.resolveAction keyword = .ok reading) : Careful reading := by
  obtain ⟨name, hmem, -⟩ := (resolveAction_eq_ok keyword reading).mp h
  exact careful_of_mem _ hmem

structure Opens (statement keyword : String) (arguments : List Token) : Prop where
  scan : Token.scan statement = .ok (.word keyword :: arguments)
  spelled : Token.StartsWith statement.toList keyword

theorem opens_of_scan {statement keyword : String} {arguments : List Token}
    (h : Token.scan statement = .ok (.word keyword :: arguments)) : Opens statement keyword arguments :=
  ⟨h, Token.startsWith_of_scan h⟩

/-- The reader of a keyword takes the first of these tokens and leaves the others; the statement of
those that it took is the same action. -/
structure Stops (keyword : String) (taken left : List Token) (action : Action) : Prop where
  reads : ∃ reading, builtin.resolveAction keyword = .ok reading ∧
    reading ⟨keyword, taken ++ left⟩ = .ok action ⟨keyword, left⟩
  alone : builtin.parseTokens (.word keyword :: taken) = .ok action

/-- Why a statement is refused, and with which error. -/
inductive Refuses (statement : String) : StatementError → Prop
  | unterminated (fault : TokenFault) (hscan : Token.scan statement = .error fault) :
      Refuses statement (.unterminated fault)
  | empty (hscan : Token.scan statement = .ok []) : Refuses statement .empty
  | unknown (first : Token) (arguments : List Token) (hscan : Token.scan statement = .ok (first :: arguments))
      (h : Foreign first) : Refuses statement (.unknown (.action first.text))
  | argument (keyword : String) (arguments : List Token) (e : StatementError)
      (hopens : Opens statement keyword arguments) (h : Blames ⟨keyword, arguments⟩ e) : Refuses statement e
  | trailing (keyword : String) (taken rest : List Token) (token : Token) (action : Action)
      (hopens : Opens statement keyword (taken ++ token :: rest))
      (h : Stops keyword taken (token :: rest) action) : Refuses statement (.trailing keyword token.text)

theorem stops_of_reads {keyword : String} {reading : Reading Action} {arguments : List Token} {action : Action}
    {left : Arguments} (hresolve : builtin.resolveAction keyword = .ok reading)
    (h : reading ⟨keyword, arguments⟩ = .ok action left) :
    left.keyword = keyword ∧ ∃ taken, arguments = taken ++ left.unread ∧ Stops keyword taken left.unread action := by
  obtain ⟨leftKeyword, unread⟩ := left
  obtain ⟨rfl, taken, rfl, htakes⟩ := (careful_of_resolveAction hresolve).takes _ _ _ h
  refine ⟨rfl, taken, rfl, ⟨reading, hresolve, h⟩, ?_⟩
  have halone := htakes [] List.nil_prefix
  rw [List.append_nil] at halone
  rw [parseTokens, hresolve]
  exact (complete_outcome_eq_ok reading _ action).mpr ⟨_, halone, rfl⟩

theorem refuses_of_parse_eq_error {statement : String} {e : StatementError}
    (h : builtin.parse statement = .error e) : Refuses statement e := by
  cases hscan : Token.scan statement with
  | error fault =>
    rw [parse, hscan] at h
    cases h
    exact .unterminated fault hscan
  | ok tokens =>
    rw [parse_of_scan builtin hscan] at h
    rcases tokens with _ | ⟨first, arguments⟩
    · cases h
      exact .empty hscan
    cases first with
    | quoted text =>
      cases h
      exact .unknown _ arguments hscan (.quoted text)
    | block text =>
      cases h
      exact .unknown _ arguments hscan (.block text)
    | word keyword =>
      -- Only a bare word that is bound gets to a reader.
      have hopens := opens_of_scan hscan
      cases hresolve : builtin.resolveAction keyword with
      | error error =>
        rw [parseTokens, hresolve] at h
        cases h
        obtain ⟨hunbound, rfl⟩ := (resolveAction_eq_error keyword error).mp hresolve
        exact .unknown (.word keyword) arguments hscan (.word keyword hunbound)
      | ok reading =>
        rw [parseTokens, hresolve] at h
        rcases (complete_outcome_eq_error reading _ e).mp h with
          ⟨left, hread⟩ | ⟨action, left, token, rest, hread, hunread, rfl⟩
        · exact .argument keyword arguments e hopens ((careful_of_resolveAction hresolve).blames _ _ _ hread)
        · obtain ⟨hkeyword, taken, rfl, hstops⟩ := stops_of_reads hresolve hread
          rw [hkeyword]
          rw [hunread] at hopens hstops
          exact .trailing keyword taken rest token action hopens hstops

theorem parse_of_foreign {statement : String} {first : Token} {arguments : List Token}
    (hscan : Token.scan statement = .ok (first :: arguments)) (h : Foreign first) :
    builtin.parse statement = .error (.unknown (.action first.text)) := by
  rw [parse_of_scan builtin hscan]
  cases h with
  | quoted text => rfl
  | block text => rfl
  | word keyword hunbound => rw [parseTokens, (resolveAction_eq_error keyword _).mpr ⟨hunbound, rfl⟩]; rfl

theorem parse_of_stops {statement keyword : String} {taken rest : List Token} {token : Token} {action : Action}
    (hopens : Opens statement keyword (taken ++ token :: rest))
    (h : Stops keyword taken (token :: rest) action) :
    builtin.parse statement = .error (.trailing keyword token.text) := by
  obtain ⟨reading, hresolve, hread⟩ := h.reads
  rw [parse_of_scan builtin hopens.scan, parseTokens, hresolve]
  exact (complete_outcome_eq_error reading _ _).mpr (.inr ⟨action, _, token, rest, hread, rfl, rfl⟩)

structure Explains (statement : String) : Prop where
  empty : builtin.parse statement = .error .empty ↔ Token.scan statement = .ok []
  unknown : ∀ e, builtin.parse statement = .error (.unknown e) ↔
    ∃ first arguments, Token.scan statement = .ok (first :: arguments) ∧ Foreign first ∧
      e = .action first.text
  spelled : ∀ word arguments, Token.scan statement = .ok (.word word :: arguments) →
    Token.StartsWith statement.toList word
  missing : ∀ keyword expected, builtin.parse statement = .error (.missingArgument keyword expected) →
    ∃ arguments, Opens statement keyword arguments
  invalid : ∀ keyword found reason,
    builtin.parse statement = .error (.invalidArgument keyword found reason) →
      ∃ arguments, Opens statement keyword arguments ∧ ∃ token ∈ arguments, found = token.text
  trailing : ∀ keyword found, builtin.parse statement = .error (.trailing keyword found) ↔
    ∃ taken token rest action, Opens statement keyword (taken ++ token :: rest) ∧
      Stops keyword taken (token :: rest) action ∧ found = token.text

/-- Every error of a statement names the right word and the right token. -/
theorem explains_parse (statement : String) : Explains statement where
  empty := by
    constructor
    · intro h
      cases refuses_of_parse_eq_error h with
      | empty hscan => exact hscan
      | argument keyword arguments e hopens hblames => cases hblames
    · intro hscan
      rw [parse_of_scan builtin hscan, parseTokens]
  unknown e := by
    constructor
    · intro h
      cases refuses_of_parse_eq_error h with
      | unknown first arguments hscan hforeign => exact ⟨first, arguments, hscan, hforeign, rfl⟩
      | argument keyword arguments e hopens hblames => cases hblames
    · rintro ⟨first, arguments, hscan, hforeign, rfl⟩
      exact parse_of_foreign hscan hforeign
  spelled _ _ hscan := Token.startsWith_of_scan hscan
  missing keyword expected h := by
    cases refuses_of_parse_eq_error h with
    | argument _ arguments _ hopens hblames =>
      cases hblames with
      | missing => exact ⟨arguments, hopens⟩
  invalid keyword found reason h := by
    cases refuses_of_parse_eq_error h with
    | argument _ arguments _ hopens hblames =>
      cases hblames with
      | invalid token reason hmem => exact ⟨arguments, hopens, token, hmem, rfl⟩
  trailing keyword found := by
    constructor
    · intro h
      cases refuses_of_parse_eq_error h with
      | argument _ arguments _ hopens hblames => cases hblames
      | trailing _ taken rest token action hopens hstops =>
        exact ⟨taken, token, rest, action, hopens, hstops, rfl⟩
    · rintro ⟨taken, token, rest, action, hopens, hstops, rfl⟩
      exact parse_of_stops hopens hstops

-- A keyword in quotation marks is no keyword.
example : builtin.parse "\"wait\" 5" = .error (.unknown (.action "wait")) := rfl

end ActionTable
end ScriptedActors
