import Mathlib
import ScriptedActors.Proofs.Statement.Recognition

set_option autoImplicit false

/-!
# The statements of the grammar

The built-in table binds every keyword to a reader that recognises the production of the keyword,
so a statement is parsed exactly if its arguments match that production completely.
-/
namespace ScriptedActors
open Text Reading KeywordTable

namespace Production

def ofKeyword : List (String × Production) :=
  [("log", Rest .log), ("wait", Wait), ("js", One .js), ("set", Set), ("get", One .get),
    ("run", One .run), ("check", Check), ("pause", Bare .pause), ("terminate", Bare .terminate),
    ("respawn", Bare .respawn), ("destroy", Bare .destroy), ("remove", Bare .remove),
    ("delete", Bare .delete), ("still", Bare .stopMoving), ("sleeping", Bare .sleeping),
    ("use", Select), ("select", Select), ("create", Create), ("look", Look), ("move", Place .move),
    ("teleport", Place .teleport), ("tag", Tag), ("meta", Metadata), ("animation", One .animation),
    ("viewer", Collection .viewer), ("passenger", Collection .passenger),
    ("controller", Collection .controller), ("event", Event), ("listen", Listen),
    ("command", Command), ("continue", Bare .proceed), ("permission", One .permission),
    ("placeholder", Rest .placeholder)]

end Production

namespace ActionTable

theorem vocabulary_distinct : Distinct vocabulary := by
  have hnames : (vocabulary.map Prod.fst).Pairwise fun a b => sameName a b = false := by decide
  exact List.pairwise_map.mp hnames

theorem builtin_entries : builtin.entries = vocabulary := by
  rw [builtin, entries_registerAll vocabulary empty vocabulary_distinct]
  rfl

/-- Keyword by keyword, the reader in the vocabulary recognises the production. -/
theorem vocabulary_recognises :
    List.Forall₂ (fun entry production => entry.1 = production.1 ∧ Recognises entry.2 production.2)
      vocabulary Production.ofKeyword := by
  unfold vocabulary Production.ofKeyword
  refine .cons ⟨rfl, recognises_rest _ _⟩ <| .cons ⟨rfl, recognises_wait⟩ <|
    .cons ⟨rfl, recognises_one _ _⟩ <| .cons ⟨rfl, recognises_set⟩ <|
    .cons ⟨rfl, recognises_one _ _⟩ <| .cons ⟨rfl, recognises_one _ _⟩ <|
    .cons ⟨rfl, recognises_check⟩ <| .cons ⟨rfl, recognises_bare _⟩ <|
    .cons ⟨rfl, recognises_bare _⟩ <| .cons ⟨rfl, recognises_bare _⟩ <|
    .cons ⟨rfl, recognises_bare _⟩ <| .cons ⟨rfl, recognises_bare _⟩ <|
    .cons ⟨rfl, recognises_bare _⟩ <| .cons ⟨rfl, recognises_bare _⟩ <|
    .cons ⟨rfl, recognises_bare _⟩ <| .cons ⟨rfl, recognises_select⟩ <|
    .cons ⟨rfl, recognises_select⟩ <| .cons ⟨rfl, recognises_create⟩ <|
    .cons ⟨rfl, recognises_look⟩ <| .cons ⟨rfl, recognises_place _⟩ <|
    .cons ⟨rfl, recognises_place _⟩ <| .cons ⟨rfl, recognises_tag⟩ <|
    .cons ⟨rfl, recognises_metadata⟩ <| .cons ⟨rfl, recognises_one _ _⟩ <|
    .cons ⟨rfl, recognises_collection _ _⟩ <| .cons ⟨rfl, recognises_collection _ _⟩ <|
    .cons ⟨rfl, recognises_collection _ _⟩ <| .cons ⟨rfl, recognises_event⟩ <|
    .cons ⟨rfl, recognises_listen⟩ <| .cons ⟨rfl, recognises_command⟩ <|
    .cons ⟨rfl, recognises_bare _⟩ <| .cons ⟨rfl, recognises_one _ _⟩ <|
    .cons ⟨rfl, recognises_rest _ _⟩ .nil

theorem recognised_of_mem {name : String} {production : Production}
    (h : (name, production) ∈ Production.ofKeyword) :
    ∃ reading, (name, reading) ∈ vocabulary ∧ Recognises reading production := by
  have hall := vocabulary_recognises
  generalize vocabulary = entries at hall ⊢
  generalize Production.ofKeyword = productions at hall h
  induction hall with
  | nil => simp at h
  | cons hentry _ ih =>
    rcases List.mem_cons.mp h with rfl | hmem
    · exact ⟨_, List.mem_cons.mpr (.inl (Prod.ext hentry.1.symm rfl)), hentry.2⟩
    · obtain ⟨reading, hreading, hrecognises⟩ := ih hmem
      exact ⟨reading, List.mem_cons_of_mem _ hreading, hrecognises⟩

theorem complete_outcome_eq_ok (reading : Reading Action) (s : Arguments) (a : Action) :
    ((complete reading).outcome s).1 = .ok a ↔ ∃ left, reading s = .ok a left ∧ left.unread = [] := by
  have hcomplete : ∀ s', complete reading s = .ok a s' ↔ reading s = .ok a s' ∧ s'.unread = [] := by
    intro s'
    simp only [complete, bind_eq_ok, finish_eq_ok, pure_eq_ok]
    constructor
    · rintro ⟨_, _, hread, _, _, ⟨hnil, rfl⟩, rfl, rfl⟩
      exact ⟨hread, hnil⟩
    · rintro ⟨hread, hnil⟩
      exact ⟨a, s', hread, ⟨⟩, s', ⟨hnil, rfl⟩, rfl, rfl⟩
  rw [outcome]
  cases h : complete reading s with
  | ok b s' =>
    rw [h] at hcomplete
    constructor
    · rintro ⟨⟩
      exact ⟨s', (hcomplete s').mp rfl⟩
    · rintro ⟨left, hleft⟩
      rcases (hcomplete left).mpr hleft with ⟨⟩
      rfl
  | error error s' =>
    rw [h] at hcomplete
    constructor
    · rintro ⟨⟩
    · rintro ⟨left, hleft⟩
      rcases (hcomplete left).mpr hleft with ⟨⟩

theorem complete_outcome_eq_error (reading : Reading Action) (s : Arguments) (e : StatementError) :
    ((complete reading).outcome s).1 = .error e ↔ (∃ left, reading s = .error e left) ∨
      ∃ action left token rest, reading s = .ok action left ∧ left.unread = token :: rest ∧
        e = .trailing left.keyword token.text := by
  have hcomplete : ∀ s', complete reading s = .error e s' ↔ reading s = .error e s' ∨
      ∃ action left, reading s = .ok action left ∧ finish left = .error e s' := by
    intro s'
    simp only [complete, bind_eq_error]
    constructor
    · rintro (h | ⟨action, left, hok, hfinish | ⟨_, _, _, ⟨⟩⟩⟩)
      · exact .inl h
      · exact .inr ⟨action, left, hok, hfinish⟩
    · rintro (h | ⟨action, left, hok, hfinish⟩)
      · exact .inl h
      · exact .inr ⟨action, left, hok, .inl hfinish⟩
  have houtcome : ((complete reading).outcome s).1 = .error e ↔ ∃ s', complete reading s = .error e s' := by
    rw [outcome]
    cases complete reading s with
    | ok b s' => simp
    | error error s' => simp
  rw [houtcome]
  constructor
  · rintro ⟨s', h⟩
    rcases (hcomplete s').mp h with hread | ⟨action, left, hread, hfinish⟩
    · exact .inl ⟨s', hread⟩
    · obtain ⟨token, rest, hunread, rfl, -⟩ := (finish_eq_error ..).mp hfinish
      exact .inr ⟨action, left, token, rest, hread, hunread, rfl⟩
  · rintro (⟨left, hread⟩ | ⟨action, left, token, rest, hread, hunread, rfl⟩)
    · exact ⟨left, (hcomplete left).mpr (.inl hread)⟩
    · have hfinish := (finish_eq_error left left _).mpr ⟨token, rest, hunread, rfl, rfl⟩
      exact ⟨left, (hcomplete left).mpr (.inr ⟨action, left, hread, hfinish⟩)⟩

theorem resolveAction_eq_ok (keyword : String) (reading : Reading Action) :
    builtin.resolveAction keyword = .ok reading ↔
      ∃ name, (name, reading) ∈ vocabulary ∧ sameName name keyword = true := by
  have hdistinct : Distinct builtin.entries := by
    rw [builtin_entries]
    exact vocabulary_distinct
  have hresolve := resolve_eq_some builtin hdistinct keyword reading
  rw [builtin_entries] at hresolve
  rw [← hresolve, resolveAction]
  cases builtin.resolve keyword with
  | none => simp
  | some found => simp

theorem parseTokens_eq_ok (keyword name : String) (reading : Reading Action) (arguments : List Token)
    (action : Action) (hmem : (name, reading) ∈ vocabulary) (hname : sameName name keyword = true) :
    builtin.parseTokens (.word keyword :: arguments) = .ok action ↔
      ∃ left, reading ⟨keyword, arguments⟩ = .ok action left ∧ left.unread = [] := by
  rw [parseTokens, (resolveAction_eq_ok keyword reading).mpr ⟨name, hmem, hname⟩]
  exact complete_outcome_eq_ok reading _ action

theorem parseTokens_eq_ok_iff (keyword name : String) (production : Production) (arguments : List Token)
    (action : Action) (hmem : (name, production) ∈ Production.ofKeyword)
    (hname : sameName name keyword = true) :
    builtin.parseTokens (.word keyword :: arguments) = .ok action ↔ production arguments action := by
  obtain ⟨reading, hreading, hrecognises⟩ := recognised_of_mem hmem
  rw [parseTokens_eq_ok keyword name reading arguments action hreading hname]
  exact hrecognises keyword arguments action

theorem parse_of_scan (table : ActionTable) {statement : String} {tokens : List Token}
    (h : Token.scan statement = .ok tokens) : table.parse statement = table.parseTokens tokens := by
  rw [parse, h]

end ActionTable
end ScriptedActors
