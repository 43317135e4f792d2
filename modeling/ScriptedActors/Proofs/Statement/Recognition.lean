import ScriptedActors.Proofs.Statement.Productions

set_option autoImplicit false

/-!
# Every reader of the vocabulary recognises its production

A reader recognises a production when it takes all tokens with some action exactly if the
production relates them. The words of each enumerated argument are first brought from the table
that the reader searches to the list that the production names.
-/
namespace ScriptedActors
open Text KeywordTable

namespace Reading
variable {α : Type}

/-- A table of names lists for every value exactly the words for it. -/
def Lists (names : List (String × α)) (words : α → List String) : Prop :=
  ∀ name value, (name, value) ∈ names ↔ name ∈ words value

theorem expectName_eq_ok_of_lists (expected reason : String) {names : List (String × α)}
    {words : α → List String} (hdistinct : Distinct names) (hlists : Lists names words)
    (s s' : Arguments) (value : α) :
    expectName expected reason names s = .ok value s' ↔
      ∃ token rest, s.unread = token :: rest ∧ token.Says (words value) ∧ s' = ⟨s.keyword, rest⟩ := by
  rw [expectName_eq_ok expected reason names hdistinct]
  simp only [Token.Says, hlists _ value]

theorem comparison_lists : Lists comparisonNames Comparison.words := by
  intro name value
  cases value <;> simp [comparisonNames, Comparison.words]

theorem collectionOp_eq_ok (s s' : Arguments) (op : CollectionOp) :
    collectionOp s = .ok op s' ↔
      ∃ token rest, s.unread = token :: rest ∧ token.Says op.words ∧ s' = ⟨s.keyword, rest⟩ := by
  refine expectName_eq_ok_of_lists _ _ (by decide) ?_ _ _ _
  intro name value
  cases value <;> simp [CollectionOp.words]

/-- The reader takes all tokens with an action exactly if the production relates them. -/
def Recognises (reading : Reading Action) (production : Production) : Prop :=
  ∀ keyword tokens action,
    (∃ left, reading ⟨keyword, tokens⟩ = .ok action left ∧ left.unread = []) ↔ production tokens action

theorem recognises_bare (action : Action) : Recognises (Grammar.constant action) (Production.Bare action) := by
  intro keyword tokens a
  simp only [Grammar.constant, pure_eq_ok]
  constructor
  · rintro ⟨_, ⟨rfl, rfl⟩, rfl⟩
    exact .intro
  · rintro ⟨⟩
    exact ⟨_, ⟨rfl, rfl⟩, rfl⟩

theorem recognises_one (expected : String) (make : String → Action) :
    Recognises (expect expected >>= fun text => pure (make text)) (Production.One make) := by
  intro keyword tokens a
  simp only [bind_eq_ok, expect_eq_ok, pure_eq_ok]
  constructor
  · rintro ⟨_, ⟨_, _, ⟨t, _, rfl, rfl, rfl⟩, rfl, rfl⟩, rfl⟩
    exact .intro t
  · rintro ⟨t⟩
    exact ⟨_, ⟨_, _, ⟨t, [], rfl, rfl, rfl⟩, rfl, rfl⟩, rfl⟩

theorem recognises_rest (expected : String) (make : String → Action) :
    Recognises (rest expected >>= fun text => pure (make text)) (Production.Rest make) := by
  intro keyword tokens a
  simp only [bind_eq_ok, rest_eq_ok, pure_eq_ok]
  constructor
  · rintro ⟨_, ⟨_, _, ⟨hne, rfl, rfl⟩, rfl, rfl⟩, -⟩
    exact .intro tokens hne
  · rintro ⟨_, hne⟩
    exact ⟨_, ⟨_, _, ⟨hne, rfl, rfl⟩, rfl, rfl⟩, rfl⟩

theorem recognises_place (make : Location → Action) :
    Recognises (location >>= fun l => pure (make l)) (Production.Place make) := by
  intro keyword tokens a
  simp only [bind_eq_ok, location_eq_ok, pure_eq_ok]
  constructor
  · rintro ⟨_, ⟨l, _, ⟨t, _, rfl, hl, rfl⟩, rfl, rfl⟩, rfl⟩
    exact .intro t l hl
  · rintro ⟨t, l, hl⟩
    exact ⟨_, ⟨l, _, ⟨t, [], rfl, hl, rfl⟩, rfl, rfl⟩, rfl⟩

theorem recognises_collection (expected : String) (make : CollectionOp → String → Action) :
    Recognises (collectionOp >>= fun op => expect expected >>= fun text => pure (make op text))
      (Production.Collection make) := by
  intro keyword tokens a
  simp only [bind_eq_ok, collectionOp_eq_ok, expect_eq_ok, pure_eq_ok]
  constructor
  · rintro ⟨_, ⟨op, _, ⟨word, _, rfl, hop, rfl⟩, _, _, ⟨t, _, rfl, rfl, rfl⟩, rfl, rfl⟩, rfl⟩
    exact .intro op word t hop
  · rintro ⟨op, word, t, hop⟩
    exact ⟨_, ⟨op, _, ⟨word, [t], rfl, hop, rfl⟩, _, _, ⟨t, [], rfl, rfl, rfl⟩, rfl, rfl⟩, rfl⟩

theorem recognises_wait : Recognises Grammar.wait .Wait := by
  intro keyword tokens a
  rw [Grammar.wait]
  simp only [bind_eq_ok, expect_eq_ok]
  constructor
  · rintro ⟨_, ⟨_, _, ⟨t, rest, rfl, rfl, rfl⟩, hread⟩, hleft⟩
    cases hticks : readDuration t.text with
    | none =>
      rw [hticks] at hread
      exact (invalid_ne_ok _ _ _ _ _ hread).elim
    | some ticks =>
      rw [hticks] at hread
      obtain ⟨rfl, rfl⟩ := (pure_eq_ok ..).mp hread
      obtain rfl := hleft
      exact .intro t ticks hticks
  · rintro ⟨t, ticks, hticks⟩
    refine ⟨⟨keyword, []⟩, ⟨_, _, ⟨t, [], rfl, rfl, rfl⟩, ?_⟩, rfl⟩
    rw [hticks]
    rfl

theorem recognises_set : Recognises Grammar.set .Set := by
  intro keyword tokens a
  simp only [Grammar.set, bind_eq_ok, expect_eq_ok, expectLiteral_eq_ok, rest_eq_ok, pure_eq_ok]
  constructor
  · rintro ⟨_, ⟨_, _, ⟨name, _, rfl, rfl, rfl⟩, _, _, ⟨to_, value, rfl, hto, rfl⟩, _, _,
      ⟨hne, rfl, rfl⟩, rfl, rfl⟩, -⟩
    exact .intro name to_ value hto hne
  · rintro ⟨name, to_, value, hto, hne⟩
    exact ⟨_, ⟨_, _, ⟨name, _, rfl, rfl, rfl⟩, ⟨⟩, _, ⟨to_, value, rfl, hto, rfl⟩, _, _,
      ⟨hne, rfl, rfl⟩, rfl, rfl⟩, rfl⟩

theorem recognises_check : Recognises Grammar.check .Check := by
  intro keyword tokens a
  simp only [Grammar.check, bind_eq_ok, expect_eq_ok, pure_eq_ok,
    expectName_eq_ok_of_lists _ _ (by decide) comparison_lists]
  constructor
  · rintro ⟨_, ⟨_, _, ⟨left, _, rfl, rfl, rfl⟩, op, _, ⟨word, _, rfl, hop, rfl⟩, _, _,
      ⟨right, _, rfl, rfl, rfl⟩, rfl, rfl⟩, rfl⟩
    exact .intro op left word right hop
  · rintro ⟨op, left, word, right, hop⟩
    exact ⟨_, ⟨_, _, ⟨left, _, rfl, rfl, rfl⟩, op, _, ⟨word, _, rfl, hop, rfl⟩, _, _,
      ⟨right, _, rfl, rfl, rfl⟩, rfl, rfl⟩, rfl⟩

theorem recognises_create : Recognises Grammar.create .Create := by
  intro keyword tokens a
  simp only [Grammar.create, bind_eq_ok, expect_eq_ok, location_eq_ok, pure_eq_ok]
  constructor
  · rintro ⟨_, ⟨_, _, ⟨id, _, rfl, rfl, rfl⟩, _, _, ⟨kind, _, rfl, rfl, rfl⟩, l, _,
      ⟨place, _, rfl, hl, rfl⟩, rfl, rfl⟩, rfl⟩
    exact .intro id kind place l hl
  · rintro ⟨id, kind, place, l, hl⟩
    exact ⟨_, ⟨_, _, ⟨id, _, rfl, rfl, rfl⟩, _, _, ⟨kind, _, rfl, rfl, rfl⟩, l, _,
      ⟨place, _, rfl, hl, rfl⟩, rfl, rfl⟩, rfl⟩

theorem recognises_listen : Recognises Grammar.listen .Listen := by
  intro keyword tokens a
  simp only [Grammar.listen, bind_eq_ok, expect_eq_ok, expectBlock_eq_ok, pure_eq_ok]
  constructor
  · rintro ⟨_, ⟨_, _, ⟨event, _, rfl, rfl, rfl⟩, body, _, ⟨_, rfl, rfl⟩, rfl, rfl⟩, rfl⟩
    exact .intro event body
  · rintro ⟨event, body⟩
    exact ⟨_, ⟨_, _, ⟨event, _, rfl, rfl, rfl⟩, body, _, ⟨_, rfl, rfl⟩, rfl, rfl⟩, rfl⟩

theorem accept_bind_eq_ok {β : Type} (literal : String) (next : Bool → Reading β) (s s' : Arguments)
    (b : β) :
    (accept literal >>= next) s = .ok b s' ↔
      (∃ word rest, s.unread = word :: rest ∧ isWord literal word = true ∧
        next true ⟨s.keyword, rest⟩ = .ok b s') ∨
      (LacksWord literal s.unread ∧ next false s = .ok b s') := by
  simp only [bind_eq_ok, accept_eq_ok]
  constructor
  · rintro ⟨_, _, ⟨rfl, word, rest, hs, hword, rfl⟩ | ⟨rfl, hlacks, rfl⟩, hnext⟩
    · exact .inl ⟨word, rest, hs, hword, hnext⟩
    · exact .inr ⟨hlacks, hnext⟩
  · rintro (⟨word, rest, hs, hword, hnext⟩ | ⟨hlacks, hnext⟩)
    · exact ⟨true, _, .inl ⟨rfl, word, rest, hs, hword, rfl⟩, hnext⟩
    · exact ⟨false, s, .inr ⟨rfl, hlacks, rfl⟩, hnext⟩

theorem lacksWord_nil (literal : String) : LacksWord literal [] := by simp [LacksWord]

theorem lacksWord_cons (literal : String) (token : Token) (rest : List Token) :
    LacksWord literal (token :: rest) ↔ isWord literal token = false := by simp [LacksWord]

theorem recognises_select : Recognises Grammar.select .Select := by
  have hlists : Lists [("id", SelectBy.id), ("uniqueid", .uniqueId), ("uuid", .uniqueId)]
      SelectBy.words := by
    intro name value
    cases value <;> simp [SelectBy.words]
  intro keyword tokens a
  simp only [Grammar.select, bind_eq_ok (expect _), bind_eq_ok (expectName _ _ _), accept_bind_eq_ok,
    expect_eq_ok, expectName_eq_ok_of_lists _ _ (by decide) hlists, pure_eq_ok, if_true,
    Bool.false_eq_true, if_false]
  constructor
  · rintro ⟨_, ⟨_, _, ⟨t, _, rfl, rfl, rfl⟩, ⟨by_, _, rfl, hby, key, _, ⟨word, _, rfl, hkey, rfl⟩,
      rfl, rfl⟩ | ⟨-, rfl, rfl⟩⟩, rfl⟩
    · exact .by key t by_ word hby hkey
    · exact .plain t
  · rintro (⟨t⟩ | ⟨key, t, by_, word, hby, hkey⟩)
    · exact ⟨_, ⟨_, _, ⟨t, _, rfl, rfl, rfl⟩, .inr ⟨lacksWord_nil _, rfl, rfl⟩⟩, rfl⟩
    · exact ⟨_, ⟨_, _, ⟨t, _, rfl, rfl, rfl⟩, .inl ⟨by_, _, rfl, hby, key, _, ⟨word, _, rfl, hkey, rfl⟩,
        rfl, rfl⟩⟩, rfl⟩

theorem recognises_command : Recognises Grammar.command .Command := by
  have hlists : Lists [("player", Sender.player), ("op", .operator), ("operator", .operator),
      ("console", .console), ("server", .console)] Sender.words := by
    intro name value
    cases value <;> simp [Sender.words]
  intro keyword tokens a
  simp only [Grammar.command, bind_eq_ok (expect _), bind_eq_ok (expectName _ _ _), accept_bind_eq_ok,
    expect_eq_ok, expectName_eq_ok_of_lists _ _ (by decide) hlists, pure_eq_ok, if_true,
    Bool.false_eq_true, if_false]
  constructor
  · rintro ⟨_, ⟨_, _, ⟨line, _, rfl, rfl, rfl⟩, ⟨as_, _, rfl, has, sender, _,
      ⟨word, _, rfl, hsender, rfl⟩, rfl, rfl⟩ | ⟨-, rfl, rfl⟩⟩, rfl⟩
    · exact .as sender line as_ word has hsender
    · exact .plain line
  · rintro (⟨line⟩ | ⟨sender, line, as_, word, has, hsender⟩)
    · exact ⟨_, ⟨_, _, ⟨line, _, rfl, rfl, rfl⟩, .inr ⟨lacksWord_nil _, rfl, rfl⟩⟩, rfl⟩
    · exact ⟨_, ⟨_, _, ⟨line, _, rfl, rfl, rfl⟩, .inl ⟨as_, _, rfl, has, sender, _,
        ⟨word, _, rfl, hsender, rfl⟩, rfl, rfl⟩⟩, rfl⟩

theorem recognises_event : Recognises Grammar.event .Event := by
  intro keyword tokens a
  simp only [Grammar.event, bind_eq_ok (expect _), bind_eq_ok (rest _), accept_bind_eq_ok,
    expect_eq_ok, rest_eq_ok, pure_eq_ok, if_true, Bool.false_eq_true, if_false]
  constructor
  · rintro ⟨_, ⟨_, _, ⟨field, _, rfl, rfl, rfl⟩, ⟨to_, value, rfl, hto, _, _, ⟨hne, rfl, rfl⟩, rfl, rfl⟩ |
      ⟨-, rfl, rfl⟩⟩, hleft⟩
    · exact .write field to_ value hto hne
    · obtain rfl := hleft
      exact .read field
  · rintro (⟨field⟩ | ⟨field, to_, value, hto, hne⟩)
    · exact ⟨_, ⟨_, _, ⟨field, _, rfl, rfl, rfl⟩, .inr ⟨lacksWord_nil _, rfl, rfl⟩⟩, rfl⟩
    · exact ⟨_, ⟨_, _, ⟨field, _, rfl, rfl, rfl⟩, .inl ⟨to_, value, rfl, hto, _, _, ⟨hne, rfl, rfl⟩,
        rfl, rfl⟩⟩, rfl⟩

theorem recognises_look : Recognises Grammar.look .Look := by
  intro keyword tokens a
  simp only [Grammar.look, accept_bind_eq_ok, bind_eq_ok location, location_eq_ok, pure_eq_ok]
  constructor
  · rintro ⟨_, ⟨word, _, rfl, hsmooth, l, _, ⟨t, _, rfl, hl, rfl⟩, rfl, rfl⟩ |
      ⟨hlacks, l, _, ⟨t, _, rfl, hl, rfl⟩, rfl, rfl⟩, rfl⟩
    · exact .smooth word t l hsmooth hl
    · exact .plain t l ((lacksWord_cons ..).mp hlacks) hl
  · rintro (⟨t, l, hplain, hl⟩ | ⟨word, t, l, hsmooth, hl⟩)
    · exact ⟨_, .inr ⟨(lacksWord_cons ..).mpr hplain, l, _, ⟨t, [], rfl, hl, rfl⟩, rfl, rfl⟩, rfl⟩
    · exact ⟨_, .inl ⟨word, [t], rfl, hsmooth, l, _, ⟨t, [], rfl, hl, rfl⟩, rfl, rfl⟩, rfl⟩

theorem recognises_tag : Recognises Grammar.tag .Tag := by
  have hlists : Lists [("set", true), ("remove", false)]
      (fun setting => if setting then ["set"] else ["remove"]) := by
    intro name value
    cases value <;> simp
  intro keyword tokens a
  simp only [Grammar.tag, bind_eq_ok (expectName _ _ _), expectName_eq_ok_of_lists _ _ (by decide) hlists,
    bind_eq_ok (expect _), expect_eq_ok]
  constructor
  · rintro ⟨_, ⟨setting, _, ⟨word, _, rfl, hword, rfl⟩, _, _, ⟨key, _, rfl, rfl, rfl⟩, hread⟩, hleft⟩
    cases setting with
    | true =>
      simp only [if_true, accept_bind_eq_ok, bind_eq_ok (expect _), expect_eq_ok, pure_eq_ok] at hread
      obtain ⟨to_, _, rfl, hto, _, _, ⟨value, _, rfl, rfl, rfl⟩, rfl, rfl⟩ |
        ⟨hlacks, _, _, ⟨value, _, rfl, rfl, rfl⟩, rfl, rfl⟩ := hread
      · obtain rfl := hleft
        exact .setTo word key to_ value hword hto
      · obtain rfl := hleft
        exact .set word key value hword ((lacksWord_cons ..).mp hlacks)
    | false =>
      simp only [Bool.false_eq_true, if_false, pure_eq_ok] at hread
      obtain ⟨rfl, rfl⟩ := hread
      obtain rfl := hleft
      exact .remove word key hword
  · rintro (⟨word, key, hword⟩ | ⟨word, key, value, hword, hplain⟩ | ⟨word, key, to_, value, hword, hto⟩)
    · exact ⟨⟨keyword, []⟩, ⟨false, _, ⟨word, _, rfl, hword, rfl⟩, _, _, ⟨key, [], rfl, rfl, rfl⟩, rfl⟩, rfl⟩
    · refine ⟨⟨keyword, []⟩, ⟨true, _, ⟨word, _, rfl, hword, rfl⟩, _, _, ⟨key, [value], rfl, rfl, rfl⟩, ?_⟩, rfl⟩
      simp only [if_true, accept_bind_eq_ok, bind_eq_ok (expect _), expect_eq_ok, pure_eq_ok]
      exact .inr ⟨(lacksWord_cons ..).mpr hplain, _, _, ⟨value, [], rfl, rfl, rfl⟩, rfl, rfl⟩
    · refine ⟨⟨keyword, []⟩, ⟨true, _, ⟨word, _, rfl, hword, rfl⟩, _, _, ⟨key, [to_, value], rfl, rfl, rfl⟩, ?_⟩, rfl⟩
      simp only [if_true, accept_bind_eq_ok, bind_eq_ok (expect _), expect_eq_ok, pure_eq_ok]
      exact .inl ⟨to_, [value], rfl, hto, _, _, ⟨value, [], rfl, rfl, rfl⟩, rfl, rfl⟩

def takeValue (key : String) : Reading Action := do
  match ← next with
  | some token => return .metadata key (metadataValue token)
  | none => missing "a metadata value"

theorem metadata_eq_takeValue : Grammar.metadata =
    (expect "a metadata key" >>= fun key => accept "to" >>= fun _ => takeValue key) := rfl

theorem takeValue_eq_ok (key : String) (s s' : Arguments) (a : Action) :
    takeValue key s = .ok a s' ↔
      ∃ value rest, s.unread = value :: rest ∧ a = .metadata key (metadataValue value) ∧
        s' = ⟨s.keyword, rest⟩ := by
  obtain ⟨keyword, tokens⟩ := s
  rw [takeValue, bind_eq_ok]
  simp only [next_eq_ok]
  cases tokens with
  | nil =>
    constructor
    · rintro ⟨_, _, ⟨rfl, rfl⟩, hread⟩
      exact (missing_ne_ok _ _ _ _ hread).elim
    · rintro ⟨_, _, ⟨⟩, -⟩
  | cons value rest =>
    constructor
    · rintro ⟨_, _, ⟨rfl, rfl⟩, hread⟩
      obtain ⟨rfl, rfl⟩ := (pure_eq_ok ..).mp hread
      exact ⟨value, rest, rfl, rfl, rfl⟩
    · rintro ⟨_, _, ⟨⟩, rfl, rfl⟩
      exact ⟨_, _, ⟨rfl, rfl⟩, rfl⟩

theorem recognises_metadata : Recognises Grammar.metadata .Metadata := by
  intro keyword tokens a
  simp only [metadata_eq_takeValue, bind_eq_ok (expect _), expect_eq_ok, accept_bind_eq_ok,
    takeValue_eq_ok]
  constructor
  · rintro ⟨_, ⟨_, _, ⟨key, _, rfl, rfl, rfl⟩, ⟨to_, _, rfl, hto, value, _, rfl, rfl, rfl⟩ |
      ⟨hlacks, value, _, rfl, rfl, rfl⟩⟩, rfl⟩
    · exact .withTo key to_ value hto
    · exact .plain key value ((lacksWord_cons ..).mp hlacks)
  · rintro (⟨key, value, hplain⟩ | ⟨key, to_, value, hto⟩)
    · exact ⟨_, ⟨_, _, ⟨key, _, rfl, rfl, rfl⟩, .inr ⟨(lacksWord_cons ..).mpr hplain, value, [], rfl, rfl,
        rfl⟩⟩, rfl⟩
    · exact ⟨_, ⟨_, _, ⟨key, _, rfl, rfl, rfl⟩, .inl ⟨to_, _, rfl, hto, value, [], rfl, rfl, rfl⟩⟩, rfl⟩

end Reading
end ScriptedActors
