import ScriptedActors.Proofs.Statement.Parsing

set_option autoImplicit false

/-!
# What a reader takes, and what its errors name

A reader of arguments takes tokens from the front, and its result depends on the tokens that it took
and, where it looks at one without taking it, on the one that follows. Its errors name the keyword it
was given, and an argument that it finds wrong is one of those it was given. Both are kept where one
reader follows another, so they hold of every reader of the vocabulary.
-/
namespace ScriptedActors
open Reading

namespace Reading
variable {α β : Type}

/-- An error of a reader names the keyword of the arguments, and what it finds wrong is one of them. -/
inductive Blames (s : Arguments) : StatementError → Prop
  | missing (expected : String) : Blames s (.missingArgument s.keyword expected)
  | invalid (token : Token) (reason : String) (h : token ∈ s.unread) :
      Blames s (.invalidArgument s.keyword token.text reason)

/-- The result is that for the tokens that were taken, with any of the tokens that were left. -/
def Takes (reading : Reading α) (s : Arguments) (a : α) (s' : Arguments) : Prop :=
  s'.keyword = s.keyword ∧ ∃ taken, s.unread = taken ++ s'.unread ∧
    ∀ fewer, fewer <+: s'.unread → reading ⟨s.keyword, taken ++ fewer⟩ = .ok a ⟨s.keyword, fewer⟩

/-- A reader takes tokens from the front and names what it was given. -/
structure Careful (reading : Reading α) : Prop where
  takes : ∀ s a s', reading s = .ok a s' → Takes reading s a s'
  blames : ∀ s e s', reading s = .error e s' → Blames s e

theorem careful_pure (a : α) : Careful (pure a : Reading α) where
  takes := by
    rintro s _ _ ⟨⟩
    exact ⟨rfl, [], rfl, fun fewer _ => rfl⟩
  blames := by
    rintro s e s' ⟨⟩

theorem Careful.bind {reading : Reading α} {next : α → Reading β} (h : Careful reading)
    (hnext : ∀ a, Careful (next a)) : Careful (reading >>= next) where
  takes s b s' hok := by
    obtain ⟨a, middle, hread, hrest⟩ := (bind_eq_ok ..).mp hok
    obtain ⟨hkeyword, taken, hunread, htaken⟩ := h.takes s a middle hread
    obtain ⟨hkeyword', more, hmore, hmoreTaken⟩ := (hnext a).takes middle b s' hrest
    refine ⟨hkeyword'.trans hkeyword, taken ++ more, by rw [hunread, hmore, List.append_assoc], ?_⟩
    intro fewer hfewer
    have hprefix : more ++ fewer <+: middle.unread := by
      rw [hmore]
      exact (List.prefix_append_right_inj more).mpr hfewer
    rw [bind_eq_ok, List.append_assoc]
    refine ⟨a, ⟨s.keyword, more ++ fewer⟩, htaken _ hprefix, ?_⟩
    rw [← hkeyword]
    exact hmoreTaken fewer hfewer
  blames s e s' herror := by
    rcases (bind_eq_error ..).mp herror with hread | ⟨a, middle, hread, hrest⟩
    · exact h.blames s e s' hread
    · obtain ⟨hkeyword, taken, hunread, -⟩ := h.takes s a middle hread
      cases (hnext a).blames middle e s' hrest with
      | missing expected =>
        rw [hkeyword]
        exact .missing expected
      | invalid token reason hmem =>
        rw [hkeyword]
        refine .invalid token reason ?_
        rw [hunread]
        exact List.mem_append_right taken hmem

theorem careful_missing (expected : String) : Careful (missing expected : Reading α) where
  takes s a s' h := (missing_ne_ok expected s s' a h).elim
  blames := by
    rintro s _ _ ⟨⟩
    exact .missing expected

theorem careful_of_head {reading : Reading α}
    (hok : ∀ s a s', reading s = .ok a s' → ∃ token rest, s.unread = token :: rest ∧ s' = ⟨s.keyword, rest⟩ ∧
      ∀ others, reading ⟨s.keyword, token :: others⟩ = .ok a ⟨s.keyword, others⟩)
    (herror : ∀ s e s', reading s = .error e s' → Blames s e) : Careful reading where
  takes s a s' h := by
    obtain ⟨token, rest, hunread, rfl, hothers⟩ := hok s a s' h
    exact ⟨rfl, [token], hunread, fun fewer _ => hothers fewer⟩
  blames := herror

theorem careful_expect (expected : String) : Careful (expect expected) := by
  refine careful_of_head ?_ ?_
  · intro s text s' h
    obtain ⟨token, rest, hunread, rfl, rfl⟩ := (expect_eq_ok ..).mp h
    exact ⟨token, rest, hunread, rfl, fun others => rfl⟩
  · rintro ⟨keyword, tokens⟩ e s' h
    cases tokens with
    | nil =>
      cases h
      exact .missing expected
    | cons token rest => cases h

theorem careful_expectBlock (expected : String) : Careful (expectBlock expected) := by
  refine careful_of_head ?_ ?_
  · intro s body s' h
    obtain ⟨rest, hunread, rfl⟩ := (expectBlock_eq_ok ..).mp h
    exact ⟨.block body, rest, hunread, rfl, fun others => rfl⟩
  · rintro ⟨keyword, tokens⟩ e s' h
    cases tokens with
    | nil =>
      cases h
      exact .missing expected
    | cons token rest =>
      cases token with
      | block body => cases h
      | word text | quoted text =>
        cases h
        exact .invalid _ _ List.mem_cons_self

theorem careful_expectLiteral (literal : String) : Careful (expectLiteral literal) := by
  refine careful_of_head ?_ ?_
  · rintro s ⟨⟩ s' h
    obtain ⟨word, rest, hunread, hword, rfl⟩ := (expectLiteral_eq_ok ..).mp h
    exact ⟨word, rest, hunread, rfl, fun others => (expectLiteral_eq_ok ..).mpr ⟨word, others, rfl, hword, rfl⟩⟩
  · rintro ⟨keyword, tokens⟩ e s' h
    cases tokens with
    | nil =>
      cases h
      exact .missing literal
    | cons token rest =>
      cases hword : isWord literal token with
      | true => simp [expectLiteral, hword] at h
      | false =>
        simp only [expectLiteral, hword, Bool.false_eq_true, if_false] at h
        cases h
        exact .invalid token _ List.mem_cons_self

theorem careful_accept (literal : String) : Careful (accept literal) where
  takes s taken s' h := by
    rcases (accept_eq_ok ..).mp h with ⟨rfl, word, rest, hunread, hword, rfl⟩ | ⟨rfl, hlacks, rfl⟩
    · refine ⟨rfl, [word], hunread, fun fewer _ => ?_⟩
      exact (accept_eq_ok ..).mpr (.inl ⟨rfl, word, fewer, rfl, hword, rfl⟩)
    · refine ⟨rfl, [], rfl, fun fewer hfewer => (accept_eq_ok ..).mpr (.inr ⟨rfl, ?_, rfl⟩)⟩
      -- The first token that is left is the first there was, or there is none.
      intro token htoken
      obtain ⟨others, hothers⟩ := hfewer
      refine hlacks token ?_
      rw [← hothers, List.head?_append]
      change fewer.head? = some token at htoken
      rw [htoken]
      rfl
  blames := by
    rintro ⟨keyword, tokens⟩ e s' h
    cases tokens with
    | nil => cases h
    | cons token rest =>
      cases hword : isWord literal token with
      | true => simp [accept, hword] at h
      | false => simp [accept, hword] at h

theorem careful_rest (expected : String) : Careful (rest expected) where
  takes s text s' h := by
    obtain ⟨hne, rfl, rfl⟩ := (rest_eq_ok ..).mp h
    refine ⟨rfl, s.unread, (List.append_nil _).symm, fun fewer hfewer => ?_⟩
    rw [List.prefix_nil.mp hfewer, List.append_nil]
    exact (rest_eq_ok ..).mpr ⟨hne, rfl, rfl⟩
  blames := by
    rintro ⟨keyword, tokens⟩ e s' h
    cases tokens with
    | nil =>
      cases h
      exact .missing expected
    | cons token rest => cases h

theorem careful_next : Careful next where
  takes s token s' h := by
    obtain ⟨rfl, rfl⟩ := (next_eq_ok ..).mp h
    obtain ⟨keyword, tokens⟩ := s
    cases tokens with
    | nil =>
      refine ⟨rfl, [], rfl, fun fewer hfewer => ?_⟩
      rw [List.prefix_nil.mp hfewer]
      rfl
    | cons token rest => exact ⟨rfl, [token], rfl, fun fewer _ => rfl⟩
  blames := by
    rintro s e s' ⟨⟩

/-- A text that was taken is turned into a value, or found wrong. -/
theorem careful_judge (expected : String) {judge : String → Reading α}
    (h : ∀ text, (∃ a, judge text = pure a) ∨ ∃ reason, judge text = invalid text reason) :
    Careful (expect expected >>= judge) := by
  refine careful_of_head ?_ ?_
  · intro s a s' hok
    obtain ⟨text, middle, hexpect, hjudge⟩ := (bind_eq_ok ..).mp hok
    obtain ⟨token, rest, hunread, rfl, rfl⟩ := (expect_eq_ok ..).mp hexpect
    rcases h token.text with ⟨b, hb⟩ | ⟨reason, hreason⟩
    · rw [hb] at hjudge
      obtain ⟨rfl, rfl⟩ := (pure_eq_ok ..).mp hjudge
      refine ⟨token, rest, hunread, rfl, fun others => (bind_eq_ok ..).mpr ⟨token.text, _, rfl, ?_⟩⟩
      rw [hb]
      rfl
    · rw [hreason] at hjudge
      exact (invalid_ne_ok _ _ _ _ _ hjudge).elim
  · intro s e s' herror
    rcases (bind_eq_error ..).mp herror with hexpect | ⟨text, middle, hexpect, hjudge⟩
    · exact (careful_expect expected).blames s e s' hexpect
    · obtain ⟨token, rest, hunread, rfl, rfl⟩ := (expect_eq_ok ..).mp hexpect
      rcases h token.text with ⟨b, hb⟩ | ⟨reason, hreason⟩
      · rw [hb] at hjudge
        cases hjudge
      · rw [hreason] at hjudge
        cases hjudge
        refine .invalid token reason ?_
        rw [hunread]
        exact List.mem_cons_self

theorem careful_expectName (expected reason : String) (names : List (String × α)) :
    Careful (expectName expected reason names) := by
  refine careful_judge expected fun text => ?_
  split
  · exact .inl ⟨_, rfl⟩
  · exact .inr ⟨reason, rfl⟩

theorem careful_location : Careful location := by
  refine careful_judge _ fun text => ?_
  split
  · exact .inl ⟨_, rfl⟩
  · exact .inr ⟨_, rfl⟩

theorem careful_wait : Careful Grammar.wait := by
  refine careful_judge _ fun text => ?_
  split
  · exact .inl ⟨_, rfl⟩
  · exact .inr ⟨_, rfl⟩

theorem careful_one (expected : String) (make : String → Action) :
    Careful (expect expected >>= fun text => pure (make text)) :=
  (careful_expect expected).bind fun text => careful_pure (make text)

theorem careful_remaining (expected : String) (make : String → Action) :
    Careful (rest expected >>= fun text => pure (make text)) :=
  (careful_rest expected).bind fun text => careful_pure (make text)

theorem careful_place (make : Location → Action) : Careful (location >>= fun l => pure (make l)) :=
  careful_location.bind fun l => careful_pure (make l)

theorem careful_collection (expected : String) (make : CollectionOp → String → Action) :
    Careful (collectionOp >>= fun op => expect expected >>= fun text => pure (make op text)) :=
  (careful_expectName _ _ _).bind fun op => careful_one expected (make op)

theorem careful_set : Careful Grammar.set :=
  (careful_expect _).bind fun _ => (careful_expectLiteral _).bind fun _ => careful_remaining _ _

theorem careful_check : Careful Grammar.check :=
  (careful_expect _).bind fun _ => (careful_expectName _ _ _).bind fun _ => careful_one _ _

theorem careful_create : Careful Grammar.create :=
  (careful_expect _).bind fun _ => (careful_expect _).bind fun _ => careful_place _

theorem careful_look : Careful Grammar.look :=
  (careful_accept _).bind fun smooth => careful_place fun target => .look target smooth

theorem careful_listen : Careful Grammar.listen :=
  (careful_expect _).bind fun _ => (careful_expectBlock _).bind fun _ => careful_pure _

theorem careful_ite {whenTrue whenFalse : Reading α} (taken : Bool) (htrue : Careful whenTrue)
    (hfalse : Careful whenFalse) : Careful (if taken = true then whenTrue else whenFalse) := by
  cases taken with
  | true => exact htrue
  | false => exact hfalse

theorem careful_select : Careful Grammar.select :=
  (careful_expect _).bind fun _ => (careful_accept _).bind fun taken =>
    careful_ite taken ((careful_expectName _ _ _).bind fun _ => careful_pure _) (careful_pure _)

theorem careful_command : Careful Grammar.command :=
  (careful_expect _).bind fun _ => (careful_accept _).bind fun taken =>
    careful_ite taken ((careful_expectName _ _ _).bind fun _ => careful_pure _) (careful_pure _)

theorem careful_event : Careful Grammar.event :=
  (careful_expect _).bind fun _ => (careful_accept _).bind fun taken =>
    careful_ite taken (careful_remaining _ _) (careful_pure _)

theorem careful_tag : Careful Grammar.tag :=
  (careful_expectName _ _ _).bind fun setting => (careful_expect _).bind fun _ =>
    careful_ite setting ((careful_accept _).bind fun _ => careful_one _ _) (careful_pure _)

theorem careful_metadata : Careful Grammar.metadata := by
  refine (careful_expect _).bind fun key => (careful_accept _).bind fun _ => careful_next.bind fun token => ?_
  cases token with
  | none => exact careful_missing _
  | some token => exact careful_pure _

end Reading

namespace ActionTable

theorem careful_of_mem : ∀ entry ∈ vocabulary, Careful entry.2 := by
  unfold vocabulary
  simp only [List.forall_mem_cons]
  exact ⟨careful_remaining _ _, careful_wait, careful_one _ _, careful_set, careful_one _ _,
    careful_one _ _, careful_check, careful_pure _, careful_pure _, careful_pure _, careful_pure _,
    careful_pure _, careful_pure _, careful_pure _, careful_pure _, careful_select, careful_select,
    careful_create, careful_look, careful_place _, careful_place _, careful_tag, careful_metadata,
    careful_one _ _, careful_collection _ _, careful_collection _ _, careful_collection _ _,
    careful_event, careful_listen, careful_command, careful_pure _, careful_one _ _,
    careful_remaining _ _, by simp⟩

end ActionTable
end ScriptedActors
