import ScriptedActors.Proofs.Actor.Story

set_option autoImplicit false

/-!
# Executions on a destroyed actor

No tick starts on a destroyed actor. But the ticks that are under way when it is destroyed go on: they
ask the controllers that they have left, and execute those that want to run. So a destroyed actor is
left alone, whatever its controllers do, exactly if no tick under way has a controller left to ask.
-/
namespace ScriptedActors

def Moment.executed? (m : Moment) : Option String := if m.runs then m.deed.asked? else none

namespace Stage

/-- The controllers that the ticks under way have left to ask, those of the innermost tick first. -/
def remaining (σ : Stage) : List Post := σ.rounds.flatMap Round.waiting

def Silent (σ : Stage) : Prop :=
  ∀ (ms : List Moment) (τ : Stage), run 0 (ms.map Moment.deed) σ = some τ →
    ms.filterMap Moment.executed? = []

theorem Step.on_destroyed {σ τ : Stage} {d : Deed} (hd : Step σ d τ) (h : σ.destroyed = true) :
    τ.destroyed = true ∧ d ≠ .start ∧
      (d.asked?.toList ++ τ.remaining.map Post.name).Sublist (σ.remaining.map Post.name) ∧
      (d ≠ .abandon → σ.remaining.map Post.name = d.asked?.toList ++ τ.remaining.map Post.name) := by
  cases hd with
  | attach c => exact ⟨h, by simp, List.Sublist.refl _, fun _ => rfl⟩
  | detach name => exact ⟨h, by simp, List.Sublist.refl _, fun _ => rfl⟩
  | destroy => exact ⟨rfl, by simp, List.Sublist.refl _, fun _ => rfl⟩
  | start hstanding =>
    rw [h] at hstanding
    cases hstanding
  | @ask asked p waiting rounds hrounds =>
    have hleft : σ.remaining.map Post.name =
        p.name :: ((waiting ++ rounds.flatMap Round.waiting).map Post.name) := by
      rw [Stage.remaining, hrounds]
      rfl
    exact ⟨h, by simp, by rw [hleft]; exact List.Sublist.refl _, fun _ => hleft⟩
  | @finish asked rounds hrounds =>
    have hleft : σ.remaining = rounds.flatMap Round.waiting := by
      rw [Stage.remaining, hrounds]
      rfl
    exact ⟨h, by simp, by rw [hleft]; exact List.Sublist.refl _, fun _ => congrArg _ hleft⟩
  | @abandon r rounds hrounds =>
    have hleft : σ.remaining = r.waiting ++ rounds.flatMap Round.waiting := by
      rw [Stage.remaining, hrounds]
      rfl
    refine ⟨h, by simp, ?_, fun hpanic => absurd rfl hpanic⟩
    rw [hleft]
    exact (List.sublist_append_right _ _).map _

theorem run_on_destroyed {floor : Nat} {ds : List Deed} {σ τ : Stage} (hrun : run floor ds σ = some τ)
    (h : σ.destroyed = true) :
    (∀ d ∈ ds, d ≠ .start) ∧
      (ds.filterMap Deed.asked? ++ τ.remaining.map Post.name).Sublist (σ.remaining.map Post.name) ∧
      (.abandon ∉ ds →
        σ.remaining.map Post.name = ds.filterMap Deed.asked? ++ τ.remaining.map Post.name) := by
  induction ds generalizing σ with
  | nil =>
    cases hrun
    exact ⟨by simp, List.Sublist.refl _, fun _ => rfl⟩
  | cons d ds ih =>
    obtain ⟨υ, hstep, -, hrest⟩ := run_cons_eq_some hrun
    obtain ⟨hυ, hstart, hfirst, hexact⟩ := hstep.on_destroyed h
    obtain ⟨hstarts, hlater, hall⟩ := ih hrest hυ
    have hasked : (d :: ds).filterMap Deed.asked? = d.asked?.toList ++ ds.filterMap Deed.asked? := by
      rw [List.filterMap_cons]
      cases d.asked? with
      | none => rfl
      | some name => rfl
    rw [hasked, List.append_assoc]
    refine ⟨List.forall_mem_cons.mpr ⟨hstart, hstarts⟩, ?_, ?_⟩
    · exact ((List.Sublist.refl _).append hlater).trans hfirst
    · intro hpanic
      rw [List.mem_cons, not_or] at hpanic
      rw [hexact (Ne.symm hpanic.1), hall hpanic.2]

theorem asked_of_executed {ms : List Moment} {name : String}
    (h : name ∈ ms.filterMap Moment.executed?) :
    name ∈ (ms.map Moment.deed).filterMap Deed.asked? := by
  obtain ⟨m, hm, hexecuted⟩ := List.mem_filterMap.mp h
  rw [Moment.executed?] at hexecuted
  split at hexecuted
  · exact List.mem_filterMap.mpr ⟨m.deed, List.mem_map_of_mem hm, hexecuted⟩
  · cases hexecuted

theorem exists_asking {rounds : List Round} {σ : Stage} (hrounds : σ.rounds = rounds)
    (hleft : rounds.flatMap Round.waiting ≠ []) :
    ∃ ds name τ, run 0 (ds ++ [.ask name]) σ = some τ := by
  induction rounds generalizing σ with
  | nil => exact absurd rfl hleft
  | cons r rounds ih =>
    obtain ⟨asked, waiting⟩ := r
    cases waiting with
    | nil =>
      obtain ⟨ds, name, τ, hrun⟩ :=
        @ih { σ with posts := putBack asked σ.posts, rounds := rounds } rfl hleft
      refine ⟨.finish :: ds, name, τ, ?_⟩
      rw [List.cons_append, run_cons, step, hrounds]
      exact hrun
    | cons p waiting =>
      have hask : σ.step (.ask p.name) = some
          { σ with
            rounds := ⟨asked ++ [p], waiting⟩ :: rounds
            askings := σ.askings ++ [⟨rounds.length + 1, p⟩] } := by
        rw [step, hrounds]
        exact if_pos rfl
      exact ⟨[], p.name, _, by rw [List.nil_append, run_cons, hask]; rfl⟩

theorem silent_iff_remaining {σ : Stage} (h : σ.destroyed = true) : σ.Silent ↔ σ.remaining = [] := by
  constructor
  · intro hsilent
    by_cases hleft : σ.remaining = []
    · exact hleft
    obtain ⟨ds, name, τ, hrun⟩ := exists_asking rfl hleft
    -- Let the controller that is asked last want to run.
    have hnone := hsilent (ds.map (⟨·, false⟩) ++ [⟨.ask name, true⟩]) τ
      (by simpa [Function.comp_def] using hrun)
    rw [List.filterMap_append, List.append_eq_nil_iff] at hnone
    cases hnone.2
  · intro hnone ms τ hrun
    apply List.eq_nil_iff_forall_not_mem.mpr
    intro name hname
    have hasked := (run_on_destroyed hrun h).2.1.subset
      (List.mem_append_left _ (asked_of_executed hname))
    rw [hnone] at hasked
    cases hasked

/-- What goes on from `σ`, where the actor has just been destroyed, to `τ`. -/
structure Aftermath (σ : Stage) (ms : List Moment) (τ : Stage) : Prop where
  no_tick : ∀ m ∈ ms, m.deed ≠ .start
  executed : ∀ name ∈ ms.filterMap Moment.executed?, ∃ p ∈ σ.remaining, p.name = name
  all_asked : (∀ m ∈ ms, m.deed ≠ .abandon) → τ.rounds = [] →
    (ms.map Moment.deed).filterMap Deed.asked? = σ.remaining.map Post.name
  silent_iff : σ.Silent ↔ σ.remaining = []

theorem aftermath {floor : Nat} {ms : List Moment} {σ τ : Stage}
    (hrun : run floor (ms.map Moment.deed) σ = some τ) (h : σ.destroyed = true) : Aftermath σ ms τ := by
  obtain ⟨hstart, hsublist, hall⟩ := run_on_destroyed hrun h
  refine ⟨fun m hm => hstart _ (List.mem_map_of_mem hm), ?_, ?_, silent_iff_remaining h⟩
  · intro name hname
    have hleft := hsublist.subset (List.mem_append_left _ (asked_of_executed hname))
    simpa using hleft
  · intro hpanic hended
    have hnone : τ.remaining = [] := by rw [remaining, hended, List.flatMap_nil]
    rw [hall, hnone, List.map_nil, List.append_nil]
    intro hmem
    obtain ⟨m, hm, habandon⟩ := List.mem_map.mp hmem
    exact hpanic m hm habandon

/-- The history of effects on an actor, with the answers of the controllers, is a run of each stage that
shows the actor. In all runs, whatever the controllers do and answer: once the actor was destroyed no
tick starts, and only controllers are executed that a tick under way had left to ask. None is executed
for certain exactly if none was left. -/
theorem silent_after_destroy_iff (es : List Effect) {s : Scene} {ρ : Stage} (hρ : ρ.Shows s) :
    (∃ υ, run ρ.rounds.length ((Scene.chronicle es s).map Moment.deed) ρ = some υ ∧
      υ.rounds = ρ.rounds ∧ υ.Shows (es.foldl (fun s e => (s.act e).2) s)) ∧
    ∀ {before after : List Moment} {b : Bool} {floor : Nat} {ρ τ : Stage},
      run floor ((before ++ ⟨.destroy, b⟩ :: after).map Moment.deed) ρ = some τ →
      ∃ σ, run floor (before.map Moment.deed ++ [.destroy]) ρ = some σ ∧ σ.destroyed = true ∧
        Aftermath σ after τ := by
  refine ⟨Scene.run_history es s hρ, ?_⟩
  intro before after b floor ρ τ hrun
  rw [List.map_append, List.map_cons, ← List.singleton_append, ← List.append_assoc] at hrun
  obtain ⟨σ, hσ, hafter⟩ := run_append_eq_some hrun
  obtain ⟨_, -, hdestroy⟩ := run_append_eq_some hσ
  obtain ⟨_, hstep, -, hlast⟩ := run_cons_eq_some hdestroy
  cases hstep
  cases hlast
  exact ⟨_, hσ, rfl, aftermath hafter rfl⟩

/-- The last controller of a tick destroys the actor: the others were executed before, and the next
tick does not start. -/
theorem silent_after_last_destroys :
    let b : Controller := .scripted "b" true []
    let a : Controller := .scripted "a" true [.destroy]
    let s : Scene :=
      ⟨Actor.new "u" ⟨"PIG"⟩ ⟨"world", 0, 64, 0, 0, 0⟩ [] fun _ => .done, ⟨fun _ => 0, 0⟩, [], []⟩
    let es : List Effect := [.attach b, .attach a, .tick .detached 2]
    let before : List Moment :=
      [⟨.attach b, false⟩, ⟨.attach a, false⟩, ⟨.start, false⟩, ⟨.ask "b", true⟩, ⟨.ask "a", true⟩]
    fresh.Shows s ∧ Scene.chronicle es s = before ++ ⟨.destroy, false⟩ :: [⟨.finish, false⟩] ∧
      ∃ σ τ, run 0 (before.map Moment.deed ++ [.destroy]) fresh = some σ ∧
        Aftermath σ [⟨.finish, false⟩] τ ∧ σ.Silent := by
  intro b a s es before
  have hfresh : fresh.Shows s := ⟨rfl, rfl⟩
  have hchronicle : Scene.chronicle es s = before ++ ⟨.destroy, false⟩ :: [⟨.finish, false⟩] := by
    dsimp only [es, s, a, b, before]
    rfl
  obtain ⟨⟨τ, hrun, -⟩, hafter⟩ := silent_after_destroy_iff es hfresh
  rw [hchronicle] at hrun
  obtain ⟨σ, hσ, -, haftermath⟩ := hafter hrun
  have hnone : σ.remaining = [] := by
    have hwhole : run 0 (before.map Moment.deed ++ [.destroy]) fresh =
        some ⟨[], [⟨[⟨0, b⟩, ⟨1, a⟩], []⟩], true, 2, [⟨1, ⟨0, b⟩⟩, ⟨1, ⟨1, a⟩⟩]⟩ := by
      dsimp only [a, b, before]
      rfl
    rw [Option.some.inj (hσ.symm.trans hwhole)]
    rfl
  exact ⟨hfresh, hchronicle, σ, τ, hσ, haftermath, haftermath.silent_iff.mpr hnone⟩

/-- The first controller of a tick destroys the actor, and the second is executed on it. -/
theorem not_silent_after_first_destroys :
    let a : Controller := .scripted "a" true [.destroy]
    let b : Controller := .scripted "b" true [.change (.animation "ran")]
    let s : Scene :=
      ⟨Actor.new "u" ⟨"PIG"⟩ ⟨"world", 0, 64, 0, 0, 0⟩ [] fun _ => .done, ⟨fun _ => 0, 0⟩, [], []⟩
    let es : List Effect := [.attach a, .attach b, .tick .detached 1]
    let before : List Moment :=
      [⟨.attach a, false⟩, ⟨.attach b, false⟩, ⟨.start, false⟩, ⟨.ask "a", true⟩]
    let after : List Moment := [⟨.ask "b", true⟩, ⟨.finish, false⟩]
    Scene.chronicle es s = before ++ ⟨.destroy, false⟩ :: after ∧
      after.filterMap Moment.executed? = ["b"] ∧
      (es.foldl (fun s e => (s.act e).2) s).actor.state.animations = ["ran"] ∧
      ∃ σ, run 0 (before.map Moment.deed ++ [.destroy]) fresh = some σ ∧ ¬ σ.Silent := by
  intro a b s es before after
  have hchronicle : Scene.chronicle es s = before ++ ⟨.destroy, false⟩ :: after := by
    dsimp only [es, s, a, b, before, after]
    rfl
  have hσ : run 0 (before.map Moment.deed ++ [.destroy]) fresh =
      some ⟨[], [⟨[⟨0, a⟩], [⟨1, b⟩]⟩], true, 2, [⟨1, ⟨0, a⟩⟩]⟩ := by
    dsimp only [a, b, before]
    rfl
  refine ⟨hchronicle, by decide, by decide, _, hσ, ?_⟩
  intro hsilent
  have hnone := (silent_iff_remaining rfl).mp hsilent
  cases hnone

end Stage
end ScriptedActors
