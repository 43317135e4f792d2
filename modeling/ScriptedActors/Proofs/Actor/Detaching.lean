import ScriptedActors.Proofs.Actor.Rounds

set_option autoImplicit false

/-!
# Detaching during a tick

A detach sees only what is attached to the actor itself. It takes effect if no tick under way has
taken a controller of the name; one that was taken is not found, and the tick puts it back.
-/
namespace ScriptedActors
open Text

namespace Stage

def running (σ : Stage) (name : String) : Bool := σ.rounds.any fun r => hasPost r.taken name

def attached (σ : Stage) (name : String) : Bool := hasPost σ.posts name || σ.running name

theorem attached_start (σ : Stage) (name : String) : σ.start.attached name = σ.attached name := by
  simp [attached, running, start, hasPost, Round.taken]

theorem attached_detach (σ : Stage) (gone name : String) :
    (σ.detach gone).attached name = (!sameName gone name && hasPost σ.posts name || σ.running name) := by
  rw [attached, detach, hasPost_postsBut]
  rfl

theorem Step.attached_eq {σ τ : Stage} {d : Deed} (hd : Step σ d τ) {name : String}
    (hspares : d.Spares name) : τ.attached name = σ.attached name := by
  cases hd with
  | attach c =>
    have hother : sameName c.name name = false := hspares
    have hnew : hasPost [⟨σ.next, c⟩] name = false := by simpa [hasPost, Post.name] using hother
    rw [Stage.attached, Stage.attach, hasPost_append, hasPost_postsBut, hother, hnew, Bool.not_false,
      Bool.true_and, Bool.or_false]
    rfl
  | detach gone =>
    have hother : sameName gone name = false := hspares
    rw [attached_detach, hother, Bool.not_false, Bool.true_and]
    rfl
  | destroy => rfl
  | start => exact attached_start σ name
  | ask hrounds => simp [Stage.attached, running, hrounds, Round.taken]
  | finish hrounds =>
    simp [Stage.attached, running, hrounds, hasPost_putBack, Round.taken, Bool.or_left_comm,
      Bool.or_assoc]
  | abandon => exact hspares.elim

theorem Step.not_attached {σ τ : Stage} {d : Deed} (hd : Step σ d τ) {name : String}
    (hattach : ∀ c, d = .attach c → sameName c.name name = false) (h : σ.attached name = false) :
    τ.attached name = false := by
  cases d with
  | attach c => rwa [hd.attached_eq (hattach c rfl)]
  | detach gone found =>
    cases hd
    rw [Stage.attached, Bool.or_eq_false_iff] at h
    rw [attached_detach, h.1, h.2, Bool.and_false, Bool.or_false]
  | abandon =>
    cases hd with
    | abandon hrounds =>
      rw [Stage.attached, running, hrounds, List.any_cons, Bool.or_eq_false_iff,
        Bool.or_eq_false_iff] at h
      exact Bool.or_eq_false_iff.mpr ⟨h.1, h.2.2⟩
  | destroy => rwa [hd.attached_eq trivial]
  | start => rwa [hd.attached_eq trivial]
  | ask other => rwa [hd.attached_eq trivial]
  | finish => rwa [hd.attached_eq trivial]

theorem Ticks.detached {σ τ last after : Stage} {earlier later : List Deed} {name : String}
    {found : Bool} (h : Ticks σ (earlier ++ .detach name found :: later) last after)
    (hτ : run (σ.rounds.length + 1) earlier σ.start = some τ) :
    found = hasPost τ.posts name ∧
      run (σ.rounds.length + 1) later (τ.detach name) = some last := by
  obtain ⟨τ', hτ', hrest⟩ := run_append_eq_some h.during
  obtain rfl : τ' = τ := Option.some.inj (hτ'.symm.trans hτ)
  obtain ⟨υ, hdetach, -, hlater⟩ := run_cons_eq_some hrest
  cases hdetach
  exact ⟨rfl, hlater⟩

/-- A detach that is done on `τ`, during a tick that leads to `after`, takes effect. -/
structure DetachEffective (τ : Stage) (name : String) (found : Bool) (after : Stage) : Prop where
  answer : found = τ.attached name
  gone : after.attached name = false

theorem detachEffective_of_not_running {σ τ last after : Stage} {earlier later : List Deed}
    {name : String} {found : Bool} (h : Ticks σ (earlier ++ .detach name found :: later) last after)
    (hτ : run (σ.rounds.length + 1) earlier σ.start = some τ)
    (hattach : ∀ c, .attach c ∈ later → sameName c.name name = false)
    (hrunning : τ.running name = false) : DetachEffective τ name found after := by
  obtain ⟨hfound, hlater⟩ := h.detached hτ
  refine ⟨by rw [hfound, attached, hrunning, Bool.or_false], ?_⟩
  have hdetached : (τ.detach name).attached name = false := by
    rw [attached_detach, sameName_refl, hrunning]
    rfl
  have hlast : last.attached name = false := by
    refine run_keeps (P := fun σ => σ.attached name = false) ?_ hlater hdetached
    intro d hd _ _ hσ hstep _
    exact hstep.not_attached (fun c hc => hattach c (hc ▸ hd)) hσ
  exact h.finish.not_attached (fun _ hc => Deed.noConfusion hc) hlast

theorem not_running_of_detachEffective {σ τ last after : Stage} {earlier later : List Deed}
    {name : String} {found : Bool} (h : Ticks σ (earlier ++ .detach name found :: later) last after)
    (hτ : run (σ.rounds.length + 1) earlier σ.start = some τ) (hspare : ∀ d ∈ later, d.Spares name)
    (heffective : DetachEffective τ name found after) : τ.running name = false := by
  obtain ⟨-, hlater⟩ := h.detached hτ
  have hlast : last.attached name = (τ.detach name).attached name :=
    run_keeps (P := fun σ => σ.attached name = (τ.detach name).attached name)
      (fun d hd _ _ hσ hstep _ => (hstep.attached_eq (hspare d hd)).trans hσ) hlater rfl
  calc τ.running name
      = (τ.detach name).attached name := by
        rw [attached_detach, sameName_refl]
        rfl
    _ = last.attached name := hlast.symm
    _ = after.attached name := (h.finish.attached_eq trivial).symm
    _ = false := heffective.gone

/-- Effects on an actor are a run of each stage that shows it. In all runs, a detach during a tick that
attaches no controller of its name afterwards takes effect if no tick under way has taken one of that
name. If it is also the last detach of its name and no tick panics afterwards, it takes effect only
then. -/
theorem detach_effective_iff (es : List Effect) {s : Scene} {ρ : Stage} (hρ : ρ.Shows s) :
    (∃ υ, run ρ.rounds.length (Scene.history es s) ρ = some υ ∧ υ.rounds = ρ.rounds ∧
      υ.Shows (es.foldl (fun s e => (s.act e).2) s)) ∧
    ∀ {σ τ last after : Stage} {earlier later : List Deed} {name : String} {found : Bool},
      Ticks σ (earlier ++ .detach name found :: later) last after →
      run (σ.rounds.length + 1) earlier σ.start = some τ →
      (∀ c, .attach c ∈ later → sameName c.name name = false) →
      (τ.running name = false → DetachEffective τ name found after) ∧
      ((∀ d ∈ later, d.Spares name) → DetachEffective τ name found after →
        τ.running name = false) := by
  refine ⟨Scene.run_history es s hρ, ?_⟩
  intro _ _ _ _ _ _ _ _ h hτ hattach
  exact ⟨detachEffective_of_not_running h hτ hattach, not_running_of_detachEffective h hτ⟩

/-- A controller attaches another one and detaches it again. -/
theorem detachEffective_attached_in_tick :
    let b : Controller := .scripted "b" false []
    let a : Controller := .scripted "a" true [.attach b, .detach "B"]
    let s : Scene :=
      ⟨Actor.new "u" ⟨"PIG"⟩ ⟨"world", 0, 64, 0, 0, 0⟩ [] fun _ => .done, ⟨fun _ => 0, 0⟩, [], []⟩
    let es : List Effect := [.attach a, .tick .detached 1]
    fresh.Shows s ∧
      Scene.history es s =
        [.attach a, .start] ++ ([.ask "a", .attach b] ++ .detach "B" true :: []) ++ [.finish] ∧
      (es.foldl (fun s e => (s.act e).2) s).actor.controllerNames = ["a"] ∧
      ∃ σ τ last after, run 0 [.attach a] fresh = some σ ∧
        Ticks σ ([.ask "a", .attach b] ++ .detach "B" true :: []) last after ∧
        run 1 [.ask "a", .attach b] σ.start = some τ ∧ DetachEffective τ "B" true after := by
  intro b a s es
  have hhistory : Scene.history es s =
      [.attach a, .start] ++ ([.ask "a", .attach b] ++ .detach "B" true :: []) ++ [.finish] := by
    dsimp only [es, s, a, b]
    rfl
  have hticks : Ticks ⟨[⟨0, a⟩], [], false, 1, []⟩
      ([.ask "a", .attach b] ++ .detach "B" true :: [])
      ⟨[], [⟨[⟨0, a⟩], []⟩], false, 2, [⟨1, ⟨0, a⟩⟩]⟩ ⟨[⟨0, a⟩], [], false, 2, [⟨1, ⟨0, a⟩⟩]⟩ :=
    ⟨rfl, by dsimp only [a, b]; rfl, rfl, step_of_eq (by dsimp only [a, b]; rfl)⟩
  have hτ : run 1 [.ask "a", .attach b] (start ⟨[⟨0, a⟩], [], false, 1, []⟩) =
      some ⟨[⟨1, b⟩], [⟨[⟨0, a⟩], []⟩], false, 2, [⟨1, ⟨0, a⟩⟩]⟩ := by
    dsimp only [a, b]
    rfl
  have hσ : run 0 [.attach a] fresh = some ⟨[⟨0, a⟩], [], false, 1, []⟩ := by
    dsimp only [a, b]
    rfl
  have hfresh : fresh.Shows s := ⟨rfl, rfl⟩
  exact ⟨hfresh, hhistory, by decide, _, _, _, _, hσ, hticks, hτ,
    ((detach_effective_iff es hfresh).2 hticks hτ (by simp)).1 (by decide)⟩

/-- A controller detaches one that the tick is going to ask next: it is not found, and it is attached
after the tick. -/
theorem not_detached_in_tick :
    let a : Controller := .scripted "a" true [.detach "b"]
    let b : Controller := .scripted "b" true []
    let s : Scene :=
      ⟨Actor.new "u" ⟨"PIG"⟩ ⟨"world", 0, 64, 0, 0, 0⟩ [] fun _ => .done, ⟨fun _ => 0, 0⟩, [], []⟩
    let es : List Effect := [.attach a, .attach b, .tick .detached 1]
    Scene.history es s =
        [.attach a, .attach b, .start] ++ ([.ask "a"] ++ .detach "b" false :: [.ask "b"]) ++
          [.finish] ∧
      (es.foldl (fun s e => (s.act e).2) s).actor.controllerNames = ["a", "b"] ∧
      ∃ σ τ last after, run 0 [.attach a, .attach b] fresh = some σ ∧
        Ticks σ ([.ask "a"] ++ .detach "b" false :: [.ask "b"]) last after ∧
        run 1 [.ask "a"] σ.start = some τ ∧ ¬ DetachEffective τ "b" false after := by
  intro a b s es
  have hhistory : Scene.history es s =
      [.attach a, .attach b, .start] ++ ([.ask "a"] ++ .detach "b" false :: [.ask "b"]) ++
        [.finish] := by
    dsimp only [es, s, a, b]
    rfl
  have hticks : Ticks ⟨[⟨0, a⟩, ⟨1, b⟩], [], false, 2, []⟩
      ([.ask "a"] ++ .detach "b" false :: [.ask "b"])
      ⟨[], [⟨[⟨0, a⟩, ⟨1, b⟩], []⟩], false, 2, [⟨1, ⟨0, a⟩⟩, ⟨1, ⟨1, b⟩⟩]⟩
      ⟨[⟨0, a⟩, ⟨1, b⟩], [], false, 2, [⟨1, ⟨0, a⟩⟩, ⟨1, ⟨1, b⟩⟩]⟩ :=
    ⟨rfl, by dsimp only [a, b]; rfl, rfl, step_of_eq (by dsimp only [a, b]; rfl)⟩
  have hτ : run 1 [.ask "a"] (start ⟨[⟨0, a⟩, ⟨1, b⟩], [], false, 2, []⟩) =
      some ⟨[], [⟨[⟨0, a⟩], [⟨1, b⟩]⟩], false, 2, [⟨1, ⟨0, a⟩⟩]⟩ := by
    dsimp only [a, b]
    rfl
  have hσ : run 0 [.attach a, .attach b] fresh =
      some ⟨[⟨0, a⟩, ⟨1, b⟩], [], false, 2, []⟩ := by
    dsimp only [a, b]
    rfl
  refine ⟨hhistory, by decide, _, _, _, _, hσ, hticks, hτ, fun heffective => ?_⟩
  exact absurd heffective.answer (by decide)

end Stage
end ScriptedActors
