import ScriptedActors.Proofs.LiveSet.UniqueIds

set_option autoImplicit false

/-!
# What a creation leaves

A creation that succeeds puts the prepared actor behind the live ones. One that fails leaves the live
actors as they are; if an actor was constructed, it is kept among the constructed ones, torn down.
-/
namespace ScriptedActors

namespace LiveSet
variable {σ : Type} {set after : LiveSet σ}

theorem liveActors_of_append (hset : Kept set) {more : List Actor}
    (hactors : after.actors = set.actors ++ more) :
    set.live.filterMap after.actor? = set.liveActors := by
  refine List.filterMap_congr ?_
  intro identity hidentity
  rw [actor?, hactors, List.getElem?_append_left (hset.lt_actors identity hidentity), actor?]

theorem liveActors_refused (hset : Kept set) (hlive : after.live = set.live) {more : List Actor}
    (hactors : after.actors = set.actors ++ more) : after.liveActors = set.liveActors := by
  rw [liveActors, hlive, liveActors_of_append hset hactors]

theorem liveActors_admitted (hset : Kept set) (hlive : after.live = set.live ++ [set.actors.length])
    {a : Actor} (hactors : after.actors = set.actors ++ [a]) :
    after.liveActors = set.liveActors ++ [a] := by
  have hfresh : after.actor? set.actors.length = some a := by simp [actor?, hactors]
  rw [liveActors, hlive, List.filterMap_append, liveActors_of_append hset hactors]
  simp [hfresh]

inductive Entered (set : LiveSet σ) (a : Actor) : Except ActorError Nat × LiveSet σ → Prop where
  | refused {error : ActorError} {after : LiveSet σ} : after.liveActors = set.liveActors →
      after.actors = set.actors ++ [a.destroy] → Entered set a (.error error, after)
  | admitted {identity : Nat} {after : LiveSet σ} : after.liveActors = set.liveActors ++ [a] →
      after.actors = set.actors ++ [a] → Entered set a (.ok identity, after)

theorem entered_enter (hset : Kept set) (a : Actor) : Entered set a (set.enter a) := by
  have hroll := refused_or_admitted_enter set a
  have hactors := actors_enter set a
  generalize set.enter a = result at *
  obtain ⟨reply, after⟩ := result
  rcases hroll with ⟨⟨error, rfl⟩, hlive, -⟩ | ⟨rfl, -, hlive, -⟩
  · rcases hactors with ⟨⟨⟩, -⟩ | ⟨-, hactors⟩
    exact .refused (liveActors_refused hset hlive hactors) hactors
  · rcases hactors with ⟨-, hactors⟩ | ⟨⟨error, ⟨⟩⟩, -⟩
    rw [length_names] at hlive
    exact .admitted (liveActors_admitted hset hlive hactors) hactors

/-- The factory fails and nothing else happens, or it constructs an actor that is prepared and enters. -/
theorem failed_or_entered_create (hset : Kept set) (host : Host) (kind : EntityKind)
    (location : Location) (viewers : Option (List String)) (prepare : Actor → Actor) :
    (∃ error supply, set.create host kind location viewers prepare =
      (.error error, { set with supply := supply })) ∨
    ∃ a supply, set.constructed host kind location viewers = (.ok a, supply) ∧
      Entered set (prepare a) (set.create host kind location viewers prepare) := by
  cases hconstruct : set.constructed host kind location viewers with
  | mk made supply =>
    cases made with
    | error error =>
      refine .inl ⟨error, supply, ?_⟩
      rw [create]
      rw [constructed] at hconstruct
      rw [hconstruct]
    | ok a =>
      refine .inr ⟨a, supply, rfl, ?_⟩
      have hsupplied : Kept { set with supply := supply } := ⟨hset.ordered, hset.known, hset.closed⟩
      have hentered := entered_enter hsupplied (prepare a)
      rw [← create_of_construct hconstruct] at hentered
      generalize set.create host kind location viewers prepare = result at *
      cases hentered with
      | refused hlive hactors => exact .refused hlive hactors
      | admitted hlive hactors => exact .admitted hlive hactors

end LiveSet
end ScriptedActors
