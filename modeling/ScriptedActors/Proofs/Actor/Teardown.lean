import ScriptedActors.LiveSet
import ScriptedActors.Proofs.Actor.Frame

set_option autoImplicit false

/-!
# One teardown for one actor

The handle of an actor is asked once if the actor is destroyed and never if it is not, and an actor
that is destroyed stays so. This holds of every actor that is made and changed by the operations of
this library alone, whatever its handle answers.
-/
namespace ScriptedActors

namespace Actor

/-- Actors that are made anew and then only renamed or acted on. -/
inductive Made : Actor → Prop where
  | new (uniqueId : String) (kind : EntityKind) (location : Location) (viewers : List String)
      (handle : Handle) : Made (Actor.new uniqueId kind location viewers handle)
  | rename {a : Actor} (id : String) (h : Made a) : Made { a with id := id }
  | act {s : Scene} (e : Effect) (h : Made s.actor) : Made (s.act e).2.actor

def Counted (a : Actor) : Prop := a.teardowns = if a.destroyed then 1 else 0

/-- What later states of an actor keep. -/
structure Follows (a b : Actor) : Prop where
  counted : a.Counted → b.Counted
  destroyed : a.destroyed = true → b.destroyed = true

theorem Follows.refl (a : Actor) : Follows a a := ⟨fun h => h, fun h => h⟩

theorem Follows.trans {a b c : Actor} (h : Follows a b) (k : Follows b c) : Follows a c :=
  ⟨k.counted ∘ h.counted, k.destroyed ∘ h.destroyed⟩

theorem destroyed_destroy (a : Actor) : a.destroy.destroyed = true := by
  rw [destroy]
  by_cases hdestroyed : a.destroyed = true
  · rw [if_pos hdestroyed]
    exact hdestroyed
  · rw [if_neg hdestroyed]

theorem Counted.destroy {a : Actor} (h : a.Counted) : a.destroy.Counted := by
  rw [Actor.destroy]
  by_cases hdestroyed : a.destroyed = true
  · rwa [if_pos hdestroyed]
  · rw [if_neg hdestroyed]
    rw [Counted, if_neg hdestroyed] at h
    simp [Counted, h]

theorem follows_destroy (a : Actor) : Follows a a.destroy :=
  ⟨Counted.destroy, fun _ => a.destroyed_destroy⟩

end Actor

theorem Scene.frame_follows : Frame fun s t => Actor.Follows s.actor t.actor where
  refl s := .refl s.actor
  trans := .trans
  controllers _ _ := ⟨id, id⟩
  viewers _ _ := ⟨id, id⟩
  state _ _ := ⟨id, id⟩
  draws _ _ := ⟨id, id⟩
  log _ _ := ⟨id, id⟩
  destroy s := s.actor.follows_destroy

namespace Actor

theorem Made.counted {a : Actor} (h : a.Made) : a.Counted := by
  induction h with
  | new => rfl
  | rename id h ih => exact ih
  | act e h ih => exact (Scene.frame_follows.act _ e).counted ih

def handleFailure (a : Actor) : Option ActorError :=
  match a.handle a.uniqueId with
  | .done => none
  | .failed error => some (a.teardownError error)
  | .panicked => some (.teardown a.uniqueId "teardown panicked")

theorem teardownFailure_eq (a : Actor) :
    a.teardownFailure = if a.destroyed then none else a.handleFailure := by
  rw [teardownFailure, destroyOutcome, handleFailure]
  by_cases hdestroyed : a.destroyed = true
  · simp only [hdestroyed, if_true]
  · simp only [hdestroyed, Bool.false_eq_true, if_false]
    cases a.handle a.uniqueId with
    | done => rfl
    | failed error => rfl
    | panicked => rfl

theorem handleFailure_eq_some {a : Actor} {error : ActorError} (h : a.handleFailure = some error) :
    ∃ uniqueId detail, error = .teardown uniqueId detail := by
  rw [handleFailure] at h
  cases houtcome : a.handle a.uniqueId with
  | done => simp [houtcome] at h
  | failed cause =>
    obtain rfl : a.teardownError cause = error := by simpa [houtcome] using h
    cases cause with
    | teardown uniqueId detail => exact ⟨uniqueId, detail, rfl⟩
    | construction kind detail => exact ⟨_, _, rfl⟩
    | duplicateUniqueId uniqueId => exact ⟨_, _, rfl⟩
    | shutDown => exact ⟨_, _, rfl⟩
  | panicked =>
    obtain rfl : ActorError.teardown a.uniqueId "teardown panicked" = error := by
      simpa [houtcome] using h
    exact ⟨_, _, rfl⟩

end Actor
end ScriptedActors
