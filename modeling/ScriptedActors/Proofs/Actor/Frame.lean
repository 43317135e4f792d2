import ScriptedActors.Actor.Tick

set_option autoImplicit false

/-!
# What ticks and effects keep

A tick is made of few elementary steps: controllers are replaced, the state changes, viewers come
and go, the actor is destroyed. A preorder on scenes that every elementary step keeps to relates a
scene to the scene after any effect and after any tick, however deep the ticks nest.
-/
namespace ScriptedActors

namespace Scene

theorem inTurn_cons {α : Type} (step : α → Scene → Stepped) (x : α) (xs : List α) (s : Scene) :
    inTurn step (x :: xs) s =
      if (step x s).1 then step x s else inTurn step xs (step x s).2 := by
  rw [inTurn]
  rcases step x s with ⟨_ | _, t⟩
  · rfl
  · rfl

theorem ask_cases (tick : Host → Scene → Stepped) (host : Host) (c : Controller) (s : Scene) :
    (ask tick host c s).2 = (s.question c).2 ∨ ask tick host c s = execute tick host c (s.question c).2 := by
  rw [ask]
  rcases s.question c with ⟨_ | _ | _, t⟩
  · exact .inl rfl
  · exact .inl rfl
  · exact .inr rfl

theorem heightOf_le_iff (cs : List Controller) (bound : Nat) :
    heightOf cs ≤ bound ↔ ∀ c ∈ cs, c.height ≤ bound := by
  induction cs with
  | nil => simp [heightOf]
  | cons c cs ih => rw [heightOf, Nat.max_le, ih, List.forall_mem_cons]

theorem effectsHeight_le_iff (es : List Effect) (bound : Nat) :
    effectsHeight es ≤ bound ↔ ∀ e ∈ es, e.height ≤ bound := by
  induction es with
  | nil => simp [effectsHeight]
  | cons e es ih => rw [effectsHeight, Nat.max_le, ih, List.forall_mem_cons]

theorem controllers_eq_nil {s : Scene} (h : heightOf s.actor.controllers ≤ 0) :
    s.actor.controllers = [] := by
  rw [heightOf_le_iff] at h
  refine List.eq_nil_iff_forall_not_mem.mpr fun c hc => ?_
  have hheight := h c hc
  cases c with
  | _ => simp [Controller.height] at hheight

theorem tickAt_destroyed (depth : Nat) (host : Host) {s : Scene} (h : s.actor.destroyed = true) :
    tickAt depth host s = (false, s) := by
  cases depth with
  | _ => exact if_pos h

/-- A tick that may nest as deep as the controllers are high asks them all, unless one panics. -/
theorem tickAt_standing {depth : Nat} (host : Host) {s : Scene} (hlow : heightOf s.actor.controllers ≤ depth)
    (h : s.actor.destroyed = false) :
    tickAt depth host s =
      finish s.actor.controllers
        (inTurn (ask (tickAt (depth - 1)) host) s.actor.controllers s.start) := by
  cases depth with
  | zero =>
    rw [tickAt, if_neg (by simp [h]), controllers_eq_nil hlow]
    rfl
  | succ depth => rw [tickAt, if_neg (by simp [h]), Nat.add_sub_cancel]

/-- A preorder that every elementary step keeps to. -/
structure Frame (R : Scene → Scene → Prop) : Prop where
  refl : ∀ s, R s s
  trans : ∀ {r s t}, R r s → R s t → R r t
  controllers : ∀ s cs, R s (s.modify fun a => { a with controllers := cs })
  viewers : ∀ s names, R s (s.modify fun a => { a with viewers := names })
  state : ∀ s state, R s (s.modify fun a => { a with state := state })
  draws : ∀ s draws, R s { s with draws := draws }
  destroy : ∀ s, R s s.destroy
  log : ∀ s log, R s { s with log := log }

namespace Frame
variable {R : Scene → Scene → Prop} (h : Frame R)
include h

theorem inTurn {α : Type} {step : α → Scene → Stepped} (hstep : ∀ x s, R s (step x s).2) (xs : List α)
    (s : Scene) : R s (inTurn step xs s).2 := by
  induction xs generalizing s with
  | nil => exact h.refl s
  | cons x xs ih =>
    rw [inTurn_cons]
    split
    · exact hstep x s
    · exact h.trans (hstep x s) (ih _)

theorem addViewer (s : Scene) (name : String) : R s (s.update (·.addViewer name)).2 := by
  by_cases hname : name ∈ s.actor.viewers
  · simp only [update, Actor.addViewer, if_pos hname]
    exact h.refl s
  · simp only [update, Actor.addViewer, if_neg hname]
    exact h.viewers s _

section
variable {tick : Host → Scene → Stepped} (htick : ∀ host s, R s (tick host s).2)
include htick

theorem perform (s : Scene) : ∀ e, R s (s.perform tick e).2
  | .attach _ => h.trans (h.log s _) (h.controllers _ _)
  | .detach _ => h.trans (h.log s _) (h.controllers _ _)
  | .tick _ _ => h.inTurn htick _ s
  | .destroy => h.destroy s
  | .addViewer name => h.addViewer s name
  | .removeViewer _ => h.viewers s _
  | .change _ => h.state s _
  | .panic => h.refl s
  | .guard e => perform s e

theorem execute (host : Host) (c : Controller) (s : Scene) : R s (execute tick host c s).2 := by
  unfold Scene.execute
  split
  · exact h.inTurn (fun e s => h.perform htick s e) _ s
  · exact h.trans (h.state s _) (h.draws _ _)

theorem ask (host : Host) (c : Controller) (s : Scene) : R s (ask tick host c s).2 := by
  have hasked : R s (s.question c).2 :=
    h.trans (h.draws s (Behaviour.decide c s.actor.state s.draws).2) (h.log _ _)
  rcases ask_cases tick host c s with hleft | hexecuted
  · rwa [hleft]
  · rw [hexecuted]
    exact h.trans hasked (h.execute htick host c _)

end

theorem start (s : Scene) : R s s.start := h.trans (h.log s _) (h.controllers _ _)

theorem finish {s : Scene} {stepped : Stepped} (taken : List Controller) (hstepped : R s stepped.2) :
    R s (finish taken stepped).2 := by
  obtain ⟨panicked, t⟩ := stepped
  cases panicked with
  | true => exact h.trans hstepped (h.log t _)
  | false => exact h.trans hstepped (h.trans (h.log t _) (h.controllers _ _))

theorem tickAt (depth : Nat) (host : Host) (s : Scene) : R s (tickAt depth host s).2 := by
  induction depth generalizing host s with
  | zero =>
    rw [Scene.tickAt]
    split
    · exact h.refl s
    · exact h.finish [] (h.start s)
  | succ depth ih =>
    rw [Scene.tickAt]
    split
    · exact h.refl s
    · exact h.finish _ (h.trans (h.start s) (h.inTurn (h.ask ih host) _ _))

theorem tick (host : Host) (s : Scene) : R s (tick host s).2 := h.tickAt _ host s

theorem act (s : Scene) (e : Effect) : R s (s.act e).2 := h.perform h.tick s e

end Frame

def SameNames (s t : Scene) : Prop := t.actor.id = s.actor.id ∧ t.actor.uniqueId = s.actor.uniqueId

theorem frame_sameNames : Frame SameNames where
  refl _ := ⟨rfl, rfl⟩
  trans h k := ⟨k.1.trans h.1, k.2.trans h.2⟩
  controllers _ _ := ⟨rfl, rfl⟩
  viewers _ _ := ⟨rfl, rfl⟩
  state _ _ := ⟨rfl, rfl⟩
  draws _ _ := ⟨rfl, rfl⟩
  log _ _ := ⟨rfl, rfl⟩
  destroy s := by
    rw [SameNames, Scene.destroy, Actor.destroy]
    by_cases hdestroyed : s.actor.destroyed = true
    · simp [hdestroyed]
    · simp [hdestroyed]

end Scene
end ScriptedActors
