import ScriptedActors.Proofs.Actor.Stage

set_option autoImplicit false

/-!
# The log of a scene

What was done to the controllers of an actor between two scenes stands in the log of the later one.
Its records lead a stage on, deed by deed.
-/
namespace ScriptedActors

structure Moment where
  deed : Deed
  runs : Bool

def Deed.asked? : Deed → Option String
  | .ask name => some name
  | _ => none

namespace Record

def moment : Record → Moment
  | .asked q => ⟨.ask q.controller.name, q.answer == some true⟩
  | .did d => ⟨d, false⟩

def deed (r : Record) : Deed := r.moment.deed

def question? : Record → Option Question
  | .asked q => some q
  | .did _ => none

/-- The controller was really asked, and answered so. Nothing else is told as an asking. -/
def Genuine : Record → Prop
  | .asked q => q.answer = (Behaviour.decide q.controller q.state q.draws).1
  | .did d => d.asked? = none

end Record

def questioned (rs : List Record) : List Controller :=
  (rs.filterMap Record.question?).map Question.controller

theorem questioned_append (rs later : List Record) :
    questioned (rs ++ later) = questioned rs ++ questioned later := by
  rw [questioned, List.filterMap_append, List.map_append]
  rfl

namespace Scene

def since (s t : Scene) : List Record := (t.log.take (t.log.length - s.log.length)).reverse

def chronicle (es : List Effect) (s : Scene) : List Moment :=
  (since s (es.foldl (fun s e => (s.act e).2) s)).map Record.moment

def history (es : List Effect) (s : Scene) : List Deed := (chronicle es s).map Moment.deed

theorem history_eq (es : List Effect) (s : Scene) :
    history es s = (since s (es.foldl (fun s e => (s.act e).2) s)).map Record.deed := by
  rw [history, chronicle, List.map_map]
  rfl

def tickDeeds (host : Host) (s : Scene) : List Deed := (since s (tick host s).2).map Record.deed

/-- Between two scenes some records were written to the log. -/
structure Logged (rs : List Record) (s t : Scene) : Prop where
  log : t.log = rs.reverse ++ s.log
  genuine : ∀ r ∈ rs, r.Genuine

namespace Logged
variable {rs later : List Record} {r s t : Scene}

theorem since (h : Logged rs s t) : since s t = rs := by
  rw [Scene.since, h.log, List.length_append, Nat.add_sub_cancel, List.take_left', List.reverse_reverse]
  rfl

theorem nil (h : t.log = s.log) : Logged [] s t := ⟨h, List.forall_mem_nil _⟩

theorem one {new : Record} (h : t.log = new :: s.log) (hnew : new.Genuine) : Logged [new] s t :=
  ⟨h, List.forall_mem_singleton.mpr hnew⟩

theorem append (h : Logged rs r s) (k : Logged later s t) : Logged (rs ++ later) r t where
  log := by rw [k.log, h.log, List.reverse_append, List.append_assoc]
  genuine := List.forall_mem_append.mpr ⟨h.genuine, k.genuine⟩

end Logged
end Scene

namespace Stage

/-- A stage shows the controllers of an actor, and whether the actor is destroyed. -/
structure Shows (σ : Stage) (s : Scene) : Prop where
  controllers : σ.posts.map Post.controller = s.actor.controllers
  destroyed : σ.destroyed = s.actor.destroyed

def asked (σ : Stage) : List Controller := σ.askings.map fun a => a.post.controller

/-- What was written leads a stage to one that shows a scene. -/
structure Reaches (floor : Nat) (rs : List Record) (σ : Stage) (t : Scene) (τ : Stage) : Prop where
  run : Stage.run floor (rs.map Record.deed) σ = some τ
  shows : τ.Shows t
  asked : τ.asked = σ.asked ++ questioned rs

namespace Reaches
variable {floor : Nat} {rs later : List Record} {σ τ υ : Stage} {s t : Scene}

theorem nil (h : σ.Shows s) : Reaches floor [] σ s σ := ⟨rfl, h, (List.append_nil _).symm⟩

theorem append (h : Reaches floor rs σ s τ) (k : Reaches floor later τ t υ) :
    Reaches floor (rs ++ later) σ t υ where
  run := by rw [List.map_append, run_append, h.run, Option.bind_some, k.run]
  shows := k.shows
  asked := by rw [k.asked, h.asked, questioned_append, List.append_assoc]

theorem one {d : Deed} (hstep : σ.step d = some τ) (hfloor : floor ≤ τ.rounds.length) (hτ : τ.Shows t)
    (hasked : τ.askings = σ.askings) : Reaches floor [.did d] σ t τ where
  run := by
    change Stage.run floor [d] σ = some τ
    rw [run_cons, hstep, Option.bind_some, if_pos hfloor]
    rfl
  shows := hτ
  asked := by rw [Stage.asked, hasked]; exact (List.append_nil _).symm

theorem lower {lower : Nat} (h : Reaches floor rs σ t τ) (hle : lower ≤ floor) :
    Reaches lower rs σ t τ :=
  ⟨run_lower hle h.run, h.shows, h.asked⟩

end Reaches
end Stage

end ScriptedActors
