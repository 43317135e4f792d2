import ScriptedActors.Actor.Tick

set_option autoImplicit false

/-!
# Controllers on stage

Ticks of an actor nest: a controller that is asked may attach and detach controllers, destroy the
actor and tick it again. A stage holds the controllers of an actor while ticks are under way, each
with the number under which it was attached, and changes by one deed at a time. Between two
askings there may be any deeds, so the runs of a stage cover every way in which controllers behave.
-/
namespace ScriptedActors
open Text

structure Post where
  number : Nat
  controller : Controller

def Post.name (p : Post) : String := p.controller.name

/-- A tick under way: the controllers that it has asked, and those that it is going to ask. -/
structure Round where
  asked : List Post
  waiting : List Post

def Round.taken (r : Round) : List Post := r.asked ++ r.waiting

/-- A controller was asked by a tick of some depth; an outermost tick has depth one. -/
structure Asking where
  depth : Nat
  post : Post

/-- The controllers of an actor, and its ticks under way with the innermost first. -/
structure Stage where
  posts : List Post
  rounds : List Round
  destroyed : Bool
  next : Nat
  askings : List Asking

namespace Stage

def fresh : Stage := ⟨[], [], false, 0, []⟩

def hasPost (posts : List Post) (name : String) : Bool := posts.any fun p => sameName p.name name

def postsBut (posts : List Post) (name : String) : List Post :=
  posts.filter fun p => !sameName p.name name

def attach (σ : Stage) (c : Controller) : Stage :=
  { σ with posts := postsBut σ.posts c.name ++ [⟨σ.next, c⟩], next := σ.next + 1 }

def detach (σ : Stage) (name : String) : Stage := { σ with posts := postsBut σ.posts name }

def start (σ : Stage) : Stage := { σ with posts := [], rounds := ⟨[], σ.posts⟩ :: σ.rounds }

def putBack (taken posts : List Post) : List Post :=
  taken.filter (fun p => !hasPost posts p.name) ++ posts

def step (σ : Stage) : Deed → Option Stage
  | .attach c => some (σ.attach c)
  | .detach name found => if found = hasPost σ.posts name then some (σ.detach name) else none
  | .destroy => some { σ with destroyed := true }
  | .start => if σ.destroyed then none else some σ.start
  | .ask name =>
    match σ.rounds with
    | ⟨asked, p :: waiting⟩ :: rounds =>
      if p.name = name then
        some
          { σ with
            rounds := ⟨asked ++ [p], waiting⟩ :: rounds
            askings := σ.askings ++ [⟨rounds.length + 1, p⟩] }
      else none
    | _ => none
  | .finish =>
    match σ.rounds with
    | ⟨asked, []⟩ :: rounds => some { σ with posts := putBack asked σ.posts, rounds := rounds }
    | _ => none
  | .abandon =>
    match σ.rounds with
    | _ :: rounds => some { σ with rounds := rounds }
    | [] => none

/-- Do deeds one after the other, with never less than `floor` ticks under way. -/
def run (floor : Nat) : List Deed → Stage → Option Stage
  | [], σ => some σ
  | d :: ds, σ => (σ.step d).bind fun τ => if floor ≤ τ.rounds.length then run floor ds τ else none

inductive Step (σ : Stage) : Deed → Stage → Prop where
  | attach (c : Controller) : Step σ (.attach c) (σ.attach c)
  | detach (name : String) : Step σ (.detach name (hasPost σ.posts name)) (σ.detach name)
  | destroy : Step σ .destroy { σ with destroyed := true }
  | start (h : σ.destroyed = false) : Step σ .start σ.start
  | ask {asked : List Post} {p : Post} {waiting : List Post} {rounds : List Round}
      (h : σ.rounds = ⟨asked, p :: waiting⟩ :: rounds) :
      Step σ (.ask p.name)
        { σ with
          rounds := ⟨asked ++ [p], waiting⟩ :: rounds
          askings := σ.askings ++ [⟨rounds.length + 1, p⟩] }
  | finish {asked : List Post} {rounds : List Round} (h : σ.rounds = ⟨asked, []⟩ :: rounds) :
      Step σ .finish { σ with posts := putBack asked σ.posts, rounds := rounds }
  | abandon {r : Round} {rounds : List Round} (h : σ.rounds = r :: rounds) :
      Step σ .abandon { σ with rounds := rounds }

theorem step_of_eq {σ τ : Stage} {d : Deed} (h : σ.step d = some τ) : Step σ d τ := by
  cases d with
  | attach c =>
    cases h
    exact .attach c
  | detach name found =>
    rw [step] at h
    split at h
    · rename_i hfound
      cases h
      cases hfound
      exact .detach name
    · cases h
  | destroy =>
    cases h
    exact .destroy
  | start =>
    rw [step] at h
    split at h
    · cases h
    · rename_i hdestroyed
      cases h
      exact .start (by simpa using hdestroyed)
  | ask name =>
    rw [step] at h
    split at h
    · rename_i hrounds
      split at h
      · rename_i hname
        cases h
        cases hname
        exact .ask hrounds
      · cases h
    · cases h
  | finish =>
    rw [step] at h
    split at h
    · rename_i hrounds
      cases h
      exact .finish hrounds
    · cases h
  | abandon =>
    rw [step] at h
    split at h
    · rename_i hrounds
      cases h
      exact .abandon hrounds
    · cases h

theorem run_cons (floor : Nat) (d : Deed) (ds : List Deed) (σ : Stage) :
    run floor (d :: ds) σ =
      (σ.step d).bind fun τ => if floor ≤ τ.rounds.length then run floor ds τ else none := rfl

theorem run_append (floor : Nat) (first second : List Deed) (σ : Stage) :
    run floor (first ++ second) σ = (run floor first σ).bind (run floor second) := by
  induction first generalizing σ with
  | nil => rfl
  | cons d first ih =>
    rw [List.cons_append, run_cons, run_cons, Option.bind_assoc]
    congr 1
    funext τ
    split
    · exact ih τ
    · rfl

theorem run_cons_eq_some {floor : Nat} {d : Deed} {ds : List Deed} {σ υ : Stage}
    (h : run floor (d :: ds) σ = some υ) :
    ∃ τ, Step σ d τ ∧ floor ≤ τ.rounds.length ∧ run floor ds τ = some υ := by
  rw [run_cons] at h
  obtain ⟨τ, hτ, h⟩ := Option.bind_eq_some_iff.mp h
  split at h
  · rename_i hfloor
    exact ⟨τ, step_of_eq hτ, hfloor, h⟩
  · cases h

theorem run_append_eq_some {floor : Nat} {first second : List Deed} {σ υ : Stage}
    (h : run floor (first ++ second) σ = some υ) :
    ∃ τ, run floor first σ = some τ ∧ run floor second τ = some υ := by
  rw [run_append] at h
  exact Option.bind_eq_some_iff.mp h

theorem run_keeps {floor : Nat} {ds : List Deed} {P : Stage → Prop}
    (hstep : ∀ d ∈ ds, ∀ σ τ, P σ → Step σ d τ → floor ≤ τ.rounds.length → P τ) {σ υ : Stage}
    (h : run floor ds σ = some υ) (hσ : P σ) : P υ := by
  induction ds generalizing σ with
  | nil =>
    cases h
    exact hσ
  | cons d ds ih =>
    obtain ⟨hfirst, hrest⟩ := List.forall_mem_cons.mp hstep
    obtain ⟨τ, hτ, hfloor, h⟩ := run_cons_eq_some h
    exact ih hrest h (hfirst σ τ hσ hτ hfloor)

theorem run_lower {floor lower : Nat} (hle : lower ≤ floor) {ds : List Deed} {σ υ : Stage}
    (h : run floor ds σ = some υ) : run lower ds σ = some υ := by
  induction ds generalizing σ with
  | nil => exact h
  | cons d ds ih =>
    rw [run_cons] at h ⊢
    obtain ⟨τ, hτ, h⟩ := Option.bind_eq_some_iff.mp h
    split at h
    · rename_i hfloor
      rw [hτ, Option.bind_some, if_pos (Nat.le_trans hle hfloor)]
      exact ih h
    · cases h

end Stage
end ScriptedActors
