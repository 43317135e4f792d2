import ScriptedActors.Actor.Behaviour
set_option autoImplicit false

/-!
# Ticks

In a tick the controllers of an actor are taken off it and run one after the other. A controller
that runs may attach, detach and destroy, and may tick its actor again; such a nested tick runs
what was attached in the meantime. Then the controllers are put back in front of those that were
attached, without those that a newer one replaces.

Controllers attached by a controller are parts of it, so ticks nest only so deep as controllers
do. A panic leaves the tick it happens in, whose controllers are lost, and goes on into the
controller that started this tick, and so on outwards until a controller guards against it.

What is done to the controllers of an actor is written to a log.
-/
namespace ScriptedActors
open Text

mutual
def Controller.height : Controller → Nat
  | .scripted _ _ effects => effectsHeight effects + 1
  | _ => 1

def Effect.height : Effect → Nat
  | .attach c => c.height
  | .guard e => e.height
  | _ => 0

def effectsHeight : List Effect → Nat
  | [] => 0
  | e :: es => max e.height (effectsHeight es)
end

def heightOf : List Controller → Nat
  | [] => 0
  | c :: cs => max c.height (heightOf cs)

inductive Deed where
  | attach (c : Controller)
  | detach (name : String) (found : Bool)
  | destroy
  | start
  | ask (name : String)
  | finish
  | abandon

/-- Which controller was asked, over what state and draws, and whether it wants to run; `none` if it
panicked. -/
structure Question where
  controller : Controller
  state : ActorState
  draws : Draws
  answer : Option Bool

inductive Record where
  | asked (q : Question)
  | did (d : Deed)

/-- An actor in a tick, the draws to come, the unique ids that were torn down, and the log with the
latest record first. -/
structure Scene where
  actor : Actor
  draws : Draws
  torn : List String
  log : List Record

/-- Whether a step panicked, and the scene it leaves. -/
abbrev Stepped := Bool × Scene

inductive Answer where
  | done
  | changed (b : Bool)
  | failed (error : ActorError)
  | panicked

def Answer.isPanic : Answer → Bool
  | .panicked => true
  | _ => false

namespace Scene

def modify (s : Scene) (f : Actor → Actor) : Scene := { s with actor := f s.actor }

def update (s : Scene) (f : Actor → Bool × Actor) : Answer × Scene :=
  let (b, a) := f s.actor
  (.changed b, { s with actor := a })

def note (s : Scene) (d : Deed) : Scene := { s with log := .did d :: s.log }

def destroy (s : Scene) : Scene :=
  { s.note .destroy with actor := s.actor.destroy, torn := s.torn ++ s.actor.teardownLog }

def destroyAnswer (s : Scene) : Answer :=
  match s.actor.destroyOutcome with
  | .done => .done
  | .failed error => .failed error
  | .panicked => .panicked

/-- Take steps one after the other; a panic ends them. -/
def inTurn {α : Type} (step : α → Scene → Stepped) : List α → Scene → Stepped
  | [], s => (false, s)
  | x :: xs, s =>
    let (panicked, s) := step x s
    if panicked then (true, s) else inTurn step xs s

def perform (tick : Host → Scene → Stepped) (s : Scene) : Effect → Answer × Scene
  | .attach c => (.done, (s.note (.attach c)).modify (·.attach c))
  | .detach name => (s.note (.detach name (s.actor.detach name).1)).update (·.detach name)
  | .tick host count =>
    let (panicked, s) := inTurn tick (List.replicate count host) s
    (if panicked then .panicked else .done, s)
  | .destroy => (s.destroyAnswer, s.destroy)
  | .addViewer name => s.update (·.addViewer name)
  | .removeViewer name => s.update (·.removeViewer name)
  | .change c => (.done, s.modify (·.change c))
  | .panic => (.panicked, s)
  | .guard e => (.done, (s.perform tick e).2)

def effect (tick : Host → Scene → Stepped) (e : Effect) (s : Scene) : Stepped :=
  let (answer, s) := s.perform tick e
  (answer.isPanic, s)

def execute (tick : Host → Scene → Stepped) (host : Host) (c : Controller) (s : Scene) : Stepped :=
  match c with
  | .scripted _ _ effects => inTurn (effect tick) effects s
  | c =>
    let (state, draws) := Behaviour.run host s.actor.viewers c s.draws s.actor.state
    (false, { s with actor := { s.actor with state := state }, draws := draws })

def question (s : Scene) (c : Controller) : Option Bool × Scene :=
  let (answer, draws) := Behaviour.decide c s.actor.state s.draws
  (answer, { s with draws := draws, log := .asked ⟨c, s.actor.state, s.draws, answer⟩ :: s.log })

def ask (tick : Host → Scene → Stepped) (host : Host) (c : Controller) (s : Scene) : Stepped :=
  match s.question c with
  | (none, s) => (true, s)
  | (some false, s) => (false, s)
  | (some true, s) => execute tick host c s

def start (s : Scene) : Scene := (s.note .start).modify fun a => { a with controllers := [] }

/-- Put controllers back in front of those that are attached, unless one of these has their name. -/
def putBack (taken : List Controller) (a : Actor) : Actor :=
  { a with
    controllers := taken.filter (fun c => !a.hasController c.name) ++ a.controllers }

/-- The end of a tick that took controllers off the actor. They are lost if it panicked. -/
def finish (taken : List Controller) : Stepped → Stepped
  | (true, s) => (true, s.note .abandon)
  | (false, s) => (false, (s.note .finish).modify (putBack taken))

/-- A tick in which ticks nest at most `depth` deep. Without depth there is nothing attached. -/
def tickAt (depth : Nat) (host : Host) (s : Scene) : Stepped :=
  if s.actor.destroyed then (false, s)
  else
    match depth with
    | 0 => finish [] (false, s.start)
    | depth + 1 =>
      finish s.actor.controllers (inTurn (ask (tickAt depth) host) s.actor.controllers s.start)

def tick (host : Host) (s : Scene) : Stepped := tickAt (heightOf s.actor.controllers) host s

def act (s : Scene) (e : Effect) : Answer × Scene := s.perform tick e

end Scene
end ScriptedActors
