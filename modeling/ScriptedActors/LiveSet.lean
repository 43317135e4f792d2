import ScriptedActors.Actor.Tick
set_option autoImplicit false

/-!
# The set of live actors

A live set constructs actors, keeps the live ones in order of creation and ticks them. An actor is
identified by its place among all actors that were ever constructed, so two actors with equal ids
stay apart. A set that was shut down admits no more actors; an actor that is refused is torn down.
-/
namespace ScriptedActors

/-- What constructs actors, out of a supply that each construction may change. -/
structure Factory (σ : Type) where
  construct : σ → EntityKind → Location → List String → Except ActorError Actor × σ

structure LiveSet (σ : Type) where
  factory : Factory σ
  supply : σ
  enforcesUniqueIds : Bool
  closed : Bool
  actors : List Actor
  live : List Nat
  draws : Draws
  /-- The unique ids of the teardowns so far. -/
  torn : List String

structure TeardownReport where
  attempted : Nat
  failures : List ActorError

def TeardownReport.isClean (r : TeardownReport) : Bool := r.failures.isEmpty

def Actor.teardownFailure (a : Actor) : Option ActorError :=
  match a.destroyOutcome with
  | .done => none
  | .failed error => some error
  | .panicked => some (.teardown a.uniqueId "teardown panicked")

namespace LiveSet
variable {σ : Type}

def empty (factory : Factory σ) (supply : σ) (enforcesUniqueIds : Bool) (draws : Draws) : LiveSet σ :=
  ⟨factory, supply, enforcesUniqueIds, false, [], [], draws, []⟩

def actor? (set : LiveSet σ) (identity : Nat) : Option Actor := set.actors[identity]?

def liveActors (set : LiveSet σ) : List Actor := set.live.filterMap set.actor?

def length (set : LiveSet σ) : Nat := set.live.length

def isEmpty (set : LiveSet σ) : Bool := set.length == 0

def identitiesWhere (set : LiveSet σ) (p : Actor → Bool) : List Nat :=
  set.live.filter fun identity => (set.actor? identity).any p

def findById (set : LiveSet σ) (id : String) : List Nat := set.identitiesWhere fun a => a.id == id

def findByUniqueId (set : LiveSet σ) (uniqueId : String) : List Nat :=
  set.identitiesWhere fun a => a.uniqueId == uniqueId

def scene (set : LiveSet σ) (a : Actor) : Scene := ⟨a, set.draws, set.torn, []⟩

/-- Put an actor on the scene, act, and take the actor back. -/
def visit {α : Type} (set : LiveSet σ) (identity : Nat) (act : Scene → α × Scene) :
    Option α × LiveSet σ :=
  match set.actor? identity with
  | none => (none, set)
  | some a =>
    let (answer, s) := act (set.scene a)
    (some answer,
      { set with actors := set.actors.set identity s.actor, draws := s.draws, torn := s.torn })

def destroy (set : LiveSet σ) (identity : Nat) : LiveSet σ :=
  (set.visit identity fun s => ((), s.destroy)).2

def enter (set : LiveSet σ) (a : Actor) : Except ActorError Nat × LiveSet σ :=
  let identity := set.actors.length
  let known := { set with actors := set.actors ++ [a] }
  if set.closed then (.error .shutDown, known.destroy identity)
  else if set.enforcesUniqueIds && !(set.findByUniqueId a.uniqueId).isEmpty then
    (.error (.duplicateUniqueId a.uniqueId), known.destroy identity)
  else (.ok identity, { known with live := known.live ++ [identity] })

/-- Construct an actor, prepare it and admit it. It is seen by the given viewers, or else by the
observers of its location. -/
def create (set : LiveSet σ) (host : Host) (kind : EntityKind) (location : Location)
    (viewers : Option (List String)) (prepare : Actor → Actor) : Except ActorError Nat × LiveSet σ :=
  match set.factory.construct set.supply kind location (viewers.getD (host.observers location)) with
  | (.error error, supply) => (.error error, { set with supply := supply })
  | (.ok a, supply) => { set with supply := supply }.enter (prepare a)

/-- Drop an actor, which is not torn down. The first part says whether it was live. -/
def remove (set : LiveSet σ) (identity : Nat) : Bool × LiveSet σ :=
  let live := set.live.filter (· != identity)
  (live.length != set.live.length, { set with live := live })

def tearDown (set : LiveSet σ) : List Nat → List ActorError × LiveSet σ
  | [] => ([], set)
  | identity :: rest =>
    let failure := (set.actor? identity).bind Actor.teardownFailure
    let (failures, after) := (set.destroy identity).tearDown rest
    (failure.toList ++ failures, after)

def shutdown (set : LiveSet σ) : TeardownReport × LiveSet σ :=
  let (failures, after) := { set with closed := true, live := [] }.tearDown set.live
  (⟨set.live.length, failures⟩, after)

def tickEach (host : Host) : List Nat → LiveSet σ → Bool × LiveSet σ
  | [], set => (false, set)
  | identity :: rest, set =>
    match set.visit identity (Scene.tick host) with
    | (some true, after) => (true, after)
    | (_, after) => tickEach host rest after

def tickAll (set : LiveSet σ) (host : Host) : Bool × LiveSet σ := tickEach host set.live set

def tickTimes (host : Host) : Nat → LiveSet σ → Bool × LiveSet σ
  | 0, set => (false, set)
  | count + 1, set =>
    let (panicked, set) := set.tickAll host
    if panicked then (true, set) else tickTimes host count set

def attachAll (set : LiveSet σ) (c : Controller) : LiveSet σ :=
  set.live.foldl (fun set identity => (set.visit identity fun s => ((), s.modify (·.attach c))).2) set

end LiveSet
end ScriptedActors
