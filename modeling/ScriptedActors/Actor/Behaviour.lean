import ScriptedActors.Actor.Basic
import ScriptedActors.Host
set_option autoImplicit false

/-!
# The built-in behaviours

Each behaviour is a change of the state of an actor. Random choices are made by draws, which are
fractions taken one after the other from a source.
-/
namespace ScriptedActors
open Arithmetic

/-- Fractions from zero to one, and how many of them were taken. -/
structure Draws where
  source : Nat → Float
  taken : Nat

namespace Draws

def value (d : Draws) : Float := d.source d.taken

def advance (d : Draws) : Draws := { d with taken := d.taken + 1 }

def between (d : Draws) (low high : Float) : Float := low + d.value * (high - low)

end Draws

namespace Behaviour

def lookRange : Float := 8.0

def strollRange : Float := 10.0

def gravityStep : Float := 0.08

def terminalVelocity : Float := 3.92

def eyeHeight : Float := 1.62

def degreesPerRadian : Float := 180.0 / 3.141592653589793

def fullTurn : Float := 6.283185307179586

structure Offset where
  value : Float
  /-- Which way an undefined difference counts: that of two infinities is negative. -/
  negative : Bool

def Offset.between (here there : Float) : Offset := ⟨there - here, !here.isNaN && !there.isNaN⟩

/-- An angle to turn to, and which way to turn if it is undefined. -/
structure Heading where
  angle : Float32
  turnsBack : Bool

def yawAlong (dx dz : Offset) : Heading :=
  ⟨narrow ((-dx.value).atan2 dz.value * degreesPerRadian),
    if dx.value.isNaN then !dx.negative else dz.negative⟩

def pitchAlong (dx dy dz : Offset) : Heading :=
  let horizontal := (dx.value * dx.value + dz.value * dz.value).sqrt
  ⟨narrow (-(dy.value.atan2 horizontal * degreesPerRadian)),
    if dy.value.isNaN then !dy.negative else if dx.value.isNaN then !dx.negative else !dz.negative⟩

def turnBetween (current target : Float32) : Float32 :=
  let delta := remainder (target - current) 360
  if delta > 180 then delta - 360 else if delta < -180 then delta + 360 else delta

def approach (current : Float32) (heading : Heading) (step : Float32) : Float32 :=
  let delta := turnBetween current heading.angle
  if delta.abs ≤ step then heading.angle
  else
    let back := if delta.isNaN then heading.turnsBack else delta < 0
    current + (if back then -step else step)

def stepTowards (s : ActorState) (target : Location) (distance : Float) : ActorState :=
  if distance ≤ s.moveSpeed || distance == 0 then
    { s with location := { s.location with x := target.x, y := target.y, z := target.z }, moveTarget := none }
  else
    let step := s.moveSpeed / distance
    let dx := Offset.between s.location.x target.x
    let dy := Offset.between s.location.y target.y
    let dz := Offset.between s.location.z target.z
    { s with
      location :=
        { s.location with
          x := s.location.x + dx.value * step
          y := s.location.y + dy.value * step
          z := s.location.z + dz.value * step
          yaw := (yawAlong dx dz).angle } }

def move (s : ActorState) : ActorState :=
  match s.moveTarget with
  | none => s
  | some target =>
    match s.location.distance target with
    | none => { s with moveTarget := none }
    | some distance => stepTowards s target distance

/-- An actor rests on a solid block if its height is a whole number. -/
def isResting (host : Host) (l : Location) : Bool :=
  l.y == floor l.y && host.isSolid l.world l.block.below

def highest (p : Int → Bool) (low : Int) : Nat → Option Int
  | 0 => none
  | count + 1 => if p (low + count) then some (low + count) else highest p low count

/-- The highest solid block of the column of a location from height `low` up to the location. -/
def landing (host : Host) (l : Location) (low : Int) : Option Int :=
  highest (fun y => host.isSolid l.world ⟨l.block.x, y, l.block.z⟩) low (l.block.y - low).toNat

def fall (host : Host) (s : ActorState) : ActorState :=
  let velocity := lesser (s.fallVelocity + gravityStep) terminalVelocity
  let y := s.location.y - velocity
  match landing host s.location (blockOf y) with
  | some block => { s with location := { s.location with y := Float.ofInt block + 1 }, fallVelocity := 0 }
  | none => { s with location := { s.location with y := y }, fallVelocity := velocity }

def gravity (host : Host) (s : ActorState) : ActorState :=
  if isResting host s.location then { s with fallVelocity := 0 } else fall host s

def yawStep : Float32 := 20
def pitchStep : Float32 := 10

def smoothLook (s : ActorState) : ActorState :=
  match s.lookTarget with
  | none => s
  | some target =>
    let dx := Offset.between s.location.x target.x
    let dy := Offset.between s.location.y target.y
    let dz := Offset.between s.location.z target.z
    let yawTo := yawAlong dx dz
    let pitchTo := pitchAlong dx dy dz
    let yaw := approach s.location.yaw yawTo yawStep
    let pitch := approach s.location.pitch pitchTo pitchStep
    { s with
      location := { s.location with yaw := yaw, pitch := pitch }
      lookTarget := if yaw == yawTo.angle && pitch == pitchTo.angle then none else some target }

structure Sighting where
  distance : Float
  place : Location

/-- Where a viewer is seen: in the world of the actor and within its range. -/
def sighting (host : Host) (here : Location) (viewer : String) : Option Sighting := do
  let place ← host.playerLocation viewer
  let distance ← here.distance place
  if distance ≤ lookRange then some ⟨distance, place⟩ else none

/-- The nearest sighting; of equally near ones the first. -/
def nearest : List Sighting → Option Sighting
  | [] => none
  | s :: rest =>
    match nearest rest with
    | none => some s
    | some t => if t.distance < s.distance then some t else some s

def nearestViewer (host : Host) (viewers : List String) (here : Location) : Option Location :=
  (nearest (viewers.filterMap (sighting host here))).map fun s =>
    { s.place with y := s.place.y + eyeHeight }

def lookAtViewer (host : Host) (viewers : List String) (s : ActorState) : ActorState :=
  match nearestViewer host viewers s.location with
  | none => s
  | some target => { s with lookTarget := some target }

def lookAround (d : Draws) (s : ActorState) : ActorState × Draws :=
  let angle := d.between 0 fullTurn
  let d := d.advance
  let reach := d.between 2 lookRange
  let target :=
    { s.location with
      x := s.location.x + angle.cos * reach
      z := s.location.z + angle.sin * reach
      y := floor s.location.y }
  ({ s with lookTarget := some target }, d.advance)

def strollPlace (d : Draws) (l : Location) : Location :=
  { l with
    x := floor (l.x + d.between (-strollRange) strollRange) + 0.5
    z := floor (l.z + d.advance.between (-strollRange) strollRange) + 0.5
    y := floor l.y }

def isStandable (host : Host) (l : Location) : Bool :=
  host.isSolid l.world l.block.below && !host.isSolid l.world l.block

def stroll (host : Host) : Nat → Draws → ActorState → ActorState × Draws
  | 0, d, s => (s, d)
  | tries + 1, d, s =>
    let place := strollPlace d s.location
    if isStandable host place then ({ s with moveTarget := some place }, d.advance.advance)
    else stroll host tries d.advance.advance s

def strollTries : Nat := 10

/-- Whether something with a chance happens. An undefined chance is no chance to decide by. -/
def happens (chance : Float) (d : Draws) : Option Bool × Draws :=
  if chance.isNaN then (none, d)
  else if chance ≥ 1 then (some true, d)
  else if chance ≤ 0 then (some false, d)
  else (some (d.value < chance), d.advance)

/-- Whether a controller runs in this tick; `none` if that cannot be decided. -/
def decide (c : Controller) (s : ActorState) (d : Draws) : Option Bool × Draws :=
  match c with
  | .move => (some (s.moveTarget.isSome && !s.sleeping), d)
  | .gravity => (some (!s.sleeping), d)
  | .smoothLook => (some s.lookTarget.isSome, d)
  | .lookAtPlayer chance => if s.moveTarget.isNone then happens chance d else (some false, d)
  | .lookAtPlayerAlways => (some s.moveTarget.isNone, d)
  | .randomLookGround chance =>
    if s.moveTarget.isNone && s.lookTarget.isNone then happens chance d else (some false, d)
  | .randomStrollLand chance =>
    if s.moveTarget.isNone && !s.sleeping then happens chance d else (some false, d)
  | .scripted _ runs _ => (some runs, d)

def run (host : Host) (viewers : List String) (c : Controller) (d : Draws) (s : ActorState) :
    ActorState × Draws :=
  match c with
  | .move => (move s, d)
  | .gravity => (gravity host s, d)
  | .smoothLook => (smoothLook s, d)
  | .lookAtPlayer _ => (lookAtViewer host viewers s, d)
  | .lookAtPlayerAlways => (lookAtViewer host viewers s, d)
  | .randomLookGround _ => lookAround d s
  | .randomStrollLand _ => stroll host strollTries d s
  | .scripted .. => (s, d)

end Behaviour
end ScriptedActors
