import ScriptedActors.Actor.Tick
import ScriptedActors.Proofs.Decimal.Floors

set_option autoImplicit false

/-!
# How an actor falls

A fall stops on the highest solid block of the column between the actor and the place it would
reach. An actor that came down so rests on the block, and stays there in every further tick.
-/
namespace ScriptedActors.Behaviour
open Decimal Arithmetic

theorem highest_eq_some {p : Int → Bool} {low h : Int} {count : Nat} (hh : highest p low count = some h) :
    p h = true ∧ low ≤ h ∧ h < low + count ∧ ∀ b, h < b → b < low + count → p b = false := by
  induction count with
  | zero => cases hh
  | succ count ih =>
    rw [highest] at hh
    by_cases htop : p (low + count) = true
    · rw [if_pos htop] at hh
      obtain rfl := Option.some.inj hh
      exact ⟨htop, by omega, by omega, fun b hlow hhigh => by omega⟩
    · -- The search goes down, so all heights above the one it finds were tried.
      rw [if_neg htop] at hh
      obtain ⟨hp, hlow, hhigh, hclear⟩ := ih hh
      refine ⟨hp, hlow, by omega, fun b hb hbound => ?_⟩
      by_cases heq : b = low + count
      · rw [heq]
        exact Bool.eq_false_iff.mpr htop
      · exact hclear b hb (by omega)

theorem highest_eq_none {p : Int → Bool} {low : Int} {count : Nat} (hh : highest p low count = none) :
    ∀ b, low ≤ b → b < low + count → p b = false := by
  induction count with
  | zero => exact fun b hlow hhigh => by omega
  | succ count ih =>
    rw [highest] at hh
    by_cases htop : p (low + count) = true
    · rw [if_pos htop] at hh
      cases hh
    · rw [if_neg htop] at hh
      intro b hlow hhigh
      by_cases heq : b = low + count
      · rw [heq]
        exact Bool.eq_false_iff.mpr htop
      · exact ih hh b hlow (by omega)

def columnBlock (l : Location) (height : Int) : Position :=
  ⟨saturatedFloor l.x, height, saturatedFloor l.z⟩

def isSolidAt (host : Host) (l : Location) (height : Int) : Bool :=
  host.isSolid l.world (columnBlock l height)

structure Rests (host : Host) (l : Location) : Prop where
  integral : IsIntegral l.y
  solid : isSolidAt host l (saturatedFloor l.y - 1) = true

/-- The velocity after one more tick of falling. An undefined one is the terminal velocity. -/
def nextVelocity (s : ActorState) : Float :=
  if s.fallVelocity + 0.08 ≤ 3.92 then s.fallVelocity + 0.08 else 3.92

def reach (s : ActorState) : Float := s.location.y - nextVelocity s

/-- A block stands in the way of a fall. -/
structure IsInTheWay (host : Host) (s : ActorState) (b : Int) : Prop where
  low : saturatedFloor (reach s) ≤ b
  high : b < saturatedFloor s.location.y
  solid : isSolidAt host s.location b = true

/-- What one tick of gravity makes of a state. -/
inductive Falls (host : Host) (s : ActorState) : ActorState → Prop
  | rests (resting : Rests host s.location) : Falls host s { s with fallVelocity := 0 }
  | lands (h : Int) (falling : ¬ Rests host s.location) (inTheWay : IsInTheWay host s h)
      (highest : ∀ b, IsInTheWay host s b → b ≤ h) :
      Falls host s
        { s with location := { s.location with y := Float.ofInt (h + 1) }, fallVelocity := 0 }
  | falls (falling : ¬ Rests host s.location) (clear : ∀ b, ¬ IsInTheWay host s b) :
      Falls host s
        { s with location := { s.location with y := reach s }, fallVelocity := nextVelocity s }

theorem block_eq (l : Location) :
    l.block = ⟨saturatedFloor l.x, saturatedFloor l.y, saturatedFloor l.z⟩ := by
  simp only [Location.block, blockOf_eq_saturatedFloor]

theorem isResting_iff (host : Host) (l : Location) : isResting host l = true ↔ Rests host l := by
  rw [isResting, Bool.and_eq_true, beq_floor_iff, block_eq]
  exact ⟨fun ⟨hintegral, hsolid⟩ => ⟨hintegral, hsolid⟩, fun h => ⟨h.integral, h.solid⟩⟩

section
variable {host : Host} {l : Location} {low : Int}

theorem landing_eq (host : Host) (l : Location) (low : Int) :
    landing host l low = highest (isSolidAt host l) low (saturatedFloor l.y - low).toNat := by
  rw [landing, block_eq]
  rfl

theorem landing_eq_some {h : Int} (hh : landing host l low = some h) :
    isSolidAt host l h = true ∧ low ≤ h ∧ h < saturatedFloor l.y ∧
      ∀ b, h < b → b < saturatedFloor l.y → isSolidAt host l b = false := by
  rw [landing_eq] at hh
  obtain ⟨hsolid, hlow, hhigh, hclear⟩ := highest_eq_some hh
  exact ⟨hsolid, hlow, by omega, fun b hb hbound => hclear b hb (by omega)⟩

theorem landing_eq_none (hh : landing host l low = none) :
    ∀ b, low ≤ b → b < saturatedFloor l.y → isSolidAt host l b = false := by
  rw [landing_eq] at hh
  exact fun b hlow hhigh => highest_eq_none hh b hlow (by omega)

end

theorem lesser_terminalVelocity (s : ActorState) :
    lesser (s.fallVelocity + gravityStep) terminalVelocity = nextVelocity s :=
  lesser_eq (by decide)

theorem fall_eq (host : Host) (s : ActorState) :
    fall host s = match landing host s.location (saturatedFloor (reach s)) with
      | some block =>
        { s with location := { s.location with y := Float.ofInt block + 1 }, fallVelocity := 0 }
      | none => { s with location := { s.location with y := reach s }, fallVelocity := nextVelocity s } := by
  rw [fall, lesser_terminalVelocity, ← blockOf_eq_saturatedFloor]
  rfl

theorem IsInTheWay.bounds {host : Host} {s : ActorState} {b : Int} (h : IsInTheWay host s b) :
    -2 ^ 31 ≤ b ∧ b + 1 < 2 ^ 31 := by
  have hlow := (blockOf_bounds (reach s)).1
  have hhigh := (blockOf_bounds s.location.y).2
  rw [blockOf_eq_saturatedFloor, minBlock] at hlow
  rw [blockOf_eq_saturatedFloor, maxBlock] at hhigh
  have hlanding := h.low
  have hbelow := h.high
  omega

theorem IsInTheWay.ofInt_add_one {host : Host} {s : ActorState} {b : Int} (h : IsInTheWay host s b) :
    Float.ofInt b + 1 = Float.ofInt (b + 1) := by
  obtain ⟨hlow, hhigh⟩ := h.bounds
  exact Decimal.ofInt_add_one (by omega) (by omega)

theorem falls_gravity (host : Host) (s : ActorState) : Falls host s (gravity host s) := by
  rw [gravity]
  by_cases hresting : Rests host s.location
  · rw [if_pos ((isResting_iff host _).mpr hresting)]
    exact .rests hresting
  · rw [if_neg (mt (isResting_iff host _).mp hresting), fall_eq]
    cases hlanding : landing host s.location (saturatedFloor (reach s)) with
    | some h =>
      obtain ⟨hsolid, hlow, hhigh, hclear⟩ := landing_eq_some hlanding
      have hway : IsInTheWay host s h := ⟨hlow, hhigh, hsolid⟩
      have hhighest (b : Int) (hb : IsInTheWay host s b) : b ≤ h := by
        by_contra habove
        have hfree := hclear b (by omega) hb.high
        rw [hb.solid] at hfree
        cases hfree
      simp only [hway.ofInt_add_one]
      exact .lands h hresting hway hhighest
    | none =>
      refine .falls hresting fun b hb => ?_
      have hfree := landing_eq_none hlanding b hb.low hb.high
      rw [hb.solid] at hfree
      cases hfree

theorem IsInTheWay.rests_above {host : Host} {s : ActorState} {b : Int} (h : IsInTheWay host s b) :
    Rests host { s.location with y := Float.ofInt (b + 1) } := by
  obtain ⟨hlow, hhigh⟩ := h.bounds
  refine ⟨?_, ?_⟩
  · rw [← beq_floor_iff, floor_ofInt (by omega) (by omega)]
    exact ofInt_beq_self (by omega) (by omega)
  · have hblock : saturatedFloor (Float.ofInt (b + 1)) = b + 1 := by
      rw [← blockOf_eq_saturatedFloor]
      exact blockOf_ofInt (by unfold minBlock; omega) (by unfold maxBlock; omega)
    change isSolidAt host s.location (saturatedFloor (Float.ofInt (b + 1)) - 1) = true
    rw [hblock, Int.add_sub_cancel]
    exact h.solid

theorem gravity_of_rests {host : Host} {s : ActorState} (h : Rests host s.location) :
    gravity host s = { s with fallVelocity := 0 } :=
  if_pos ((isResting_iff host _).mpr h)

theorem Falls.rests_of_inTheWay {host : Host} {s t : ActorState} (h : Falls host s t)
    (hfalling : ¬ Rests host s.location) {b : Int} (hb : IsInTheWay host s b) :
    Rests host t.location ∧ gravity host t = t := by
  cases h with
  | rests hresting => exact absurd hresting hfalling
  | lands h _ hway => exact ⟨hway.rests_above, gravity_of_rests hway.rests_above⟩
  | falls _ hclear => exact (hclear b hb).elim

/-- Gravity stops a fall on the first block in its way, and leaves the actor there. -/
structure FallsOntoBlocks (tick : Host → Scene → Stepped) (host : Host) (s : Scene) : Prop where
  falls : ∃ state, Falls host s.actor.state state ∧
    Scene.execute tick host .gravity s = (false, { s with actor := { s.actor with state := state } })
  lands : ¬ Rests host s.actor.state.location → ∀ b, IsInTheWay host s.actor.state b →
    Rests host (Scene.execute tick host .gravity s).2.actor.state.location
  stays : ¬ Rests host s.actor.state.location → ∀ b, IsInTheWay host s.actor.state b →
    ∀ times, (fun t => (Scene.execute tick host .gravity t).2)^[times]
        (Scene.execute tick host .gravity s).2 = (Scene.execute tick host .gravity s).2

theorem execute_gravity (tick : Host → Scene → Stepped) (host : Host) (s : Scene) :
    Scene.execute tick host .gravity s =
      (false, { s with actor := { s.actor with state := gravity host s.actor.state } }) := rfl

theorem fallsOntoBlocks (tick : Host → Scene → Stepped) (host : Host) (s : Scene) :
    FallsOntoBlocks tick host s := by
  have hfalls := falls_gravity host s.actor.state
  refine ⟨⟨_, hfalls, execute_gravity tick host s⟩, fun hfalling b hb => ?_, fun hfalling b hb times => ?_⟩
  · exact (hfalls.rests_of_inTheWay hfalling hb).1
  · have hstays := (hfalls.rests_of_inTheWay hfalling hb).2
    refine Function.iterate_fixed ?_ times
    simp only [execute_gravity, hstays]

/-- An actor falls fast over two solid blocks: it lands on the upper one. Over none it falls on. -/
theorem fallsOntoBlocks_upper :
    let host : Host := { Host.detached with isSolid := fun world p => world = "w" ∧ p = ⟨-2, 61, 3⟩ ∨ p.y = 60 }
    let a : Actor := Actor.new "u" ⟨"PIG"⟩ ⟨"w", -1.5, 64.25, 3.75, 0, 0⟩ [] fun _ => .done
    let s : Scene := ⟨a.change (.fallVelocity 3.9), ⟨fun _ => 0, 0⟩, [], []⟩
    let onto := (Scene.execute Scene.tick host .gravity s).2.actor.state
    let past := (Scene.execute Scene.tick .detached .gravity s).2.actor.state
    FallsOntoBlocks Scene.tick host s ∧ onto.location.y = 62 ∧ onto.fallVelocity = 0 ∧
      past.location.y = 60.33 ∧ past.fallVelocity = 3.92 := by
  intro host a s onto past
  exact ⟨fallsOntoBlocks Scene.tick host s, by decide +kernel, by decide +kernel, by decide +kernel,
    by decide +kernel⟩

end ScriptedActors.Behaviour
