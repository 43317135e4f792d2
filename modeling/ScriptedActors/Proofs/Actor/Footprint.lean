import ScriptedActors.Actor.ControllerTable
import ScriptedActors.Proofs.Actor.Frame
import ScriptedActors.Proofs.KeywordTable

set_option autoImplicit false

/-!
# What the built-in controllers write

A built-in controller writes few fields of the state of its actor, and nothing else of it. What a run
of ticks may change is the union of what the attached controllers write: one controller may set a
target that another one consumes, but targets are not among what is confined. A tick of such
controllers ends without a panic and puts them back as they were.
-/
namespace ScriptedActors

/-- A controller that is not scripted and can always tell whether it runs. -/
def Controller.IsSteady : Controller → Prop
  | .lookAtPlayer chance => chance.isNaN = false
  | .randomLookGround chance => chance.isNaN = false
  | .randomStrollLand chance => chance.isNaN = false
  | .scripted .. => False
  | _ => True

namespace Behaviour

/-- What controllers of these names may change of a state. -/
structure Confined (names : List String) (s t : ActorState) : Prop where
  tags : t.tags = s.tags
  metadata : t.metadata = s.metadata
  passengers : t.passengers = s.passengers
  animations : t.animations = s.animations
  sleeping : t.sleeping = s.sleeping
  moveSpeed : t.moveSpeed = s.moveSpeed
  world : t.location.world = s.location.world
  asleep : s.sleeping = true →
    t.location.x = s.location.x ∧ t.location.y = s.location.y ∧ t.location.z = s.location.z
  x : "Move" ∉ names → t.location.x = s.location.x
  y : "Move" ∉ names → "Gravity" ∉ names → t.location.y = s.location.y
  z : "Move" ∉ names → t.location.z = s.location.z
  yaw : "Move" ∉ names → "SmoothLook" ∉ names → t.location.yaw = s.location.yaw
  pitch : "SmoothLook" ∉ names → t.location.pitch = s.location.pitch
  fallVelocity : "Gravity" ∉ names → t.fallVelocity = s.fallVelocity

namespace Confined
variable {names : List String} {r s t : ActorState}

theorem of_writes {x y z velocity : Float} {yaw pitch : Float32} {moveTarget lookTarget : Option Location}
    (asleep : s.sleeping = true → x = s.location.x ∧ y = s.location.y ∧ z = s.location.z)
    (hx : "Move" ∉ names → x = s.location.x)
    (hy : "Move" ∉ names → "Gravity" ∉ names → y = s.location.y)
    (hz : "Move" ∉ names → z = s.location.z)
    (hyaw : "Move" ∉ names → "SmoothLook" ∉ names → yaw = s.location.yaw)
    (hpitch : "SmoothLook" ∉ names → pitch = s.location.pitch)
    (hvelocity : "Gravity" ∉ names → velocity = s.fallVelocity) :
    Confined names s { s with
      location := { s.location with x := x, y := y, z := z, yaw := yaw, pitch := pitch }
      moveTarget := moveTarget
      lookTarget := lookTarget
      fallVelocity := velocity } :=
  ⟨rfl, rfl, rfl, rfl, rfl, rfl, rfl, asleep, hx, hy, hz, hyaw, hpitch, hvelocity⟩

theorem of_targets (names : List String) (s : ActorState) (moveTarget lookTarget : Option Location) :
    Confined names s { s with moveTarget := moveTarget, lookTarget := lookTarget } :=
  of_writes (fun _ => ⟨rfl, rfl, rfl⟩) (fun _ => rfl) (fun _ _ => rfl) (fun _ => rfl) (fun _ _ => rfl)
    (fun _ => rfl) (fun _ => rfl)

theorem refl (names : List String) (s : ActorState) : Confined names s s := of_targets names s _ _

theorem trans (h : Confined names r s) (k : Confined names s t) : Confined names r t where
  tags := k.tags.trans h.tags
  metadata := k.metadata.trans h.metadata
  passengers := k.passengers.trans h.passengers
  animations := k.animations.trans h.animations
  sleeping := k.sleeping.trans h.sleeping
  moveSpeed := k.moveSpeed.trans h.moveSpeed
  world := k.world.trans h.world
  asleep hasleep := by
    obtain ⟨hx, hy, hz⟩ := h.asleep hasleep
    obtain ⟨kx, ky, kz⟩ := k.asleep (h.sleeping.trans hasleep)
    exact ⟨kx.trans hx, ky.trans hy, kz.trans hz⟩
  x hmove := (k.x hmove).trans (h.x hmove)
  y hmove hgravity := (k.y hmove hgravity).trans (h.y hmove hgravity)
  z hmove := (k.z hmove).trans (h.z hmove)
  yaw hmove hlook := (k.yaw hmove hlook).trans (h.yaw hmove hlook)
  pitch hlook := (k.pitch hlook).trans (h.pitch hlook)
  fallVelocity hgravity := (k.fallVelocity hgravity).trans (h.fallVelocity hgravity)

end Confined

/-! ## What each behaviour writes -/

theorem move_writes (s : ActorState) : ∃ x y z yaw target, move s = { s with
    location := { s.location with x := x, y := y, z := z, yaw := yaw }, moveTarget := target } := by
  rw [move]
  split
  · exact ⟨_, _, _, _, _, rfl⟩
  · split
    · exact ⟨_, _, _, _, _, rfl⟩
    · rw [stepTowards]
      split
      · exact ⟨_, _, _, _, _, rfl⟩
      · exact ⟨_, _, _, _, _, rfl⟩

theorem gravity_writes (host : Host) (s : ActorState) : ∃ y velocity, gravity host s = { s with
    location := { s.location with y := y }, fallVelocity := velocity } := by
  rw [gravity]
  split
  · exact ⟨_, _, rfl⟩
  · simp only [fall]
    split
    · exact ⟨_, _, rfl⟩
    · exact ⟨_, _, rfl⟩

theorem smoothLook_writes (s : ActorState) : ∃ yaw pitch target, smoothLook s = { s with
    location := { s.location with yaw := yaw, pitch := pitch }, lookTarget := target } := by
  rw [smoothLook]
  split
  · exact ⟨_, _, _, rfl⟩
  · exact ⟨_, _, _, rfl⟩

theorem lookAtViewer_writes (host : Host) (viewers : List String) (s : ActorState) :
    ∃ target, lookAtViewer host viewers s = { s with lookTarget := target } := by
  rw [lookAtViewer]
  split
  · exact ⟨_, rfl⟩
  · exact ⟨_, rfl⟩

theorem stroll_writes (host : Host) (tries : Nat) (d : Draws) (s : ActorState) :
    ∃ target, (stroll host tries d s).1 = { s with moveTarget := target } := by
  induction tries generalizing d with
  | zero => exact ⟨_, rfl⟩
  | succ tries ih =>
    rw [stroll]
    split
    · exact ⟨_, rfl⟩
    · exact ih _

theorem happens_eq_some {chance : Float} (h : chance.isNaN = false) (d : Draws) :
    ∃ b draws, happens chance d = (some b, draws) := by
  rw [happens, if_neg (Bool.eq_false_iff.mp h)]
  split
  · exact ⟨_, _, rfl⟩
  · split
    · exact ⟨_, _, rfl⟩
    · exact ⟨_, _, rfl⟩

theorem decide_eq_some {c : Controller} (h : c.IsSteady) (s : ActorState) (d : Draws) :
    ∃ b draws, decide c s d = (some b, draws) := by
  have sometimes {chance : Float} (hchance : chance.isNaN = false) (p : Bool) :
      ∃ b draws, (if p then happens chance d else (some false, d)) = (some b, draws) := by
    cases p with
    | true => exact happens_eq_some hchance d
    | false => exact ⟨_, _, rfl⟩
  cases c with
  | lookAtPlayer chance => exact sometimes h _
  | randomLookGround chance => exact sometimes h _
  | randomStrollLand chance => exact sometimes h _
  | scripted name runs effects => exact h.elim
  | _ => exact ⟨_, _, rfl⟩

section
variable {names : List String} {s : ActorState} {d draws : Draws}

theorem awake_of_decide {c : Controller} (hc : c = .move ∨ c = .gravity)
    (hruns : decide c s d = (some true, draws)) : s.sleeping ≠ true := by
  intro hasleep
  rcases hc with rfl | rfl
  · simp [decide, hasleep] at hruns
  · simp [decide, hasleep] at hruns

theorem confined_run {c : Controller} (h : c.IsSteady) (hname : c.name ∈ names) (host : Host)
    (viewers : List String) (hruns : decide c s d = (some true, draws)) (d' : Draws) :
    Confined names s (run host viewers c d' s).1 := by
  cases c with
  | move =>
    have hawake := awake_of_decide (.inl rfl) hruns
    obtain ⟨x, y, z, yaw, target, hmove⟩ := move_writes s
    simp only [run, hmove]
    exact .of_writes (fun hasleep => absurd hasleep hawake) (absurd hname) (absurd hname) (absurd hname)
      (absurd hname) (fun _ => rfl) (fun _ => rfl)
  | gravity =>
    have hawake := awake_of_decide (.inr rfl) hruns
    obtain ⟨y, velocity, hgravity⟩ := gravity_writes host s
    simp only [run, hgravity]
    exact .of_writes (fun hasleep => absurd hasleep hawake) (fun _ => rfl) (fun _ => absurd hname)
      (fun _ => rfl) (fun _ _ => rfl) (fun _ => rfl) (absurd hname)
  | smoothLook =>
    obtain ⟨yaw, pitch, target, hlook⟩ := smoothLook_writes s
    simp only [run, hlook]
    exact .of_writes (fun _ => ⟨rfl, rfl, rfl⟩) (fun _ => rfl) (fun _ _ => rfl) (fun _ => rfl)
      (fun _ => absurd hname) (absurd hname) (fun _ => rfl)
  | lookAtPlayer chance =>
    obtain ⟨target, hlook⟩ := lookAtViewer_writes host viewers s
    simp only [run, hlook]
    exact .of_targets names s _ _
  | lookAtPlayerAlways =>
    obtain ⟨target, hlook⟩ := lookAtViewer_writes host viewers s
    simp only [run, hlook]
    exact .of_targets names s _ _
  | randomLookGround chance => exact .of_targets names s _ _
  | randomStrollLand chance =>
    obtain ⟨target, hstroll⟩ := stroll_writes host strollTries d' s
    simp only [run, hstroll]
    exact .of_targets names s _ _
  | scripted name runs effects => exact h.elim

end
end Behaviour

namespace Scene
open Behaviour

structure Leaves (names : List String) (s t : Scene) : Prop where
  actor : t.actor = { s.actor with state := t.actor.state }
  state : Confined names s.actor.state t.actor.state
  torn : t.torn = s.torn

namespace Leaves
variable {names : List String} {r s t : Scene}

theorem refl (names : List String) (s : Scene) : Leaves names s s := ⟨rfl, .refl names _, rfl⟩

theorem trans (h : Leaves names r s) (k : Leaves names s t) : Leaves names r t where
  actor := by rw [k.actor, h.actor]
  state := h.state.trans k.state
  torn := k.torn.trans h.torn

theorem controllers_eq (h : Leaves names s t) : t.actor.controllers = s.actor.controllers := by rw [h.actor]

theorem controllerNames_eq (h : Leaves names s t) : t.actor.controllerNames = s.actor.controllerNames := by
  rw [Actor.controllerNames, Actor.controllerNames, h.controllers_eq]

end Leaves

/-- What ticks of the controllers that are attached leave of a scene. -/
structure Ticked (s t : Scene) : Prop where
  leaves : Leaves s.actor.controllerNames s t
  still : s.actor.destroyed = true → t = s

theorem Ticked.refl (s : Scene) : Ticked s s := ⟨.refl _ s, fun _ => rfl⟩

theorem Ticked.trans {r s t : Scene} (h : Ticked r s) (k : Ticked s t) : Ticked r t where
  leaves := h.leaves.trans (h.leaves.controllerNames_eq ▸ k.leaves)
  still hdestroyed := by
    obtain rfl := h.still hdestroyed
    exact k.still hdestroyed

variable {names : List String}

theorem ask_steady (tick : Host → Scene → Stepped) (host : Host) (s : Scene) {c : Controller}
    (hc : c.IsSteady) (hname : c.name ∈ names) :
    ∃ t, ask tick host c s = (false, t) ∧ Leaves names s t := by
  obtain ⟨b, draws, hruns⟩ := decide_eq_some hc s.actor.state s.draws
  rw [ask, question]
  simp only [hruns]
  cases b with
  | false => exact ⟨_, rfl, rfl, .refl names _, rfl⟩
  | true =>
    have hconfined := confined_run hc hname host s.actor.viewers hruns draws
    cases c with
    | scripted name runs effects => exact hc.elim
    | _ => exact ⟨_, rfl, rfl, hconfined, rfl⟩

theorem inTurn_steady (tick : Host → Scene → Stepped) (host : Host) (cs : List Controller) (s : Scene)
    (hcs : ∀ c ∈ cs, c.IsSteady ∧ c.name ∈ names) :
    ∃ t, inTurn (ask tick host) cs s = (false, t) ∧ Leaves names s t := by
  induction cs generalizing s with
  | nil => exact ⟨s, rfl, .refl names s⟩
  | cons c cs ih =>
    obtain ⟨hfirst, hrest⟩ := List.forall_mem_cons.mp hcs
    obtain ⟨t, hask, hleaves⟩ := ask_steady tick host s hfirst.1 hfirst.2
    obtain ⟨u, hall, hleft⟩ := ih t hrest
    refine ⟨u, ?_, hleaves.trans hleft⟩
    rw [inTurn_cons, hask]
    exact hall

theorem leaves_finish {s t : Scene} (h : Leaves names s.start t) :
    ∃ u, finish s.actor.controllers (false, t) = (false, u) ∧ Leaves names s u := by
  refine ⟨_, rfl, ?_, h.state, h.torn⟩
  -- Nothing was attached meanwhile that could replace what was taken.
  have hkept : s.actor.controllers.filter (fun c => !t.actor.hasController c.name) =
      s.actor.controllers := by
    refine List.filter_eq_self.mpr fun c _ => ?_
    rw [Actor.hasController, h.controllers_eq]
    rfl
  simp only [modify, note, putBack, hkept, h.controllers_eq]
  rw [h.actor]
  simp only [start, modify, note, List.append_nil]

theorem tick_steady (host : Host) (s : Scene) (hcs : ∀ c ∈ s.actor.controllers, c.IsSteady) :
    ∃ t, tick host s = (false, t) ∧ Ticked s t := by
  cases hdestroyed : s.actor.destroyed with
  | true => exact ⟨s, tickAt_destroyed _ host hdestroyed, .refl s⟩
  | false =>
    have hnames (c : Controller) (hc : c ∈ s.actor.controllers) :
        c.IsSteady ∧ c.name ∈ s.actor.controllerNames :=
      ⟨hcs c hc, List.mem_map_of_mem hc⟩
    rw [tick, tickAt_standing host (Nat.le_refl _) hdestroyed]
    obtain ⟨t, hall, hleaves⟩ := inTurn_steady (tickAt _) host s.actor.controllers s.start hnames
    obtain ⟨u, hfinish, hleft⟩ := leaves_finish hleaves
    rw [hall]
    exact ⟨u, hfinish, hleft, fun h => absurd (h.symm.trans hdestroyed) Bool.noConfusion⟩

def tickThrough (hosts : List Host) (s : Scene) : Stepped := inTurn tick hosts s

theorem tickThrough_steady (hosts : List Host) (s : Scene) (hcs : ∀ c ∈ s.actor.controllers, c.IsSteady) :
    ∃ t, tickThrough hosts s = (false, t) ∧ Ticked s t := by
  induction hosts generalizing s with
  | nil => exact ⟨s, rfl, .refl s⟩
  | cons host hosts ih =>
    -- The controllers are the same after the tick, so the next one is of steady controllers again.
    obtain ⟨t, htick, hticked⟩ := tick_steady host s hcs
    obtain ⟨u, hall, hrest⟩ := ih t (hticked.leaves.controllers_eq ▸ hcs)
    refine ⟨u, ?_, hticked.trans hrest⟩
    rw [tickThrough, inTurn_cons, htick]
    exact hall

theorem act_tick_steady (host : Host) (count : Nat) (s : Scene)
    (hcs : ∀ c ∈ s.actor.controllers, c.IsSteady) :
    ∃ t, s.act (.tick host count) = (.done, t) ∧ Ticked s t := by
  obtain ⟨t, hall, hticked⟩ := tickThrough_steady (List.replicate count host) s hcs
  refine ⟨t, ?_, hticked⟩
  rw [tickThrough] at hall
  rw [act, perform, hall]
  rfl

end Scene

namespace ControllerTable
open Text

theorem steady_vocabulary : ∀ entry ∈ vocabulary, entry.2.IsSteady := by
  have hoften : (0.02 : Float).isNaN = false := by decide
  have hrarely : (1.0 / 120.0 : Float).isNaN = false := by decide
  simp only [vocabulary, List.forall_mem_cons]
  exact ⟨trivial, trivial, trivial, hoften, trivial, hoften, hrarely, List.forall_mem_nil _⟩

theorem distinct_vocabulary : KeywordTable.Distinct vocabulary := by decide

theorem entries_builtin : builtin.entries = vocabulary :=
  KeywordTable.entries_registerAll vocabulary empty distinct_vocabulary

theorem resolve_builtin_iff (name : String) (c : Controller) :
    builtin.resolve name = some c ↔ ∃ bound, (bound, c) ∈ vocabulary ∧ sameName bound name = true := by
  rw [KeywordTable.resolve_eq_some builtin (entries_builtin ▸ distinct_vocabulary), entries_builtin]

theorem steady_of_resolve {name : String} {c : Controller} (h : builtin.resolve name = some c) :
    c.IsSteady := by
  obtain ⟨bound, hmem, -⟩ := (resolve_builtin_iff name c).mp h
  exact steady_vocabulary _ hmem

theorem exists_resolve {c : Controller} (h : c ∈ vocabulary.map Prod.snd) :
    ∃ name, builtin.resolve name = some c := by
  obtain ⟨entry, hentry, rfl⟩ := List.mem_map.mp h
  exact ⟨entry.1, (resolve_builtin_iff _ _).mpr ⟨entry.1, hentry, sameName_refl _⟩⟩

end ControllerTable

namespace Scene

/-- Ticks of built-in controllers in any hosts, or in one host as an effect, change of the actor only
what its controllers may change of its state, and nothing at all if it is destroyed. -/
theorem ticked_of_builtin (s : Scene)
    (hcs : ∀ c ∈ s.actor.controllers, ∃ name, ControllerTable.builtin.resolve name = some c) :
    (∀ hosts, ∃ t, tickThrough hosts s = (false, t) ∧ Ticked s t) ∧
      ∀ host count, ∃ t, s.act (.tick host count) = (.done, t) ∧ Ticked s t := by
  have hsteady (c : Controller) (hc : c ∈ s.actor.controllers) : c.IsSteady := by
    obtain ⟨name, hname⟩ := hcs c hc
    exact ControllerTable.steady_of_resolve hname
  exact ⟨fun hosts => tickThrough_steady hosts s hsteady,
    fun host count => act_tick_steady host count s hsteady⟩

def busy : Scene where
  actor := { Actor.new "busy" ⟨"VILLAGER"⟩ Location.origin ["viewer"] Handle.idle with
    controllers := ControllerTable.vocabulary.map Prod.snd }
  draws := ⟨fun _ => 0, 0⟩
  torn := []
  log := []

theorem ticked_busy :
    .gravity ∈ busy.actor.controllers ∧
      (∀ c ∈ busy.actor.controllers, ∃ name, ControllerTable.builtin.resolve name = some c) ∧
      (∃ t, tickThrough [Host.detached, Host.detached] busy = (false, t) ∧ Ticked busy t) ∧
      ∃ t, busy.act (.tick Host.detached 3) = (.done, t) ∧ Ticked busy t := by
  have hgravity : .gravity ∈ busy.actor.controllers := List.mem_cons_of_mem _ (List.mem_cons_self ..)
  have hknown : ∀ c ∈ busy.actor.controllers, ∃ name, ControllerTable.builtin.resolve name = some c :=
    fun _ => ControllerTable.exists_resolve
  have hticked := ticked_of_builtin busy hknown
  exact ⟨hgravity, hknown, hticked.1 [Host.detached, Host.detached], hticked.2 Host.detached 3⟩

end Scene
end ScriptedActors
