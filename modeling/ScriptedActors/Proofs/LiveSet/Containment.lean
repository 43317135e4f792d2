import Mathlib.Data.List.Nodup
import ScriptedActors.Proofs.Actor.Panics
import ScriptedActors.Proofs.LiveSet.Teardown

set_option autoImplicit false

/-!
# How far a panic reaches

Live actors are ticked one after the other, in the order of their creation. Where none of these ticks
panics each actor is ticked once and keeps its controllers. A panic ends the round: the actors created
later are not ticked, and the actor that panics loses the controllers that were not replaced.
-/
namespace ScriptedActors

namespace LiveSet
variable {σ : Type}

structure Ticking where
  identity : Nat
  scene : Scene

def Ticking.panics (host : Host) (t : Ticking) : Bool := (Scene.tick host t.scene).1

def tickings (host : Host) : List Nat → LiveSet σ → List Ticking
  | [], _ => []
  | identity :: rest, set =>
    match set.actor? identity with
    | none => tickings host rest set
    | some a =>
      ⟨identity, set.scene a⟩ ::
        if (Scene.tick host (set.scene a)).1 then []
        else tickings host rest (set.visit identity (Scene.tick host)).2

section
variable {host : Host} {identity : Nat} {rest : List Nat} {set : LiveSet σ} {a : Actor}

theorem visit_of_actor? {α : Type} (h : set.actor? identity = some a) (act : Scene → α × Scene) :
    (set.visit identity act).1 = some (act (set.scene a)).1 := by
  rw [visit, h]

theorem tickEach_cons (h : set.actor? identity = some a) :
    tickEach host (identity :: rest) set =
      if (Scene.tick host (set.scene a)).1 then
        (true, (set.visit identity (Scene.tick host)).2)
      else tickEach host rest (set.visit identity (Scene.tick host)).2 := by
  have hvisit := visit_of_actor? h (Scene.tick host)
  rw [tickEach]
  cases hresult : set.visit identity (Scene.tick host) with
  | mk panicked after =>
    rw [hresult] at hvisit
    obtain rfl : panicked = _ := hvisit
    cases (Scene.tick host (set.scene a)).1 with
    | true => rfl
    | false => rfl

theorem tickings_cons (h : set.actor? identity = some a) :
    tickings host (identity :: rest) set =
      ⟨identity, set.scene a⟩ ::
        if (Scene.tick host (set.scene a)).1 then []
        else tickings host rest (set.visit identity (Scene.tick host)).2 := by
  rw [tickings, h]

end

structure Started (host : Host) (identities : List Nat) (ts : List Ticking) (panicked : Bool) :
    Prop where
  all : panicked = false → ts.map Ticking.identity = identities ∧ ∀ t ∈ ts, t.panics host = false
  until_panic : panicked = true → ∃ earlier t rest, ts = earlier ++ [t] ∧
    identities = earlier.map Ticking.identity ++ t.identity :: rest ∧ t.panics host = true ∧
      ∀ e ∈ earlier, e.panics host = false

theorem started_tickEach (host : Host) (identities : List Nat) {set : LiveSet σ}
    (hknown : ∀ identity ∈ identities, identity < set.actors.length) :
    Started host identities (tickings host identities set) (tickEach host identities set).1 := by
  induction identities generalizing set with
  | nil => exact ⟨fun _ => ⟨rfl, by simp [tickings]⟩, fun h => by simp [tickEach] at h⟩
  | cons identity rest ih =>
    obtain ⟨hlt, hrest⟩ := List.forall_mem_cons.mp hknown
    have ha : set.actor? identity = some set.actors[identity] := List.getElem?_eq_getElem hlt
    rw [tickEach_cons ha, tickings_cons ha]
    cases hpanic : (Scene.tick host (set.scene set.actors[identity])).1 with
    | true =>
      simp only [if_true]
      exact ⟨fun h => (Bool.noConfusion h), fun _ => ⟨[], _, rest, rfl, rfl, hpanic, by simp⟩⟩
    | false =>
      simp only [Bool.false_eq_true, if_false]
      have hlater := @ih (set.visit identity (Scene.tick host)).2 (by rwa [length_actors_visit])
      refine ⟨?_, ?_⟩
      · intro hnone
        obtain ⟨hidentities, hquiet⟩ := hlater.all hnone
        exact ⟨by rw [List.map_cons, hidentities], List.forall_mem_cons.mpr ⟨hpanic, hquiet⟩⟩
      · intro hsome
        obtain ⟨earlier, t, after, hts, hidentities, ht, hquiet⟩ := hlater.until_panic hsome
        refine ⟨_ :: earlier, t, after, by rw [hts]; rfl, by rw [hidentities]; rfl, ht, ?_⟩
        exact List.forall_mem_cons.mpr ⟨hpanic, hquiet⟩

structure Ticked (host : Host) (set : LiveSet σ) (ts : List Ticking) (after : LiveSet σ) : Prop where
  scene : ∀ t ∈ ts, set.actor? t.identity = some t.scene.actor ∧
    after.actor? t.identity = some (Scene.tick host t.scene).2.actor
  others : ∀ identity, identity ∉ ts.map Ticking.identity → after.actor? identity = set.actor? identity

theorem tickings_subset (host : Host) (identities : List Nat) (set : LiveSet σ) :
    (tickings host identities set).map Ticking.identity ⊆ identities := by
  induction identities generalizing set with
  | nil => exact List.Subset.refl _
  | cons identity rest ih =>
    rw [tickings]
    split
    · exact List.subset_cons_of_subset _ (ih set)
    · rw [List.map_cons]
      apply List.cons_subset_cons
      split
      · exact List.nil_subset _
      · exact ih _

theorem ticked_visit (host : Host) {set : LiveSet σ} {identity : Nat} {a : Actor}
    (ha : set.actor? identity = some a) :
    Ticked host set [⟨identity, set.scene a⟩] (set.visit identity (Scene.tick host)).2 := by
  have hvisit := fun other => actor?_visit set identity other (Scene.tick host)
  refine ⟨?_, ?_⟩
  · intro t ht
    obtain rfl := List.mem_singleton.mp ht
    refine ⟨ha, ?_⟩
    rw [hvisit, if_pos rfl, ha]
    rfl
  · intro other hother
    rw [hvisit, if_neg (by simpa using hother)]

theorem Ticked.cons {host : Host} {set middle after : LiveSet σ} {t : Ticking} {ts : List Ticking}
    (h : Ticked host set [t] middle) (k : Ticked host middle ts after)
    (hfresh : t.identity ∉ ts.map Ticking.identity) : Ticked host set (t :: ts) after := by
  refine ⟨List.forall_mem_cons.mpr ⟨?_, ?_⟩, ?_⟩
  · rw [k.others t.identity hfresh]
    exact h.scene t List.mem_cons_self
  · intro u hu
    obtain ⟨hbefore, hafter⟩ := k.scene u hu
    have hother : u.identity ≠ t.identity := ne_of_mem_of_not_mem (List.mem_map_of_mem hu) hfresh
    rw [h.others u.identity (by simpa using hother)] at hbefore
    exact ⟨hbefore, hafter⟩
  · intro other hother
    rw [List.map_cons, List.mem_cons, not_or] at hother
    rw [k.others other hother.2, h.others other (by simpa using hother.1)]

theorem ticked_tickEach (host : Host) {identities : List Nat} (hnodup : identities.Nodup)
    {set : LiveSet σ} (hknown : ∀ identity ∈ identities, identity < set.actors.length) :
    Ticked host set (tickings host identities set) (tickEach host identities set).2 := by
  induction identities generalizing set with
  | nil => exact ⟨by simp [tickings], fun _ _ => rfl⟩
  | cons identity rest ih =>
    obtain ⟨hnotMem, hnodup⟩ := List.nodup_cons.mp hnodup
    obtain ⟨hlt, hrest⟩ := List.forall_mem_cons.mp hknown
    have ha : set.actor? identity = some set.actors[identity] := List.getElem?_eq_getElem hlt
    rw [tickEach_cons ha, tickings_cons ha]
    cases (Scene.tick host (set.scene set.actors[identity])).1 with
    | true =>
      simp only [if_true]
      exact ticked_visit host ha
    | false =>
      simp only [Bool.false_eq_true, if_false]
      apply (ticked_visit host ha).cons
      · apply ih hnodup
        rwa [length_actors_visit]
      · intro hmem
        exact hnotMem (tickings_subset host rest _ hmem)

/-- Ticking all live actors starts the tick of each of them once, and no actor loses a controller that
was not replaced. -/
structure Contained (host : Host) (set : LiveSet σ) : Prop where
  ticked_once : ∀ identity ∈ set.live,
    ((tickings host set.live set).map Ticking.identity).count identity = 1
  kept : ∀ t ∈ tickings host set.live set, t.scene.TickKeeps host

theorem getLast?_eq_of_nodup {before rest : List Nat} {identity : Nat}
    (hnodup : (before ++ identity :: rest).Nodup) :
    (before ++ identity :: rest).getLast? = some identity ↔ rest = [] := by
  constructor
  · intro hlast
    rcases List.eq_nil_or_concat rest with hnil | ⟨init, x, rfl⟩
    · exact hnil
    · have hx : (before ++ identity :: (init ++ [x])).getLast? = some x := by
        rw [← List.cons_append, ← List.append_assoc]
        exact List.getLast?_concat
      rw [List.concat_eq_append] at hlast
      obtain rfl := Option.some.inj (hx.symm.trans hlast)
      have hapart := (List.nodup_cons.mp (List.nodup_append.mp hnodup).2.1).1
      exact absurd (by simp) hapart
  · rintro rfl
    exact List.getLast?_concat

theorem ticked_once_iff {host : Host} {identities : List Nat} {ts : List Ticking} {panicked : Bool}
    (hstarted : Started host identities ts panicked) (hnodup : identities.Nodup) :
    (∀ identity ∈ identities, (ts.map Ticking.identity).count identity = 1) ↔
      ∀ t ∈ ts, t.panics host = true → identities.getLast? = some t.identity := by
  cases panicked with
  | false =>
    obtain ⟨hall, hquiet⟩ := hstarted.all rfl
    rw [hall]
    refine ⟨fun _ t ht hpanic => ?_, fun _ identity hmem => List.count_eq_one_of_mem hnodup hmem⟩
    rw [hquiet t ht] at hpanic
    cases hpanic
  | true =>
    obtain ⟨earlier, t, rest, rfl, rfl, hpanic, hquiet⟩ := hstarted.until_panic rfl
    have hts : (earlier ++ [t]).map Ticking.identity = earlier.map Ticking.identity ++ [t.identity] :=
      List.map_append
    have hlast := getLast?_eq_of_nodup hnodup
    rw [hts]
    constructor
    · intro honce u hu hpanics
      rcases List.mem_append.mp hu with hearlier | ht
      · rw [hquiet u hearlier] at hpanics
        cases hpanics
      rw [List.mem_singleton.mp ht, hlast]
      -- An actor that comes later is not ticked.
      apply List.eq_nil_iff_forall_not_mem.mpr
      intro later hlater
      have hsplit : ((earlier.map Ticking.identity ++ [t.identity]) ++ rest).Nodup := by
        rwa [List.append_assoc]
      have hticked : later ∈ earlier.map Ticking.identity ++ [t.identity] := by
        apply List.count_pos_iff.mp
        rw [honce later (by simp [hlater])]
        exact Nat.one_pos
      exact (List.nodup_append.mp hsplit).2.2 later hticked later hlater rfl
    · intro hpanics identity hmem
      obtain rfl := hlast.mp (hpanics t (by simp) hpanic)
      exact List.count_eq_one_of_mem hnodup hmem

theorem contained_iff {set : LiveSet σ} (hset : Kept set) (host : Host) :
    Contained host set ↔ ∀ t ∈ tickings host set.live set, t.panics host = true →
      set.live.getLast? = some t.identity ∧
        ∀ p ∈ (Stage.ofActor t.scene.actor).posts, t.scene.Replaces host p.name := by
  have hstarted := started_tickEach host set.live hset.lt_actors
  have honce := ticked_once_iff hstarted hset.nodup
  constructor
  · intro hcontained t ht hpanic
    exact ⟨honce.mp hcontained.ticked_once t ht hpanic,
      (Scene.tickKeeps_iff host t.scene).mp (hcontained.kept t ht) hpanic⟩
  · intro hpanics
    refine ⟨honce.mpr fun t ht hpanic => (hpanics t ht hpanic).1, fun t ht => ?_⟩
    exact (Scene.tickKeeps_iff host t.scene).mpr fun hpanic => (hpanics t ht hpanic).2

/-- How far panics reach when all live actors are ticked. -/
structure PanicReach (host : Host) (set : LiveSet σ) : Prop where
  ticked : Ticked host set (tickings host set.live set) (set.tickAll host).2
  started : Started host set.live (tickings host set.live set) (set.tickAll host).1
  contained_iff : Contained host set ↔ ∀ t ∈ tickings host set.live set, t.panics host = true →
    set.live.getLast? = some t.identity ∧
      ∀ p ∈ (Stage.ofActor t.scene.actor).posts, t.scene.Replaces host p.name
  lost : ∀ {ρ last after : Stage} {during : List Deed}, Stage.Closing ρ during last →
    (∀ p ∈ ρ.posts, p.number < ρ.next) → Stage.Step last .abandon after →
      ∀ p ∈ ρ.posts, p ∉ after.posts

/-- A panic is contained to its actor and takes nothing from it only if that actor is the last live one
and all its controllers are replaced during its tick. -/
theorem contained_tickAll_iff {set : LiveSet σ} (hset : Kept set) (host : Host) :
    PanicReach host set := by
  exact ⟨ticked_tickEach host hset.nodup hset.lt_actors, started_tickEach host set.live hset.lt_actors,
    contained_iff hset host, fun hclosing hnumber => hclosing.lost hnumber⟩

/-- The last actor has one controller. It attaches another one and ticks its actor, where this one
replaces the first and panics: the panic leaves both ticks, and the actor keeps the replacement. -/
theorem contained_nested_panic :
    let creation := Operation.create .detached ⟨"PIG"⟩ ⟨"world", 0, 64, 0, 0, 0⟩ none fun a => a
    let first : Controller := .scripted "b" true [.change (.animation "ran")]
    let inner : Controller := .scripted "c" true [.attach (.scripted "A" true []), .panic]
    let second : Controller := .scripted "a" true [.attach inner, .tick .detached 1]
    let handles : List (String × Handle) := [("u1", fun _ => .done), ("u2", fun _ => .done)]
    let set := ((empty Factory.queue handles false ⟨fun _ => 0, 0⟩).run
      [creation, creation, .act 0 (.attach first), .act 1 (.attach second)]).2
    Kept set ∧ PanicReach .detached set ∧ (set.tickAll .detached).1 = true ∧ Contained .detached set ∧
      ((set.tickAll .detached).2.actor? 0).map (fun a => a.state.animations) = some ["ran"] ∧
      ((set.tickAll .detached).2.actor? 1).map Actor.controllerNames = some ["A"] := by
  intro creation first inner second handles set
  have hkept : Kept set := (kept_empty Factory.queue handles false ⟨fun _ => 0, 0⟩).run _
  have hreach := contained_tickAll_iff hkept .detached
  have hcontained : Contained .detached set := hreach.contained_iff.mpr (by decide +kernel)
  exact ⟨hkept, hreach, by decide +kernel, hcontained, by decide +kernel, by decide +kernel⟩

/-- The first of two actors looks at players with an undefined chance. It panics and loses this
controller, and the second actor is not ticked. -/
theorem not_contained_undefined_chance :
    let creation := Operation.create .detached ⟨"PIG"⟩ ⟨"world", 0, 64, 0, 0, 0⟩ none fun a => a
    let second : Controller := .scripted "b" true [.change (.animation "ran")]
    let handles : List (String × Handle) := [("u1", fun _ => .done), ("u2", fun _ => .done)]
    let set := ((empty Factory.queue handles false ⟨fun _ => 0, 0⟩).run
      [creation, creation, .act 0 (.attach (.lookAtPlayer (0 / 0))), .act 1 (.attach second)]).2
    (set.tickAll .detached).1 = true ∧
      ((set.tickAll .detached).2.actor? 0).map Actor.controllerNames = some [] ∧
      ((set.tickAll .detached).2.actor? 1).map (fun a => a.state.animations) = some [] ∧
      ¬ Contained .detached set := by
  intro creation second handles set
  refine ⟨by decide, by decide, by decide, fun hcontained => ?_⟩
  exact absurd (hcontained.ticked_once 1 (by decide)) (by decide)

end LiveSet
end ScriptedActors
