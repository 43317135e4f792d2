import ScriptedActors.Actor.Tick
import ScriptedActors.Proofs.Location.Distance

set_option autoImplicit false

/-!
# Whom an actor looks at

An actor looks at a viewer whom the host knows in its world and within its range. Of those it
takes the nearest one, and the first of equally near ones. Distances are compared in the total
order of numbers, which no undefined one enters.
-/
namespace ScriptedActors.Behaviour
open Decimal

variable {host : Host} {here : Location} {viewer : String} {s : Sighting} {l : List Sighting}

def straight (here there : Location) : Float :=
  let dx := there.x - here.x
  let dy := there.y - here.y
  let dz := there.z - here.z
  (dx * dx + dy * dy + dz * dz).sqrt

/-- A viewer is seen at a place: it is known there, in the world of the actor and within eight blocks. -/
structure Seen (host : Host) (here : Location) (viewer : String) (s : Sighting) : Prop where
  known : host.playerLocation viewer = some s.place
  sameWorld : s.place.world = here.world
  distance : s.distance = straight here s.place
  inRange : s.distance ≤ 8

theorem distance_eq_some_iff {here there : Location} {d : Float} :
    here.distance there = some d ↔ there.world = here.world ∧ d = straight here there := by
  rw [Location.distance]
  split
  · rename_i hworld
    exact ⟨fun h => ⟨hworld.symm, (Option.some.inj h).symm⟩, fun h => congrArg some h.2.symm⟩
  · rename_i hworld
    refine ⟨?_, fun h => absurd h.1.symm hworld⟩
    intro h
    cases h

theorem sighting_eq_some_iff : sighting host here viewer = some s ↔ Seen host here viewer s := by
  constructor
  · intro h
    simp only [sighting, Option.bind_eq_bind, Option.bind_eq_some_iff] at h
    obtain ⟨place, hplace, distance, hdistance, hs⟩ := h
    obtain ⟨hworld, hstraight⟩ := distance_eq_some_iff.mp hdistance
    split at hs
    · rename_i hle
      obtain rfl := Option.some.inj hs
      exact ⟨hplace, hworld, hstraight, hle⟩
    · cases hs
  · intro h
    have hdistance := distance_eq_some_iff.mpr ⟨h.sameWorld, h.distance⟩
    have hle : s.distance ≤ lookRange := h.inRange
    simp only [sighting, h.known, hdistance, Option.bind_eq_bind, Option.bind_some, if_pos hle]

theorem Seen.isPositive (h : Seen host here viewer s) : IsPositive s.distance.toModel.unpack :=
  Location.isPositive_distance (distance_eq_some_iff.mpr ⟨h.sameWorld, h.distance⟩) h.inRange

theorem nearest_eq_none_iff : nearest l = none ↔ l = [] := by
  cases l with
  | nil => exact ⟨fun _ => rfl, fun _ => rfl⟩
  | cons s rest =>
    refine ⟨fun h => ?_, fun h => nomatch h⟩
    rw [nearest] at h
    split at h
    · cases h
    · split at h <;> cases h

theorem nearest_eq_some (hl : ∀ t ∈ l, IsPositive t.distance.toModel.unpack) (h : nearest l = some s) :
    ∃ front back, l = front ++ s :: back ∧
      (∀ t ∈ front, totalPlace s.distance < totalPlace t.distance) ∧
      ∀ t ∈ back, totalPlace s.distance ≤ totalPlace t.distance := by
  induction l generalizing s with
  | nil => cases h
  | cons first rest ih =>
    have hrest : ∀ t ∈ rest, IsPositive t.distance.toModel.unpack :=
      fun t ht => hl t (List.mem_cons_of_mem _ ht)
    rw [nearest] at h
    cases hnearest : nearest rest with
    | none =>
      rw [hnearest] at h
      obtain rfl := Option.some.inj h
      obtain rfl := nearest_eq_none_iff.mp hnearest
      exact ⟨[], [], rfl, List.forall_mem_nil _, List.forall_mem_nil _⟩
    | some u =>
      obtain ⟨front, back, rfl, hfront, hback⟩ := ih hrest hnearest
      have hu := hrest u (List.mem_append_right _ (List.mem_cons_self ..))
      have hlt := lt_iff_totalPlace_lt hu (hl first (List.mem_cons_self ..))
      simp only [hnearest] at h
      by_cases hnearer : u.distance < first.distance
      · rw [if_pos hnearer] at h
        obtain rfl := Option.some.inj h
        refine ⟨first :: front, back, rfl, fun t ht => ?_, hback⟩
        rcases List.mem_cons.mp ht with rfl | ht
        · exact hlt.mp hnearer
        · exact hfront t ht
      · rw [if_neg hnearer] at h
        obtain rfl := Option.some.inj h
        -- A later one has to be nearer, so of equally near ones the first is taken.
        have hle := not_lt.mp (mt hlt.mpr hnearer)
        refine ⟨[], front ++ u :: back, rfl, List.forall_mem_nil _, fun t ht => ?_⟩
        rcases List.mem_append.mp ht with ht | ht
        · exact hle.trans (hfront t ht).le
        rcases List.mem_cons.mp ht with rfl | ht
        · exact hle
        · exact hle.trans (hback t ht)

/-- What an actor looks at after it looked for viewers. -/
inductive LooksAt (host : Host) (viewers : List String) (s : ActorState) : ActorState → Prop
  | nearest (front : List String) (viewer : String) (back : List String) (t : Sighting)
      (viewers_eq : viewers = front ++ viewer :: back) (seen : Seen host s.location viewer t)
      (front_farther : ∀ other ∈ front, ∀ u, Seen host s.location other u →
        totalPlace t.distance < totalPlace u.distance)
      (back_not_nearer : ∀ other ∈ back, ∀ u, Seen host s.location other u →
        totalPlace t.distance ≤ totalPlace u.distance) :
      LooksAt host viewers s { s with lookTarget := some { t.place with y := t.place.y + 1.62 } }
  | nobody (unseen : ∀ viewer ∈ viewers, ∀ t, ¬ Seen host s.location viewer t) : LooksAt host viewers s s

theorem mem_sightings {viewers : List String} (hviewer : viewer ∈ viewers) (h : Seen host here viewer s) :
    s ∈ viewers.filterMap (sighting host here) :=
  List.mem_filterMap.mpr ⟨viewer, hviewer, sighting_eq_some_iff.mpr h⟩

theorem isPositive_sightings {viewers : List String} :
    ∀ s ∈ viewers.filterMap (sighting host here), IsPositive s.distance.toModel.unpack := by
  intro s hs
  obtain ⟨viewer, -, hviewer⟩ := List.mem_filterMap.mp hs
  exact (sighting_eq_some_iff.mp hviewer).isPositive

theorem exists_nearest_viewer {viewers : List String}
    (h : nearest (viewers.filterMap (sighting host here)) = some s) :
    ∃ front viewer back, viewers = front ++ viewer :: back ∧ Seen host here viewer s ∧
      (∀ other ∈ front, ∀ u, Seen host here other u → totalPlace s.distance < totalPlace u.distance) ∧
      ∀ other ∈ back, ∀ u, Seen host here other u → totalPlace s.distance ≤ totalPlace u.distance := by
  obtain ⟨nearFront, nearBack, hsplit, hfront, hback⟩ := nearest_eq_some isPositive_sightings h
  obtain ⟨front, rest, hviewers, hfrontMap, hrestMap⟩ := List.filterMap_eq_append_iff.mp hsplit
  -- Who stands before the viewer in the rest is not seen at all.
  obtain ⟨blind, viewer, back, hrest, hblind, hviewer, hbackMap⟩ := List.filterMap_eq_cons_iff.mp hrestMap
  refine ⟨front ++ blind, viewer, back, ?_, sighting_eq_some_iff.mp hviewer, ?_, ?_⟩
  · rw [hviewers, hrest, List.append_assoc]
  · intro other hother u hu
    rcases List.mem_append.mp hother with hother | hother
    · exact hfront u (hfrontMap ▸ mem_sightings hother hu)
    · have hnone := hblind other hother
      rw [sighting_eq_some_iff.mpr hu] at hnone
      cases hnone
  · intro other hother u hu
    exact hback u (hbackMap ▸ mem_sightings hother hu)

theorem looksAt_lookAtViewer (host : Host) (viewers : List String) (s : ActorState) :
    LooksAt host viewers s (lookAtViewer host viewers s) := by
  rw [lookAtViewer, nearestViewer]
  cases hnearest : nearest (viewers.filterMap (sighting host s.location)) with
  | none =>
    have hempty := nearest_eq_none_iff.mp hnearest
    refine .nobody fun viewer hviewer t ht => ?_
    have hmem := mem_sightings hviewer ht
    rw [hempty] at hmem
    cases hmem
  | some t =>
    obtain ⟨front, viewer, back, hviewers, hseen, hfront, hback⟩ := exists_nearest_viewer hnearest
    exact .nearest front viewer back t hviewers hseen hfront hback

def isEligible (host : Host) (here : Location) (viewer : String) : Bool :=
  (host.playerLocation viewer).any fun place => place.world = here.world ∧ straight here place ≤ 8

theorem isEligible_eq_isSome (host : Host) (here : Location) (viewer : String) :
    isEligible host here viewer = (sighting host here viewer).isSome := by
  rw [Bool.eq_iff_iff, isEligible, Option.any_eq_true, Option.isSome_iff_exists]
  constructor
  · rintro ⟨place, hknown, hcounts⟩
    obtain ⟨hworld, hle⟩ := of_decide_eq_true hcounts
    exact ⟨⟨_, place⟩, sighting_eq_some_iff.mpr ⟨hknown, hworld, rfl, hle⟩⟩
  · rintro ⟨s, hs⟩
    obtain ⟨hknown, hworld, hstraight, hle⟩ := sighting_eq_some_iff.mp hs
    exact ⟨s.place, hknown, decide_eq_true ⟨hworld, hstraight ▸ hle⟩⟩

theorem filterMap_sighting_filter (host : Host) (here : Location) (viewers : List String) :
    (viewers.filter (isEligible host here)).filterMap (sighting host here) =
      viewers.filterMap (sighting host here) := by
  rw [List.filterMap_filter]
  congr 1
  funext viewer
  rw [isEligible_eq_isSome]
  cases sighting host here viewer <;> rfl

theorem lookAtViewer_congr {host' : Host} {viewers viewers' : List String} (s : ActorState)
    (hviewers : viewers'.filter (isEligible host' s.location) = viewers.filter (isEligible host s.location))
    (hplaces : ∀ viewer ∈ viewers, isEligible host s.location viewer = true →
      host'.playerLocation viewer = host.playerLocation viewer) :
    lookAtViewer host' viewers' s = lookAtViewer host viewers s := by
  have hsightings : viewers'.filterMap (sighting host' s.location) =
      viewers.filterMap (sighting host s.location) := by
    rw [← filterMap_sighting_filter host', ← filterMap_sighting_filter host, hviewers]
    refine List.filterMap_congr fun viewer hviewer => ?_
    obtain ⟨hmem, heligible⟩ := List.mem_filter.mp hviewer
    rw [sighting, sighting, hplaces viewer hmem heligible]
  rw [lookAtViewer, lookAtViewer, nearestViewer, nearestViewer, hsightings]

/-- A controller makes its actor look at the nearest viewer, and at nobody who does not count. -/
structure LooksAtNearest (tick : Host → Scene → Stepped) (host : Host) (s : Scene) (c : Controller) :
    Prop where
  looksAt : ∃ state, LooksAt host s.actor.viewers s.actor.state state ∧
    Scene.execute tick host c s = (false, { s with actor := { s.actor with state := state } })
  uninfluenced : ∀ (host' : Host) (viewers' : List String),
    viewers'.filter (isEligible host' s.actor.state.location) =
      s.actor.viewers.filter (isEligible host s.actor.state.location) →
    (∀ viewer ∈ s.actor.viewers, isEligible host s.actor.state.location viewer = true →
      host'.playerLocation viewer = host.playerLocation viewer) →
    (Scene.execute tick host' c (s.modify fun a => { a with viewers := viewers' })).2.actor.state =
      (Scene.execute tick host c s).2.actor.state

theorem looksAtNearest (tick : Host → Scene → Stepped) (host : Host) (s : Scene) :
    LooksAtNearest tick host s .lookAtPlayerAlways ∧
      ∀ chance, LooksAtNearest tick host s (.lookAtPlayer chance) := by
  have hlooks := looksAt_lookAtViewer host s.actor.viewers s.actor.state
  have hcongr (host' : Host) (viewers' : List String) :=
    @lookAtViewer_congr host host' s.actor.viewers viewers' s.actor.state
  exact ⟨⟨⟨_, hlooks, rfl⟩, hcongr⟩, fun chance => ⟨⟨_, hlooks, rfl⟩, hcongr⟩⟩

/-- Of five viewers one is unknown, one in another world and one too far away. The other two are equally
near, and the actor looks at the eyes of the first. -/
theorem looksAtNearest_first :
    let places : List (String × Location) :=
      [("abroad", ⟨"v", 1, 64, 1, 0, 0⟩), ("far", ⟨"w", 8.5, 64, 0, 0, 0⟩),
        ("first", ⟨"w", 3, 64, 4, 0, 0⟩), ("second", ⟨"w", -4, 64, 3, 0, 0⟩)]
    let host : Host := { Host.detached with playerLocation := fun viewer => places.lookup viewer }
    let viewers := ["unknown", "abroad", "far", "first", "second"]
    let a : Actor := Actor.new "u" ⟨"PIG"⟩ ⟨"w", 0, 64, 0, 0, 0⟩ viewers fun _ => .done
    let s : Scene := ⟨a, ⟨fun _ => 0, 0⟩, [], []⟩
    let target := (Scene.execute Scene.tick host .lookAtPlayerAlways s).2.actor.state.lookTarget
    LooksAtNearest Scene.tick host s .lookAtPlayerAlways ∧
      target.map (fun l => (l.world, l.x, l.y, l.z)) = some ("w", 3, 65.62, 4) ∧
      viewers.filter (isEligible host a.state.location) = ["first", "second"] ∧
      straight a.state.location ⟨"w", -4, 64, 3, 0, 0⟩ = 5 := by
  intro places host viewers a s target
  exact ⟨(looksAtNearest Scene.tick host s).1, by decide +kernel, by decide +kernel, by decide +kernel⟩

end ScriptedActors.Behaviour
