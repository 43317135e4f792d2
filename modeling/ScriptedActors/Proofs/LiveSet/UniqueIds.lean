import Mathlib.Data.List.Nodup
import ScriptedActors.Proofs.LiveSet.Teardown

set_option autoImplicit false

/-!
# Unique ids in a run

A live set that enforces unique ids refuses a constructed actor as a duplicate exactly if it is
open and an actor of that unique id is live. So the unique ids of its live actors stay distinct in
every run, and a unique id is free again as soon as its actor is removed.
-/
namespace ScriptedActors

namespace LiveSet
variable {σ : Type}

def uniqueIds (set : LiveSet σ) : List String := set.liveActors.map Actor.uniqueId

theorem uniqueIds_eq_listed (set : LiveSet σ) :
    set.uniqueIds = set.listed.map Instance.uniqueId := by
  rw [uniqueIds, liveActors, listed, List.map_filterMap, List.map_filterMap]
  refine List.filterMap_congr ?_
  intro identity _
  rw [instance?, Option.map_map]
  rfl

theorem findByUniqueId_isEmpty (set : LiveSet σ) (uniqueId : String) :
    (set.findByUniqueId uniqueId).isEmpty = true ↔ uniqueId ∉ set.uniqueIds := by
  rw [List.isEmpty_iff, findByUniqueId, identitiesWhere, List.filter_eq_nil_iff, uniqueIds, liveActors]
  simp only [List.mem_map, List.mem_filterMap, Option.any_eq_true]
  constructor
  · rintro h ⟨a, ⟨identity, hlive, ha⟩, rfl⟩
    exact h identity hlive ⟨a, ha, by simp⟩
  · rintro h identity hlive ⟨a, ha, hname⟩
    exact h ⟨a, ⟨identity, hlive, ha⟩, by simpa using hname⟩

theorem enter_reply (set : LiveSet σ) (a : Actor) :
    (set.enter a).1 =
      if set.closed = true then .error .shutDown
      else if set.enforcesUniqueIds = true ∧ a.uniqueId ∈ set.uniqueIds then
        .error (.duplicateUniqueId a.uniqueId)
      else .ok set.actors.length := by
  have hempty := set.findByUniqueId_isEmpty a.uniqueId
  rw [enter]
  by_cases hclosed : set.closed = true
  · rw [if_pos hclosed, if_pos hclosed]
  · rw [if_neg hclosed, if_neg hclosed]
    by_cases hmem : a.uniqueId ∈ set.uniqueIds
    · have hfound : (set.findByUniqueId a.uniqueId).isEmpty = false := by
        simpa [hmem] using hempty
      rw [hfound]
      cases set.enforcesUniqueIds with
      | true => simp [hmem]
      | false => simp
    · rw [hempty.mpr hmem]
      simp [hmem]

theorem admitted_create {set : LiveSet σ} {host : Host} {kind : EntityKind} {location : Location}
    {viewers : Option (List String)} {prepare : Actor → Actor} {i : Instance}
    (h : Step.admitted ⟨.create host kind location viewers prepare,
      (set.perform (.create host kind location viewers prepare)).1⟩ = some i) :
    ∃ a supply,
      set.factory.construct set.supply kind location (viewers.getD (host.observers location)) =
        (.ok a, supply) ∧
      i.uniqueId = (prepare a).uniqueId ∧
      (set.create host kind location viewers prepare).1 = .ok i.identity := by
  cases hconstruct : set.factory.construct set.supply kind location
      (viewers.getD (host.observers location)) with
  | mk made supply =>
    cases made with
    | error error => simp [LiveSet.perform, create, hconstruct, Step.admitted] at h
    | ok a =>
      refine ⟨a, supply, rfl, ?_⟩
      have hactors := actors_enter { set with supply := supply } (prepare a)
      rw [← create_of_construct hconstruct] at hactors
      rw [LiveSet.perform] at h
      generalize set.create host kind location viewers prepare = result at *
      obtain ⟨reply, after⟩ := result
      rcases hactors with ⟨rfl, hactors⟩ | ⟨⟨error, rfl⟩, -⟩
      · have hi : after.instance? set.actors.length = some i := h
        have hactors : after.actors = set.actors ++ [prepare a] := hactors
        rw [instance?, actor?, hactors, List.getElem?_append_right (Nat.le_refl _)] at hi
        simp only [Nat.sub_self, List.getElem?_cons_zero, Option.map_some, Option.some.injEq] at hi
        subst hi
        exact ⟨rfl, rfl⟩
      · simp [Step.admitted] at h

/-- Only an actor whose unique id is not live is admitted where unique ids are enforced. -/
theorem admitted_unique {set : LiveSet σ} (henforces : set.enforcesUniqueIds = true)
    {operation : Operation} {i : Instance}
    (h : Step.admitted ⟨operation, (set.perform operation).1⟩ = some i) :
    i.uniqueId ∉ set.uniqueIds := by
  cases operation with
  | create host kind location viewers prepare =>
    obtain ⟨a, supply, hconstruct, hname, hreply⟩ := admitted_create h
    intro hmem
    rw [hname] at hmem
    have hduplicate : set.enforcesUniqueIds = true ∧
        (prepare a).uniqueId ∈ LiveSet.uniqueIds { set with supply := supply } := ⟨henforces, hmem⟩
    have hdecision := enter_reply { set with supply := supply } (prepare a)
    rw [← create_of_construct hconstruct, hreply, if_pos hduplicate] at hdecision
    split at hdecision
    · cases hdecision
    · cases hdecision
  | remove identity => simp [LiveSet.perform, Step.admitted] at h
  | act identity effect => simp [LiveSet.perform, Step.admitted] at h
  | tickAll host => simp [LiveSet.perform, Step.admitted] at h
  | shutdown => simp [LiveSet.perform, Step.admitted] at h

theorem nodup_perform {set : LiveSet σ} (hset : Kept set) (henforces : set.enforcesUniqueIds = true)
    (hnodup : set.uniqueIds.Nodup) (operation : Operation) :
    (set.perform operation).2.uniqueIds.Nodup := by
  have hkeptIds := hnodup
  rw [uniqueIds_eq_listed] at hkeptIds
  rw [uniqueIds_eq_listed, listed_perform hset, List.map_append]
  refine List.nodup_append.mpr ⟨?_, ?_, ?_⟩
  · exact hkeptIds.sublist (List.filter_sublist.map _)
  · cases Step.admitted ⟨operation, (set.perform operation).1⟩ with
    | none => simp
    | some i => simp
  · rintro uniqueId hold _ hnew rfl
    obtain ⟨i, hi, rfl⟩ := List.mem_map.mp hnew
    refine admitted_unique henforces (Option.mem_toList.mp hi) ?_
    rw [uniqueIds_eq_listed]
    exact (List.filter_sublist.map _).subset hold

theorem nodup_run {set : LiveSet σ} (hset : Kept set) (henforces : set.enforcesUniqueIds = true)
    (hnodup : set.uniqueIds.Nodup) (operations : List Operation) :
    (set.run operations).2.uniqueIds.Nodup := by
  induction operations generalizing set with
  | nil => exact hnodup
  | cons operation operations ih =>
    have hrules : (set.perform operation).2.enforcesUniqueIds = set.enforcesUniqueIds :=
      congrArg Prod.snd (rules_perform set operation)
    exact ih (hset.perform operation) (hrules.trans henforces)
      (nodup_perform hset henforces hnodup operation)

theorem findByUniqueId_length_le {set : LiveSet σ} (hnodup : set.uniqueIds.Nodup) (uniqueId : String) :
    (set.findByUniqueId uniqueId).length ≤ 1 := by
  rw [findByUniqueId, identitiesWhere_eq set _ (fun i => i.uniqueId == uniqueId) fun _ _ => rfl,
    List.length_map, ← List.countP_eq_length_filter]
  rw [uniqueIds_eq_listed] at hnodup
  calc set.listed.countP (fun i => i.uniqueId == uniqueId)
      = (set.listed.map Instance.uniqueId).count uniqueId := by rw [List.count, List.countP_map]; rfl
    _ ≤ 1 := List.nodup_iff_count_le_one.mp hnodup uniqueId

theorem uniqueId_removed {set : LiveSet σ} (hnodup : set.uniqueIds.Nodup) {identity : Nat} {b : Actor}
    (hlive : identity ∈ set.live) (hb : set.actor? identity = some b) :
    b.uniqueId ∉ (set.remove identity).2.uniqueIds := by
  rw [uniqueIds_eq_listed] at *
  rw [listed_remove]
  intro hmem
  obtain ⟨i, hi, hname⟩ := List.mem_map.mp hmem
  obtain ⟨hi, hother⟩ := List.mem_filter.mp hi
  have hlisted : (⟨identity, b.id, b.uniqueId⟩ : Instance) ∈ set.listed := by
    refine List.mem_filterMap.mpr ⟨identity, hlive, ?_⟩
    rw [instance?, hb]
    rfl
  have hsame := List.inj_on_of_nodup_map hnodup hi hlisted hname
  rw [hsame] at hother
  simp at hother

section Create
variable {set : LiveSet σ} {host : Host} {kind : EntityKind} {location : Location}
  {viewers : Option (List String)} {prepare : Actor → Actor}

abbrev constructed (set : LiveSet σ) (host : Host) (kind : EntityKind) (location : Location)
    (viewers : Option (List String)) : Except ActorError Actor × σ :=
  set.factory.construct set.supply kind location (viewers.getD (host.observers location))

theorem create_of_error {error : ActorError} {supply : σ}
    (h : set.constructed host kind location viewers = (.error error, supply)) :
    (set.create host kind location viewers prepare).1 = .error error := by
  rw [create]
  rw [constructed] at h
  rw [h]

theorem create_duplicate_iff {uniqueId : String}
    (hfactory : (set.constructed host kind location viewers).1 ≠ .error (.duplicateUniqueId uniqueId)) :
    (set.create host kind location viewers prepare).1 = .error (.duplicateUniqueId uniqueId) ↔
      set.enforcesUniqueIds = true ∧ set.closed = false ∧
        ∃ a supply, set.constructed host kind location viewers = (.ok a, supply) ∧
          (prepare a).uniqueId = uniqueId ∧ uniqueId ∈ set.uniqueIds := by
  cases hconstruct : set.constructed host kind location viewers with
  | mk made supply =>
    rw [hconstruct] at hfactory
    cases made with
    | error error =>
      rw [create_of_error hconstruct]
      simpa using hfactory
    | ok a =>
      rw [create_of_construct hconstruct, enter_reply]
      change (if set.closed = true then _ else
        if set.enforcesUniqueIds = true ∧ (prepare a).uniqueId ∈ set.uniqueIds then _ else _) = _ ↔ _
      cases hclosed : set.closed with
      | true => simp
      | false =>
        by_cases hduplicate : set.enforcesUniqueIds = true ∧ (prepare a).uniqueId ∈ set.uniqueIds
        · simp only [if_pos hduplicate]
          constructor
          · rintro ⟨⟩
            exact ⟨hduplicate.1, trivial, a, supply, rfl, rfl, hduplicate.2⟩
          · rintro ⟨-, -, b, later, ⟨⟩, rfl, -⟩
            rfl
        · simp only [if_neg hduplicate]
          constructor
          · rintro ⟨⟩
          · rintro ⟨henforces, -, b, later, ⟨⟩, rfl, hmem⟩
            exact absurd ⟨henforces, hmem⟩ hduplicate

end Create

structure Unrepeated (set : LiveSet σ) : Prop where
  distinct : (set.liveActors.map Actor.uniqueId).Nodup
  found : ∀ uniqueId, (set.findByUniqueId uniqueId).length ≤ 1
  refused : ∀ {host kind location viewers prepare uniqueId},
    (set.constructed host kind location viewers).1 ≠ .error (.duplicateUniqueId uniqueId) →
    ((set.create host kind location viewers prepare).1 = .error (.duplicateUniqueId uniqueId) ↔
      set.closed = false ∧ ∃ a supply, set.constructed host kind location viewers = (.ok a, supply) ∧
        (prepare a).uniqueId = uniqueId ∧ ∃ b ∈ set.liveActors, b.uniqueId = uniqueId)
  reusable : ∀ {identity b}, identity ∈ set.live → set.actor? identity = some b → set.closed = false →
    ∀ {host kind location viewers prepare a supply},
      set.constructed host kind location viewers = (.ok a, supply) →
      (prepare a).uniqueId = b.uniqueId →
        ∃ fresh, ((set.remove identity).2.create host kind location viewers prepare).1 = .ok fresh

/-- In every run of a live set that enforces unique ids they stay distinct and are refused only
while they are live; without enforcement a constructed actor is never refused as a duplicate. What the
factory fails with is handed on, whatever it is. -/
theorem unrepeated_run (factory : Factory σ) (supply : σ) (draws : Draws)
    (operations : List Operation) :
    Unrepeated ((empty factory supply true draws).run operations).2 ∧
      (∀ host kind location viewers prepare uniqueId,
        (((empty factory supply false draws).run operations).2.constructed host kind location viewers).1 ≠
          .error (.duplicateUniqueId uniqueId) →
        (((empty factory supply false draws).run operations).2.create host kind location viewers
          prepare).1 ≠ .error (.duplicateUniqueId uniqueId)) ∧
      ∀ enforces host kind location viewers prepare error later,
        ((empty factory supply enforces draws).run operations).2.constructed host kind location viewers =
          (.error error, later) →
        (((empty factory supply enforces draws).run operations).2.create host kind location viewers
          prepare).1 = .error error := by
  have hrules (enforces : Bool) :
      ((empty factory supply enforces draws).run operations).2.enforcesUniqueIds = enforces :=
    congrArg Prod.snd (rules_run (empty factory supply enforces draws) operations)
  refine ⟨?_, ?_, fun _ _ _ _ _ _ _ _ h => create_of_error h⟩
  · have henforces := hrules true
    have hnodup := nodup_run (kept_empty factory supply true draws) rfl List.nodup_nil operations
    generalize ((empty factory supply true draws).run operations).2 = set at *
    refine ⟨hnodup, findByUniqueId_length_le hnodup, ?_, ?_⟩
    · intro _ _ _ _ prepare uniqueId hfactory
      rw [create_duplicate_iff hfactory, uniqueIds]
      simp [henforces]
    · intro identity b hlive hb hopen _ _ _ _ prepare a later hconstruct hname
      have hfree := uniqueId_removed hnodup hlive hb
      rw [← hname] at hfree
      have hremoved : (set.remove identity).2.constructed _ _ _ _ = (.ok a, later) := hconstruct
      rw [create_of_construct hremoved, enter_reply, if_neg, if_neg]
      · exact ⟨_, rfl⟩
      · exact fun h => hfree h.2
      · exact fun h => absurd (hopen.symm.trans h) (by decide)
  · intro host kind location viewers prepare uniqueId hfactory hreply
    have henforced := ((create_duplicate_iff hfactory).mp hreply).1
    rw [hrules false] at henforced
    exact absurd henforced (by decide)

/-- The second actor has the unique id of the first and is refused; the third has it too and is
admitted, as the first was removed. -/
theorem unrepeated_removed :
    let handles : List (String × Handle) := List.replicate 3 ("a", fun _ => .done)
    let creation := Operation.create .detached ⟨"PIG"⟩ ⟨"world", 0, 64, 0, 0, 0⟩ none fun a => a
    let run := (empty Factory.queue handles true ⟨fun _ => 0, 0⟩).run
      [creation, creation, .remove 0, creation]
    Unrepeated run.2 ∧ run.2.live = [2] ∧ run.2.uniqueIds = ["a"] ∧ run.2.torn = ["a"] := by
  intro handles creation run
  have hunrepeated := (unrepeated_run Factory.queue handles ⟨fun _ => 0, 0⟩
    [creation, creation, .remove 0, creation]).1
  exact ⟨hunrepeated, by decide, by decide, by decide⟩

end LiveSet
end ScriptedActors
