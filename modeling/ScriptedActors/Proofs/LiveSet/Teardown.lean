import ScriptedActors.Proofs.Actor.Teardown
import ScriptedActors.Proofs.LiveSet.Accounting

set_option autoImplicit false

/-!
# Teardowns in a run

Whatever the handles answer, a run asks the handle of each actor at most once, an actor that was
constructed and refused is torn down, and a shutdown destroys every live actor and reports exactly
the handles that failed or panicked in it.
-/
namespace ScriptedActors

variable {σ : Type}

/-- A factory that constructs actors by the operations on actors alone. -/
def Factory.Honest (factory : Factory σ) : Prop :=
  ∀ supply kind location viewers a later,
    factory.construct supply kind location viewers = (.ok a, later) → a.Made

def Factory.queue : Factory (List (String × Handle)) where
  construct
    | [], kind, _, _ => (.error (.construction kind.name "none is left"), [])
    | (uniqueId, handle) :: rest, kind, location, viewers =>
      (.ok (.new uniqueId kind location viewers handle), rest)

theorem Factory.construct_queue {supply later : List (String × Handle)} {kind : EntityKind}
    {location : Location} {viewers : List String} {a : Actor}
    (h : Factory.queue.construct supply kind location viewers = (.ok a, later)) :
    ∃ uniqueId handle, a = .new uniqueId kind location viewers handle := by
  cases supply with
  | nil => simp [Factory.queue] at h
  | cons first rest =>
    obtain ⟨uniqueId, handle⟩ := first
    simp only [Factory.queue, Prod.mk.injEq, Except.ok.injEq] at h
    exact ⟨uniqueId, handle, h.1.symm⟩

theorem Factory.honest_queue : Factory.queue.Honest := by
  intro supply kind location viewers a later h
  obtain ⟨uniqueId, handle, rfl⟩ := Factory.construct_queue h
  exact .new ..

def LiveSet.Operation.Honest : LiveSet.Operation → Prop
  | .create _ _ _ _ prepare => ∀ a, a.Made → (prepare a).Made
  | _ => True

theorem Actor.teardowns_destroy (a : Actor) :
    a.destroy.teardowns = a.teardowns + if a.destroyed then 0 else 1 := by
  rw [Actor.destroy]
  cases a.destroyed with
  | true => rfl
  | false => rfl

theorem Actor.destroy_destroy (a : Actor) : a.destroy.destroy = a.destroy := by
  rw [Actor.destroy.eq_1 a.destroy, if_pos a.destroyed_destroy]

namespace LiveSet

theorem actor?_destroy (set : LiveSet σ) (identity other : Nat) :
    (set.destroy identity).actor? other =
      if other = identity then (set.actor? other).map Actor.destroy else set.actor? other :=
  actor?_visit set identity other _

theorem torn_destroy (set : LiveSet σ) (identity : Nat) :
    (set.destroy identity).torn =
      set.torn ++ ((set.actor? identity).map Actor.teardownLog).getD [] := by
  rw [destroy, visit]
  cases set.actor? identity with
  | none => exact (List.append_nil _).symm
  | some a => rfl

theorem actor?_tearDown (identities : List Nat) (set : LiveSet σ) (other : Nat) :
    (set.tearDown identities).2.actor? other =
      if other ∈ identities then (set.actor? other).map Actor.destroy else set.actor? other := by
  induction identities generalizing set with
  | nil => rfl
  | cons identity rest ih =>
    have hrest := ih (set.destroy identity)
    rw [actor?_destroy] at hrest
    refine hrest.trans ?_
    by_cases heq : other = identity
    · have htwice : Actor.destroy ∘ Actor.destroy = Actor.destroy := funext Actor.destroy_destroy
      simp [heq, htwice]
    · simp [heq]

theorem failures_tearDown {identities : List Nat} (hnodup : identities.Nodup) (set : LiveSet σ) :
    (set.tearDown identities).1 =
      identities.filterMap fun identity => (set.actor? identity).bind Actor.teardownFailure := by
  induction identities generalizing set with
  | nil => rfl
  | cons identity rest ih =>
    obtain ⟨hnotMem, hrest⟩ := List.nodup_cons.mp hnodup
    -- Tearing the first one down does not touch the others.
    have hothers : ∀ other ∈ rest, ((set.destroy identity).actor? other).bind Actor.teardownFailure =
        (set.actor? other).bind Actor.teardownFailure := by
      intro other hother
      rw [actor?_destroy, if_neg (ne_of_mem_of_not_mem hother hnotMem)]
    have hlater := ih hrest (set.destroy identity)
    rw [List.filterMap_congr hothers] at hlater
    rw [List.filterMap_cons]
    change ((set.actor? identity).bind Actor.teardownFailure).toList ++
      ((set.destroy identity).tearDown rest).1 = _
    rw [hlater]
    cases (set.actor? identity).bind Actor.teardownFailure with
    | none => rfl
    | some error => rfl

theorem torn_tearDown {identities : List Nat} (hnodup : identities.Nodup) (set : LiveSet σ) :
    (set.tearDown identities).2.torn =
      set.torn ++ (identities.filterMap set.actor?).flatMap Actor.teardownLog := by
  induction identities generalizing set with
  | nil => exact (List.append_nil _).symm
  | cons identity rest ih =>
    obtain ⟨hnotMem, hrest⟩ := List.nodup_cons.mp hnodup
    have hothers : ∀ other ∈ rest, (set.destroy identity).actor? other = set.actor? other := by
      intro other hother
      rw [actor?_destroy, if_neg (ne_of_mem_of_not_mem hother hnotMem)]
    have hlater := ih hrest (set.destroy identity)
    rw [List.filterMap_congr hothers, torn_destroy] at hlater
    refine hlater.trans ?_
    rw [List.filterMap_cons, List.append_assoc]
    cases set.actor? identity with
    | none => rfl
    | some a => rfl

theorem flatMap_teardownLog (actors : List Actor) :
    actors.flatMap Actor.teardownLog =
      (actors.filter fun a => !a.destroyed).map Actor.uniqueId := by
  induction actors with
  | nil => rfl
  | cons a rest ih =>
    rw [List.flatMap_cons, ih, Actor.teardownLog]
    cases hdestroyed : a.destroyed with
    | true => simp [hdestroyed]
    | false => simp [hdestroyed]

theorem filterMap_teardownFailure (actors : List Actor) :
    actors.filterMap Actor.teardownFailure =
      (actors.filter fun a => !a.destroyed).filterMap Actor.handleFailure := by
  rw [List.filterMap_filter]
  refine List.filterMap_congr ?_
  intro a _
  rw [Actor.teardownFailure_eq]
  cases a.destroyed with
  | true => rfl
  | false => rfl

def standing (set : LiveSet σ) : List Actor := set.liveActors.filter fun a => !a.destroyed

theorem failures_shutdown {set : LiveSet σ} (hnodup : set.live.Nodup) :
    set.shutdown.1.failures = set.standing.filterMap Actor.handleFailure := by
  rw [standing, ← filterMap_teardownFailure, liveActors, List.filterMap_filterMap]
  exact failures_tearDown hnodup { set with closed := true, live := [] }

theorem torn_shutdown {set : LiveSet σ} (hnodup : set.live.Nodup) :
    set.shutdown.2.torn = set.torn ++ set.standing.map Actor.uniqueId := by
  rw [standing, ← flatMap_teardownLog]
  exact torn_tearDown hnodup { set with closed := true, live := [] }

theorem actor?_shutdown (set : LiveSet σ) (identity : Nat) :
    set.shutdown.2.actor? identity =
      if identity ∈ set.live then (set.actor? identity).map Actor.destroy else set.actor? identity :=
  actor?_tearDown set.live { set with closed := true, live := [] } identity

/-- Every actor that is there afterwards was there before, and follows what it was. -/
def Tends (set after : LiveSet σ) : Prop :=
  ∀ identity b, after.actor? identity = some b → ∃ a, set.actor? identity = some a ∧ a.Follows b

theorem Tends.refl (set : LiveSet σ) : Tends set set := fun _ b h => ⟨b, h, .refl b⟩

theorem Tends.trans {set middle after : LiveSet σ} (h : Tends set middle) (k : Tends middle after) :
    Tends set after := by
  intro identity c hc
  obtain ⟨b, hb, hbc⟩ := k identity c hc
  obtain ⟨a, ha, hab⟩ := h identity b hb
  exact ⟨a, ha, hab.trans hbc⟩

theorem tends_visit {α : Type} (set : LiveSet σ) (identity : Nat) {act : Scene → α × Scene}
    (hact : ∀ s, Actor.Follows s.actor (act s).2.actor) : Tends set (set.visit identity act).2 := by
  intro other b hb
  rw [actor?_visit] at hb
  split at hb
  · obtain ⟨a, ha, rfl⟩ := Option.map_eq_some_iff.mp hb
    exact ⟨a, ha, hact (set.scene a)⟩
  · exact ⟨b, hb, .refl b⟩

theorem tends_tearDown (identities : List Nat) (set : LiveSet σ) :
    Tends set (set.tearDown identities).2 := by
  induction identities generalizing set with
  | nil => exact .refl set
  | cons identity rest ih =>
    exact (tends_visit set identity fun s => s.actor.follows_destroy).trans (ih _)

theorem tends_tickEach (host : Host) (identities : List Nat) (set : LiveSet σ) :
    Tends set (tickEach host identities set).2 := by
  induction identities generalizing set with
  | nil => exact .refl set
  | cons identity rest ih =>
    have hvisit := tends_visit set identity fun s => Scene.frame_follows.tick host s
    rw [tickEach]
    cases hresult : set.visit identity (Scene.tick host) with
    | mk panicked after =>
      rw [hresult] at hvisit
      rcases panicked with _ | _ | _
      · exact hvisit.trans (ih after)
      · exact hvisit.trans (ih after)
      · exact hvisit

theorem actors_refused (set : LiveSet σ) (a : Actor) :
    ({ set with actors := set.actors ++ [a] }.destroy set.actors.length).actors =
      set.actors ++ [a.destroy] := by
  have hactor : { set with actors := set.actors ++ [a] }.actor? set.actors.length = some a := by
    simp [actor?]
  rw [destroy, visit, hactor]
  exact List.set_append_right _ _ (Nat.le_refl _) |>.trans (by simp [Scene.destroy, scene])

theorem actors_enter (set : LiveSet σ) (a : Actor) :
    ((set.enter a).1 = .ok set.actors.length ∧ (set.enter a).2.actors = set.actors ++ [a]) ∨
      ((∃ error, (set.enter a).1 = .error error) ∧
        (set.enter a).2.actors = set.actors ++ [a.destroy]) := by
  rw [enter]
  split
  · exact .inr ⟨⟨_, rfl⟩, actors_refused set a⟩
  · split
    · exact .inr ⟨⟨_, rfl⟩, actors_refused set a⟩
    · exact .inl ⟨rfl, rfl⟩

theorem create_of_construct {set : LiveSet σ} {host : Host} {kind : EntityKind} {location : Location}
    {viewers : Option (List String)} {a : Actor} {supply : σ}
    (h : set.factory.construct set.supply kind location (viewers.getD (host.observers location)) =
      (.ok a, supply)) (prepare : Actor → Actor) :
    set.create host kind location viewers prepare = { set with supply := supply }.enter (prepare a) := by
  rw [create, h]

/-- An actor that a step adds: it is admitted under its identity, or it is destroyed. -/
def Step.Adds (s : Step) (identity : Nat) (a : Actor) : Prop :=
  a.Counted ∧ (a.destroyed = true ∨ ∃ i, s.admitted = some i ∧ i.identity = identity)

theorem adds_create {set : LiveSet σ} (hfactory : set.factory.Honest) {host : Host} {kind : EntityKind}
    {location : Location} {viewers : Option (List String)} {prepare : Actor → Actor}
    (hprepare : ∀ a, a.Made → (prepare a).Made) {identity : Nat} {b : Actor}
    (hb : (set.create host kind location viewers prepare).2.actor? identity = some b) :
    set.actor? identity = some b ∨
      Step.Adds ⟨.create host kind location viewers prepare,
        (set.perform (.create host kind location viewers prepare)).1⟩ identity b := by
  cases hconstruct : set.factory.construct set.supply kind location
      (viewers.getD (host.observers location)) with
  | mk made supply =>
    cases made with
    | error error =>
      rw [create, hconstruct] at hb
      exact .inl hb
    | ok a =>
      have hmade := hprepare a (hfactory _ _ _ _ _ _ hconstruct)
      have hcreate := create_of_construct hconstruct prepare
      -- The actors are those before, with one more at the end.
      have hlast {last : Actor} (h : (set.create host kind location viewers prepare).2.actors =
          set.actors ++ [last]) : set.actor? identity = some b ∨
            identity = set.actors.length ∧ b = last := by
        rw [actor?, h, List.getElem?_append] at hb
        split at hb
        · exact .inl hb
        · obtain ⟨hlt, hb⟩ := List.getElem?_eq_some_iff.mp hb
          simp only [List.length_singleton, Nat.lt_one_iff] at hlt
          exact .inr ⟨by omega, by rw [← hb]; simp⟩
      rcases actors_enter { set with supply := supply } (prepare a) with
        ⟨hreply, hactors⟩ | ⟨⟨error, -⟩, hactors⟩
      · rw [← hcreate] at hreply hactors
        refine (hlast hactors).imp id ?_
        rintro ⟨rfl, rfl⟩
        refine ⟨hmade.counted, .inr ?_⟩
        have hactor : (set.create host kind location viewers prepare).2.actor? set.actors.length =
            some (prepare a) := hb
        cases hresult : set.create host kind location viewers prepare with
        | mk reply after =>
          rw [hresult] at hreply hactor
          dsimp only at hreply hactor
          subst hreply
          exact ⟨⟨_, (prepare a).id, (prepare a).uniqueId⟩,
            by simp [LiveSet.perform, hresult, Step.admitted, instance?, hactor], rfl⟩
      · rw [← hcreate] at hactors
        refine (hlast hactors).imp id ?_
        rintro ⟨rfl, rfl⟩
        exact ⟨hmade.counted.destroy, .inl (prepare a).destroyed_destroy⟩

theorem tends_or_adds_perform {set : LiveSet σ} (hfactory : set.factory.Honest) {operation : Operation}
    (hoperation : operation.Honest) {identity : Nat} {b : Actor}
    (hb : (set.perform operation).2.actor? identity = some b) :
    (∃ a, set.actor? identity = some a ∧ a.Follows b) ∨
      Step.Adds ⟨operation, (set.perform operation).1⟩ identity b := by
  cases operation with
  | create host kind location viewers prepare =>
    rw [perform_create] at hb
    exact (adds_create hfactory hoperation hb).imp (fun h => ⟨b, h, .refl b⟩) id
  | remove other => exact .inl ⟨b, hb, .refl b⟩
  | act other effect =>
    exact .inl (tends_visit set other (fun s => Scene.frame_follows.act s effect) identity b hb)
  | tickAll host => exact .inl (tends_tickEach host set.live set identity b hb)
  | shutdown =>
    exact .inl (tends_tearDown set.live { set with closed := true, live := [] } identity b hb)

theorem settled_run {set : LiveSet σ} (hfactory : set.factory.Honest) {operations : List Operation}
    (hoperations : ∀ operation ∈ operations, operation.Honest) {admitted : Nat → Prop}
    (hset : ∀ identity a, set.actor? identity = some a →
      a.Counted ∧ (a.destroyed = true ∨ admitted identity)) {identity : Nat} {b : Actor}
    (hb : (set.run operations).2.actor? identity = some b) :
    b.Counted ∧ (b.destroyed = true ∨ admitted identity ∨
      ∃ step ∈ (set.run operations).1, ∃ i, step.admitted = some i ∧ i.identity = identity) := by
  induction operations generalizing set admitted with
  | nil => exact (hset identity b hb).imp id (Or.imp id .inl)
  | cons operation operations ih =>
    obtain ⟨hoperation, hoperations⟩ := List.forall_mem_cons.mp hoperations
    have hrules : (set.perform operation).2.factory = set.factory :=
      congrArg Prod.fst (rules_perform set operation)
    have hafter : (set.perform operation).2.factory.Honest := by rwa [hrules]
    have hstep (other : Nat) (c : Actor) (hc : (set.perform operation).2.actor? other = some c) :
        c.Counted ∧ (c.destroyed = true ∨ admitted other ∨
          ∃ i, Step.admitted ⟨operation, (set.perform operation).1⟩ = some i ∧ i.identity = other) := by
      rcases tends_or_adds_perform hfactory hoperation hc with ⟨a, ha, hfollows⟩ | ⟨hcounted, hadded⟩
      · obtain ⟨hcounted, hsettled⟩ := hset other a ha
        exact ⟨hfollows.counted hcounted, hsettled.imp hfollows.destroyed .inl⟩
      · exact ⟨hcounted, hadded.imp id .inr⟩
    obtain ⟨hcounted, hsettled⟩ := ih hafter hoperations hstep hb
    refine ⟨hcounted, hsettled.imp id ?_⟩
    rintro ((hbefore | ⟨i, hi⟩) | ⟨step, hstep, hi⟩)
    · exact .inl hbefore
    · exact .inr ⟨_, List.mem_cons_self, i, hi⟩
    · exact .inr ⟨step, List.mem_cons_of_mem _ hstep, hi⟩

structure TornDown (record : List Step) (set : LiveSet σ) : Prop where
  asked_once : ∀ a ∈ set.actors, a.teardowns = if a.destroyed then 1 else 0
  admitted_or_destroyed : ∀ {identity a}, set.actor? identity = some a → a.destroyed = true ∨
    ∃ step ∈ record, ∃ i, step.admitted = some i ∧ i.identity = identity
  refused : ∀ {host kind location viewers prepare a supply error after},
    set.factory.construct set.supply kind location (viewers.getD (host.observers location)) =
      (.ok a, supply) →
    set.create host kind location viewers prepare = (.error error, after) →
      after.actors = set.actors ++ [(prepare a).destroy]
  removed : ∀ identity, (set.remove identity).2.actors = set.actors ∧
    (set.remove identity).2.torn = set.torn
  shutdown_live : ∀ identity ∈ set.live, ∃ a b, set.actor? identity = some a ∧
    set.shutdown.2.actor? identity = some b ∧ b.destroyed = true ∧
      b.teardowns = a.teardowns + if a.destroyed then 0 else 1
  shutdown_others : ∀ identity, identity ∉ set.live →
    set.shutdown.2.actor? identity = set.actor? identity
  shutdown_torn : set.shutdown.2.torn = set.torn ++ set.standing.map Actor.uniqueId
  attempted : set.shutdown.1.attempted = set.live.length
  failures : set.shutdown.1.failures = set.standing.filterMap Actor.handleFailure
  failures_teardown : ∀ error ∈ set.shutdown.1.failures, ∃ uniqueId detail,
    error = .teardown uniqueId detail
  failures_le : set.shutdown.1.failures.length ≤ set.shutdown.1.attempted
  in_order : set.live.Pairwise (· < ·)

/-- In every run an actor is asked to tear down once if it is destroyed and never otherwise, and a
shutdown destroys every live actor whatever the handles of the others did. -/
theorem tornDown_run {factory : Factory σ} (hfactory : factory.Honest) (supply : σ)
    (enforcesUniqueIds : Bool) (draws : Draws) {operations : List Operation}
    (hoperations : ∀ operation ∈ operations, operation.Honest) :
    TornDown ((empty factory supply enforcesUniqueIds draws).run operations).1
      ((empty factory supply enforcesUniqueIds draws).run operations).2 := by
  have hkept := (kept_empty factory supply enforcesUniqueIds draws).run operations
  have hsettled := @settled_run _ (empty factory supply enforcesUniqueIds draws) hfactory operations
    hoperations (fun _ => False) (by simp [empty, actor?])
  generalize (empty factory supply enforcesUniqueIds draws).run operations = result at *
  obtain ⟨record, set⟩ := result
  dsimp only at *
  have hnodup := hkept.nodup
  have hfailures := failures_shutdown hnodup
  refine ⟨?_, ?_, ?_, fun _ => ⟨rfl, rfl⟩, ?_, ?_, torn_shutdown hnodup, rfl, hfailures, ?_, ?_,
    hkept.ordered⟩
  · intro a ha
    obtain ⟨identity, ha⟩ := List.mem_iff_getElem?.mp ha
    exact (hsettled ha).1
  · intro identity a ha
    exact (hsettled ha).2.imp id (Or.resolve_left · id)
  · intro _ _ _ _ prepare a _ error after hconstruct hcreate
    rw [create_of_construct hconstruct] at hcreate
    rcases actors_enter _ (prepare a) with ⟨hreply, -⟩ | ⟨-, hactors⟩
    · rw [hcreate] at hreply
      cases hreply
    · rwa [hcreate] at hactors
  · intro identity hlive
    obtain ⟨i, hi, -⟩ := instance?_isSome set (hkept.known identity hlive)
    obtain ⟨a, ha, -⟩ := Option.map_eq_some_iff.mp hi
    refine ⟨a, a.destroy, ha, ?_, a.destroyed_destroy, a.teardowns_destroy⟩
    rw [actor?_shutdown, if_pos hlive, ha]
    rfl
  · intro identity hlive
    rw [actor?_shutdown, if_neg hlive]
  · intro error herror
    rw [hfailures] at herror
    obtain ⟨a, -, ha⟩ := List.mem_filterMap.mp herror
    exact Actor.handleFailure_eq_some ha
  · rw [hfailures]
    calc (set.standing.filterMap Actor.handleFailure).length
        ≤ set.standing.length := List.length_filterMap_le _ _
      _ ≤ set.liveActors.length := List.length_filter_le _ _
      _ ≤ set.live.length := List.length_filterMap_le _ _

/-- Three actors are constructed. The second one has the unique id of the first and is refused; the
first one is destroyed before the shutdown. Every handle panics. -/
theorem tornDown_panicking :
    let handles : List (String × Handle) :=
      [("a", fun _ => .panicked), ("a", fun _ => .panicked), ("b", fun _ => .panicked)]
    let creation := Operation.create .detached ⟨"PIG"⟩ ⟨"world", 0, 64, 0, 0, 0⟩ none fun a => a
    let operations := [creation, creation, .act 0 .destroy, creation]
    let run := (empty Factory.queue handles true ⟨fun _ => 0, 0⟩).run operations
    Factory.queue.Honest ∧ (∀ operation ∈ operations, operation.Honest) ∧ TornDown run.1 run.2 ∧
      run.2.torn = ["a", "a"] ∧ run.2.shutdown.1.attempted = 2 ∧
      run.2.shutdown.1.failures = [.teardown "b" "teardown panicked"] := by
  intro handles creation operations run
  have hcreation : creation.Honest := fun _ h => h
  have hoperations : ∀ operation ∈ operations, operation.Honest := by
    simp only [operations, List.forall_mem_cons]
    exact ⟨hcreation, hcreation, trivial, hcreation, by simp⟩
  have htornDown := tornDown_run Factory.honest_queue handles true ⟨fun _ => 0, 0⟩ hoperations
  refine ⟨Factory.honest_queue, hoperations, htornDown, by decide, htornDown.attempted, ?_⟩
  exact htornDown.failures.trans (by decide)

end LiveSet
end ScriptedActors
