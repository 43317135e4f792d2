import Mathlib.Data.List.Basic
import ScriptedActors.Proofs.LiveSet.Roll

set_option autoImplicit false

/-!
# Accounting for the live actors of a run

A run is any sequence of operations on a new live set. Its record holds what was asked for and
what was answered, and by the record alone it is known which actors are live: those that were
created, without those that a later removal took out or that came before a shutdown.
-/
namespace ScriptedActors

namespace LiveSet
variable {σ : Type}

inductive Operation where
  | create (host : Host) (kind : EntityKind) (location : Location) (viewers : Option (List String))
      (prepare : Actor → Actor)
  | remove (identity : Nat)
  /-- Destroy an actor, change its viewers, its state or its controllers, or tick it. -/
  | act (identity : Nat) (effect : Effect)
  | tickAll (host : Host)
  | shutdown

/-- An actor as its creator knows it. -/
structure Instance where
  identity : Nat
  id : String
  uniqueId : String
deriving DecidableEq

def instance? (set : LiveSet σ) (identity : Nat) : Option Instance :=
  (set.actor? identity).map fun a => ⟨identity, a.id, a.uniqueId⟩

inductive Reply where
  | created (created : Option Instance)
  | refused (error : ActorError)
  | removed (wasLive : Bool)
  | done

def perform (set : LiveSet σ) : Operation → Reply × LiveSet σ
  | .create host kind location viewers prepare =>
    match set.create host kind location viewers prepare with
    | (.ok identity, after) => (.created (after.instance? identity), after)
    | (.error error, after) => (.refused error, after)
  | .remove identity =>
    let (wasLive, after) := set.remove identity
    (.removed wasLive, after)
  | .act identity effect => (.done, (set.visit identity fun s => s.act effect).2)
  | .tickAll host => (.done, (set.tickAll host).2)
  | .shutdown => (.done, set.shutdown.2)

structure Step where
  operation : Operation
  reply : Reply

def run (set : LiveSet σ) : List Operation → List Step × LiveSet σ
  | [] => ([], set)
  | operation :: operations =>
    let (reply, after) := set.perform operation
    let (record, last) := after.run operations
    (⟨operation, reply⟩ :: record, last)

namespace Step

def admitted (s : Step) : Option Instance :=
  match s.reply with
  | .created created => created
  | _ => none

def drops (s : Step) (i : Instance) : Bool :=
  match s.operation, s.reply with
  | .remove identity, .removed true => identity == i.identity
  | .shutdown, _ => true
  | _, _ => false

end Step

/-- The actors that a record leaves live, in the order of their creation. -/
def surviving : List Step → List Instance
  | [] => []
  | s :: later => (s.admitted.toList.filter fun i => !later.any (·.drops i)) ++ surviving later

def listed (set : LiveSet σ) : List Instance := set.live.filterMap set.instance?

structure Kept (set : LiveSet σ) : Prop where
  ordered : set.live.Pairwise (· < ·)
  known : ∀ identity ∈ set.live, identity < set.names.length
  closed : set.closed = true → set.live = []

theorem Kept.nodup {set : LiveSet σ} (h : Kept set) : set.live.Nodup :=
  h.ordered.imp fun hlt => Nat.ne_of_lt hlt

theorem Kept.lt_actors {set : LiveSet σ} (h : Kept set) :
    ∀ identity ∈ set.live, identity < set.actors.length :=
  fun identity hidentity => length_names set ▸ h.known identity hidentity

theorem instance?_eq_names (set : LiveSet σ) (identity : Nat) :
    set.instance? identity = (set.names[identity]?).map fun n => ⟨identity, n.1, n.2⟩ := by
  simp only [instance?, actor?, names, List.getElem?_map, Option.map_map]
  rfl

theorem instance?_of_names_append {set after : LiveSet σ} {more : List (String × String)}
    (h : after.names = set.names ++ more) {identity : Nat} (hlt : identity < set.names.length) :
    after.instance? identity = set.instance? identity := by
  rw [instance?_eq_names, instance?_eq_names, h, List.getElem?_append_left hlt]

theorem instance?_isSome (set : LiveSet σ) {identity : Nat} (hlt : identity < set.names.length) :
    ∃ i, set.instance? identity = some i ∧ i.identity = identity := by
  rw [instance?_eq_names, List.getElem?_eq_getElem hlt]
  exact ⟨_, rfl, rfl⟩

theorem identity_of_instance? {set : LiveSet σ} {identity : Nat} {i : Instance}
    (h : set.instance? identity = some i) : i.identity = identity := by
  obtain ⟨a, -, rfl⟩ := Option.map_eq_some_iff.mp h
  rfl

theorem Kept.listed_congr {set after : LiveSet σ} (hset : Kept set) {more : List (String × String)}
    (hnames : after.names = set.names ++ more) : set.live.filterMap after.instance? = set.listed := by
  refine List.filterMap_congr ?_
  intro identity hidentity
  exact instance?_of_names_append hnames (hset.known identity hidentity)

theorem Kept.of_sameRoll {set after : LiveSet σ} (hset : Kept set) (h : SameRoll set after) :
    Kept after := by
  refine ⟨?_, ?_, ?_⟩
  · rw [h.live]
    exact hset.ordered
  · rw [h.live, h.names]
    exact hset.known
  · rw [h.live, h.closed]
    exact hset.closed

theorem listed_of_sameRoll {set after : LiveSet σ} (hset : Kept set) (h : SameRoll set after) :
    after.listed = set.listed := by
  rw [listed, h.live]
  exact hset.listed_congr (by rw [h.names, List.append_nil])

theorem shutdown_live (set : LiveSet σ) : set.shutdown.2.live = [] :=
  (sameRoll_tearDown set.live { set with closed := true, live := [] }).live

theorem Kept.of_refused {set : LiveSet σ} (hset : Kept set) {result : Except ActorError Nat × LiveSet σ}
    (h : Refused set result) : Kept result.2 := by
  obtain ⟨-, hlive, hclosed, more, hnames⟩ := h
  refine ⟨?_, ?_, ?_⟩
  · rw [hlive]
    exact hset.ordered
  · intro identity hidentity
    rw [hlive] at hidentity
    have hknown := hset.known identity hidentity
    rw [hnames, List.length_append]
    omega
  · rw [hlive, hclosed]
    exact hset.closed

theorem Kept.of_admitted {set : LiveSet σ} (hset : Kept set) {result : Except ActorError Nat × LiveSet σ}
    (h : Admitted set result) : Kept result.2 := by
  obtain ⟨-, hopen, hlive, hclosed, name, hnames⟩ := h
  refine ⟨?_, ?_, ?_⟩
  · rw [hlive, List.pairwise_append]
    refine ⟨hset.ordered, List.pairwise_singleton _ _, ?_⟩
    intro identity hidentity fresh hfresh
    rw [List.mem_singleton.mp hfresh]
    exact hset.known identity hidentity
  · intro identity hidentity
    rw [hnames, List.length_append, List.length_singleton]
    rw [hlive, List.mem_append, List.mem_singleton] at hidentity
    rcases hidentity with hold | rfl
    · have hknown := hset.known identity hold
      omega
    · omega
  · rw [hclosed, hopen]
    exact fun h => absurd h (by decide)

theorem Kept.remove {set : LiveSet σ} (hset : Kept set) (identity : Nat) :
    Kept (set.remove identity).2 := by
  refine ⟨hset.ordered.filter _, ?_, ?_⟩
  · intro other hother
    exact hset.known other (List.mem_filter.mp hother).1
  · intro hclosed
    simp only [LiveSet.remove, hset.closed hclosed, List.filter_nil]

theorem Kept.shutdown (set : LiveSet σ) : Kept set.shutdown.2 := by
  refine ⟨?_, ?_, ?_⟩
  · rw [shutdown_live]
    exact List.Pairwise.nil
  · rw [shutdown_live]
    intro identity hidentity
    simp at hidentity
  · exact fun _ => shutdown_live set

theorem perform_create (set : LiveSet σ) (host : Host) (kind : EntityKind) (location : Location)
    (viewers : Option (List String)) (prepare : Actor → Actor) :
    (set.perform (.create host kind location viewers prepare)).2 =
      (set.create host kind location viewers prepare).2 := by
  rw [LiveSet.perform]
  cases set.create host kind location viewers prepare with
  | mk reply after =>
    cases reply with
    | ok identity => rfl
    | error error => rfl

theorem rules_perform (set : LiveSet σ) (operation : Operation) :
    (set.perform operation).2.rules = set.rules := by
  cases operation with
  | create host kind location viewers prepare =>
    rw [perform_create]
    exact rules_create set host kind location viewers prepare
  | remove identity => rfl
  | act identity effect => exact rules_visit set identity _
  | tickAll host => exact rules_tickEach host set.live set
  | shutdown => exact rules_tearDown set.live { set with closed := true, live := [] }

theorem rules_run (set : LiveSet σ) (operations : List Operation) :
    (set.run operations).2.rules = set.rules := by
  induction operations generalizing set with
  | nil => rfl
  | cons operation operations ih => exact (ih _).trans (rules_perform set operation)

theorem Kept.create {set : LiveSet σ} (hset : Kept set) (host : Host) (kind : EntityKind)
    (location : Location) (viewers : Option (List String)) (prepare : Actor → Actor) :
    Kept (set.create host kind location viewers prepare).2 :=
  (refused_or_admitted_create set host kind location viewers prepare).elim
    hset.of_refused hset.of_admitted

theorem Kept.perform {set : LiveSet σ} (hset : Kept set) (operation : Operation) :
    Kept (set.perform operation).2 := by
  cases operation with
  | create host kind location viewers prepare =>
    rw [perform_create]
    exact hset.create host kind location viewers prepare
  | remove identity => exact hset.remove identity
  | act identity effect =>
    exact hset.of_sameRoll (sameRoll_visit set identity fun s => Scene.frame_sameNames.act s effect)
  | tickAll host => exact hset.of_sameRoll (sameRoll_tickAll set host)
  | shutdown => exact Kept.shutdown set

theorem listed_remove (set : LiveSet σ) (identity : Nat) :
    (set.remove identity).2.listed = set.listed.filter fun i => i.identity != identity := by
  rw [listed, listed, List.filter_filterMap]
  simp only [LiveSet.remove, List.filterMap_filter]
  congr 1
  funext other
  change (if (other != identity) = true then set.instance? other else none) = _
  cases hother : set.instance? other with
  | none => simp
  | some i =>
    rw [Option.filter_some, identity_of_instance? hother]

theorem remove_false (set : LiveSet σ) (identity : Nat) (h : (set.remove identity).1 = false) :
    (set.remove identity).2.live = set.live := by
  simp only [LiveSet.remove, bne_eq_false_iff_eq] at h
  exact List.length_filter_eq_length_iff.mp h |> List.filter_eq_self.mpr

theorem remove_eq_true_iff (set : LiveSet σ) (identity : Nat) :
    (set.remove identity).1 = true ↔ identity ∈ set.live := by
  simp only [LiveSet.remove, bne_iff_ne, ne_eq, List.length_filter_eq_length_iff]
  simp

theorem listed_create {set : LiveSet σ} (hset : Kept set) (host : Host) (kind : EntityKind)
    (location : Location) (viewers : Option (List String)) (prepare : Actor → Actor) :
    (set.perform (.create host kind location viewers prepare)).2.listed =
      set.listed ++ (Step.admitted ⟨.create host kind location viewers prepare,
        (set.perform (.create host kind location viewers prepare)).1⟩).toList := by
  have hcreate := refused_or_admitted_create set host kind location viewers prepare
  rw [LiveSet.perform]
  cases hresult : set.create host kind location viewers prepare with
  | mk reply after =>
    rw [hresult] at hcreate
    rcases hcreate with ⟨⟨error, rfl⟩, hlive, -, more, hnames⟩ | ⟨rfl, -, hlive, -, name, hnames⟩
    · have hlisted : after.listed = set.listed := by
        rw [listed, hlive]
        exact hset.listed_congr hnames
      simp [Step.admitted, hlisted]
    · have hfresh : after.instance? set.names.length =
          some ⟨set.names.length, name.1, name.2⟩ := by
        rw [instance?_eq_names, hnames]
        simp
      have hlisted : after.listed = set.listed ++ [⟨set.names.length, name.1, name.2⟩] := by
        rw [listed, hlive, List.filterMap_append, hset.listed_congr hnames]
        simp [hfresh]
      simp [Step.admitted, hlisted, hfresh]

/-- One step: what it drops is gone, and what it admits stands last. -/
theorem listed_perform {set : LiveSet σ} (hset : Kept set) (operation : Operation) :
    (set.perform operation).2.listed =
      (set.listed.filter fun i => !Step.drops ⟨operation, (set.perform operation).1⟩ i) ++
        (Step.admitted ⟨operation, (set.perform operation).1⟩).toList := by
  cases operation with
  | create host kind location viewers prepare =>
    rw [listed_create hset]
    simp [Step.drops]
  | remove identity =>
    have hperform : set.perform (.remove identity) =
        (.removed (set.remove identity).1, (set.remove identity).2) := rfl
    rw [hperform]
    cases hremoved : (set.remove identity).1 with
    | true =>
      rw [listed_remove]
      simp [Step.drops, Step.admitted, bne, Bool.beq_comm]
    | false =>
      have hlisted : (set.remove identity).2.listed = set.listed := by
        rw [listed, remove_false set identity hremoved]
        rfl
      simp [Step.drops, Step.admitted, hlisted]
  | act identity effect =>
    have hact := sameRoll_visit set identity fun s => Scene.frame_sameNames.act s effect
    have hlisted := listed_of_sameRoll hset hact
    simpa [LiveSet.perform, Step.drops, Step.admitted] using hlisted
  | tickAll host =>
    have hlisted := listed_of_sameRoll hset (sameRoll_tickAll set host)
    simpa [LiveSet.perform, Step.drops, Step.admitted] using hlisted
  | shutdown =>
    have hlive := shutdown_live set
    simp [LiveSet.perform, Step.drops, Step.admitted, listed, hlive]

theorem Kept.run {set : LiveSet σ} (hset : Kept set) (operations : List Operation) :
    Kept (set.run operations).2 := by
  induction operations generalizing set with
  | nil => exact hset
  | cons operation operations ih => exact ih (hset.perform operation)

theorem listed_run {set : LiveSet σ} (hset : Kept set) (operations : List Operation) :
    (set.run operations).2.listed =
      (set.listed.filter fun i => !(set.run operations).1.any (·.drops i)) ++
        surviving (set.run operations).1 := by
  induction operations generalizing set with
  | nil => simp [LiveSet.run, surviving]
  | cons operation operations ih =>
    have hrun : set.run (operation :: operations) =
        (⟨operation, (set.perform operation).1⟩ :: ((set.perform operation).2.run operations).1,
          ((set.perform operation).2.run operations).2) := rfl
    rw [hrun, ih (hset.perform operation), listed_perform hset, List.filter_append, List.filter_filter,
      surviving, List.append_assoc]
    congr 2
    funext i
    rw [List.any_cons, Bool.not_or, Bool.and_comm]

theorem closed_perform {set : LiveSet σ} {operation : Operation}
    (h : set.closed = true ∨ operation = .shutdown) : (set.perform operation).2.closed = true := by
  cases operation with
  | create host kind location viewers prepare =>
    have hset : set.closed = true := h.resolve_right (by simp)
    rw [perform_create, closed_create, hset]
  | remove identity => exact h.resolve_right (by simp)
  | act identity effect =>
    have hact := sameRoll_visit set identity fun s => Scene.frame_sameNames.act s effect
    exact hact.closed.trans (h.resolve_right (by simp))
  | tickAll host => exact (sameRoll_tickAll set host).closed.trans (h.resolve_right (by simp))
  | shutdown => exact (sameRoll_tearDown set.live { set with closed := true, live := [] }).closed

theorem closed_run {set : LiveSet σ} {operations : List Operation}
    (h : set.closed = true ∨ .shutdown ∈ operations) : (set.run operations).2.closed = true := by
  induction operations generalizing set with
  | nil => exact h.resolve_right (by simp)
  | cons operation operations ih =>
    apply ih
    rcases h with hclosed | hmem
    · exact .inl (closed_perform (.inl hclosed))
    · rcases List.mem_cons.mp hmem with heq | hmem
      · exact .inl (closed_perform (.inr heq.symm))
      · exact .inr hmem

/-- What the record of a run tells about the live set that it ends with. -/
structure Accounted (operations : List Operation) (record : List Step) (set : LiveSet σ) : Prop where
  live : set.live = (surviving record).map Instance.identity
  nodup : set.live.Nodup
  create_ok : ∀ {host kind location viewers prepare identity after},
    set.create host kind location viewers prepare = (.ok identity, after) →
      identity ∉ set.live ∧ after.live = set.live ++ [identity]
  create_error : ∀ {host kind location viewers prepare error after},
    set.create host kind location viewers prepare = (.error error, after) → after.live = set.live
  remove_true : ∀ identity, (set.remove identity).1 = true ↔ identity ∈ set.live
  remove_live : ∀ identity, (set.remove identity).2.live = set.live.erase identity
  remove_actors : ∀ identity, (set.remove identity).2.actors = set.actors
  shutdown : .shutdown ∈ operations → set.live = [] ∧
    ∀ host kind location viewers prepare, ∃ error,
      (set.create host kind location viewers prepare).1 = .error error
  findById : ∀ id, set.findById id =
    ((surviving record).filter fun i => i.id == id).map Instance.identity
  findByUniqueId : ∀ uniqueId, set.findByUniqueId uniqueId =
    ((surviving record).filter fun i => i.uniqueId == uniqueId).map Instance.identity

theorem kept_empty (factory : Factory σ) (supply : σ) (enforcesUniqueIds : Bool) (draws : Draws) :
    Kept (empty factory supply enforcesUniqueIds draws) :=
  ⟨List.Pairwise.nil, by simp [empty], fun _ => rfl⟩

theorem Kept.live_eq {set : LiveSet σ} (hset : Kept set) :
    set.live = set.listed.map Instance.identity := by
  have hknown : ∀ identity ∈ set.live,
      (set.instance? identity).map Instance.identity = some identity := by
    intro identity hidentity
    obtain ⟨i, hi, rfl⟩ := instance?_isSome set (hset.known identity hidentity)
    rw [hi]
    rfl
  rw [listed, List.map_filterMap, List.filterMap_congr hknown, List.filterMap_some]

theorem identitiesWhere_eq (set : LiveSet σ) (p : Actor → Bool) (q : Instance → Bool)
    (hpq : ∀ identity a, q ⟨identity, a.id, a.uniqueId⟩ = p a) :
    set.identitiesWhere p = (set.listed.filter q).map Instance.identity := by
  rw [identitiesWhere, listed, List.filter_filterMap, List.map_filterMap, ← List.filterMap_eq_filter]
  congr 1
  funext identity
  rw [instance?, Option.guard]
  cases set.actor? identity with
  | none => rfl
  | some a =>
    rw [Option.map_some, Option.filter_some, hpq, Option.any_some]
    cases p a with
    | true => rfl
    | false => rfl

theorem accounted_run (factory : Factory σ) (supply : σ) (enforcesUniqueIds : Bool) (draws : Draws)
    (operations : List Operation) :
    Accounted operations ((empty factory supply enforcesUniqueIds draws).run operations).1
      ((empty factory supply enforcesUniqueIds draws).run operations).2 := by
  have hkept := (kept_empty factory supply enforcesUniqueIds draws).run operations
  have hlisted := listed_run (kept_empty factory supply enforcesUniqueIds draws) operations
  have hclosed := @closed_run _ (empty factory supply enforcesUniqueIds draws) operations
  -- A new live set lists nobody, so the record tells everything.
  rw [show (empty factory supply enforcesUniqueIds draws).listed = [] from rfl, List.filter_nil,
    List.nil_append] at hlisted
  generalize (empty factory supply enforcesUniqueIds draws).run operations = result at *
  obtain ⟨record, set⟩ := result
  dsimp only at *
  have hnodup := hkept.nodup
  have hcreate {host kind location viewers prepare reply after}
      (h : set.create host kind location viewers prepare = (reply, after)) :
      Refused set (reply, after) ∨ Admitted set (reply, after) := by
    rw [← h]
    exact refused_or_admitted_create set host kind location viewers prepare
  refine ⟨?_, hnodup, ?_, ?_, remove_eq_true_iff set, ?_, fun _ => rfl, ?_, ?_, ?_⟩
  · rw [← hlisted]
    exact hkept.live_eq
  · intro _ _ _ _ _ identity after h
    rcases hcreate h with ⟨⟨_, ⟨⟩⟩, _⟩ | ⟨⟨⟩, -, hlive, -⟩
    refine ⟨?_, hlive⟩
    intro hmem
    exact absurd (hkept.known _ hmem) (Nat.lt_irrefl _)
  · intro _ _ _ _ _ error after h
    rcases hcreate h with ⟨-, hlive, -⟩ | ⟨⟨⟩, -⟩
    exact hlive
  · intro identity
    exact (hnodup.erase_eq_filter identity).symm
  · intro hshutdown
    have hset := hclosed (.inr hshutdown)
    refine ⟨hkept.closed hset, ?_⟩
    intro host kind location viewers prepare
    rcases refused_or_admitted_create set host kind location viewers prepare with
      ⟨herror, -⟩ | ⟨-, hopen, -⟩
    · exact herror
    · rw [hset] at hopen
      exact absurd hopen (by decide)
  · intro id
    rw [← hlisted]
    exact identitiesWhere_eq set _ _ fun _ _ => rfl
  · intro uniqueId
    rw [← hlisted]
    exact identitiesWhere_eq set _ _ fun _ _ => rfl

end LiveSet
end ScriptedActors
