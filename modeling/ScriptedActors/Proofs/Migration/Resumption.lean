import ScriptedActors.Proofs.Migration.Imports

set_option autoImplicit false

/-!
# Interrupted imports

Calls that an error ends, followed by one that none ends, leave the imports that a single call leaves,
as long as nothing takes imports away or changes them in between. Further calls change nothing.
-/
namespace ScriptedActors

def Actor.build (a : Actor) : String × EntityKind × Location := (a.id, a.kind, a.spawn)

theorem Scene.frame_build : Frame fun s t => t.actor.build = s.actor.build where
  refl _ := rfl
  trans h k := k.trans h
  controllers _ _ := rfl
  viewers _ _ := rfl
  state _ _ := rfl
  draws _ _ := rfl
  log _ _ := rfl
  destroy s := by
    rw [Scene.destroy, Actor.destroy]
    split
    · rfl
    · rfl

/-- Operations in which the imports from a system stay as they are. -/
structure Undisturbed {σ : Type} (place : Whereabouts) (dependency : String) (set after : LiveSet σ) :
    Prop where
  operations : ∃ operations, after = (set.run operations).2
  imports : after.imports place dependency = set.imports place dependency

namespace LiveSet
variable {σ : Type} {set after : LiveSet σ} {dependency : String}

def Leaves (set : LiveSet σ) (dependency : String) : Operation → Prop
  | .create host kind location viewers prepare => ∀ a supply,
    set.constructed host kind location viewers = (.ok a, supply) →
      (prepare a).origin.1 ≠ some dependency
  | .remove identity => identity ∉ set.live
  | .act identity effect =>
    SameView (fun a => a.state.tags) set (set.perform (.act identity effect)).2
  | .tickAll host => SameView (fun a => a.state.tags) set (set.perform (.tickAll host)).2
  | .shutdown => set.live = []

def LeavesAll (dependency : String) : LiveSet σ → List Operation → Prop
  | _, [] => True
  | set, operation :: rest =>
    set.Leaves dependency operation ∧ LeavesAll dependency (set.perform operation).2 rest

theorem asImport?_of_ne {a : Actor} (place : Whereabouts) (h : a.origin.1 ≠ some dependency) :
    a.asImport? place dependency = none := by
  rw [Actor.asImport?]
  generalize a.origin = origin at *
  obtain ⟨_ | other, _ | key⟩ := origin
  · rfl
  · rfl
  · rfl
  · exact if_neg fun heq => h (congrArg some heq)

/-- Actors that keep their tags stay the imports that they were, wherever they move. -/
theorem imports_of_sameView (hlive : after.live = set.live)
    (htags : SameView (fun a => a.state.tags) set after) (hbuild : SameView Actor.build set after)
    (dependency : String) : after.imports .spawned dependency = set.imports .spawned dependency := by
  rw [imports, imports, liveActors, liveActors, hlive, List.filterMap_filterMap,
    List.filterMap_filterMap]
  refine List.filterMap_congr ?_
  intro identity _
  have htags := htags identity
  have hbuild := hbuild identity
  cases hafter : after.actor? identity with
  | none =>
    rw [hafter] at htags
    rw [Option.map_eq_none_iff.mp htags.symm]
  | some b =>
    rw [hafter] at htags hbuild
    obtain ⟨a, ha, htags⟩ := Option.map_eq_some_iff.mp htags.symm
    rw [ha, Option.map_some, Option.map_some, Option.some.injEq, Actor.build, Actor.build,
      Prod.mk.injEq, Prod.mk.injEq] at hbuild
    obtain ⟨hid, hkind, hspawn⟩ := hbuild
    rw [ha, Option.bind_some, Option.bind_some, Actor.asImport?, Actor.asImport?, Actor.origin,
      Actor.origin, Actor.locationAt, Actor.locationAt, htags, hid, hkind, hspawn]

theorem imports_perform (hset : Kept set) {operation : Operation}
    (h : set.Leaves dependency operation) :
    (set.perform operation).2.imports .spawned dependency = set.imports .spawned dependency := by
  cases operation with
  | create host kind location viewers prepare =>
    rw [perform_create]
    rcases failed_or_entered_create hset host kind location viewers prepare with
      ⟨error, supply, heq⟩ | ⟨a, supply, hconstruct, hentered⟩
    · rw [heq]
      rfl
    · have hother := asImport?_of_ne .spawned (h a supply hconstruct)
      generalize set.create host kind location viewers prepare = result at *
      cases hentered with
      | refused hlive _ => exact imports_refused hlive dependency
      | admitted hlive _ => rw [imports_admitted hlive, hother, Option.toList_none, List.append_nil]
  | remove identity =>
    have hlive : (set.remove identity).2.live = set.live := by
      apply List.filter_eq_self.mpr
      intro other hother
      simpa using ne_of_mem_of_not_mem hother h
    exact imports_of_sameView hlive (fun _ => rfl) (fun _ => rfl) dependency
  | act identity effect =>
    have hroll := sameRoll_visit set identity fun s => Scene.frame_sameNames.act s effect
    have hbuild := sameView_visit (fun s => Scene.frame_build.act s effect) set identity
    exact imports_of_sameView hroll.live h hbuild dependency
  | tickAll host =>
    have hbuild := sameView_tickEach Scene.frame_build host set.live set
    exact imports_of_sameView (sameRoll_tickAll set host).live h hbuild dependency
  | shutdown =>
    have hnone : set.live = [] := h
    have hlive : (set.perform .shutdown).2.live = [] := shutdown_live set
    rw [imports, imports, liveActors, liveActors, hlive, hnone]
    rfl

theorem undisturbed_run (hset : Kept set) {operations : List Operation}
    (h : LeavesAll dependency set operations) :
    Undisturbed .spawned dependency set (set.run operations).2 := by
  refine ⟨⟨operations, rfl⟩, ?_⟩
  induction operations generalizing set with
  | nil => rfl
  | cons operation rest ih => exact (ih (hset.perform operation) h.2).trans (imports_perform hset h.1)

end LiveSet

/-- Any number of calls that fail to create an actor, with other operations after each. -/
inductive Interrupted {σ : Type} (m : RecordMigration) (host : Host) (place : Whereabouts)
    (start : LiveSet σ) : LiveSet σ → Prop where
  | none : Interrupted m host place start start
  | more {set next : LiveSet σ} {cause : ActorError} : Interrupted m host place start set →
      (m.migrate host set).1 = .error (.actor m.dependency cause) →
      Undisturbed place m.dependency (m.migrate host set).2 next →
      Interrupted m host place start next

structure LiveSet.Steady {σ : Type} (set : LiveSet σ) : Prop where
  opened : set.closed = false
  lenient : set.enforcesUniqueIds = false
  constructs : ∀ supply kind location viewers, ∃ a later,
    set.factory.construct supply kind location viewers = (.ok a, later)

section Resuming
variable {σ : Type} {m : RecordMigration} {host : Host}
  {preset : EntityKind → Location → List String → Dictionary String} {place : Whereabouts}
  {records : List ExternalRecord} {start resumed : LiveSet σ}

theorem lasts_kept : RecordMigration.Lasts (LiveSet.Kept (σ := σ)) :=
  fun m host r location _ hset _ => hset.create host (m.kindOf r) location none (m.mark r)

theorem rules_migrate (m : RecordMigration) (host : Host) (set : LiveSet σ) :
    (m.migrate host set).2.rules = set.rules := by
  have hlasts : RecordMigration.Lasts fun after : LiveSet σ => after.rules = set.rules := by
    intro m host r location before hbefore _
    exact (LiveSet.rules_create before host (m.kindOf r) location none (m.mark r)).trans hbefore
  exact hlasts.migrate m host rfl

theorem Interrupted.kept (hstart : LiveSet.Kept start) (h : Interrupted m host place start resumed) :
    LiveSet.Kept resumed := by
  induction h with
  | none => exact hstart
  | more _ _ hnext ih =>
    obtain ⟨operations, rfl⟩ := hnext.operations
    exact (lasts_kept.migrate m host ih).run operations

theorem Interrupted.factory (h : Interrupted m host place start resumed) :
    resumed.factory = start.factory := by
  induction h with
  | none => rfl
  | @more set next cause _ _ hnext ih =>
    obtain ⟨operations, rfl⟩ := hnext.operations
    have hrules := LiveSet.rules_run (m.migrate host set).2 operations
    rw [rules_migrate] at hrules
    exact (congrArg Prod.fst hrules).trans ih

theorem Interrupted.prospect (hrecords : m.records = .ok records) (hstart : LiveSet.Kept start)
    (hfactory : start.factory.Faithful preset) (h : Interrupted m host place start resumed) :
    m.prospect host preset place records resumed = m.prospect host preset place records start := by
  induction h with
  | none => rfl
  | more hset _ hnext ih =>
    rw [prospect_congr hnext.imports,
      (prospect_migrate hrecords host place (hset.kept hstart) (hset.factory ▸ hfactory)).1, ih]

theorem create_of_steady {set : LiveSet σ} (hset : set.Steady) (host : Host) (kind : EntityKind)
    (location : Location) (viewers : Option (List String)) (prepare : Actor → Actor) :
    ∃ identity, (set.create host kind location viewers prepare).1 = .ok identity := by
  obtain ⟨a, later, hconstruct⟩ :=
    hset.constructs set.supply kind location (viewers.getD (host.observers location))
  rw [LiveSet.create_of_construct hconstruct, LiveSet.enter_reply, if_neg, if_neg]
  · exact ⟨_, rfl⟩
  · simp [hset.lenient]
  · simp [hset.opened]

theorem steady_create {set : LiveSet σ} (hset : set.Steady) (host : Host) (kind : EntityKind)
    (location : Location) (viewers : Option (List String)) (prepare : Actor → Actor) :
    (set.create host kind location viewers prepare).2.Steady := by
  have henforces : (set.create host kind location viewers prepare).2.enforcesUniqueIds =
      set.enforcesUniqueIds :=
    congrArg Prod.snd (LiveSet.rules_create set host kind location viewers prepare)
  refine ⟨?_, henforces.trans hset.lenient, ?_⟩
  · rw [LiveSet.closed_create, hset.opened]
  · rw [LiveSet.factory_create]
    exact hset.constructs

theorem importFrom_of_steady {set : LiveSet σ} (hset : set.Steady) (records : List ExternalRecord)
    (report : MigrationReport) :
    ∃ last, (m.importFrom host records report set).1 = .ok last := by
  induction records generalizing report set with
  | nil => exact ⟨report, rfl⟩
  | cons r rest ih =>
    have hdealt := m.dealt_importFrom host r rest report set
    generalize m.importFrom host (r :: rest) report set = result at *
    cases hdealt with
    | known _ => exact ih hset _
    | skipped _ _ _ => exact ih hset _
    | @failed location _ _ _ _ hcreate =>
      obtain ⟨identity, hok⟩ := create_of_steady hset host (m.kindOf r) location none (m.mark r)
      rw [hcreate] at hok
      cases hok
    | @created location _ _ _ _ hcreate =>
      have hafter := steady_create hset host (m.kindOf r) location none (m.mark r)
      rw [hcreate] at hafter
      exact ih hafter _

structure Resumed (m : RecordMigration) (host : Host)
    (preset : EntityKind → Location → List String → Dictionary String) (place : Whereabouts)
    (records : List ExternalRecord) (start last : LiveSet σ) : Prop where
  kept : LiveSet.Kept last
  imports : last.imports place m.dependency = start.imports place m.dependency ++
    (firstPlaced (start.importedKeys place m.dependency) records).map (m.portrait host preset)
  chosen : ∀ r location, (r, location) ∈ firstPlaced (start.importedKeys place m.dependency) records ↔
    IsFirst (start.importedKeys place m.dependency) records r location
  in_order : ((firstPlaced (start.importedKeys place m.dependency) records).map Prod.fst).Sublist
    records
  single : ∀ {τ : Type} {once : LiveSet τ} {report : MigrationReport}, LiveSet.Kept once →
    once.factory.Faithful preset → once.imports place m.dependency = start.imports place m.dependency →
      (m.migrate host once).1 = .ok report →
        (m.migrate host once).2.imports place m.dependency = last.imports place m.dependency
  steady : ∀ {τ : Type} {once : LiveSet τ}, once.Steady → ∃ report, (m.migrate host once).1 = .ok report
  again : ∀ {later : LiveSet σ}, Undisturbed place m.dependency last later → ∃ already skipped,
    m.migrate host later = (.ok ⟨0, already, skipped⟩, later) ∧
      already + skipped.length = records.length

theorem imports_of_ok (place : Whereabouts) (hrecords : m.records = .ok records) {set : LiveSet σ}
    (hset : LiveSet.Kept set) (hfactory : set.factory.Faithful preset) {report : MigrationReport}
    (hok : (m.migrate host set).1 = .ok report) :
    (m.migrate host set).2.imports place m.dependency = m.prospect host preset place records set := by
  obtain ⟨hprospect, hall⟩ := prospect_migrate hrecords host place hset hfactory
  rw [← hprospect, RecordMigration.prospect, hall report hok, List.map_nil, List.append_nil]

/-- Calls that stop at records whose actors cannot be created, with anything in between that leaves the
imports as they are, and then a call without an error, import what one such call imports; after it
nothing is left to do. -/
theorem resumed_of_interrupted (hrecords : m.records = .ok records)
    (hfactory : start.factory.Faithful preset) (hstart : LiveSet.Kept start)
    (hinterrupted : Interrupted m host place start resumed) {report : MigrationReport}
    (hlast : (m.migrate host resumed).1 = .ok report) :
    Resumed m host preset place records start (m.migrate host resumed).2 := by
  have hkept := hinterrupted.kept hstart
  have hfaithful : resumed.factory.Faithful preset := hinterrupted.factory ▸ hfactory
  have himports := imports_of_ok place hrecords hkept hfaithful hlast
  rw [hinterrupted.prospect hrecords hstart hfactory] at himports
  refine ⟨lasts_kept.migrate m host hkept, himports, fun _ _ => mem_firstPlaced,
    firstPlaced_sublist _ records, ?_, ?_, ?_⟩
  · intro τ once report honce hfaithful hsame hok
    rw [imports_of_ok place hrecords honce hfaithful hok, himports, prospect_congr hsame]
  · intro τ once honce
    rw [RecordMigration.migrate, hrecords]
    exact importFrom_of_steady honce records .empty
  · intro later hlater
    have hnothing := (prospect_migrate hrecords host place hkept hfaithful).2 report hlast
    rw [LiveSet.importedKeys, ← hlater.imports] at hnothing
    obtain ⟨already, skipped, heq, hlength⟩ := importFrom_of_complete hnothing .empty
    refine ⟨already, skipped, ?_, hlength⟩
    rw [RecordMigration.migrate, hrecords]
    exact heq.trans (by rw [MigrationReport.empty, Nat.zero_add, List.nil_append])

end Resuming

theorem Factory.faithful_queue : Factory.queue.Faithful fun _ _ _ => [] := by
  intro supply kind location viewers a later h
  obtain ⟨uniqueId, handle, rfl⟩ := Factory.construct_queue h
  exact ⟨rfl, rfl, rfl, rfl⟩

/-- The actor of the third record has the unique id of the first one, which ends the first call.
Another actor is created and the first import moves; the second call counts the first record, although
its actor has moved, and imports the third. -/
theorem resumed_after_duplicate :
    let records : List ExternalRecord :=
      [⟨"1", "n1", none, "w"⟩, ⟨"2", "n2", none, ""⟩, ⟨"2", "n3", none, "w"⟩, ⟨"1", "n4", none, "w"⟩]
    let m : RecordMigration := ⟨"Citizens", ⟨"PLAYER"⟩, .ok records⟩
    let handles : List (String × Handle) := ["a", "a", "b", "c"].map fun u => (u, fun _ => .done)
    let start := LiveSet.empty Factory.queue handles true ⟨fun _ => 0, 0⟩
    let first := m.migrate .detached start
    let operations : List LiveSet.Operation :=
      [.create .detached ⟨"PIG"⟩ ⟨"w", 0, 0, 0, 0, 0⟩ none fun a => a,
        .act 0 (.change (.location ⟨"v", 0, 0, 0, 0, 0⟩))]
    let resumed := (first.2.run operations).2
    let last := m.migrate .detached resumed
    first.1 = .error (.actor "Citizens" (.duplicateUniqueId "a")) ∧
      Interrupted m .detached .spawned start resumed ∧
      last.1 = .ok ⟨1, 2, [MigrationError.message (.invalidRecord "Citizens" "2"
        "location is missing a world name")]⟩ ∧
      (last.2.imports .spawned "Citizens").map Import.id = ["n1", "n3"] ∧
      Resumed m .detached (fun _ _ _ => []) .spawned records start last.2 := by
  intro records m handles start first operations resumed last
  have hfirst : first.1 = .error (.actor "Citizens" (.duplicateUniqueId "a")) := by decide
  have hkept := LiveSet.kept_empty Factory.queue handles true ⟨fun _ => 0, 0⟩
  have hfactory : first.2.factory = Factory.queue := congrArg Prod.fst (rules_migrate m .detached start)
  have huntagged : first.2.factory.Untagged := hfactory ▸ Factory.untagged_queue
  have hleaves : LiveSet.LeavesAll m.dependency first.2 operations := by
    refine ⟨?_, ?_, trivial⟩
    · intro a supply hconstruct
      rw [huntagged _ _ _ _ _ _ hconstruct]
      decide
    · apply LiveSet.sameView_visit
      intro s
      rfl
  have hbetween := LiveSet.undisturbed_run (lasts_kept.migrate m .detached hkept) hleaves
  have hinterrupted : Interrupted m .detached .spawned start resumed := .more .none hfirst hbetween
  have hlast : last.1 = .ok ⟨1, 2, [MigrationError.message (.invalidRecord "Citizens" "2"
      "location is missing a world name")]⟩ := by decide
  exact ⟨hfirst, hinterrupted, hlast, by decide,
    resumed_of_interrupted rfl Factory.faithful_queue hkept hinterrupted hlast⟩

end ScriptedActors
