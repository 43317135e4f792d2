import ScriptedActors.Migration.Strategy
import ScriptedActors.Proofs.Dictionary
import ScriptedActors.Proofs.LiveSet.Creation

set_option autoImplicit false

/-!
# The origins of imported actors

An imported actor has its two tags before it enters the live set, and a record is imported only while
no live actor has the tags of the record. So in every history of a live set, in which nothing else
writes these tags, a record never has two live imports.
-/
namespace ScriptedActors

def Actor.origin (a : Actor) : Option String × Option String :=
  (a.state.tags.find? migratedFromTag, a.state.tags.find? sourceKeyTag)

theorem Actor.isImportOf_iff (a : Actor) (dependency key : String) :
    a.isImportOf dependency key = true ↔ a.origin = (some dependency, some key) := by
  rw [Actor.isImportOf, Actor.origin, Bool.and_eq_true, beq_iff_eq, beq_iff_eq, Prod.mk.injEq]

theorem Actor.origin_destroy (a : Actor) : a.destroy.origin = a.origin := by
  rw [Actor.destroy]
  split
  · rfl
  · rfl

theorem RecordMigration.origin_mark (m : RecordMigration) (r : ExternalRecord) (a : Actor) :
    (m.mark r a).origin = (some m.dependency, some r.key) := by
  have hother : migratedFromTag ≠ sourceKeyTag := by decide
  simp only [Actor.origin, mark, Actor.change, ActorState.apply, Dictionary.find?_insert, if_true,
    if_neg hother]

namespace LiveSet
variable {σ : Type} {set after : LiveSet σ}

def origins (set : LiveSet σ) : List (Option String × Option String) :=
  set.liveActors.map Actor.origin

theorem hasImportOf_iff (set : LiveSet σ) (dependency key : String) :
    set.hasImportOf dependency key = true ↔ (some dependency, some key) ∈ set.origins := by
  simp only [hasImportOf, List.any_eq_true, Actor.isImportOf_iff, origins, List.mem_map]

theorem length_imports (set : LiveSet σ) (dependency key : String) :
    (set.liveActors.filter fun a => a.isImportOf dependency key).length =
      set.origins.count (some dependency, some key) := by
  rw [← List.countP_eq_length_filter, origins, List.count, List.countP_map]
  refine List.countP_congr ?_
  intro a _
  simpa using a.isImportOf_iff dependency key

theorem SameView.map_liveActors_sublist {α : Type} {view : Actor → α} (h : SameView view set after)
    (hlive : after.live.Sublist set.live) :
    (after.liveActors.map view).Sublist (set.liveActors.map view) := by
  rw [liveActors, liveActors, List.map_filterMap, List.map_filterMap, funext h]
  exact hlive.filterMap _

theorem sameOrigins_shutdown (set : LiveSet σ) : SameView Actor.origin set set.shutdown.2 := by
  intro identity
  rw [actor?_shutdown]
  split
  · rw [Option.map_map]
    congr 1
    exact funext Actor.origin_destroy
  · rfl

end LiveSet

def Factory.Untagged {σ : Type} (factory : Factory σ) : Prop :=
  ∀ supply kind location viewers a later,
    factory.construct supply kind location viewers = (.ok a, later) → a.origin = (none, none)

theorem Factory.untagged_queue : Factory.queue.Untagged := by
  intro supply kind location viewers a later h
  obtain ⟨uniqueId, handle, rfl⟩ := Factory.construct_queue h
  rfl

namespace LiveSet
variable {σ : Type} {set after : LiveSet σ}

/-- A live set in which each record has at most one live import. -/
structure Sourced (set : LiveSet σ) : Prop where
  kept : Kept set
  untagged : set.factory.Untagged
  unrepeated : ∀ dependency key, set.origins.count (some dependency, some key) ≤ 1
  paired : ∀ a ∈ set.actors, a.origin.1.isSome = a.origin.2.isSome

theorem Sourced.of_sameView (hset : Sourced set) (hkept : Kept after)
    (hrules : after.rules = set.rules) (hlive : after.live.Sublist set.live)
    (horigins : SameView Actor.origin set after) : Sourced after := by
  have hfactory : after.factory = set.factory := congrArg Prod.fst hrules
  refine ⟨hkept, ?_, ?_, ?_⟩
  · rw [hfactory]
    exact hset.untagged
  · intro dependency key
    exact Nat.le_trans ((horigins.map_liveActors_sublist hlive).count_le _) (hset.unrepeated dependency key)
  · intro a ha
    obtain ⟨b, hb, heq⟩ := horigins.mem_actors ha
    rw [← heq]
    exact hset.paired b hb

theorem count_append_origin {origins : List (Option String × Option String)}
    {origin : Option String × Option String}
    (hfresh : ∀ dependency key, origin = (some dependency, some key) → origin ∉ origins)
    {dependency key : String} (h : origins.count (some dependency, some key) ≤ 1) :
    (origins ++ [origin]).count (some dependency, some key) ≤ 1 := by
  rw [List.count_append]
  by_cases heq : origin = (some dependency, some key)
  · have hnone : origins.count (some dependency, some key) = 0 :=
      List.count_eq_zero.mpr (heq ▸ hfresh dependency key heq)
    have hlast : [origin].count (some dependency, some key) ≤ 1 := List.count_le_length
    omega
  · have hlast : [origin].count (some dependency, some key) = 0 :=
      List.count_eq_zero.mpr fun hmem => heq (List.mem_singleton.mp hmem).symm
    omega

theorem paired_append {actors : List Actor} (h : ∀ a ∈ actors, a.origin.1.isSome = a.origin.2.isSome)
    {last : Actor} (hlast : last.origin.1.isSome = last.origin.2.isSome) :
    ∀ a ∈ actors ++ [last], a.origin.1.isSome = a.origin.2.isSome := by
  intro a ha
  rcases List.mem_append.mp ha with ha | ha
  · exact h a ha
  · rw [List.mem_singleton.mp ha, hlast]

theorem Sourced.create (hset : Sourced set) {prepare : Actor → Actor}
    {origin : Option String × Option String}
    (hprepare : ∀ a, a.origin = (none, none) → (prepare a).origin = origin)
    (hpaired : origin.1.isSome = origin.2.isSome)
    (hfresh : ∀ dependency key, origin = (some dependency, some key) → origin ∉ set.origins)
    (host : Host) (kind : EntityKind) (location : Location) (viewers : Option (List String)) :
    Sourced (set.create host kind location viewers prepare).2 := by
  have hkept := hset.kept.create host kind location viewers prepare
  have huntagged : (set.create host kind location viewers prepare).2.factory.Untagged := by
    rw [factory_create]
    exact hset.untagged
  rcases failed_or_entered_create hset.kept host kind location viewers prepare with
    ⟨error, supply, heq⟩ | ⟨a, supply, hconstruct, hentered⟩
  · rw [heq] at hkept ⊢
    exact ⟨hkept, hset.untagged, hset.unrepeated, hset.paired⟩
  · have horigin := hprepare a (hset.untagged _ _ _ _ _ _ hconstruct)
    generalize set.create host kind location viewers prepare = result at *
    cases hentered with
    | refused hlive hactors =>
      refine ⟨hkept, huntagged, ?_, ?_⟩
      · rw [origins, hlive]
        exact hset.unrepeated
      · rw [hactors]
        apply paired_append hset.paired
        rw [Actor.origin_destroy, horigin, hpaired]
    | admitted hlive hactors =>
      refine ⟨hkept, huntagged, ?_, ?_⟩
      · rw [origins, hlive, List.map_append, List.map_singleton, horigin]
        exact fun dependency key => count_append_origin hfresh (hset.unrepeated dependency key)
      · rw [hactors]
        apply paired_append hset.paired
        rw [horigin, hpaired]

def Spares (set : LiveSet σ) : Operation → Prop
  | .create _ _ _ _ prepare => ∀ a, (prepare a).origin = a.origin
  | .act identity effect => SameView Actor.origin set (set.perform (.act identity effect)).2
  | .tickAll host => SameView Actor.origin set (set.perform (.tickAll host)).2
  | .remove _ => True
  | .shutdown => True

theorem Sourced.perform (hset : Sourced set) {operation : Operation} (hspares : set.Spares operation) :
    Sourced (set.perform operation).2 := by
  have hkept := hset.kept.perform operation
  have hrules := rules_perform set operation
  cases operation with
  | create host kind location viewers prepare =>
    rw [perform_create]
    apply hset.create
    · intro a ha
      exact (hspares a).trans ha
    · rfl
    · rintro dependency key ⟨⟩
  | remove identity =>
    exact hset.of_sameView hkept hrules List.filter_sublist fun _ => rfl
  | act identity effect =>
    have hlive : (set.perform (.act identity effect)).2.live = set.live :=
      (sameRoll_visit set identity fun s => Scene.frame_sameNames.act s effect).live
    apply hset.of_sameView hkept hrules ?_ hspares
    rw [hlive]
  | tickAll host =>
    have hlive : (set.perform (.tickAll host)).2.live = set.live := (sameRoll_tickAll set host).live
    apply hset.of_sameView hkept hrules ?_ hspares
    rw [hlive]
  | shutdown =>
    have hlive : (set.perform .shutdown).2.live = [] := shutdown_live set
    apply hset.of_sameView hkept hrules ?_ (sameOrigins_shutdown set)
    rw [hlive]
    exact List.nil_sublist _

end LiveSet

def ExternalRecord.location? (r : ExternalRecord) : Option Location :=
  (Location.ofText r.location).toOption

namespace RecordMigration
variable {σ : Type}

inductive Dealt (m : RecordMigration) (host : Host) (r : ExternalRecord) (rest : List ExternalRecord)
    (report : MigrationReport) (set : LiveSet σ) :
    Except MigrationError MigrationReport × LiveSet σ → Prop where
  | known : set.hasImportOf m.dependency r.key = true → Dealt m host r rest report set
      (m.importFrom host rest { report with alreadyImported := report.alreadyImported + 1 } set)
  | skipped (text : String) : set.hasImportOf m.dependency r.key = false → r.location? = none →
      Dealt m host r rest report set
        (m.importFrom host rest { report with skipped := report.skipped ++ [text] } set)
  | failed {location : Location} {error : ActorError} {after : LiveSet σ} :
      set.hasImportOf m.dependency r.key = false → r.location? = some location →
      set.create host (m.kindOf r) location none (m.mark r) = (.error error, after) →
      Dealt m host r rest report set (.error (.actor m.dependency error), after)
  | created {location : Location} {identity : Nat} {after : LiveSet σ} :
      set.hasImportOf m.dependency r.key = false → r.location? = some location →
      set.create host (m.kindOf r) location none (m.mark r) = (.ok identity, after) →
      Dealt m host r rest report set
        (m.importFrom host rest { report with imported := report.imported + 1 } after)

theorem dealt_importFrom (m : RecordMigration) (host : Host) (r : ExternalRecord)
    (rest : List ExternalRecord) (report : MigrationReport) (set : LiveSet σ) :
    Dealt m host r rest report set (m.importFrom host (r :: rest) report set) := by
  rw [importFrom]
  cases hknown : set.hasImportOf m.dependency r.key with
  | true => exact .known hknown
  | false =>
    rw [if_neg (by decide)]
    cases hlocation : Location.ofText r.location with
    | error e =>
      have hnone : r.location? = none := by rw [ExternalRecord.location?, hlocation]; rfl
      exact .skipped _ hknown hnone
    | ok location =>
      have hsome : r.location? = some location := by rw [ExternalRecord.location?, hlocation]; rfl
      dsimp only
      cases hcreate : set.create host (m.kindOf r) location none (m.mark r) with
      | mk reply after =>
        cases reply with
        | error error => exact .failed hknown hsome hcreate
        | ok identity => exact .created hknown hsome hcreate

/-- A property of live sets that lasts when a record without a live import is imported. -/
def Lasts (P : LiveSet σ → Prop) : Prop :=
  ∀ (m : RecordMigration) (host : Host) (r : ExternalRecord) (location : Location) (set : LiveSet σ),
    P set → set.hasImportOf m.dependency r.key = false →
      P (set.create host (m.kindOf r) location none (m.mark r)).2

end RecordMigration

namespace RecordMigration.Lasts
variable {σ : Type} {P : LiveSet σ → Prop} (h : Lasts P)
include h

theorem importFrom (m : RecordMigration) (host : Host) (records : List ExternalRecord)
    (report : MigrationReport) {set : LiveSet σ} (hset : P set) :
    P (m.importFrom host records report set).2 := by
  induction records generalizing report set with
  | nil => exact hset
  | cons r rest ih =>
    have hdealt := dealt_importFrom m host r rest report set
    generalize m.importFrom host (r :: rest) report set = result at *
    cases hdealt with
    | known _ => exact ih _ hset
    | skipped _ _ _ => exact ih _ hset
    | @failed location _ _ hnone _ hcreate =>
      have hcreated := h m host r location set hset hnone
      rw [hcreate] at hcreated
      exact hcreated
    | @created location _ _ hnone _ hcreate =>
      have hcreated := h m host r location set hset hnone
      rw [hcreate] at hcreated
      exact ih _ hcreated

theorem migrate (m : RecordMigration) (host : Host) {set : LiveSet σ} (hset : P set) :
    P (m.migrate host set).2 := by
  rw [RecordMigration.migrate]
  cases m.records with
  | error fault => exact hset
  | ok records => exact h.importFrom m host records _ hset

theorem migrateAll (host : Host) (table : MigrationTable) {set : LiveSet σ} (hset : P set) :
    P (table.migrateAll host set).2 := by
  induction table generalizing set with
  | nil => exact hset
  | cons s rest ih =>
    rw [MigrationTable.migrateAll]
    split
    · apply ih
      cases s with
      | ofRecords m => exact h.migrate m host hset
      | panicking dependency => exact hset
    · exact ih hset

end RecordMigration.Lasts

namespace LiveSet
variable {σ : Type}

theorem lasts_sourced : RecordMigration.Lasts (Sourced (σ := σ)) := by
  intro m host r location set hset hnone
  apply hset.create
  · intro a _
    exact m.origin_mark r a
  · rfl
  · intro dependency key _
    rw [← hasImportOf_iff, hnone]
    decide

/-- The live sets of a history that starts with none live, where only migrations write the two tags. -/
inductive Reached (factory : Factory σ) : LiveSet σ → Prop where
  | empty (supply : σ) (enforcesUniqueIds : Bool) (draws : Draws) :
      Reached factory (empty factory supply enforcesUniqueIds draws)
  | perform {set : LiveSet σ} (operation : Operation) : Reached factory set → set.Spares operation →
      Reached factory (set.perform operation).2
  | migrate {set : LiveSet σ} (m : RecordMigration) (host : Host) : Reached factory set →
      Reached factory (m.migrate host set).2
  | migrateAll {set : LiveSet σ} (table : MigrationTable) (host : Host) : Reached factory set →
      Reached factory (table.migrateAll host set).2

theorem Reached.sourced {factory : Factory σ} (hfactory : factory.Untagged) {set : LiveSet σ}
    (h : Reached factory set) : Sourced set := by
  induction h with
  | empty supply enforcesUniqueIds draws =>
    refine ⟨kept_empty factory supply enforcesUniqueIds draws, hfactory, ?_, ?_⟩
    · intro dependency key
      exact Nat.zero_le 1
    · intro a ha
      exact absurd ha List.not_mem_nil
  | perform operation _ hspares ih => exact ih.perform hspares
  | migrate m host _ ih => exact lasts_sourced.migrate m host ih
  | migrateAll table host _ ih => exact lasts_sourced.migrateAll host table ih

/-- In every history, whatever the sources have in each call and whichever creations fail, a record has
at most one live import, and no actor ever has one of the two tags without the other. -/
theorem Reached.imported_once {factory : Factory σ} (hfactory : factory.Untagged) {set : LiveSet σ}
    (h : Reached factory set) :
    (∀ dependency key,
      (set.liveActors.filter fun a => a.isImportOf dependency key).length ≤ 1) ∧
    ∀ a ∈ set.actors, (a.state.tags.find? migratedFromTag).isSome =
      (a.state.tags.find? sourceKeyTag).isSome := by
  have hsourced := h.sourced hfactory
  refine ⟨?_, hsourced.paired⟩
  intro dependency key
  rw [length_imports]
  exact hsourced.unrepeated dependency key

/-- Two strategies of one system have the same key, one of them twice. The import is removed, and the
key is imported once again. -/
theorem imported_once_repeated_key :
    let record (name : String) : ExternalRecord := ⟨"7", name, none, "w"⟩
    let table : MigrationTable := [.ofRecords ⟨"Citizens", ⟨"PLAYER"⟩, .ok [record "a", record "b"]⟩,
      .panicking "Citizens", .ofRecords ⟨"Citizens", ⟨"PLAYER"⟩, .ok [record "c"]⟩]
    let host : Host := { Host.detached with hasDependency := fun _ => true }
    let handles : List (String × Handle) := List.replicate 3 ("u", fun _ => .done)
    let before := ((empty Factory.queue handles false ⟨fun _ => 0, 0⟩).perform
      (.create host ⟨"PIG"⟩ ⟨"w", 0, 0, 0, 0, 0⟩ none fun a => a)).2
    let middle := ((table.migrateAll host before).2.perform (.remove 1)).2
    let set := (table.migrateAll host middle).2
    Factory.queue.Untagged ∧ Reached Factory.queue set ∧ set.live = [0, 2] ∧
      (set.actors.map Actor.origin = [(none, none), (some "Citizens", some "7"),
        (some "Citizens", some "7")]) ∧
      (set.liveActors.filter fun a => a.isImportOf "Citizens" "7").length ≤ 1 := by
  intro record table host handles before middle set
  have hbefore : Reached Factory.queue before := (Reached.empty handles false _).perform _ fun _ => rfl
  have hmiddle : Reached Factory.queue middle := (hbefore.migrateAll table host).perform _ trivial
  have hset : Reached Factory.queue set := hmiddle.migrateAll table host
  exact ⟨Factory.untagged_queue, hset, by decide, by decide,
    (hset.imported_once Factory.untagged_queue).1 "Citizens" "7"⟩

end LiveSet
end ScriptedActors
