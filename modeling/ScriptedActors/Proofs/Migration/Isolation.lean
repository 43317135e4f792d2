import ScriptedActors.Proofs.LiveSet.Freshness
import ScriptedActors.Proofs.Migration.Resumption

set_option autoImplicit false

/-!
# Strategies do not meet

A strategy reads of the live actors only which of them were imported from its own system, and the
actors that it creates are imports from this system. So strategies for different systems do to a live
set what each of them would have done to it alone, whatever their order and whichever of them fail.
-/
namespace ScriptedActors

theorem RecordMigration.uniqueId_mark (m : RecordMigration) (r : ExternalRecord) (a : Actor) :
    (m.mark r a).uniqueId = a.uniqueId := rfl

namespace LiveSet
variable {σ : Type} {set : LiveSet σ}

theorem lasts_ready : RecordMigration.Lasts (Ready (σ := σ)) :=
  fun m host r location _ hset _ => hset.create host (m.kindOf r) location none (m.uniqueId_mark r)

theorem hasImportOf_append {after : LiveSet σ} {news : List Actor}
    (h : after.liveActors = set.liveActors ++ news) (dependency key : String) :
    after.hasImportOf dependency key =
      (set.hasImportOf dependency key || news.any fun a => a.isImportOf dependency key) := by
  rw [hasImportOf, h, List.any_append, hasImportOf]

theorem hasImportOf_of_others {after : LiveSet σ} {news : List Actor} {dependency other : String}
    (h : after.liveActors = set.liveActors ++ news) (hnews : ∀ a ∈ news, a.origin.1 = some dependency)
    (hother : other ≠ dependency) (key : String) :
    after.hasImportOf other key = set.hasImportOf other key := by
  have hnone : (news.any fun a => a.isImportOf other key) = false := by
    rw [List.any_eq_false]
    intro a ha himport
    have hfirst := (congrArg Prod.fst ((a.isImportOf_iff other key).mp himport)).symm.trans (hnews a ha)
    exact hother (Option.some.inj hfirst)
  rw [hasImportOf_append h, hnone, Bool.or_false]

/-- Two sets that the imports from a system do not tell apart. -/
structure Alike (dependency : String) (set other : LiveSet σ) : Prop where
  factory : other.factory = set.factory
  closed : other.closed = set.closed
  imports : ∀ key, other.hasImportOf dependency key = set.hasImportOf dependency key

end LiveSet

def Factory.Settles {σ β : Type} (factory : Factory σ) (view : Actor → β) : Prop :=
  ∀ (m : RecordMigration) (r : ExternalRecord) {kind location viewers supply supply' a b later later'},
    factory.construct supply kind location viewers = (.ok a, later) →
      factory.construct supply' kind location viewers = (.ok b, later') →
        view (m.mark r a) = view (m.mark r b)

/-- An import into one set and the same import into another one, with equal replies and new actors that
look alike. -/
structure Matched {σ β γ : Type} (view : Actor → β) (dependency : String) (set other : LiveSet σ)
    (result parallel : γ × LiveSet σ) : Prop where
  reply : parallel.1 = result.1
  imported : ∃ news twins, result.2.liveActors = set.liveActors ++ news ∧
    parallel.2.liveActors = other.liveActors ++ twins ∧ twins.map view = news.map view ∧
    ∀ a ∈ twins, a.origin.1 = some dependency

section Matching
variable {σ β γ : Type} {view : Actor → β} {set other : LiveSet σ} {m : RecordMigration} {host : Host}

theorem Matched.of_same {dependency : String} {result parallel : γ × LiveSet σ}
    (hreply : parallel.1 = result.1) (hset : result.2.liveActors = set.liveActors)
    (hother : parallel.2.liveActors = other.liveActors) :
    Matched view dependency set other result parallel :=
  ⟨hreply, [], [], by rw [hset, List.append_nil], by rw [hother, List.append_nil], rfl, by simp⟩

theorem Matched.map {δ : Type} (f : γ → δ) {dependency : String} {result parallel : γ × LiveSet σ}
    (h : Matched view dependency set other result parallel) :
    Matched view dependency set other (f result.1, result.2) (f parallel.1, parallel.2) :=
  ⟨congrArg f h.reply, h.imported⟩

theorem Matched.cons {dependency : String} {result parallel : γ × LiveSet σ} {after after' : LiveSet σ}
    {a b : Actor} (h : Matched view dependency after after' result parallel)
    (hset : after.liveActors = set.liveActors ++ [a]) (hother : after'.liveActors = other.liveActors ++ [b])
    (hview : view b = view a) (horigin : b.origin.1 = some dependency) :
    Matched view dependency set other result parallel := by
  obtain ⟨news, twins, hnews, htwins, hsame, horigins⟩ := h.imported
  refine ⟨h.reply, a :: news, b :: twins, ?_, ?_, ?_, ?_⟩
  · rw [hnews, hset, List.append_assoc, List.singleton_append]
  · rw [htwins, hother, List.append_assoc, List.singleton_append]
  · rw [List.map_cons, List.map_cons, hview, hsame]
  · exact List.forall_mem_cons.mpr ⟨horigin, horigins⟩

theorem alike_created {r : ExternalRecord} {a b : Actor} {after after' : LiveSet σ}
    (h : LiveSet.Alike m.dependency set other) (hfactory : after.factory = set.factory)
    (hfactory' : after'.factory = other.factory) (hclosed : after.closed = set.closed)
    (hclosed' : after'.closed = other.closed) (hset : after.liveActors = set.liveActors ++ [m.mark r a])
    (hother : after'.liveActors = other.liveActors ++ [m.mark r b]) :
    LiveSet.Alike m.dependency after after' := by
  refine ⟨?_, ?_, ?_⟩
  · rw [hfactory', h.factory, hfactory]
  · rw [hclosed', h.closed, hclosed]
  · intro key
    have hmarks : (m.mark r b).isImportOf m.dependency key = (m.mark r a).isImportOf m.dependency key := by
      rw [Bool.eq_iff_iff, Actor.isImportOf_iff, Actor.isImportOf_iff, m.origin_mark, m.origin_mark]
    rw [LiveSet.hasImportOf_append hset, LiveSet.hasImportOf_append hother, h.imports]
    simp [hmarks]

inductive Paired (view : Actor → β) (dependency : String) (set other : LiveSet σ) :
    Except ActorError Nat × LiveSet σ → Except ActorError Nat × LiveSet σ → Prop where
  | closed {after after' : LiveSet σ} : after.liveActors = set.liveActors →
      after'.liveActors = other.liveActors →
      Paired view dependency set other (.error .shutDown, after) (.error .shutDown, after')
  | opened {identity identity' : Nat} {after after' : LiveSet σ} {a b : Actor} :
      after.liveActors = set.liveActors ++ [a] → after'.liveActors = other.liveActors ++ [b] →
      view b = view a → b.origin.1 = some dependency → LiveSet.Alike dependency after after' →
      Paired view dependency set other (.ok identity, after) (.ok identity', after')

theorem paired_create (hset : set.Ready) (hother : other.Ready)
    (h : LiveSet.Alike m.dependency set other) (hview : set.factory.Settles view) (host : Host)
    (r : ExternalRecord) (location : Location) :
    Paired view m.dependency set other (set.create host (m.kindOf r) location none (m.mark r))
      (other.create host (m.kindOf r) location none (m.mark r)) := by
  obtain ⟨a, supply, ha, hreceived⟩ := hset.received host (m.kindOf r) location none (m.uniqueId_mark r)
  obtain ⟨b, supply', hb, hreceived'⟩ := hother.received host (m.kindOf r) location none (m.uniqueId_mark r)
  have hfactory := LiveSet.factory_create set host (m.kindOf r) location none (m.mark r)
  have hfactory' := LiveSet.factory_create other host (m.kindOf r) location none (m.mark r)
  have hclosed := LiveSet.closed_create set host (m.kindOf r) location none (m.mark r)
  have hclosed' := LiveSet.closed_create other host (m.kindOf r) location none (m.mark r)
  generalize set.create host (m.kindOf r) location none (m.mark r) = result at *
  generalize other.create host (m.kindOf r) location none (m.mark r) = parallel at *
  cases hreceived with
  | closed hshut hlive =>
    cases hreceived' with
    | closed _ hlive' => exact .closed hlive hlive'
    | opened hopen _ => cases hshut.symm.trans (h.closed.symm.trans hopen)
  | opened hopen hlive =>
    cases hreceived' with
    | closed hshut _ => cases hopen.symm.trans (h.closed.symm.trans hshut)
    | opened _ hlive' =>
      have hconstruct : set.factory.construct other.supply (m.kindOf r) location
          (host.observers location) = (.ok b, supply') := by
        rw [← h.factory]
        exact hb
      have horigin := congrArg Prod.fst (m.origin_mark r b)
      have halike := alike_created h hfactory hfactory' hclosed hclosed' hlive hlive'
      exact .opened hlive hlive' (hview m r hconstruct ha) horigin halike

theorem matched_importFrom (hset : set.Ready) (hother : other.Ready)
    (h : LiveSet.Alike m.dependency set other) (hview : set.factory.Settles view)
    (records : List ExternalRecord) (report : MigrationReport) :
    Matched view m.dependency set other (m.importFrom host records report set)
      (m.importFrom host records report other) := by
  induction records generalizing set other report with
  | nil => exact Matched.of_same rfl rfl rfl
  | cons r rest ih =>
    rw [RecordMigration.importFrom, RecordMigration.importFrom, h.imports r.key]
    cases hknown : set.hasImportOf m.dependency r.key with
    | true => exact ih hset hother h hview _
    | false =>
      rw [if_neg (by decide), if_neg (by decide)]
      cases Location.ofText r.location with
      | error e => exact ih hset hother h hview _
      | ok location =>
        have hready := LiveSet.lasts_ready m host r location set hset hknown
        have hready' := LiveSet.lasts_ready m host r location other hother ((h.imports r.key).trans hknown)
        have hfactory := LiveSet.factory_create set host (m.kindOf r) location none (m.mark r)
        have hpaired := paired_create hset hother h hview host r location
        dsimp only
        generalize set.create host (m.kindOf r) location none (m.mark r) = result at *
        generalize other.create host (m.kindOf r) location none (m.mark r) = parallel at *
        cases hpaired with
        | closed hlive hlive' => exact Matched.of_same rfl hlive hlive'
        | opened hlive hlive' hsame horigin halike =>
          exact (ih hready hready' halike (hfactory ▸ hview) _).cons hlive hlive' hsame horigin

theorem matched_migrate (hset : set.Ready) (hother : other.Ready)
    (h : LiveSet.Alike m.dependency set other) (hview : set.factory.Settles view) :
    Matched view m.dependency set other (m.migrate host set) (m.migrate host other) := by
  rw [RecordMigration.migrate, RecordMigration.migrate]
  cases m.records with
  | error fault => exact Matched.of_same rfl rfl rfl
  | ok records => exact matched_importFrom hset hother h hview records .empty

end Matching

namespace MigrationTable
variable {σ β : Type} {view : Actor → β} {set other start : LiveSet σ} {host : Host}

theorem migrateAll_records {m : RecordMigration} (h : host.hasDependency m.dependency = true)
    (set : LiveSet σ) : migrateAll host [.ofRecords m] set =
      ([⟨m.dependency, (m.migrate host set).1⟩], (m.migrate host set).2) := by
  rw [migrateAll, Strategy.dependency, if_pos h]
  rfl

theorem migrateAll_panicking {dependency : String} (h : host.hasDependency dependency = true)
    (set : LiveSet σ) : migrateAll host [.panicking dependency] set =
      ([⟨dependency, .error (.panicked dependency)⟩], set) := by
  rw [migrateAll, Strategy.dependency, if_pos h]
  rfl

theorem migrateAll_absent {s : Strategy} (h : host.hasDependency s.dependency = false)
    (set : LiveSet σ) : migrateAll host [s] set = ([], set) := by
  rw [migrateAll, if_neg (by simp [h])]
  rfl

theorem migrateAll_cons (host : Host) (s : Strategy) (rest : MigrationTable) (set : LiveSet σ) :
    migrateAll host (s :: rest) set =
      ((migrateAll host [s] set).1 ++ (migrateAll host rest (migrateAll host [s] set).2).1,
        (migrateAll host rest (migrateAll host [s] set).2).2) := by
  rw [migrateAll, migrateAll]
  split
  · rfl
  · rfl

theorem matched_single (hset : set.Ready) (hother : other.Ready) {s : Strategy}
    (h : LiveSet.Alike s.dependency set other) (hview : set.factory.Settles view) (host : Host) :
    Matched view s.dependency set other (migrateAll host [s] set) (migrateAll host [s] other) := by
  cases hhas : host.hasDependency s.dependency with
  | false =>
    rw [migrateAll_absent hhas, migrateAll_absent hhas]
    exact Matched.of_same rfl rfl rfl
  | true =>
    cases s with
    | ofRecords m =>
      rw [migrateAll_records hhas, migrateAll_records hhas]
      exact (matched_migrate hset hother h hview).map fun result =>
        [MigrationOutcome.mk m.dependency result]
    | panicking dependency =>
      have hpresent : host.hasDependency dependency = true := hhas
      rw [migrateAll_panicking hpresent, migrateAll_panicking hpresent]
      exact Matched.of_same rfl rfl rfl

def imported (host : Host) (table : MigrationTable) (set : LiveSet σ) : List Actor :=
  (table.migrateAll host set).2.liveActors.drop set.liveActors.length

theorem imported_eq {table : MigrationTable} {news : List Actor}
    (h : (table.migrateAll host set).2.liveActors = set.liveActors ++ news) :
    table.imported host set = news := by
  rw [imported, h, List.drop_left]

theorem rules_and_closed (host : Host) (table : MigrationTable) (set : LiveSet σ) :
    (table.migrateAll host set).2.factory = set.factory ∧
      (table.migrateAll host set).2.closed = set.closed := by
  have hlasts : RecordMigration.Lasts fun after : LiveSet σ =>
      after.factory = set.factory ∧ after.closed = set.closed := by
    rintro m host r location before ⟨hfactory, hclosed⟩ _
    exact ⟨(LiveSet.factory_create before host (m.kindOf r) location none (m.mark r)).trans hfactory,
      (LiveSet.closed_create before host (m.kindOf r) location none (m.mark r)).trans hclosed⟩
  exact hlasts.migrateAll host table ⟨rfl, rfl⟩

/-- A run of a table on a set in which other systems have imported more than at the start. -/
theorem apart_migrateAll (hstart : start.Ready) (hview : start.factory.Settles view) (host : Host)
    {table : MigrationTable} (hdistinct : table.names.Nodup) (hset : set.Ready)
    (halike : ∀ s ∈ table, LiveSet.Alike s.dependency start set) :
    (table.migrateAll host set).1 = table.flatMap (fun s => (migrateAll host [s] start).1) ∧
      ∃ news, (table.migrateAll host set).2.liveActors = set.liveActors ++ news ∧
        news.map view = table.flatMap fun s => (imported host [s] start).map view := by
  induction table generalizing set with
  | nil => exact ⟨rfl, [], (List.append_nil _).symm, rfl⟩
  | cons s rest ih =>
    obtain ⟨hfirst, hrest⟩ := List.nodup_cons.mp hdistinct
    obtain ⟨hs, hothers⟩ := List.forall_mem_cons.mp halike
    obtain ⟨hreply, alone, twins, halone, htwins, hsame, horigins⟩ :=
      matched_single hstart hset hs hview host
    have hready := LiveSet.lasts_ready.migrateAll host [s] hset
    obtain ⟨hfactory, hclosed⟩ := rules_and_closed host [s] set
    -- What the first strategy has imported is nothing to the others.
    have hlater : ∀ t ∈ rest, LiveSet.Alike t.dependency start (migrateAll host [s] set).2 := by
      intro t ht
      have hother : t.dependency ≠ s.dependency := by
        rintro heq
        exact hfirst (heq ▸ List.mem_map_of_mem ht)
      obtain ⟨hfactory', hclosed', himports⟩ := hothers t ht
      refine ⟨hfactory.trans hfactory', hclosed.trans hclosed', ?_⟩
      intro key
      rw [LiveSet.hasImportOf_of_others htwins horigins hother, himports]
    obtain ⟨hreplies, news, hnews, hviews⟩ := ih hrest hready hlater
    rw [migrateAll_cons]
    refine ⟨?_, twins ++ news, ?_, ?_⟩
    · rw [List.flatMap_cons, hreply, hreplies]
    · rw [hnews, htwins, List.append_assoc]
    · rw [List.map_append, List.flatMap_cons, hsame, hviews, imported_eq halone]

theorem labels_migrateAll (host : Host) (table : MigrationTable) (set : LiveSet σ) :
    (table.migrateAll host set).1.map MigrationOutcome.dependency =
      (table.filter fun s => host.hasDependency s.dependency).map Strategy.dependency := by
  induction table generalizing set with
  | nil => rfl
  | cons s rest ih =>
    rw [migrateAll_cons, List.map_append, ih, List.filter_cons]
    cases hhas : host.hasDependency s.dependency with
    | true =>
      rw [migrateAll, if_pos hhas]
      rfl
    | false =>
      rw [migrateAll_absent hhas]
      rfl

end MigrationTable

/-- An actor as far as the request that constructed it and the record that it was imported from decide
about it. -/
def Actor.likeness (a : Actor) : (String × EntityKind × Location) × Location × Dictionary String :=
  (a.build, a.state.location, a.state.tags)

def Factory.Uniform {σ : Type} (factory : Factory σ) : Prop :=
  ∀ {kind location viewers supply supply' a b later later'},
    factory.construct supply kind location viewers = (.ok a, later) →
      factory.construct supply' kind location viewers = (.ok b, later') →
        a.kind = b.kind ∧ a.spawn = b.spawn ∧ a.state.location = b.state.location ∧
          a.state.tags = b.state.tags

section Views
variable {σ : Type} {factory : Factory σ}

theorem Factory.Faithful.uniform {preset : EntityKind → Location → List String → Dictionary String}
    (h : factory.Faithful preset) : factory.Uniform := by
  intro kind location viewers supply supply' a b later later' ha hb
  obtain ⟨hkind, hspawn, hlocation, htags⟩ := h _ _ _ _ _ _ ha
  obtain ⟨hkind', hspawn', hlocation', htags'⟩ := h _ _ _ _ _ _ hb
  exact ⟨hkind.trans hkind'.symm, hspawn.trans hspawn'.symm, hlocation.trans hlocation'.symm,
    htags.trans htags'.symm⟩

theorem Factory.Uniform.settles (h : factory.Uniform) : factory.Settles Actor.likeness := by
  intro m r kind location viewers supply supply' a b later later' ha hb
  obtain ⟨hkind, hspawn, hlocation, htags⟩ := h ha hb
  simp [Actor.likeness, Actor.build, RecordMigration.mark, Actor.change, ActorState.apply, hkind, hspawn,
    hlocation, htags]

theorem Factory.settles_origin (factory : Factory σ) :
    factory.Settles fun a => (a.id, a.origin) := by
  intro m r kind location viewers supply supply' a b later later' _ _
  change (r.name, (m.mark r a).origin) = (r.name, (m.mark r b).origin)
  rw [m.origin_mark, m.origin_mark]

end Views

namespace MigrationTable
variable {σ : Type}

structure Isolated (host : Host) (set : LiveSet σ) (table : MigrationTable) : Prop where
  labels : (table.migrateAll host set).1.map MigrationOutcome.dependency =
    (table.filter fun s => host.hasDependency s.dependency).map Strategy.dependency
  outcomes : (table.migrateAll host set).1 = table.flatMap fun s => (migrateAll host [s] set).1
  standing : (table.migrateAll host set).2.liveActors = set.liveActors ++ table.imported host set
  origins : (table.imported host set).map (fun a => (a.id, a.origin)) =
    table.flatMap fun s => (imported host [s] set).map fun a => (a.id, a.origin)
  likenesses : set.factory.Uniform → (table.imported host set).map Actor.likeness =
    table.flatMap fun s => (imported host [s] set).map Actor.likeness

theorem isolated_of_distinct {set : LiveSet σ} (hset : set.Ready) (host : Host) {table : MigrationTable}
    (hdistinct : table.names.Nodup) : Isolated host set table := by
  have hself : ∀ s ∈ table, LiveSet.Alike s.dependency set set :=
    fun _ _ => ⟨rfl, rfl, fun _ => rfl⟩
  obtain ⟨houtcomes, news, hnews, horigins⟩ :=
    apart_migrateAll hset set.factory.settles_origin host hdistinct hset hself
  refine ⟨labels_migrateAll host table set, houtcomes, ?_, ?_, ?_⟩
  · rw [imported_eq hnews, hnews]
  · rw [imported_eq hnews, horigins]
  · intro huniform
    obtain ⟨-, others, hothers, hlikenesses⟩ :=
      apart_migrateAll hset huniform.settles host hdistinct hset hself
    rw [imported_eq hothers, hlikenesses]

/-- Strategies for different systems have the outcomes and the imports that each of them would have
alone, also in any other order: the outcomes are in the order of the table, and the imports are the same
ones. -/
theorem isolated_migrateAll {set : LiveSet σ} (hkept : LiveSet.Kept set) (hfresh : set.Fresh)
    {table : MigrationTable} (hdistinct : table.names.Nodup) (host : Host) :
    Isolated host set table ∧ ∀ other : MigrationTable, other.Perm table →
      Isolated host set other ∧
      (other.migrateAll host set).1.Perm (table.migrateAll host set).1 ∧
      ((other.imported host set).map fun a => (a.id, a.origin)).Perm
        ((table.imported host set).map fun a => (a.id, a.origin)) ∧
      (set.factory.Uniform →
        ((other.imported host set).map Actor.likeness).Perm
          ((table.imported host set).map Actor.likeness)) := by
  have htable := isolated_of_distinct ⟨hkept, hfresh⟩ host hdistinct
  refine ⟨htable, ?_⟩
  intro other hperm
  have hnames : other.names.Nodup := (hperm.map Strategy.dependency).nodup_iff.mpr hdistinct
  have hother := isolated_of_distinct ⟨hkept, hfresh⟩ host hnames
  refine ⟨hother, ?_, ?_, ?_⟩
  · rw [hother.outcomes, htable.outcomes]
    exact hperm.flatMap_right _
  · rw [hother.origins, htable.origins]
    exact hperm.flatMap_right _
  · intro huniform
    rw [hother.likenesses huniform, htable.likenesses huniform]
    exact hperm.flatMap_right _

end MigrationTable

theorem Factory.faithful_plain : Factory.plain.Faithful fun _ _ _ => [] := by
  intro supply kind location viewers a later h
  cases h
  exact ⟨rfl, rfl, rfl, rfl⟩

namespace MigrationTable

/-- Two systems have a record of the same key, one of which is imported already; one strategy panics,
one source is not available, and the host does not have one of the systems. -/
theorem isolated_shared_key :
    let record (key name : String) : ExternalRecord := ⟨key, name, none, "w"⟩
    let host : Host := { Host.detached with hasDependency := fun name => name != "Absent" }
    let ids : UniqueIds := ⟨fun n => String.ofList (List.replicate n 'x'), 0⟩
    let earlier : RecordMigration := ⟨"Citizens", playerKind, .ok [record "1" "a"]⟩
    let set := (earlier.migrate host (LiveSet.empty Factory.plain ids true ⟨fun _ => 0, 0⟩)).2
    let table : MigrationTable := [citizens (.ok [record "1" "b", record "2" "c"]),
      .panicking "Sentinel", .ofRecords ⟨"Absent", playerKind, .ok [record "1" "d"]⟩,
      .ofRecords ⟨"Broken", playerKind, .error ⟨["unreadable"]⟩⟩, serverNpc (.ok [record "1" "e"])]
    let other : MigrationTable := table.reverse
    LiveSet.Kept set ∧ set.Fresh ∧ table.names.Nodup ∧ other.Perm table ∧ set.factory.Uniform ∧
      (table.migrateAll host set).1.map MigrationOutcome.result = [.ok ⟨1, 1, []⟩,
        .error (.panicked "Sentinel"), .error (.sourceUnavailable "Broken" "unreadable"),
        .ok ⟨1, 0, []⟩] ∧
      (table.imported host set).map Actor.id = ["c", "e"] ∧
      (other.imported host set).map Actor.id = ["e", "c"] ∧
      Isolated host set table ∧ Isolated host set other ∧
      ((other.imported host set).map Actor.likeness).Perm
        ((table.imported host set).map Actor.likeness) := by
  intro record host ids earlier set table other
  have hinjective : Function.Injective ids.source := by
    intro i j hij
    simpa [ids] using congrArg String.length hij
  have hempty : (LiveSet.empty Factory.plain ids true ⟨fun _ => 0, 0⟩).Fresh :=
    LiveSet.fresh_plain rfl hinjective (by simp [LiveSet.uniqueIds, LiveSet.liveActors, LiveSet.empty])
  obtain ⟨hkept, hfresh⟩ := LiveSet.lasts_ready.migrate earlier host
    ⟨LiveSet.kept_empty Factory.plain ids true ⟨fun _ => 0, 0⟩, hempty⟩
  have hfactory : set.factory = Factory.plain := congrArg Prod.fst (rules_migrate earlier host _)
  have hdistinct : table.names.Nodup := by decide
  have hperm : other.Perm table := List.reverse_perm table
  have huniform : set.factory.Uniform := hfactory ▸ Factory.faithful_plain.uniform
  obtain ⟨htable, hothers⟩ := isolated_migrateAll hkept hfresh hdistinct host
  obtain ⟨hother, -, -, hlikenesses⟩ := hothers other hperm
  exact ⟨hkept, hfresh, hdistinct, hperm, huniform, by decide, by decide, by decide, htable, hother,
    hlikenesses huniform⟩

end MigrationTable
end ScriptedActors
