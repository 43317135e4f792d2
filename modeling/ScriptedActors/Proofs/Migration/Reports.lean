import ScriptedActors.Proofs.Actor.Viewers
import ScriptedActors.Proofs.Migration.Resumption

set_option autoImplicit false

/-!
# What a call reports

A call deals with its records one after the other. It makes an actor of a record whose key no live actor
has when its turn comes, if its location is valid, and the new actors stand behind the old ones in the
order of their records. A call that ends well counts every record once. One that fails keeps what it made
of the records before the one that ended it.
-/
namespace ScriptedActors

def Factory.Builds {σ : Type} (factory : Factory σ) : Prop :=
  ∀ supply kind location viewers a later,
    factory.construct supply kind location viewers = (.ok a, later) →
      a.kind = kind ∧ a.spawn = location ∧ a.state.location = location ∧
        a.viewers = Actor.withoutRepeats viewers

theorem Factory.builds_queue : Factory.queue.Builds := by
  intro supply kind location viewers a later h
  obtain ⟨uniqueId, handle, rfl⟩ := Factory.construct_queue h
  exact ⟨rfl, rfl, rfl, rfl⟩

namespace RecordMigration
variable {σ : Type}

structure MadeOf (m : RecordMigration) (host : Host) (r : ExternalRecord) (location : Location)
    (a : Actor) : Prop where
  id : a.id = r.name
  kind : a.kind = (r.kind.map EntityKind.ofText).getD m.defaultKind
  spawn : a.spawn = location
  current : a.state.location = location
  system : a.state.tags.find? migratedFromTag = some m.dependency
  source : a.state.tags.find? sourceKeyTag = some r.key
  viewers : a.viewers = Actor.withoutRepeats (host.observers location)
  viewers_once : a.viewers.Nodup
  sees : ∀ name, name ∈ a.viewers ↔ name ∈ host.observers location

structure Due (m : RecordMigration) (live : List Actor) (r : ExternalRecord) (location : Location) :
    Prop where
  fresh : ∀ a ∈ live, ¬(a.state.tags.find? migratedFromTag = some m.dependency ∧
    a.state.tags.find? sourceKeyTag = some r.key)
  valid : Location.ofText r.location = .ok location

/-- The actors that are made of records, each of one that is due when its turn comes. -/
inductive Makes (m : RecordMigration) (host : Host) :
    List Actor → List ExternalRecord → List Actor → Prop where
  | nil {live : List Actor} : Makes m host live [] []
  | made {live : List Actor} {r : ExternalRecord} {rest : List ExternalRecord} {location : Location}
      {a : Actor} {later : List Actor} : m.Due live r location → m.MadeOf host r location a →
      Makes m host (live ++ [a]) rest later → Makes m host live (r :: rest) (a :: later)
  | passed {live : List Actor} {r : ExternalRecord} {rest : List ExternalRecord} {later : List Actor} :
      (∀ location, ¬m.Due live r location) → Makes m host live rest later →
      Makes m host live (r :: rest) later

inductive Accounts (m : RecordMigration) (host : Host) (set : LiveSet σ) :
    Except MigrationError MigrationReport × LiveSet σ → Prop where
  | complete {records : List ExternalRecord} {made : List Actor} {report : MigrationReport}
      {after : LiveSet σ} : m.records = .ok records → m.Makes host set.liveActors records made →
      after.liveActors = set.liveActors ++ made → report.imported = made.length →
      report.imported + report.alreadyImported + report.skipped.length = records.length →
      Accounts m host set (.ok report, after)
  | ended {before rest : List ExternalRecord} {r : ExternalRecord} {location : Location}
      {made : List Actor} {cause : ActorError} {after : LiveSet σ} :
      m.records = .ok (before ++ r :: rest) → m.Makes host set.liveActors before made →
      m.Due (set.liveActors ++ made) r location → after.liveActors = set.liveActors ++ made →
      Accounts m host set (.error (.actor m.dependency cause), after)
  | unavailable {fault : SourceFault} : m.records = .error fault →
      Accounts m host set (.error (.sourceUnavailable m.dependency fault.message), set)

/-- How a call that has a report already deals with further records. -/
inductive Continues (m : RecordMigration) (host : Host) (set : LiveSet σ) (records : List ExternalRecord)
    (start : MigrationReport) : Except MigrationError MigrationReport × LiveSet σ → Prop where
  | complete {made : List Actor} {report : MigrationReport} {after : LiveSet σ} :
      m.Makes host set.liveActors records made → after.liveActors = set.liveActors ++ made →
      report.imported = start.imported + made.length →
      report.imported + report.alreadyImported + report.skipped.length =
        start.imported + start.alreadyImported + start.skipped.length + records.length →
      Continues m host set records start (.ok report, after)
  | ended {before rest : List ExternalRecord} {r : ExternalRecord} {location : Location}
      {made : List Actor} {cause : ActorError} {after : LiveSet σ} : records = before ++ r :: rest →
      m.Makes host set.liveActors before made → m.Due (set.liveActors ++ made) r location →
      after.liveActors = set.liveActors ++ made →
      Continues m host set records start (.error (.actor m.dependency cause), after)

section Accounting
variable {m : RecordMigration} {host : Host} {set : LiveSet σ} {r : ExternalRecord}
  {rest : List ExternalRecord} {location : Location} {start : MigrationReport}
  {result : Except MigrationError MigrationReport × LiveSet σ}

theorem due_iff (set : LiveSet σ) : m.Due set.liveActors r location ↔
    set.hasImportOf m.dependency r.key = false ∧ r.location? = some location := by
  have hvalid : Location.ofText r.location = .ok location ↔ r.location? = some location := by
    rw [ExternalRecord.location?]
    cases Location.ofText r.location with
    | error e => simp [Except.toOption]
    | ok place => simp [Except.toOption]
  have hfresh : (∀ a ∈ set.liveActors, ¬(a.state.tags.find? migratedFromTag = some m.dependency ∧
      a.state.tags.find? sourceKeyTag = some r.key)) ↔ set.hasImportOf m.dependency r.key = false := by
    simp [LiveSet.hasImportOf, Actor.isImportOf]
  rw [← hfresh, ← hvalid]
  exact ⟨fun h => ⟨h.fresh, h.valid⟩, fun h => ⟨h.1, h.2⟩⟩

theorem madeOf_mark {viewers : List String} {a : Actor} (hkind : a.kind = m.kindOf r)
    (hspawn : a.spawn = location) (hcurrent : a.state.location = location)
    (hviewers : a.viewers = Actor.withoutRepeats viewers) (hseen : viewers = host.observers location) :
    m.MadeOf host r location (m.mark r a) := by
  have horigin := m.origin_mark r a
  rw [Actor.origin, Prod.mk.injEq] at horigin
  have hmarked : (m.mark r a).viewers = Actor.withoutRepeats (host.observers location) :=
    hseen ▸ hviewers
  refine ⟨rfl, ?_, hspawn, hcurrent, horigin.1, horigin.2, hmarked, ?_, ?_⟩
  · change a.kind = _
    rw [hkind, kindOf]
    cases r.kind with
    | none => rfl
    | some kind => rfl
  · rw [hmarked]
    exact Actor.nodup_withoutRepeats _
  · intro name
    rw [hmarked]
    exact Actor.mem_withoutRepeats _ name

theorem made_of_created (hset : LiveSet.Kept set) (hfactory : set.factory.Builds) {identity : Nat}
    {after : LiveSet σ}
    (h : set.create host (m.kindOf r) location none (m.mark r) = (.ok identity, after)) :
    ∃ a, m.MadeOf host r location a ∧ after.liveActors = set.liveActors ++ [a] := by
  rcases LiveSet.failed_or_entered_create hset host (m.kindOf r) location none (m.mark r) with
    ⟨_, supply, heq⟩ | ⟨a, supply, hconstruct, hentered⟩
  · cases h.symm.trans heq
  · obtain ⟨hkind, hspawn, hcurrent, hviewers⟩ := hfactory _ _ _ _ _ _ hconstruct
    rw [h] at hentered
    cases hentered with
    | admitted hlive _ => exact ⟨_, madeOf_mark hkind hspawn hcurrent hviewers rfl, hlive⟩

theorem liveActors_of_failed (hset : LiveSet.Kept set) {error : ActorError} {after : LiveSet σ}
    (h : set.create host (m.kindOf r) location none (m.mark r) = (.error error, after)) :
    after.liveActors = set.liveActors := by
  rcases LiveSet.failed_or_entered_create hset host (m.kindOf r) location none (m.mark r) with
    ⟨_, supply, heq⟩ | ⟨a, supply, -, hentered⟩
  · obtain ⟨-, rfl⟩ := Prod.mk.inj (h.symm.trans heq)
    rfl
  · rw [h] at hentered
    cases hentered with
    | refused hlive _ => exact hlive

theorem Continues.passed (hpassed : ∀ location, ¬m.Due set.liveActors r location)
    {later : MigrationReport} (himported : later.imported = start.imported)
    (htotal : later.imported + later.alreadyImported + later.skipped.length =
      start.imported + start.alreadyImported + start.skipped.length + 1)
    (h : Continues m host set rest later result) : Continues m host set (r :: rest) start result := by
  cases h with
  | complete hmakes hlive hcount hsum =>
    refine .complete (.passed hpassed hmakes) hlive ?_ ?_
    · omega
    · rw [List.length_cons]
      omega
  | @ended before _ _ _ _ _ _ hrecords hmakes hdue hlive =>
    have hall : r :: rest = (r :: before) ++ _ := congrArg (List.cons r) hrecords
    exact .ended hall (.passed hpassed hmakes) hdue hlive

theorem Continues.made {next : LiveSet σ} {a : Actor} (hdue : m.Due set.liveActors r location)
    (hmade : m.MadeOf host r location a) (hnext : next.liveActors = set.liveActors ++ [a])
    (h : Continues m host next rest { start with imported := start.imported + 1 } result) :
    Continues m host set (r :: rest) start result := by
  cases h with
  | complete hmakes hlive hcount hsum =>
    rw [hnext] at hmakes hlive
    rw [List.append_assoc, List.singleton_append] at hlive
    dsimp only at hcount hsum
    refine .complete (.made hdue hmade hmakes) hlive ?_ ?_
    · rw [List.length_cons]
      omega
    · rw [List.length_cons]
      omega
  | @ended before _ _ _ made _ _ hrecords hmakes hlast hlive =>
    rw [hnext] at hmakes hlast hlive
    rw [List.append_assoc, List.singleton_append] at hlast hlive
    have hall : r :: rest = (r :: before) ++ _ := congrArg (List.cons r) hrecords
    exact .ended hall (.made hdue hmade hmakes) hlast hlive

theorem continues_importFrom (hset : LiveSet.Kept set) (hfactory : set.factory.Builds)
    (records : List ExternalRecord) (start : MigrationReport) :
    Continues m host set records start (m.importFrom host records start set) := by
  induction records generalizing start set with
  | nil => exact .complete .nil (List.append_nil _).symm rfl rfl
  | cons r rest ih =>
    have hdealt := m.dealt_importFrom host r rest start set
    generalize m.importFrom host (r :: rest) start set = result at *
    cases hdealt with
    | known himported =>
      refine .passed ?_ ?_ ?_ (ih hset hfactory _)
      · intro location hdue
        rw [due_iff, himported] at hdue
        cases hdue.1
      · rfl
      · dsimp only
        omega
    | skipped text _ hlocation =>
      refine .passed ?_ ?_ ?_ (ih hset hfactory _)
      · intro location hdue
        rw [due_iff, hlocation] at hdue
        cases hdue.2
      · rfl
      · dsimp only
        rw [List.length_append, List.length_singleton]
        omega
    | failed hnone hlocation hcreate =>
      have hdue := (due_iff set).mpr ⟨hnone, hlocation⟩
      have hlive := liveActors_of_failed hset hcreate
      rw [← List.append_nil set.liveActors] at hdue hlive
      exact .ended (List.nil_append _).symm .nil hdue hlive
    | @created location _ after hnone hlocation hcreate =>
      obtain ⟨a, hmade, hlive⟩ := made_of_created hset hfactory hcreate
      have hkept := hset.create host (m.kindOf r) location none (m.mark r)
      have hsame := LiveSet.factory_create set host (m.kindOf r) location none (m.mark r)
      rw [hcreate] at hkept hsame
      exact .made ((due_iff set).mpr ⟨hnone, hlocation⟩) hmade hlive (ih hkept (hsame ▸ hfactory) _)

/-- Every record of a call is accounted for, in the report and in the live set, whatever the factory
does and however the keys repeat. -/
theorem accounts_migrate (m : RecordMigration) (host : Host) {set : LiveSet σ}
    (hset : LiveSet.Kept set) (hfactory : set.factory.Builds) :
    m.Accounts host set (m.migrate host set) := by
  rw [migrate]
  cases hrecords : m.records with
  | error fault => exact .unavailable hrecords
  | ok records =>
    have hcontinues : m.Continues host set records .empty (m.importFrom host records .empty set) :=
      continues_importFrom hset hfactory records .empty
    dsimp only
    generalize m.importFrom host records .empty set = result at *
    cases hcontinues with
    | complete hmakes hlive hcount hsum =>
      rw [MigrationReport.empty, Nat.zero_add] at hcount hsum
      refine .complete hrecords hmakes hlive hcount (hsum.trans ?_)
      exact Nat.zero_add _
    | ended hsplit hmakes hdue hlive =>
      exact .ended (hsplit ▸ hrecords) hmakes hdue hlive

/-- A record without a location, a key that is repeated, and a factory that has two actors: a call with the
first four records ends well, and a call with all five ends at the last one. -/
theorem accounts_repeated_keys :
    let records : List ExternalRecord := [⟨"1", "a", some " cow ", "w"⟩, ⟨"2", "b", none, ""⟩,
      ⟨"1", "c", none, "w"⟩, ⟨"2", "d", none, "w"⟩]
    let last : ExternalRecord := ⟨"3", "e", none, "w"⟩
    let m : RecordMigration := ⟨"Citizens", ⟨"PLAYER"⟩, .ok records⟩
    let more : RecordMigration := ⟨"Citizens", ⟨"PLAYER"⟩, .ok (records ++ [last])⟩
    let host : Host := { Host.detached with observers := fun _ => ["steve", "alex", "steve"] }
    let handles : List (String × Handle) := [("u", fun _ => .done), ("v", fun _ => .panicked)]
    let set := LiveSet.empty Factory.queue handles true ⟨fun _ => 0, 0⟩
    LiveSet.Kept set ∧ set.factory.Builds ∧
      (m.migrate host set).1 = .ok ⟨2, 1, [MigrationError.message (.invalidRecord "Citizens" "2"
        "location is missing a world name")]⟩ ∧
      ((m.migrate host set).2.liveActors.map fun a => (a.id, a.kind.name, a.viewers)) =
        [("a", "COW", ["steve", "alex"]), ("d", "PLAYER", ["steve", "alex"])] ∧
      m.Accounts host set (m.migrate host set) ∧
      (more.migrate host set).1 = .error (.actor "Citizens" (.construction "PLAYER" "none is left")) ∧
      more.Accounts host set (more.migrate host set) := by
  intro records last m more host handles set
  have hset : LiveSet.Kept set := LiveSet.kept_empty Factory.queue handles true ⟨fun _ => 0, 0⟩
  exact ⟨hset, Factory.builds_queue, by decide, by decide, accounts_migrate m host hset Factory.builds_queue,
    by decide, accounts_migrate more host hset Factory.builds_queue⟩

end Accounting

end RecordMigration
end ScriptedActors
