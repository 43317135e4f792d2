import ScriptedActors.Proofs.Migration.Origins

set_option autoImplicit false

/-!
# What an import does

An import goes through its records in order. Of each key that has no live import it imports the first
record with a valid location, unless an error ends it before. What it has done and what it has left to
do together are what there was to do, and nothing else tells them apart than the tags of the live
actors.
-/
namespace ScriptedActors

inductive Whereabouts where
  | spawned
  | current

def Actor.locationAt (a : Actor) : Whereabouts → Location
  | .spawned => a.spawn
  | .current => a.state.location

/-- An imported actor as far as its record decides about it. -/
structure Import where
  key : String
  id : String
  kind : EntityKind
  location : Location
  tags : Dictionary String

def Actor.asImport? (place : Whereabouts) (dependency : String) (a : Actor) : Option Import :=
  match a.origin with
  | (some other, some key) =>
    if other = dependency then some ⟨key, a.id, a.kind, a.locationAt place, a.state.tags⟩ else none
  | _ => none

def LiveSet.imports {σ : Type} (set : LiveSet σ) (place : Whereabouts) (dependency : String) :
    List Import :=
  set.liveActors.filterMap (Actor.asImport? place dependency)

def LiveSet.importedKeys {σ : Type} (set : LiveSet σ) (place : Whereabouts) (dependency : String) :
    List String :=
  (set.imports place dependency).map Import.key

/-- The first record with a valid location for each key that is not known, in order. -/
def firstPlaced (known : List String) : List ExternalRecord → List (ExternalRecord × Location)
  | [] => []
  | r :: rest =>
    match r.location? with
    | none => firstPlaced known rest
    | some location =>
      if r.key ∈ known then firstPlaced known rest
      else (r, location) :: firstPlaced (known ++ [r.key]) rest

section FirstPlaced
variable {known : List String} {r : ExternalRecord} {rest records : List ExternalRecord}
  {location : Location}

theorem firstPlaced_cons_none (h : r.location? = none) :
    firstPlaced known (r :: rest) = firstPlaced known rest := by
  rw [firstPlaced, h]

theorem firstPlaced_cons_known (h : r.key ∈ known) :
    firstPlaced known (r :: rest) = firstPlaced known rest := by
  rw [firstPlaced]
  cases r.location? with
  | none => rfl
  | some location => exact if_pos h

theorem firstPlaced_cons_fresh (h : r.location? = some location) (hfresh : r.key ∉ known) :
    firstPlaced known (r :: rest) = (r, location) :: firstPlaced (known ++ [r.key]) rest := by
  rw [firstPlaced, h]
  exact if_neg hfresh

theorem firstPlaced_cases (known : List String) (r : ExternalRecord) :
    r.location? = none ∨ r.key ∈ known ∨ ∃ location, r.location? = some location ∧ r.key ∉ known := by
  cases hlocation : r.location? with
  | none => exact .inl rfl
  | some location =>
    by_cases hknown : r.key ∈ known
    · exact .inr (.inl hknown)
    · exact .inr (.inr ⟨location, rfl, hknown⟩)

theorem firstPlaced_resume {done todo : List (ExternalRecord × Location)}
    (h : firstPlaced known records = done ++ todo) :
    firstPlaced (known ++ done.map fun p => p.1.key) records = todo := by
  induction records generalizing known done with
  | nil => exact (List.append_eq_nil_iff.mp h.symm).2.symm
  | cons r rest ih =>
    rcases firstPlaced_cases known r with hnone | hknown | ⟨location, hlocation, hfresh⟩
    · rw [firstPlaced_cons_none hnone] at h ⊢
      exact ih h
    · rw [firstPlaced_cons_known hknown] at h
      rw [firstPlaced_cons_known (List.mem_append_left _ hknown)]
      exact ih h
    · cases done with
      | nil =>
        rw [List.map_nil, List.append_nil]
        exact h
      | cons p done =>
        rw [firstPlaced_cons_fresh hlocation hfresh, List.cons_append] at h
        obtain ⟨rfl, hdone⟩ := List.cons.inj h
        have hlater := ih hdone
        rw [List.append_assoc] at hlater
        rw [firstPlaced_cons_known (by simp)]
        exact hlater

theorem firstPlaced_sublist (known : List String) (records : List ExternalRecord) :
    ((firstPlaced known records).map Prod.fst).Sublist records := by
  induction records generalizing known with
  | nil => exact List.Sublist.slnil
  | cons r rest ih =>
    rcases firstPlaced_cases known r with hnone | hknown | ⟨location, hlocation, hfresh⟩
    · rw [firstPlaced_cons_none hnone]
      exact (ih known).cons r
    · rw [firstPlaced_cons_known hknown]
      exact (ih known).cons r
    · rw [firstPlaced_cons_fresh hlocation hfresh]
      exact (ih _).cons_cons r

def IsFirst (known : List String) (records : List ExternalRecord) (r : ExternalRecord)
    (location : Location) : Prop :=
  ∃ before after, records = before ++ r :: after ∧ r.location? = some location ∧ r.key ∉ known ∧
    ∀ e ∈ before, e.key = r.key → e.location? = none

theorem IsFirst.not_known (h : IsFirst known records r location) : r.key ∉ known := by
  obtain ⟨-, -, -, -, hkey, -⟩ := h
  exact hkey

theorem isFirst_cons {e : ExternalRecord} :
    IsFirst known (e :: rest) r location ↔
      (e = r ∧ r.location? = some location ∧ r.key ∉ known) ∨
        (IsFirst known rest r location ∧ (e.key = r.key → e.location? = none)) := by
  constructor
  · rintro ⟨before, after, hsplit, hr, hkey, hbefore⟩
    cases before with
    | nil => exact .inl ⟨(List.cons.inj hsplit).1, hr, hkey⟩
    | cons first before =>
      obtain ⟨rfl, hrest⟩ := List.cons.inj hsplit
      obtain ⟨hfirst, hbefore⟩ := List.forall_mem_cons.mp hbefore
      exact .inr ⟨⟨before, after, hrest, hr, hkey, hbefore⟩, hfirst⟩
  · rintro (⟨rfl, hr, hkey⟩ | ⟨⟨before, after, rfl, hr, hkey, hbefore⟩, hfirst⟩)
    · exact ⟨[], rest, rfl, hr, hkey, by simp⟩
    · exact ⟨e :: before, after, rfl, hr, hkey, List.forall_mem_cons.mpr ⟨hfirst, hbefore⟩⟩

theorem isFirst_append_known {key : String} :
    IsFirst (known ++ [key]) records r location ↔ IsFirst known records r location ∧ r.key ≠ key := by
  simp only [IsFirst, List.mem_append, List.mem_singleton, not_or]
  constructor
  · rintro ⟨before, after, hsplit, hr, ⟨hkey, hne⟩, hbefore⟩
    exact ⟨⟨before, after, hsplit, hr, hkey, hbefore⟩, hne⟩
  · rintro ⟨⟨before, after, hsplit, hr, hkey, hbefore⟩, hne⟩
    exact ⟨before, after, hsplit, hr, ⟨hkey, hne⟩, hbefore⟩

theorem mem_firstPlaced :
    (r, location) ∈ firstPlaced known records ↔ IsFirst known records r location := by
  induction records generalizing known with
  | nil => simp [firstPlaced, IsFirst]
  | cons e rest ih =>
    rw [isFirst_cons]
    rcases firstPlaced_cases known e with hnone | hknown | ⟨placed, hplaced, hfresh⟩
    · rw [firstPlaced_cons_none hnone, ih]
      constructor
      · exact fun h => .inr ⟨h, fun _ => hnone⟩
      · rintro (⟨rfl, hr, -⟩ | ⟨h, -⟩)
        · exact absurd (hnone.symm.trans hr) (by simp)
        · exact h
    · rw [firstPlaced_cons_known hknown, ih]
      constructor
      · exact fun h => .inr ⟨h, fun hsame => absurd (hsame ▸ hknown) h.not_known⟩
      · rintro (⟨rfl, -, hkey⟩ | ⟨h, -⟩)
        · exact absurd hknown hkey
        · exact h
    · rw [firstPlaced_cons_fresh hplaced hfresh, List.mem_cons, ih, isFirst_append_known]
      constructor
      · rintro (heq | ⟨h, hne⟩)
        · obtain ⟨rfl, rfl⟩ := Prod.mk.inj heq
          exact .inl ⟨rfl, hplaced, hfresh⟩
        · exact .inr ⟨h, fun hsame => absurd hsame.symm hne⟩
      · rintro (⟨rfl, hr, -⟩ | ⟨h, hfirst⟩)
        · exact .inl (by rw [Option.some.inj (hplaced.symm.trans hr)])
        · refine .inr ⟨h, fun hsame => ?_⟩
          exact absurd ((hfirst hsame.symm).symm.trans hplaced) (by simp)

end FirstPlaced

/-- Constructs actors of the kind and at the location that it is given, and tags them by these and the
viewers alone. -/
def Factory.Faithful {σ : Type} (factory : Factory σ)
    (preset : EntityKind → Location → List String → Dictionary String) : Prop :=
  ∀ supply kind location viewers a later,
    factory.construct supply kind location viewers = (.ok a, later) →
      a.kind = kind ∧ a.spawn = location ∧ a.state.location = location ∧
        a.state.tags = preset kind location viewers

namespace RecordMigration
variable {σ : Type}

def portrait (m : RecordMigration) (host : Host)
    (preset : EntityKind → Location → List String → Dictionary String)
    (p : ExternalRecord × Location) : Import where
  key := p.1.key
  id := p.1.name
  kind := m.kindOf p.1
  location := p.2
  tags := ((preset (m.kindOf p.1) p.2 (host.observers p.2)).insert migratedFromTag m.dependency).insert
    sourceKeyTag p.1.key

/-- The imports that are there once all records are imported. -/
def prospect (m : RecordMigration) (host : Host)
    (preset : EntityKind → Location → List String → Dictionary String) (place : Whereabouts)
    (records : List ExternalRecord) (set : LiveSet σ) : List Import :=
  set.imports place m.dependency ++
    (firstPlaced (set.importedKeys place m.dependency) records).map (m.portrait host preset)

end RecordMigration

section Importing
variable {σ : Type} {m : RecordMigration} {host : Host}
  {preset : EntityKind → Location → List String → Dictionary String} {place : Whereabouts}
  {set : LiveSet σ}

theorem origin_eq_iff_asImport? (place : Whereabouts) (a : Actor) (dependency key : String) :
    a.origin = (some dependency, some key) ↔
      ∃ i, a.asImport? place dependency = some i ∧ i.key = key := by
  rw [Actor.asImport?]
  obtain ⟨_ | other, _ | found⟩ := a.origin
  · simp
  · simp
  · simp
  · by_cases hother : other = dependency
    · simp [hother]
    · simp [hother]

theorem hasImportOf_iff_importedKeys (set : LiveSet σ) (place : Whereabouts) (dependency key : String) :
    set.hasImportOf dependency key = true ↔ key ∈ set.importedKeys place dependency := by
  rw [LiveSet.hasImportOf_iff, LiveSet.origins, List.mem_map, LiveSet.importedKeys, List.mem_map]
  simp only [LiveSet.imports, List.mem_filterMap, origin_eq_iff_asImport? place]
  constructor
  · rintro ⟨a, ha, i, hi, hkey⟩
    exact ⟨i, ⟨a, ha, hi⟩, hkey⟩
  · rintro ⟨i, ⟨a, ha, hi⟩, hkey⟩
    exact ⟨a, ha, i, hi, hkey⟩

theorem asImport?_mark (place : Whereabouts) {r : ExternalRecord} {location : Location} {a : Actor}
    (hkind : a.kind = m.kindOf r) (hspawn : a.spawn = location) (hcurrent : a.state.location = location)
    (htags : a.state.tags = preset (m.kindOf r) location (host.observers location)) :
    (m.mark r a).asImport? place m.dependency = some (m.portrait host preset (r, location)) := by
  have hlocation : (m.mark r a).locationAt place = location := by
    cases place with
    | spawned => exact hspawn
    | current => exact hcurrent
  rw [Actor.asImport?, m.origin_mark, hlocation]
  simp [RecordMigration.mark, Actor.change, ActorState.apply, RecordMigration.portrait, hkind, htags]

theorem imports_refused {after : LiveSet σ} (h : after.liveActors = set.liveActors)
    (dependency : String) : after.imports place dependency = set.imports place dependency := by
  rw [LiveSet.imports, h, LiveSet.imports]

theorem imports_admitted {after : LiveSet σ} {a : Actor} (h : after.liveActors = set.liveActors ++ [a])
    (dependency : String) : after.imports place dependency =
      set.imports place dependency ++ (a.asImport? place dependency).toList := by
  rw [LiveSet.imports, h, List.filterMap_append, LiveSet.imports]
  cases hlast : a.asImport? place dependency with
  | none => simp [hlast]
  | some i => simp [hlast]

theorem imports_of_failed (place : Whereabouts) (hset : LiveSet.Kept set) {kind : EntityKind}
    {location : Location} {viewers : Option (List String)} {prepare : Actor → Actor}
    {error : ActorError} {after : LiveSet σ}
    (h : set.create host kind location viewers prepare = (.error error, after)) (dependency : String) :
    after.imports place dependency = set.imports place dependency := by
  rcases LiveSet.failed_or_entered_create hset host kind location viewers prepare with
    ⟨_, supply, heq⟩ | ⟨a, supply, -, hentered⟩
  · obtain ⟨-, rfl⟩ := Prod.mk.inj (h.symm.trans heq)
    rfl
  · rw [h] at hentered
    cases hentered with
    | refused hlive _ => exact imports_refused hlive dependency

theorem imports_of_created (place : Whereabouts) (hset : LiveSet.Kept set)
    (hfactory : set.factory.Faithful preset) {r : ExternalRecord} {location : Location} {identity : Nat}
    {after : LiveSet σ}
    (h : set.create host (m.kindOf r) location none (m.mark r) = (.ok identity, after)) :
    after.imports place m.dependency =
      set.imports place m.dependency ++ [m.portrait host preset (r, location)] := by
  rcases LiveSet.failed_or_entered_create hset host (m.kindOf r) location none (m.mark r) with
    ⟨_, supply, heq⟩ | ⟨a, supply, hconstruct, hentered⟩
  · cases h.symm.trans heq
  · obtain ⟨hkind, hspawn, hcurrent, htags⟩ := hfactory _ _ _ _ _ _ hconstruct
    have hmarked := asImport?_mark place hkind hspawn hcurrent htags
    rw [h] at hentered
    cases hentered with
    | admitted hlive _ =>
      rw [imports_admitted hlive, hmarked]
      rfl

theorem importedKeys_of_created (place : Whereabouts) (hset : LiveSet.Kept set)
    (hfactory : set.factory.Faithful preset) {r : ExternalRecord} {location : Location} {identity : Nat}
    {after : LiveSet σ}
    (h : set.create host (m.kindOf r) location none (m.mark r) = (.ok identity, after)) :
    after.importedKeys place m.dependency = set.importedKeys place m.dependency ++ [r.key] := by
  rw [LiveSet.importedKeys, imports_of_created place hset hfactory h, List.map_append]
  rfl

/-- An import does the first part of what there is to do, and all of it unless an error ends it. -/
theorem imports_importFrom (m : RecordMigration) (host : Host) (place : Whereabouts)
    (hset : LiveSet.Kept set) (hfactory : set.factory.Faithful preset) (records : List ExternalRecord)
    (report : MigrationReport) :
    ∃ done todo, firstPlaced (set.importedKeys place m.dependency) records = done ++ todo ∧
      (m.importFrom host records report set).2.imports place m.dependency =
        set.imports place m.dependency ++ done.map (m.portrait host preset) ∧
      ∀ last, (m.importFrom host records report set).1 = .ok last → todo = [] := by
  induction records generalizing report set with
  | nil => exact ⟨[], [], rfl, (List.append_nil _).symm, fun _ _ => rfl⟩
  | cons r rest ih =>
    have hknown := hasImportOf_iff_importedKeys set place m.dependency r.key
    have hdealt := m.dealt_importFrom host r rest report set
    generalize m.importFrom host (r :: rest) report set = result at *
    cases hdealt with
    | known himported =>
      rw [firstPlaced_cons_known (hknown.mp himported)]
      exact ih hset hfactory _
    | skipped text _ hlocation =>
      rw [firstPlaced_cons_none hlocation]
      exact ih hset hfactory _
    | failed _ _ hcreate =>
      refine ⟨[], _, rfl, ?_, ?_⟩
      · rw [List.map_nil, List.append_nil]
        exact imports_of_failed place hset hcreate m.dependency
      · rintro last ⟨⟩
    | @created location identity after hnone hlocation hcreate =>
      have hfresh : r.key ∉ set.importedKeys place m.dependency := by
        rw [← hknown, hnone]
        decide
      have hafter := hset.create host (m.kindOf r) location none (m.mark r)
      have hsame := LiveSet.factory_create set host (m.kindOf r) location none (m.mark r)
      rw [hcreate] at hafter hsame
      have himports := imports_of_created place hset hfactory hcreate
      obtain ⟨done, todo, hsplit, hdone, hall⟩ := ih hafter (hsame ▸ hfactory) _
      rw [importedKeys_of_created place hset hfactory hcreate] at hsplit
      refine ⟨(r, location) :: done, todo, ?_, ?_, hall⟩
      · rw [firstPlaced_cons_fresh hlocation hfresh, hsplit, List.cons_append]
      · rw [List.map_cons, List.append_cons, ← himports]
        exact hdone

theorem importFrom_of_complete {records : List ExternalRecord}
    (h : firstPlaced (set.importedKeys place m.dependency) records = []) (report : MigrationReport) :
    ∃ already skipped, m.importFrom host records report set =
      (.ok ⟨report.imported, report.alreadyImported + already, report.skipped ++ skipped⟩, set) ∧
      already + skipped.length = records.length := by
  induction records generalizing report with
  | nil => exact ⟨0, [], by rw [RecordMigration.importFrom, List.append_nil]; rfl, rfl⟩
  | cons r rest ih =>
    have hknown := hasImportOf_iff_importedKeys set place m.dependency r.key
    -- A record that is neither known nor misplaced would be left to do.
    have hnothing {location : Location} (hnone : set.hasImportOf m.dependency r.key = false)
        (hlocation : r.location? = some location) : False := by
      have hfresh : r.key ∉ set.importedKeys place m.dependency := by
        rw [← hknown, hnone]
        decide
      rw [firstPlaced_cons_fresh hlocation hfresh] at h
      exact List.cons_ne_nil _ _ h
    have hdealt := m.dealt_importFrom host r rest report set
    generalize m.importFrom host (r :: rest) report set = result at *
    cases hdealt with
    | known himported =>
      rw [firstPlaced_cons_known (hknown.mp himported)] at h
      obtain ⟨already, skipped, heq, hlength⟩ :=
        ih h { report with alreadyImported := report.alreadyImported + 1 }
      refine ⟨already + 1, skipped, ?_, ?_⟩
      · rw [heq, Nat.add_assoc, Nat.add_comm 1]
      · rw [List.length_cons]
        omega
    | skipped text _ hlocation =>
      rw [firstPlaced_cons_none hlocation] at h
      obtain ⟨already, skipped, heq, hlength⟩ :=
        ih h { report with skipped := report.skipped ++ [text] }
      refine ⟨already, text :: skipped, ?_, ?_⟩
      · rw [heq, List.append_assoc, List.singleton_append]
      · rw [List.length_cons, List.length_cons]
        omega
    | failed hnone hlocation _ => exact (hnothing hnone hlocation).elim
    | created hnone hlocation _ => exact (hnothing hnone hlocation).elim

theorem prospect_congr {τ : Type} {after : LiveSet τ} {records : List ExternalRecord}
    (h : after.imports place m.dependency = set.imports place m.dependency) :
    m.prospect host preset place records after = m.prospect host preset place records set := by
  rw [RecordMigration.prospect, RecordMigration.prospect, LiveSet.importedKeys, LiveSet.importedKeys, h]

/-- A call keeps what the imports will be once all is done; one without an error has done it all. -/
theorem prospect_migrate {records : List ExternalRecord} (hrecords : m.records = .ok records)
    (host : Host) (place : Whereabouts) (hset : LiveSet.Kept set)
    (hfactory : set.factory.Faithful preset) :
    m.prospect host preset place records (m.migrate host set).2 =
        m.prospect host preset place records set ∧
      ∀ report, (m.migrate host set).1 = .ok report →
        firstPlaced ((m.migrate host set).2.importedKeys place m.dependency) records = [] := by
  have hmigrate : m.migrate host set = m.importFrom host records .empty set := by
    rw [RecordMigration.migrate, hrecords]
  obtain ⟨done, todo, hsplit, himports, hall⟩ :=
    imports_importFrom m host place hset hfactory records .empty
  rw [← hmigrate] at himports hall
  have hkeys : (m.migrate host set).2.importedKeys place m.dependency =
      set.importedKeys place m.dependency ++ done.map fun p => p.1.key := by
    rw [LiveSet.importedKeys, himports, List.map_append, List.map_map]
    rfl
  have htodo := firstPlaced_resume hsplit
  rw [← hkeys] at htodo
  refine ⟨?_, ?_⟩
  · rw [RecordMigration.prospect, htodo, himports, RecordMigration.prospect, hsplit, List.map_append,
      List.append_assoc]
  · intro report hreport
    rw [htodo, hall report hreport]

end Importing

end ScriptedActors
