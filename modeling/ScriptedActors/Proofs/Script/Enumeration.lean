import Mathlib
import ScriptedActors.Proofs.Files.Directories
import ScriptedActors.Proofs.Outcomes
import ScriptedActors.Proofs.Script.Differences
import ScriptedActors.Proofs.Script.StoredFiles

set_option autoImplicit false

/-!
# Directories in any order

The entries of a directory come in an order that says nothing. Its scripts are put in the order of
their file names, which are distinct, so there is one such order only: what is loaded, the first file
that cannot be, and the last one of each name up to case are the same for every listing.
-/
namespace ScriptedActors
open Text

namespace ScriptFile
variable {f : ScriptFile}

structure Listing (entries : List (FileName × FileEntry)) (files : List ScriptFile) : Prop where
  mem_iff : ∀ f, f ∈ files ↔ (f.name, FileEntry.file f.content) ∈ entries ∧ ∃ stem, IsStemOf stem f.name
  increasing : files.Pairwise fun f g => f.name < g.name

theorem ofEntry?_eq_some_iff (entry : FileName × FileEntry) :
    ofEntry? entry = some f ↔ entry = (f.name, .file f.content) ∧ ∃ stem, IsStemOf stem f.name := by
  obtain ⟨name, kind⟩ := entry
  obtain ⟨name', content'⟩ := f
  cases kind with
  | directory => simp [ ofEntry?]
  | file content =>
    rw [ ofEntry?, ← isScriptName_iff]
    split
    · rename_i hname
      constructor
      · rintro ⟨⟩
        exact ⟨rfl, hname⟩
      · rintro ⟨⟨⟩, -⟩
        rfl
    · rename_i hname
      constructor
      · rintro ⟨⟩
      · rintro ⟨⟨⟩, hname'⟩
        exact absurd hname' hname

theorem mem_stored (entries : List (FileName × FileEntry)) (f : ScriptFile) :
    f ∈ entries.filterMap ofEntry? ↔
      (f.name, FileEntry.file f.content) ∈ entries ∧ ∃ stem, IsStemOf stem f.name := by
  rw [List.mem_filterMap]
  simp only [ofEntry?_eq_some_iff]
  constructor
  · rintro ⟨_, hentry, rfl, hstem⟩
    exact ⟨hentry, hstem⟩
  · rintro ⟨hentry, hstem⟩
    exact ⟨_, hentry, rfl, hstem⟩

theorem map_name_sublist (entries : List (FileName × FileEntry)) :
    ((entries.filterMap ofEntry?).map ScriptFile.name).Sublist (entries.map Prod.fst) := by
  induction entries with
  | nil => exact List.Sublist.slnil
  | cons entry entries ih =>
    cases hentry : ofEntry? entry with
    | none =>
      rw [List.filterMap_cons_none hentry]
      exact ih.cons entry.1
    | some f =>
      rw [List.filterMap_cons_some hentry, ((ofEntry?_eq_some_iff entry).mp hentry).1]
      exact ih.cons_cons f.name

theorem listing_inOrder {entries : List (FileName × FileEntry)} (h : (entries.map Prod.fst).Nodup) :
    Listing entries (inOrder (entries.filterMap ofEntry?)) := by
  have hperm : (inOrder (entries.filterMap ofEntry?)).Perm (entries.filterMap ofEntry?) :=
    List.mergeSort_perm _ _
  refine ⟨fun f => hperm.mem_iff.trans (mem_stored entries f), ?_⟩
  have hnames : ((inOrder (entries.filterMap ofEntry?)).map ScriptFile.name).Nodup :=
    (hperm.map ScriptFile.name).nodup_iff.mpr ((map_name_sublist entries).nodup h)
  have hordered : (inOrder (entries.filterMap ofEntry?)).Pairwise fun f g => nameLe f.name g.name = true := by
    apply List.pairwise_mergeSort
    · intro f g k hfg hgk
      rw [nameLe_iff] at *
      exact List.le_trans hfg hgk
    · intro f g
      rw [Bool.or_eq_true, nameLe_iff, nameLe_iff]
      exact List.le_total f.name g.name
  refine (hordered.and (List.pairwise_map.mp hnames)).imp ?_
  rintro f g ⟨hle, hne⟩
  exact Std.lt_of_le_of_ne ((nameLe_iff f.name g.name).mp hle) hne

theorem nodup_names {files : List ScriptFile} (h : files.Pairwise fun f g => f.name < g.name) :
    (files.map ScriptFile.name).Nodup := by
  rw [List.nodup_iff_pairwise_ne, List.pairwise_map]
  refine h.imp ?_
  intro f g hlt heq
  rw [heq] at hlt
  exact List.lt_irrefl g.name hlt

/-- What is listed does not depend on the order of the entries. -/
theorem Listing.unique {entries others : List (FileName × FileEntry)} {files files' : List ScriptFile}
    (h : Listing entries files) (h' : Listing others files') (hperm : others.Perm entries) :
    files' = files := by
  have hsame : files'.Perm files := by
    refine (List.perm_ext_iff_of_nodup (nodup_names h'.increasing).of_map
      (nodup_names h.increasing).of_map).mpr ?_
    intro f
    rw [h'.mem_iff, h.mem_iff, hperm.mem_iff]
  refine hsame.eq_of_pairwise ?_ h'.increasing h.increasing
  intro f g _ _ hlt hgt
  exact absurd (List.lt_trans hlt hgt) (List.lt_irrefl f.name)

end ScriptFile

theorem scriptsOf_perm (directory : Path) {entries others : List (FileName × FileEntry)}
    (h : (entries.map Prod.fst).Nodup) (hperm : others.Perm entries) :
    scriptsOf directory others = scriptsOf directory entries := by
  have hother : (others.map Prod.fst).Nodup := (hperm.map Prod.fst).nodup_iff.mpr h
  rw [scriptsOf, scriptsOf,
    (ScriptFile.listing_inOrder h).unique (ScriptFile.listing_inOrder hother) hperm]

namespace ScriptLibrary
variable {files : List ScriptFile} {scripts : List Script} {s : Script} {key : String}

def IsLatest (files : List ScriptFile) (key : String) (s : Script) : Prop :=
  ∃ f ∈ files, f.Stores s ∧ s.key = key ∧ ∀ g ∈ files, ∀ t, g.Stores t → t.key = key → g.name ≤ f.name

theorem mem_scripts_iff (h : List.Forall₂ ScriptFile.Stores files scripts) :
    s ∈ scripts ↔ ∃ f ∈ files, f.Stores s := by
  induction h with
  | nil => simp
  | cons hstores _ ih =>
    rw [List.mem_cons, List.exists_mem_cons_iff, ih]
    constructor
    · rintro (rfl | hs)
      · exact .inl hstores
      · exact .inr hs
    · rintro (hs | hs)
      · exact .inl (hs.unique hstores)
      · exact .inr hs

/-- A later file has a greater name, so the last script with a key comes from the greatest. -/
theorem isLatest_of_lastWith (h : List.Forall₂ ScriptFile.Stores files scripts)
    (hfiles : files.Pairwise fun f g => f.name < g.name) (hlast : lastWith scripts key = some s) :
    IsLatest files key s := by
  induction h with
  | nil => cases hlast
  | @cons f _ files scripts hstores hrest ih =>
    obtain ⟨hbefore, hfiles⟩ := List.pairwise_cons.mp hfiles
    rw [lastWith_cons] at hlast
    cases hlater : lastWith scripts key with
    | some u =>
      rw [hlater] at hlast
      cases hlast
      obtain ⟨g, hg, hgstores, hkey, hgreatest⟩ := ih hfiles hlater
      refine ⟨g, List.mem_cons_of_mem f hg, hgstores, hkey, ?_⟩
      intro k hk t ht htkey
      rcases List.mem_cons.mp hk with rfl | hk
      · exact List.le_of_lt (hbefore g hg)
      · exact hgreatest k hk t ht htkey
    | none =>
      rw [hlater, Option.none_or] at hlast
      split at hlast
      · rename_i hkey
        cases hlast
        refine ⟨f, List.mem_cons_self, hstores, hkey, ?_⟩
        intro g hg t ht htkey
        rcases List.mem_cons.mp hg with rfl | hg
        · exact List.le_refl g.name
        · have hnone := (lastWith_eq_none_iff scripts key).mp hlater
          exact absurd ⟨t, (mem_scripts_iff hrest).mpr ⟨g, hg, ht⟩, htkey⟩ hnone
      · cases hlast

theorem IsLatest.unique (hfiles : files.Pairwise fun f g => f.name < g.name) {t : Script}
    (hs : IsLatest files key s) (ht : IsLatest files key t) : s = t := by
  obtain ⟨f, hf, hfstores, hskey, hfgreatest⟩ := hs
  obtain ⟨g, hg, hgstores, htkey, hggreatest⟩ := ht
  have hname : f.name = g.name :=
    List.le_antisymm (hggreatest f hf s hfstores hskey) (hfgreatest g hg t hgstores htkey)
  cases List.inj_on_of_nodup_map (ScriptFile.nodup_names hfiles) hf hg hname
  exact hfstores.unique hgstores

theorem lastWith_eq_some_iff_isLatest (h : List.Forall₂ ScriptFile.Stores files scripts)
    (hfiles : files.Pairwise fun f g => f.name < g.name) :
    lastWith scripts key = some s ↔ IsLatest files key s := by
  constructor
  · exact isLatest_of_lastWith h hfiles
  · intro hs
    have hany : ∃ t ∈ scripts, t.key = key := by
      obtain ⟨f, hf, hstores, hkey, -⟩ := hs
      exact ⟨s, (mem_scripts_iff h).mpr ⟨f, hf, hstores⟩, hkey⟩
    obtain ⟨t, ht⟩ := exists_lastWith hany
    rw [ht, hs.unique hfiles (isLatest_of_lastWith h hfiles ht)]

end ScriptLibrary

structure LoadsFiles (directory : Path) (files : List ScriptFile)
    (loaded : Except StorageError (List Script)) : Prop where
  ok_iff : ∀ scripts, loaded = .ok scripts ↔ List.Forall₂ ScriptFile.Stores files scripts
  error_iff : ∀ e, loaded = .error e ↔ ∃ before f after, files = before ++ f :: after ∧
    (∀ g ∈ before, ∃ s, g.Stores s) ∧ (∀ s, ¬f.Stores s) ∧
    e = .malformedScript (directory.join ⟨f.name⟩) f.complaint
  /-- Of files whose stems are the same up to case the last one wins. -/
  winner : ∀ (library next : ScriptLibrary) summary, library.reload loaded = (.ok summary, next) →
    ∀ name s, next.get? name = some s ↔ ∃ f ∈ files, f.Stores s ∧ sameName s.name name = true ∧
      ∀ g ∈ files, ∀ t, g.Stores t → sameName t.name name = true → g.name ≤ f.name

section Reading
variable (directory : Path) {files : List ScriptFile} (hnames : ∀ f ∈ files, ∃ stem, IsStemOf stem f.name)
include hnames

theorem mapM_read_eq_ok_iff (scripts : List Script) :
    files.mapM (ScriptFile.read directory) = .ok scripts ↔
      List.Forall₂ ScriptFile.Stores files scripts := by
  rw [Except.mapM_eq_ok_iff]
  constructor
  · intro h
    refine ((List.forall₂_and_left files scripts).mpr ⟨hnames, h⟩).imp ?_
    rintro f s ⟨hname, hread⟩
    exact (ScriptFile.read_eq_ok_iff directory hname).mp hread
  · intro h
    refine ((List.forall₂_and_left files scripts).mpr ⟨hnames, h⟩).imp ?_
    rintro f s ⟨hname, hstores⟩
    exact (ScriptFile.read_eq_ok_iff directory hname).mpr hstores

theorem mapM_read_eq_error_iff (e : StorageError) :
    files.mapM (ScriptFile.read directory) = .error e ↔ ∃ before f after, files = before ++ f :: after ∧
      (∀ g ∈ before, ∃ s, g.Stores s) ∧ (∀ s, ¬f.Stores s) ∧
      e = .malformedScript (directory.join ⟨f.name⟩) f.complaint := by
  rw [Except.mapM_eq_error_iff]
  refine exists_congr fun before => exists_congr fun f => exists_congr fun after => ?_
  refine and_congr_right fun hsplit => ?_
  rw [hsplit, List.forall_mem_append, List.forall_mem_cons] at hnames
  refine and_congr (forall₂_congr fun g hg => ?_)
    (ScriptFile.read_eq_error_iff directory hnames.2.1 e)
  exact exists_congr fun s => ScriptFile.read_eq_ok_iff directory (hnames.1 g hg)

theorem loadsFiles_mapM (hfiles : files.Pairwise fun f g => f.name < g.name) :
    LoadsFiles directory files (files.mapM (ScriptFile.read directory)) := by
  refine ⟨mapM_read_eq_ok_iff directory hnames, mapM_read_eq_error_iff directory hnames, ?_⟩
  intro library next summary hreload name s
  cases hloaded : files.mapM (ScriptFile.read directory) with
  | error e =>
    rw [hloaded] at hreload
    cases hreload
  | ok scripts =>
    have hstores := (mapM_read_eq_ok_iff directory hnames scripts).mp hloaded
    rw [hloaded] at hreload
    cases hreload
    change (library.load scripts).2.get? name = some s ↔ _
    rw [(ScriptLibrary.holds_load library scripts).get?,
      ScriptLibrary.lastWith_eq_some_iff_isLatest hstores hfiles]
    simp only [sameName_iff]
    rfl

end Reading

namespace FileTree
variable {t : FileTree} {directory : Path} {entries : List (FileName × FileEntry)}

def Enumerates (t : FileTree) (directory : Path) (entries : List (FileName × FileEntry)) : Prop :=
  ∃ place, t.resolve directory = .ok place ∧ t.entry? place = some .directory ∧
    (t.listAt place directory).Perm entries

theorem Enumerates.loadScripts (h : t.Enumerates directory entries)
    (hdistinct : (entries.map Prod.fst).Nodup) : t.loadScripts directory = scriptsOf directory entries := by
  obtain ⟨place, hresolve, hplace, hperm⟩ := h
  rw [FileTree.loadScripts, hresolve]
  dsimp only
  rw [hplace]
  exact scriptsOf_perm directory hdistinct hperm

theorem Enumerates.openStore (h : t.Enumerates directory entries)
    (hdistinct : (entries.map Prod.fst).Nodup) :
    t.openStore directory = (scriptsOf directory entries, t) := by
  have hload := h.loadScripts hdistinct
  obtain ⟨place, hresolve, hplace, -⟩ := h
  rw [FileTree.openStore, makeStore, makeAll_of_directory hresolve hplace]
  dsimp only
  rw [hload]

end FileTree

structure LoadsInAnyOrder (directory : Path) (entries : List (FileName × FileEntry))
    (loaded : Except StorageError (List Script)) : Prop where
  files : ∃ files, ScriptFile.Listing entries files ∧ LoadsFiles directory files loaded
  reordered : ∀ others, others.Perm entries → scriptsOf directory others = loaded
  loaded_in : ∀ t : FileTree, t.Enumerates directory entries → t.loadScripts directory = loaded
  opened_in : ∀ t : FileTree, t.Enumerates directory entries → t.openStore directory = (loaded, t)
  reloaded_in : ∀ t u : FileTree, t.Enumerates directory entries → u.Enumerates directory entries →
    ∀ library : ScriptLibrary,
      library.reload (t.openStore directory).1 = library.reload (u.openStore directory).1

/-- What is loaded from a directory does not depend on the order in which it is enumerated. -/
theorem loadsInAnyOrder_scriptsOf (directory : Path) {entries : List (FileName × FileEntry)}
    (hdistinct : (entries.map Prod.fst).Nodup) :
    LoadsInAnyOrder directory entries (scriptsOf directory entries) := by
  have hlisting := ScriptFile.listing_inOrder hdistinct
  have hloads := loadsFiles_mapM directory (fun f hf => ((hlisting.mem_iff f).mp hf).2) hlisting.increasing
  refine ⟨⟨_, hlisting, hloads⟩, fun others => scriptsOf_perm directory hdistinct,
    fun t ht => ht.loadScripts hdistinct, fun t ht => ht.openStore hdistinct, ?_⟩
  intro t u ht hu library
  rw [ht.openStore hdistinct, hu.openStore hdistinct]

/-- Three files with one stem up to case, a directory and a text, enumerated in either order. -/
theorem loadsInAnyOrder_guards :
    let directory := Path.ofText "/scripts"
    let entries : List (FileName × FileEntry) :=
      [(Utf8.encode "guard.ms", .file (Utf8.encode "log 3")), (Utf8.encode "old.ms", .directory),
        (Utf8.encode "GUARD.ms", .file (Utf8.encode "log 1")), (Utf8.encode "notes.txt", .file []),
        (Utf8.encode "guard.MS", .file (Utf8.encode "log 2"))]
    let tree (listed : List (FileName × FileEntry)) : FileTree :=
      ⟨([Utf8.encode "scripts"], .directory) ::
        listed.map fun entry => ([Utf8.encode "scripts", entry.1], entry.2), []⟩
    (entries.map Prod.fst).Nodup ∧ (tree entries).Enumerates directory entries ∧
      (tree entries.reverse).Enumerates directory entries ∧
      LoadsInAnyOrder directory entries
        (.ok [.ofText "GUARD" "log 1", .ofText "guard" "log 2", .ofText "guard" "log 3"]) := by
  intro directory entries tree
  have hdistinct : (entries.map Prod.fst).Nodup := of_decide_eq_true (by cbv)
  have hplace (listed : List (FileName × FileEntry)) :
      (tree listed).resolve directory = .ok [Utf8.encode "scripts"] ∧
        FileTree.entry? (tree listed) [Utf8.encode "scripts"] = some .directory := by
    constructor
    · cbv
    · cbv
  have hstem : IsStemOf (Utf8.encode "GUARD") (Utf8.encode "GUARD.ms") ∧
      IsStemOf (Utf8.encode "guard") (Utf8.encode "guard.MS") ∧
      IsStemOf (Utf8.encode "guard") (Utf8.encode "guard.ms") :=
    ⟨⟨of_decide_eq_true (by cbv), "ms", by simp, by cbv⟩, ⟨of_decide_eq_true (by cbv), "MS", by simp, by cbv⟩,
      ⟨of_decide_eq_true (by cbv), "ms", by simp, by cbv⟩⟩
  have hfiles : ScriptFile.inOrder (entries.filterMap ScriptFile.ofEntry?) =
      [⟨Utf8.encode "GUARD.ms", Utf8.encode "log 1"⟩, ⟨Utf8.encode "guard.MS", Utf8.encode "log 2"⟩,
        ⟨Utf8.encode "guard.ms", Utf8.encode "log 3"⟩] := by cbv
  have hloaded : scriptsOf directory entries =
      .ok [.ofText "GUARD" "log 1", .ofText "guard" "log 2", .ofText "guard" "log 3"] := by
    rw [scriptsOf, hfiles, Except.mapM_eq_ok_iff]
    exact .cons (ScriptFile.read_of_stem directory hstem.1)
      (.cons (ScriptFile.read_of_stem directory hstem.2.1)
        (.cons (ScriptFile.read_of_stem directory hstem.2.2) .nil))
  have hlisted : (tree entries).listAt [Utf8.encode "scripts"] directory = entries := by
    unfold entries
    cbv
  have hreversed : (tree entries.reverse).listAt [Utf8.encode "scripts"] directory = entries.reverse := by cbv
  refine ⟨hdistinct, ⟨_, (hplace entries).1, (hplace entries).2, ?_⟩,
    ⟨_, (hplace entries.reverse).1, (hplace entries.reverse).2, ?_⟩, ?_⟩
  · rw [hlisted]
  · rw [hreversed]
    exact List.reverse_perm entries
  · rw [← hloaded]
    exact loadsInAnyOrder_scriptsOf directory hdistinct

end ScriptedActors
