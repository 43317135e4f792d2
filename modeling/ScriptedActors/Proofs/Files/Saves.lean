import ScriptedActors.Files.Save
import ScriptedActors.Proofs.Outcomes

set_option autoImplicit false

/-!
# What is saved is read

A write and a move keep every directory that the path of the file goes through, so a path that led
to the place of a new file leads to that file afterwards. A save is a write and a move: what was
saved is read back, from any tree.
-/
namespace ScriptedActors

theorem segmentsOf_ne_nil (bytes : List UInt8) : segmentsOf bytes ≠ [] := by
  cases bytes with
  | nil => exact List.cons_ne_nil _ _
  | cons b bs =>
    rw [segmentsOf]
    split
    · exact List.cons_ne_nil _ _
    · split
      · exact List.cons_ne_nil _ _
      · exact List.cons_ne_nil _ _

namespace FileTree
variable {t t' : FileTree}

theorem entry?_here {place : Place} (h : place.isPrefixOf t.here = true) :
    t.entry? place = some .directory := by
  rw [ entry?, if_pos h]

theorem entry?_put_self (entry : FileEntry) {place : Place} (h : place.isPrefixOf t.here = false) :
    entry? (t.put place entry) place = some entry := by
  have hnone : t.entries.find? (fun e => decide ((e.1 != place) = true ∧ (e.1 == place) = true)) =
      none := by
    rw [List.find?_eq_none]
    intro e _
    simp
  rw [ entry?, if_neg (by rw [put, h]; exact Bool.false_ne_true)]
  rw [put, List.find?_append, List.find?_filter, hnone]
  simp

theorem entry?_put_of_ne {place other : Place} (entry : FileEntry) (h : other ≠ place) :
    entry? (t.put place entry) other = t.entry? other := by
  have hfind : t.entries.find? (fun e => decide ((e.1 != place) = true ∧ (e.1 == other) = true)) =
      t.entries.find? fun e => e.1 == other := by
    congr 1
    funext e
    by_cases he : e.1 = other
    · simp [he, h]
    · simp [he]
  rw [ entry?, entry?, put, List.find?_append, List.find?_filter, hfind]
  simp [Ne.symm h]

theorem entry?_erase {place other : Place} (h : ¬ place <+: other) :
    entry? (t.erase place) other = t.entry? other := by
  have hbelow : place.isPrefixOf other = false :=
    Bool.eq_false_iff.mpr fun hbelow => h (List.isPrefixOf_iff_prefix.mp hbelow)
  have hfind : t.entries.find? (fun e => decide ((!place.isPrefixOf e.1) = true ∧ (e.1 == other) = true)) =
      t.entries.find? fun e => e.1 == other := by
    congr 1
    funext e
    by_cases he : e.1 = other
    · simp [he, hbelow]
    · simp [he]
  rw [ entry?, entry?, erase, List.find?_filter, hfind]

theorem follow_cons (place : Place) (name : FileName) (names : List FileName) :
    t.follow place (name :: names) = t.step place name >>= fun next => t.follow next names := by
  rw [follow]
  cases t.step place name with
  | error fault => rfl
  | ok next => rfl

theorem follow_append (place : Place) (names more : List FileName) :
    t.follow place (names ++ more) = t.follow place names >>= fun next => t.follow next more := by
  induction names generalizing place with
  | nil => rfl
  | cons name names ih =>
    rw [List.cons_append, follow_cons, follow_cons]
    cases t.step place name with
    | error fault => rfl
    | ok next => exact ih next

theorem directory_of_step {place next : Place} {name : FileName} (h : t.step place name = .ok next) :
    t.entry? place = some .directory := by
  rw [step] at h
  split at h
  · assumption
  · cases h

theorem directory_of_follow {place last : Place} {names : List FileName}
    (h : t.follow place names = .ok last) (hlast : t.entry? last = some .directory) :
    t.entry? place = some .directory := by
  cases names with
  | nil =>
    cases h
    exact hlast
  | cons name names =>
    rw [follow_cons, Except.bind_eq_ok_iff] at h
    obtain ⟨next, hstep, -⟩ := h
    exact directory_of_step hstep

theorem step_of_directory {place : Place} (h : t.entry? place = some .directory) (name : FileName) :
    t.step place name =
      if name = [] ∨ name = [dot] then .ok place
      else if name = [dot, dot] then .ok place.dropLast
      else if maxName < name.length then .error .nameTooLong
      else if (t.entry? (place ++ [name])).isSome then .ok (place ++ [name])
      else .error .notFound := by
  rw [step, h]

/-- Directories of one tree that are directories of another one, and all that can be reached through
them. -/
structure KeepsDirectories (t t' : FileTree) (kept : Place → Prop) : Prop where
  here : t'.here = t.here
  root : kept []
  start : kept t.here
  upwards : ∀ place, kept place → kept place.dropLast
  downwards : ∀ place name, kept place → t.entry? (place ++ [name]) = some .directory → kept (place ++ [name])
  entry : ∀ place, kept place → t.entry? place = some .directory → t'.entry? place = some .directory

namespace KeepsDirectories
variable {kept : Place → Prop}

theorem step (h : KeepsDirectories t t' kept) {place next : Place} {name : FileName} (hplace : kept place)
    (hstep : t.step place name = .ok next) (hnext : t.entry? next = some .directory) :
    t'.step place name = .ok next ∧ kept next := by
  have hdirectory := directory_of_step hstep
  rw [step_of_directory hdirectory] at hstep
  rw [step_of_directory (h.entry place hplace hdirectory)]
  split
  · rename_i hname
    rw [if_pos hname] at hstep
    cases hstep
    exact ⟨rfl, hplace⟩
  · rename_i hname
    rw [if_neg hname] at hstep
    split
    · rename_i hdots
      rw [if_pos hdots] at hstep
      cases hstep
      exact ⟨rfl, h.upwards place hplace⟩
    · rename_i hdots
      rw [if_neg hdots] at hstep
      split at hstep
      · cases hstep
      · rename_i hlength
        split at hstep
        · cases hstep
          have hkept := h.downwards place name hplace hnext
          rw [if_neg hlength, h.entry _ hkept hnext]
          exact ⟨rfl, hkept⟩
        · cases hstep

theorem follow (h : KeepsDirectories t t' kept) {place last : Place} {names : List FileName}
    (hplace : kept place) (hfollow : t.follow place names = .ok last)
    (hlast : t.entry? last = some .directory) : t'.follow place names = .ok last ∧ kept last := by
  induction names generalizing place with
  | nil =>
    cases hfollow
    exact ⟨rfl, hplace⟩
  | cons name names ih =>
    rw [follow_cons, Except.bind_eq_ok_iff] at hfollow
    obtain ⟨next, hstep, hrest⟩ := hfollow
    obtain ⟨hstep', hnext⟩ := h.step hplace hstep (directory_of_follow hrest hlast)
    obtain ⟨hrest', hkept⟩ := ih hnext hrest
    refine ⟨?_, hkept⟩
    rw [follow_cons, hstep']
    exact hrest'

theorem resolve (h : KeepsDirectories t t' kept) {p : Path} {fault : FileFault} {place : Place}
    (htarget : t.target p fault = .ok place) (hentry : (t'.entry? place).isSome) :
    t'.resolve p = .ok place := by
  rw [target, Except.bind_eq_ok_iff] at htarget
  obtain ⟨⟨⟩, hchecked, hplace⟩ := htarget
  rw [placeIn, Except.bind_eq_ok_iff] at hplace
  obtain ⟨directory, hfollow, hplace⟩ := hplace
  have hstart : kept (t.start p) := by
    rw [FileTree.start]
    split
    · exact h.root
    · exact h.start
  have hsame : t'.start p = t.start p := by
    rw [FileTree.start, FileTree.start, h.here]
  have hnames : p.segments.dropLast ++ [p.segments.getLast?.getD []] = p.segments := by
    have hne : p.segments ≠ [] := segmentsOf_ne_nil p.bytes
    rw [List.getLast?_eq_some_getLast hne, Option.getD_some, List.dropLast_concat_getLast]
  split at hplace
  · rename_i hdirectory
    obtain ⟨hfollow', hkept⟩ := h.follow hstart hfollow hdirectory
    split at hplace
    · cases hplace
    · rename_i hname
      obtain ⟨hempty, hdot, hdots⟩ : _ ∧ _ ∧ _ := by simpa only [not_or] using hname
      split at hplace
      · cases hplace
      · rename_i hlength
        cases hplace
        have hstep : t'.step directory (p.segments.getLast?.getD []) =
            .ok (directory ++ [p.segments.getLast?.getD []]) := by
          rw [step_of_directory (h.entry directory hkept hdirectory),
            if_neg (not_or.mpr ⟨hempty, hdot⟩), if_neg hdots, if_neg hlength, if_pos hentry]
        rw [FileTree.resolve, hchecked, hsame]
        calc t'.follow (t.start p) p.segments
            = t'.follow (t.start p) (p.segments.dropLast ++ [p.segments.getLast?.getD []]) := by rw [hnames]
          _ = t'.follow directory [p.segments.getLast?.getD []] := by rw [follow_append, hfollow']; rfl
          _ = .ok (directory ++ [p.segments.getLast?.getD []]) := by rw [follow_cons, hstep]; rfl
  · cases hplace

end KeepsDirectories

theorem keepsDirectories_put {place : Place} (entry : FileEntry) (h : t.entry? place ≠ some .directory) :
    KeepsDirectories t (t.put place entry) fun _ => True where
  here := rfl
  root := trivial
  start := trivial
  upwards := fun _ _ => trivial
  downwards := fun _ _ _ _ => trivial
  entry := by
    intro other _ hother
    have hne : other ≠ place := by
      rintro rfl
      exact h hother
    rwa [entry?_put_of_ne entry hne]

/-- A file may be moved to a place that is no directory. -/
theorem keepsDirectories_move {origin place : Place} {content : List UInt8}
    (horigin : t.entry? origin = some (.file content)) (h : t.entry? place ≠ some .directory) :
    KeepsDirectories t ((t.erase origin).put place (.file content)) fun other => ¬ origin <+: other where
  here := rfl
  root := by
    intro hbelow
    rw [List.prefix_nil.mp hbelow, entry?_here rfl] at horigin
    cases horigin
  start := by
    intro hbelow
    rw [entry?_here (List.isPrefixOf_iff_prefix.mpr hbelow)] at horigin
    cases horigin
  upwards := fun other hother hbelow => hother (hbelow.trans (List.dropLast_prefix other))
  downwards := by
    intro other name hother hentry hbelow
    rcases List.prefix_concat_iff.mp hbelow with rfl | hbelow
    · rw [hentry] at horigin
      cases horigin
    · exact hother hbelow
  entry := by
    intro other hother hentry
    have hne : other ≠ place := by
      rintro rfl
      exact h hentry
    rw [entry?_put_of_ne _ hne, entry?_erase hother]
    exact hentry

theorem not_isPrefixOf_here {place : Place} (h : t.entry? place ≠ some .directory) :
    place.isPrefixOf t.here = false := by
  rw [Bool.eq_false_iff]
  exact fun hbelow => h (entry?_here hbelow)

theorem read_eq_ok_iff {p : Path} {content : List UInt8} : t.read p = .ok content ↔
    ∃ place, t.resolve p = .ok place ∧ t.entry? place = some (.file content) := by
  rw [read, Except.bind_eq_ok_iff]
  refine exists_congr fun place => and_congr_right fun _ => ?_
  split
  · rename_i hentry
    rw [hentry, Except.ok.injEq, Option.some.injEq, FileEntry.file.injEq]
  · rename_i hentry
    exact ⟨nofun, fun h => absurd h (hentry content)⟩

theorem isFile_of_read {p : Path} {content : List UInt8} (h : t.read p = .ok content) :
    t.isFile p = true := by
  obtain ⟨place, hresolve, hentry⟩ := read_eq_ok_iff.mp h
  rw [isFile, lookup, hresolve]
  simp only
  rw [hentry]

theorem read_write {p : Path} {content : List UInt8} (h : t.write p content = .ok t') :
    t'.read p = .ok content := by
  rw [write, Except.bind_eq_ok_iff] at h
  obtain ⟨place, htarget, h⟩ := h
  split at h
  · cases h
  · rename_i hentry
    cases h
    have hself := entry?_put_self (.file content) (not_isPrefixOf_here hentry)
    exact read_eq_ok_iff.mpr
      ⟨place, (keepsDirectories_put _ hentry).resolve htarget (by rw [hself]; rfl), hself⟩

theorem read_rename {source destination : Path} (h : t.rename source destination = .ok t') :
    ∃ content, t.read source = .ok content ∧ t'.read destination = .ok content := by
  rw [rename, Except.bind_eq_ok_iff] at h
  obtain ⟨origin, horigin, h⟩ := h
  rw [Except.bind_eq_ok_iff] at h
  obtain ⟨place, htarget, h⟩ := h
  have hmoved : ∀ {content}, t.entry? origin = some (.file content) → t.entry? place ≠ some .directory →
      (t.erase origin).put place (.file content) = t' →
      t.read source = .ok content ∧ t'.read destination = .ok content := by
    rintro content hfile hplace rfl
    have hhere : place.isPrefixOf (t.erase origin).here = false := not_isPrefixOf_here (t := t) hplace
    have hself := entry?_put_self (.file content) hhere
    exact ⟨read_eq_ok_iff.mpr ⟨origin, horigin, hfile⟩, read_eq_ok_iff.mpr
      ⟨place, (keepsDirectories_move hfile hplace).resolve htarget (by rw [hself]; rfl), hself⟩⟩
  split at h
  · rename_i content other hfile hplace
    exact ⟨content, hmoved hfile (by rw [hplace]; nofun) (Except.ok.inj h)⟩
  · rename_i content hfile hplace
    exact ⟨content, hmoved hfile (by rw [hplace]; nofun) (Except.ok.inj h)⟩
  · cases h
  · cases h

/-- What was saved is read back. -/
theorem read_save {p : Path} {content : List UInt8} (h : t.save p content = (.ok (), t')) :
    t'.read p = .ok content := by
  rw [save] at h
  split at h
  · cases h
  · rename_i written hwrite
    split at h
    · cases h
    · rename_i saved hrename
      cases (Prod.mk.inj h).2
      obtain ⟨moved, hsource, hdestination⟩ := read_rename hrename
      rw [read_write hwrite] at hsource
      cases hsource
      exact hdestination

end FileTree
end ScriptedActors
