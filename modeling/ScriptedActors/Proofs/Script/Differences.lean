import Mathlib.Data.List.Nodup
import ScriptedActors.Proofs.Script.Loads

set_option autoImplicit false

/-!
# What a load changes

A load takes from a list of scripts the last one of each key. Its summary names those that are new,
those whose text is another one than before, those that are gone, and those that gave way to a later
one. It is right however often a name is repeated and however it is spelled, although it is written
while it is not known yet which scripts give way.
-/
namespace ScriptedActors

namespace ScriptLibrary

def winners : List Script → List Script
  | [] => []
  | s :: later => if ∃ t ∈ later, t.key = s.key then winners later else s :: winners later

def losers : List Script → List Script
  | [] => []
  | s :: later => if ∃ t ∈ later, t.key = s.key then s :: losers later else losers later

def namesOf (p : Script → Bool) (scripts : List Script) : List String :=
  ((winners scripts).filter p).map Script.name

def isNew (previous : Dictionary Script) (s : Script) : Bool := (previous.find? s.key).isNone

def isChanged (previous : Dictionary Script) (s : Script) : Bool :=
  (previous.find? s.key).any fun old => old.digest != s.digest

variable {scripts : List Script} {s : Script}

theorem lastWith_cons (s : Script) (later : List Script) (key : String) :
    lastWith (s :: later) key = (lastWith later key).or (if s.key = key then some s else none) := by
  rw [lastWith_eq, List.reverse_cons, List.find?_append, lastWith_eq]
  simp [List.find?_singleton]

theorem lastWith_append (scripts : List Script) (s : Script) (key : String) :
    lastWith (scripts ++ [s]) key = if s.key = key then some s else lastWith scripts key := by
  rw [lastWith_eq, List.reverse_append, List.reverse_singleton, List.singleton_append, List.find?_cons,
    lastWith_eq]
  by_cases hkey : s.key = key
  · simp [hkey]
  · have hbeq : (s.key == key) = false := by simp [hkey]
    rw [hbeq, if_neg hkey]

theorem lastWith_eq_none_iff (scripts : List Script) (key : String) :
    lastWith scripts key = none ↔ ¬∃ t ∈ scripts, t.key = key := by
  simp [lastWith_eq, List.find?_eq_none]

theorem exists_lastWith {key : String} (h : ∃ t ∈ scripts, t.key = key) :
    ∃ t, lastWith scripts key = some t := by
  apply Option.ne_none_iff_exists'.mp
  rw [ne_eq, lastWith_eq_none_iff, not_not]
  exact h

theorem exists_key_append (scripts : List Script) (s : Script) (key : String) :
    (∃ t ∈ scripts ++ [s], t.key = key) ↔ (∃ t ∈ scripts, t.key = key) ∨ s.key = key := by
  simp [or_and_right, exists_or]

theorem key_of_lastWith {key : String} (h : lastWith scripts key = some s) : s.key = key := by
  rw [lastWith_eq] at h
  simpa using List.find?_some h

theorem mem_winners (scripts : List Script) (t : Script) :
    t ∈ winners scripts ↔ lastWith scripts t.key = some t := by
  induction scripts with
  | nil => simp [winners, lastWith]
  | cons s later ih =>
    rw [winners, lastWith_cons]
    by_cases hlater : ∃ u ∈ later, u.key = s.key
    · rw [if_pos hlater, ih]
      by_cases hkey : s.key = t.key
      · obtain ⟨u, hu⟩ := exists_lastWith (hkey ▸ hlater)
        rw [hu, Option.some_or]
      · rw [if_neg hkey, Option.or_none]
    · rw [if_neg hlater, List.mem_cons, ih]
      by_cases hkey : s.key = t.key
      · have hnone : lastWith later t.key = none := (lastWith_eq_none_iff later t.key).mpr (hkey ▸ hlater)
        rw [if_pos hkey, hnone]
        simp [eq_comm]
      · have hne : t ≠ s := fun heq => hkey (congrArg Script.key heq.symm)
        simp [hkey, hne]

theorem winners_sublist (scripts : List Script) : (winners scripts).Sublist scripts := by
  induction scripts with
  | nil => exact List.Sublist.slnil
  | cons s later ih =>
    rw [winners]
    split
    · exact ih.cons s
    · exact ih.cons_cons s

theorem nodup_keys_winners (scripts : List Script) : ((winners scripts).map Script.key).Nodup := by
  induction scripts with
  | nil => exact List.nodup_nil
  | cons s later ih =>
    rw [winners]
    split
    · exact ih
    · rename_i hlast
      refine List.nodup_cons.mpr ⟨?_, ih⟩
      intro hmem
      obtain ⟨t, ht, hkey⟩ := List.mem_map.mp hmem
      exact hlast ⟨t, (winners_sublist later).subset ht, hkey⟩

theorem winners_append (scripts : List Script) (s : Script) :
    winners (scripts ++ [s]) = (winners scripts).filter (fun t => t.key ≠ s.key) ++ [s] := by
  induction scripts with
  | nil => simp [winners]
  | cons t later ih =>
    have hlater := exists_key_append later s t.key
    rw [List.cons_append, winners, winners, ih]
    by_cases hany : ∃ u ∈ later, u.key = t.key
    · rw [if_pos hany, if_pos (hlater.mpr (.inl hany))]
    · by_cases hkey : s.key = t.key
      · rw [if_pos (hlater.mpr (.inr hkey)), if_neg hany]
        simp [hkey]
      · rw [if_neg (by simp [hany, hkey]), if_neg hany]
        simp [Ne.symm hkey]

theorem losers_append (scripts : List Script) (s : Script) :
    (losers (scripts ++ [s])).Perm (losers scripts ++ (lastWith scripts s.key).toList) := by
  induction scripts with
  | nil => simp [losers, lastWith]
  | cons t later ih =>
    have hlater := exists_key_append later s t.key
    rw [List.cons_append, losers, losers, lastWith_cons]
    by_cases hkey : s.key = t.key
    · rw [if_pos (hlater.mpr (.inr hkey)), if_pos hkey.symm]
      by_cases hany : ∃ u ∈ later, u.key = t.key
      · obtain ⟨u, hu⟩ := exists_lastWith (hkey ▸ hany)
        rw [if_pos hany, hu, Option.some_or, List.cons_append, ← hu]
        exact ih.cons t
      · have hnone : lastWith later s.key = none := (lastWith_eq_none_iff later s.key).mpr (hkey ▸ hany)
        rw [hnone, Option.toList_none, List.append_nil] at ih
        rw [if_neg hany, hnone, Option.none_or]
        exact (ih.cons t).trans (List.perm_append_singleton t (losers later)).symm
    · rw [if_neg (Ne.symm hkey), Option.or_none]
      by_cases hany : ∃ u ∈ later, u.key = t.key
      · rw [if_pos (hlater.mpr (.inl hany)), if_pos hany]
        exact ih.cons t
      · rw [if_neg (by simp [hany, hkey]), if_neg hany]
        exact ih

theorem length_winners_losers (scripts : List Script) :
    (losers scripts).length + (winners scripts).length = scripts.length := by
  induction scripts with
  | nil => rfl
  | cons s later ih =>
    rw [winners, losers]
    split
    · rw [List.length_cons, List.length_cons]
      omega
    · rw [List.length_cons, List.length_cons]
      omega

theorem namesOf_append (p : Script → Bool) (scripts : List Script) (s : Script) :
    namesOf p (scripts ++ [s]) =
      (((winners scripts).filter fun t => t.key ≠ s.key).filter p).map Script.name ++
        if p s then [s.name] else [] := by
  rw [namesOf, winners_append, List.filter_append, List.map_append, List.filter_singleton]
  cases p s with
  | true => rfl
  | false => rfl

/-- Names tell winners apart, so a name is taken out of a list with its script alone. -/
theorem filter_namesOf (p : Script → Bool) {earlier : Script} (h : lastWith scripts s.key = some earlier) :
    (namesOf p scripts).filter (· != earlier.name) =
      (((winners scripts).filter fun t => t.key ≠ s.key).filter p).map Script.name := by
  rw [namesOf, List.filter_map, List.filter_filter, List.filter_filter]
  congr 1
  refine List.filter_congr ?_
  intro t ht
  have hkey := key_of_lastWith h
  have hname : t.name = earlier.name ↔ t.key = s.key := by
    constructor
    · intro heq
      rw [← hkey, Script.key, heq, Script.key]
    · intro heq
      have hsame := (mem_winners scripts t).mp ht
      rw [heq, h, Option.some.injEq] at hsame
      rw [hsame]
  rw [Bool.eq_iff_iff]
  simp [hname, and_comm]

theorem filter_winners_of_none (h : lastWith scripts s.key = none) :
    (winners scripts).filter (fun t => t.key ≠ s.key) = winners scripts := by
  apply List.filter_eq_self.mpr
  intro t ht
  have hnone := (lastWith_eq_none_iff scripts s.key).mp h
  apply decide_eq_true
  intro hkey
  exact hnone ⟨t, (winners_sublist scripts).subset ht, hkey⟩

end ScriptLibrary

namespace Loading
open ScriptLibrary
variable {previous : Dictionary Script} {scripts : List Script} {l : Loading}

/-- What is known of a load after some of its scripts. -/
structure Tracks (previous : Dictionary Script) (scripts : List Script) (l : Loading) : Prop where
  held : ∀ key, l.scripts.find? key = lastWith scripts key
  added : l.added = namesOf (isNew previous) scripts
  changed : l.changed = namesOf (isChanged previous) scripts
  shadowed : l.shadowed.Perm ((losers scripts).map Script.name)

theorem compare_eq (previous : Dictionary Script) (l : Loading) (s : Script) :
    l.compare previous s =
      { l with
        added := l.added ++ if isNew previous s then [s.name] else []
        changed := l.changed ++ if isChanged previous s then [s.name] else [] } := by
  rw [compare, isNew, isChanged]
  cases previous.find? s.key with
  | none => simp
  | some old =>
    dsimp only [Option.isNone_some, Option.any_some]
    split
    · simp
    · simp

theorem Tracks.replace (h : l.Tracks previous scripts) (s : Script) :
    (l.replace s.key).added =
        (((winners scripts).filter fun t => t.key ≠ s.key).filter (isNew previous)).map Script.name ∧
      (l.replace s.key).changed =
        (((winners scripts).filter fun t => t.key ≠ s.key).filter (isChanged previous)).map Script.name ∧
      (l.replace s.key).shadowed.Perm ((losers (scripts ++ [s])).map Script.name) := by
  have hlosers := (losers_append scripts s).map Script.name
  rw [Loading.replace, h.held]
  cases hearlier : lastWith scripts s.key with
  | none =>
    rw [hearlier, Option.toList_none, List.append_nil] at hlosers
    rw [filter_winners_of_none hearlier]
    exact ⟨h.added, h.changed, h.shadowed.trans hlosers.symm⟩
  | some earlier =>
    rw [hearlier, Option.toList_some, List.map_append] at hlosers
    refine ⟨?_, ?_, (h.shadowed.append_right [earlier.name]).trans hlosers.symm⟩
    · rw [← filter_namesOf _ hearlier, ← h.added]
      rfl
    · rw [← filter_namesOf _ hearlier, ← h.changed]
      rfl

theorem Tracks.add (h : l.Tracks previous scripts) (s : Script) :
    (l.add previous s).Tracks previous (scripts ++ [s]) := by
  obtain ⟨hadded, hchanged, hshadowed⟩ := h.replace s
  refine ⟨?_, ?_, ?_, ?_⟩
  · intro key
    rw [scripts_add, Dictionary.find?_insert, h.held, lastWith_append]
    simp only [eq_comm]
  · rw [namesOf_append, ← hadded, Loading.add, compare_eq]
  · rw [namesOf_append, ← hchanged, Loading.add, compare_eq]
  · rw [Loading.add, compare_eq]
    exact hshadowed

theorem tracks_load (previous : Dictionary Script) (scripts : List Script) :
    (scripts.foldl (Loading.add previous) .start).Tracks previous scripts := by
  induction scripts using List.reverseRecOn with
  | nil => exact ⟨fun _ => rfl, rfl, rfl, List.Perm.refl []⟩
  | append_singleton scripts s ih =>
    rw [List.foldl_append]
    exact ih.add s

end Loading

structure ReloadSummary.Summarises (summary : ReloadSummary) (previous : Dictionary Script)
    (scripts : List Script) (next : Dictionary Script) : Prop where
  held : ∀ key, next.find? key = ScriptLibrary.lastWith scripts key
  winners : next.values.Perm (ScriptLibrary.winners scripts)
  loaded : summary.loaded = next.length
  added : summary.added =
    ((ScriptLibrary.winners scripts).filter fun s => (previous.find? s.key).isNone).map Script.name
  added_once : summary.added.Nodup
  changed : summary.changed =
    ((ScriptLibrary.winners scripts).filter fun s =>
      (previous.find? s.key).any fun old => old.digest != s.digest).map Script.name
  changed_once : summary.changed.Nodup
  removed : summary.removed =
    (previous.filter fun entry => (next.find? entry.1).isNone).map fun entry => entry.2.name
  shadowed : summary.shadowed.Perm ((ScriptLibrary.losers scripts).map Script.name)
  shadowed_length : summary.shadowed.length + summary.loaded = scripts.length
  loaded_length : previous.length + summary.added.length = summary.loaded + summary.removed.length

namespace ScriptLibrary
variable {previous next : Dictionary Script} {scripts : List Script}

theorem nodup_namesOf (p : Script → Bool) (scripts : List Script) : (namesOf p scripts).Nodup := by
  have hsublist : ((winners scripts).filter p).Sublist (winners scripts) := List.filter_sublist
  refine List.Nodup.of_map Text.lower ?_
  rw [namesOf, List.map_map]
  exact (hsublist.map Script.key).nodup (nodup_keys_winners scripts)

section Holding
variable (hnext : next.Sorted) (hheld : ∀ key, next.find? key = lastWith scripts key)
include hnext hheld

theorem map_key_values : next.values.map Script.key = next.keys := by
  rw [Dictionary.values, Dictionary.keys, List.map_map]
  refine List.map_congr_left ?_
  intro entry hentry
  apply key_of_lastWith
  rw [← hheld]
  exact (hnext.find?_eq_some_iff _ _).mpr hentry

theorem values_perm_winners : next.values.Perm (winners scripts) := by
  have hkeys := map_key_values hnext hheld
  have hnodup : next.values.Nodup := by
    refine List.Nodup.of_map Script.key ?_
    rw [hkeys]
    exact hnext.nodup_keys
  refine (List.perm_ext_iff_of_nodup hnodup (nodup_keys_winners scripts).of_map).mpr ?_
  intro s
  rw [mem_winners, ← hheld, hnext.find?_eq_some_iff, Dictionary.values, List.mem_map]
  constructor
  · rintro ⟨entry, hentry, rfl⟩
    have hkey : entry.2.key = entry.1 :=
      key_of_lastWith ((hheld _).symm.trans ((hnext.find?_eq_some_iff _ _).mpr hentry))
    rwa [hkey]
  · intro hs
    exact ⟨_, hs, rfl⟩

theorem length_namesOf_isNew (previous : Dictionary Script) :
    (namesOf (isNew previous) scripts).length = (next.keys.filter (· ∉ previous.keys)).length := by
  have hkeys := ((values_perm_winners hnext hheld).map Script.key).filter (· ∉ previous.keys)
  rw [map_key_values hnext hheld, List.filter_map] at hkeys
  rw [hkeys.length_eq, namesOf, List.length_map, List.length_map]
  congr 2
  funext s
  exact Dictionary.isNone_find? s.key previous

end Holding

theorem length_removedNames (previous next : Dictionary Script) :
    (removedNames previous next).length = (previous.keys.filter (· ∉ next.keys)).length := by
  have hkeys : previous.keys.filter (· ∉ next.keys) =
      (previous.filter fun entry => entry.1 ∉ next.keys).map Prod.fst := List.filter_map
  rw [removedNames, List.length_map, hkeys, List.length_map]
  congr 2
  funext entry
  exact Dictionary.isNone_find? entry.1 next

/-- What two lists do not have in common accounts for the difference of their lengths. -/
theorem length_add_length_filter {keys others : List String} (hkeys : keys.Nodup)
    (hothers : others.Nodup) : keys.length + (others.filter (· ∉ keys)).length =
      others.length + (keys.filter (· ∉ others)).length := by
  have hboth : (keys.filter (· ∈ others)).Perm (others.filter (· ∈ keys)) := by
    refine (List.perm_ext_iff_of_nodup (hkeys.filter _) (hothers.filter _)).mpr ?_
    intro key
    simp [and_comm]
  have hsplit := keys.length_eq_length_filter_add (· ∈ others)
  have hotherSplit := others.length_eq_length_filter_add (· ∈ keys)
  have hlength := hboth.length_eq
  simp only [decide_not]
  omega

theorem summarises_load (library : ScriptLibrary) (hsorted : library.scripts.Sorted)
    (scripts : List Script) :
    (library.load scripts).1.Summarises library.scripts scripts (library.load scripts).2.scripts := by
  have hholds := holds_load library scripts
  have htracks := Loading.tracks_load library.scripts scripts
  have hwinners := values_perm_winners hholds.sorted hholds.find?
  have hlength : (library.load scripts).2.scripts.length = (winners scripts).length := by
    rw [← hwinners.length_eq, Dictionary.values, List.length_map]
  have hadded : (library.load scripts).1.added = namesOf (isNew library.scripts) scripts := htracks.added
  have hchanged : (library.load scripts).1.changed = namesOf (isChanged library.scripts) scripts :=
    htracks.changed
  refine ⟨hholds.find?, hwinners, rfl, hadded, ?_, hchanged, ?_, rfl, htracks.shadowed, ?_, ?_⟩
  · rw [hadded]
    exact nodup_namesOf _ scripts
  · rw [hchanged]
    exact nodup_namesOf _ scripts
  · have hshadowed := htracks.shadowed.length_eq
    have hall := length_winners_losers scripts
    rw [List.length_map] at hshadowed
    change (scripts.foldl (Loading.add library.scripts) .start).shadowed.length +
      (library.load scripts).2.scripts.length = scripts.length
    omega
  · have hcount := length_add_length_filter hsorted.nodup_keys hholds.sorted.nodup_keys
    rw [← length_namesOf_isNew hholds.sorted hholds.find?, ← length_removedNames, ← hadded,
      Dictionary.keys, Dictionary.keys, List.length_map, List.length_map] at hcount
    exact hcount

/-- A load that succeeds reports exactly what it changed, whatever names it shadows. -/
theorem summarises_reload {ε : Type} (library : ScriptLibrary) (hsorted : library.scripts.Sorted)
    {loaded : Except ε (List Script)} {summary : ReloadSummary} {next : ScriptLibrary}
    (h : library.reload loaded = (.ok summary, next)) :
    ∃ scripts, loaded = .ok scripts ∧ summary.Summarises library.scripts scripts next.scripts := by
  cases loaded with
  | error e => cases h
  | ok scripts =>
    cases h
    exact ⟨scripts, rfl, summarises_load library hsorted scripts⟩

/-- A name in three spellings, the last one with the digest that it had before, and a script whose text
stays while its digest changes. -/
theorem summarises_repeated_names :
    let library : ScriptLibrary :=
      ⟨[("guard", ⟨"Guard", "log 1", "d1"⟩), ("herald", ⟨"Herald", "log 2", "d2"⟩),
        ("old", ⟨"Old", "log 3", "d3"⟩)], true⟩
    let scripts : List Script := [⟨"GUARD", "log 4", "d4"⟩, ⟨"new", "log 5", "d5"⟩,
      ⟨"gUARD", "log 6", "d6"⟩, ⟨"herald", "log 2", "d7"⟩, ⟨"guard", "log 8", "d1"⟩,
      ⟨"NEW", "log 9", "d9"⟩]
    library.scripts.Sorted ∧ ∃ summary next,
      library.reload (.ok scripts : Except StorageError (List Script)) = (.ok summary, next) ∧
        summary.Summarises library.scripts scripts next.scripts ∧
        summary = ⟨3, ["NEW"], ["herald"], ["Old"], ["GUARD", "gUARD", "new"]⟩ := by
  intro library scripts
  have hsorted : library.scripts.Sorted := by
    unfold Dictionary.Sorted
    decide
  have hreload : library.reload (.ok scripts : Except StorageError (List Script)) = _ := rfl
  obtain ⟨_, hloaded, hsummary⟩ := summarises_reload library hsorted hreload
  cases hloaded
  exact ⟨hsorted, _, _, hreload, hsummary, by decide⟩

end ScriptLibrary
end ScriptedActors
