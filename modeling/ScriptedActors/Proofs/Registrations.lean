import Mathlib.Data.List.Dedup
import Mathlib.Data.List.Induction
import ScriptedActors.Proofs.KeywordTable

set_option autoImplicit false

/-!
# Histories of registrations

A registration writes to one name up to case and leaves every other name as it is. So a table that was
filled by registrations holds of each name the last one, and the names stand in the order in which
these last registrations were made.
-/
namespace ScriptedActors
open Text

namespace KeywordTable
variable {α : Type}

/-- The bindings whose names are not bound again later. -/
def latest : List (String × α) → List (String × α)
  | [] => []
  | b :: later => if later.any fun c => sameName c.1 b.1 then latest later else b :: latest later

def lastOf (bindings : List (String × α)) (name : String) : Option (String × α) :=
  bindings.reverse.find? fun b => sameName b.1 name

theorem latest_sublist (bindings : List (String × α)) : (latest bindings).Sublist bindings := by
  induction bindings with
  | nil => exact List.Sublist.slnil
  | cons b later ih =>
    rw [latest]
    split
    · exact ih.cons b
    · exact ih.cons_cons b

theorem latest_distinct (bindings : List (String × α)) : Distinct (latest bindings) := by
  induction bindings with
  | nil => exact List.Pairwise.nil
  | cons b later ih =>
    rw [latest]
    split
    · exact ih
    · rename_i hlast
      refine List.pairwise_cons.mpr ⟨?_, ih⟩
      intro c hc
      rw [sameName_comm]
      simp only [List.any_eq_true, not_exists, not_and, Bool.not_eq_true] at hlast
      exact hlast c ((latest_sublist later).subset hc)

theorem latest_append (bindings : List (String × α)) (last : String × α) :
    latest (bindings ++ [last]) =
      (latest bindings).filter (fun b => !sameName b.1 last.1) ++ [last] := by
  induction bindings with
  | nil => simp [latest]
  | cons b later ih =>
    rw [List.cons_append, latest, latest, List.any_append, ih]
    cases hlater : later.any fun c => sameName c.1 b.1 with
    | true => simp
    | false =>
      cases hlast : sameName last.1 b.1 with
      | true =>
        have hsame : sameName b.1 last.1 = true := by rw [sameName_comm, hlast]
        simp [hlast, hsame]
      | false =>
        have hother : sameName b.1 last.1 = false := by rw [sameName_comm, hlast]
        simp [hlast, hother]

theorem lowered_latest (bindings : List (String × α)) :
    (latest bindings).map (fun b => lower b.1) = (bindings.map fun b => lower b.1).dedup := by
  induction bindings with
  | nil => rfl
  | cons b later ih =>
    have hmem : (later.any fun c => sameName c.1 b.1) = true ↔
        lower b.1 ∈ later.map fun c => lower c.1 := by
      simp only [List.any_eq_true, List.mem_map, sameName_iff]
    rw [latest, List.map_cons]
    by_cases hlater : (later.any fun c => sameName c.1 b.1) = true
    · rw [if_pos hlater, List.dedup_cons_of_mem (hmem.mp hlater), ih]
    · rw [if_neg hlater, List.dedup_cons_of_notMem (hmem.not.mp hlater), List.map_cons, ih]

theorem registerAll_append (table : KeywordTable α) (bindings : List (String × α))
    (last : String × α) :
    table.registerAll (bindings ++ [last]) =
      ((table.registerAll bindings).register last.1 last.2).2 := by
  rw [registerAll, List.foldl_append]
  rfl

theorem entries_registerAll_empty (label : String) (bindings : List (String × α)) :
    ((empty label).registerAll bindings).entries = latest bindings := by
  induction bindings using List.reverseRecOn with
  | nil => rfl
  | append_singleton bindings last ih =>
    rw [registerAll_append, register_entries, latest_append, others, ih]

/-- A registration writes to its name, and to no other one. -/
theorem resolve_register (table : KeywordTable α) (name : String) (value : α) (other : String) :
    (table.register name value).2.resolve other =
      if sameName name other = true then some value else table.resolve other := by
  rw [resolve, register_entries, others, List.find?_append, List.find?_filter]
  by_cases hsame : sameName name other = true
  · have hnone : table.entries.find? (fun e => decide ((!sameName e.1 name) = true ∧
        sameName e.1 other = true)) = none := by
      rw [List.find?_eq_none]
      intro e _
      simp [sameName_congr hsame]
    rw [hnone, if_pos hsame]
    simp [hsame]
  · have hfind : table.entries.find? (fun e => decide ((!sameName e.1 name) = true ∧
        sameName e.1 other = true)) = table.entries.find? fun e => sameName e.1 other := by
      congr 1
      funext e
      by_cases he : sameName e.1 other = true
      · have hother : sameName e.1 name = false := by
          rw [sameName_comm, sameName_congr he]
          simpa using hsame
        simp [he, hother]
      · simp [he]
    rw [hfind, if_neg hsame, resolve]
    simp [hsame]

theorem resolve_registerAll_empty (label : String) (bindings : List (String × α)) (name : String) :
    ((empty label).registerAll bindings).resolve name = (lastOf bindings name).map Prod.snd := by
  induction bindings using List.reverseRecOn with
  | nil => rfl
  | append_singleton bindings last ih =>
    rw [registerAll_append, resolve_register, ih, lastOf, lastOf, List.reverse_append,
      List.reverse_singleton, List.singleton_append, List.find?_cons]
    cases sameName last.1 name with
    | true => rfl
    | false => rfl

theorem register_replaces_iff (table : KeywordTable α) (name : String) (value : α) :
    (table.register name value).1 = true ↔ ∃ bound, table.resolve name = some bound := by
  rw [← contains_iff, contains, resolve, Option.isSome_map, List.isSome_find?]
  rfl

theorem lastOf_eq_some_iff (bindings : List (String × α)) (name : String) (b : String × α) :
    lastOf bindings name = some b ↔ ∃ before after, bindings = before ++ b :: after ∧
      sameName b.1 name = true ∧ ∀ c ∈ after, sameName c.1 name = false := by
  rw [lastOf, List.find?_eq_some_iff_append]
  constructor
  · rintro ⟨hsame, after, before, hsplit, hafter⟩
    refine ⟨before.reverse, after.reverse, ?_, hsame, ?_⟩
    · rw [← List.reverse_reverse bindings, hsplit]
      simp
    · intro c hc
      simpa using hafter c (List.mem_reverse.mp hc)
  · rintro ⟨before, after, rfl, hsame, hafter⟩
    refine ⟨hsame, after.reverse, before.reverse, by simp, ?_⟩
    intro c hc
    simpa using hafter c (List.mem_reverse.mp hc)

theorem lastOf_eq_none_iff (bindings : List (String × α)) (name : String) :
    lastOf bindings name = none ↔ ∀ b ∈ bindings, sameName b.1 name = false := by
  simp [lastOf, List.find?_eq_none]

structure Records (bindings : List (String × α)) (table : KeywordTable α) : Prop where
  distinct : table.entries.Pairwise fun a b => sameName a.1 b.1 = false
  resolved : ∀ name value, table.resolve name = some value ↔
    ∃ before spelling after, bindings = before ++ (spelling, value) :: after ∧
      sameName spelling name = true ∧ ∀ b ∈ after, sameName b.1 name = false
  unresolved : ∀ name, table.resolve name = none ↔ ∀ b ∈ bindings, sameName b.1 name = false
  replaces : ∀ name value, (table.register name value).1 = true ↔
    ∃ bound, table.resolve name = some bound
  names : table.names = (latest bindings).map Prod.fst
  length : table.length = (bindings.map fun b => lower b.1).dedup.length
  contains : ∀ name, table.contains name = true ↔ ∃ b ∈ bindings, sameName b.1 name = true
  isEmpty : table.isEmpty = true ↔ bindings = []
  others : ∀ name value other, sameName name other = false →
    (table.register name value).2.resolve other = table.resolve other

/-- Registrations on an empty table make it the map in which each of them was written to its name. -/
theorem records_registerAll (label : String) (bindings : List (String × α)) :
    Records bindings ((empty label).registerAll bindings) := by
  have hentries := entries_registerAll_empty label bindings
  have hresolve := resolve_registerAll_empty label bindings
  generalize (empty label).registerAll bindings = table at *
  have hlength : table.length = (bindings.map fun b => lower b.1).dedup.length := by
    rw [length, hentries, ← lowered_latest, List.length_map]
  have hnone (name : String) :
      table.resolve name = none ↔ ∀ b ∈ bindings, sameName b.1 name = false := by
    rw [hresolve, Option.map_eq_none_iff, lastOf_eq_none_iff]
  refine ⟨?_, ?_, hnone, fun name value => register_replaces_iff table name value, ?_, hlength, ?_,
    ?_, ?_⟩
  · rw [hentries]
    exact latest_distinct bindings
  · intro name value
    rw [hresolve, Option.map_eq_some_iff]
    constructor
    · rintro ⟨b, hlast, rfl⟩
      obtain ⟨before, after, hsplit⟩ := (lastOf_eq_some_iff bindings name b).mp hlast
      exact ⟨before, b.1, after, hsplit⟩
    · rintro ⟨before, spelling, after, hsplit⟩
      exact ⟨(spelling, value), (lastOf_eq_some_iff bindings name _).mpr ⟨before, after, hsplit⟩, rfl⟩
  · rw [names, hentries]
  · intro name
    rw [contains, Option.isSome_iff_ne_none, ne_eq, hnone]
    simp
  · rw [isEmpty, beq_iff_eq, hlength, List.length_eq_zero_iff, List.dedup_eq_nil, List.map_eq_nil_iff]
  · intro name value other hother
    rw [resolve_register, if_neg (by simp [hother])]

end KeywordTable
end ScriptedActors
