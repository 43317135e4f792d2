import ScriptedActors.KeywordTable

set_option autoImplicit false

/-!
# Keyword tables without clashes

Where no two names of a list are equal up to case, a search by name finds the only entry of that
name, and registering the list keeps it as it is.
-/
namespace ScriptedActors
open Text

namespace KeywordTable
variable {α : Type}

/-- No two names of a list are equal up to case. -/
def Distinct (names : List (String × α)) : Prop :=
  names.Pairwise fun a b => sameName a.1 b.1 = false

instance (names : List (String × α)) : Decidable (Distinct names) :=
  List.instDecidablePairwise names

theorem find?_eq_some (names : List (String × α)) (h : Distinct names) (text : String)
    (entry : String × α) :
    names.find? (fun e => sameName e.1 text) = some entry ↔
      entry ∈ names ∧ sameName entry.1 text = true := by
  induction names with
  | nil => simp
  | cons first names ih =>
    obtain ⟨hfirst, hnames⟩ := List.pairwise_cons.mp h
    rw [List.find?_cons]
    cases hs : sameName first.1 text with
    | true =>
      constructor
      · rintro ⟨⟩
        exact ⟨List.mem_cons_self, hs⟩
      · rintro ⟨hmem, hentry⟩
        rcases List.mem_cons.mp hmem with rfl | hmem
        · rfl
        · have hclash : sameName first.1 entry.1 = true :=
            sameName_trans hs (by rw [sameName_comm]; exact hentry)
          rw [hfirst entry hmem] at hclash
          exact absurd hclash (by decide)
    | false =>
      rw [ih hnames]
      constructor
      · rintro ⟨hmem, hentry⟩
        exact ⟨List.mem_cons_of_mem _ hmem, hentry⟩
      · rintro ⟨hmem, hentry⟩
        rcases List.mem_cons.mp hmem with rfl | hmem
        · rw [hs] at hentry
          exact absurd hentry (by decide)
        · exact ⟨hmem, hentry⟩

theorem distinct_append {first second : List (String × α)} (h : Distinct (first ++ second))
    (a b : String × α) (ha : a ∈ first) (hb : b ∈ second) : sameName a.1 b.1 = false :=
  (List.pairwise_append.mp h).2.2 a ha b hb

theorem others_eq_of_distinct (table : KeywordTable α) (name : String) (value : α)
    (h : Distinct (table.entries ++ [(name, value)])) : table.others name = table.entries := by
  refine List.filter_eq_self.mpr ?_
  intro entry hentry
  rw [distinct_append h entry (name, value) hentry List.mem_cons_self]
  rfl

theorem entries_registerAll (bindings : List (String × α)) (table : KeywordTable α)
    (h : Distinct (table.entries ++ bindings)) :
    (table.registerAll bindings).entries = table.entries ++ bindings := by
  induction bindings generalizing table with
  | nil => simp [registerAll]
  | cons binding bindings ih =>
    have happend : table.entries ++ binding :: bindings = (table.entries ++ [binding]) ++ bindings := by simp
    have hfirst : Distinct (table.entries ++ [binding]) := by
      rw [happend] at h
      exact (List.pairwise_append.mp h).1
    have hentries : (table.register binding.1 binding.2).2.entries = table.entries ++ [binding] := by
      rw [register_entries, others_eq_of_distinct table binding.1 binding.2 hfirst]
    change ((table.register binding.1 binding.2).2.registerAll bindings).entries = _
    rw [ih _ (by rw [hentries, ← happend]; exact h), hentries, ← happend]

theorem resolve_eq_some (table : KeywordTable α) (h : Distinct table.entries) (name : String) (value : α) :
    table.resolve name = some value ↔
      ∃ bound, (bound, value) ∈ table.entries ∧ sameName bound name = true := by
  simp only [resolve, Option.map_eq_some_iff]
  constructor
  · rintro ⟨entry, hfind, rfl⟩
    exact ⟨entry.1, (find?_eq_some table.entries h name entry).mp hfind⟩
  · rintro ⟨bound, hbound⟩
    exact ⟨(bound, value), (find?_eq_some table.entries h name (bound, value)).mpr hbound, rfl⟩

end KeywordTable
end ScriptedActors
