import Mathlib.Data.List.Induction
import Mathlib.Data.List.Nodup
import ScriptedActors.Actor.Basic

set_option autoImplicit false

/-!
# Viewers as an ordered set

The viewers of an actor are a set that remembers in which order its members came. The names that an actor
is created with count as added one after the other, so a repeated name keeps the place of its first
occurrence. Afterwards a name goes to the end when it is added while it is absent, and nowhere when it
is present. A name that is removed has no place any more, and gets a new one if it comes back.
-/
namespace ScriptedActors

inductive ViewerCall where
  | add (name : String)
  | remove (name : String)

namespace ViewerCall

def apply (names : List String) : ViewerCall → List String
  | .add name => if name ∈ names then names else names ++ [name]
  | .remove name => names.filter (· != name)

variable {history : List ViewerCall} {name : String} {time : Nat}

def Present (history : List ViewerCall) (name : String) : Prop :=
  ∃ before after, history = before ++ .add name :: after ∧ .remove name ∉ after

/-- The last time at which a name was added while it was absent; it was not removed since. -/
def ArrivedAt (history : List ViewerCall) (name : String) (time : Nat) : Prop :=
  ∃ before after, history = before ++ .add name :: after ∧ before.length = time ∧
    ¬Present before name ∧ .remove name ∉ after

theorem present_append (history : List ViewerCall) (call : ViewerCall) (name : String) :
    Present (history ++ [call]) name ↔ call = .add name ∨ (Present history name ∧ call ≠ .remove name) := by
  constructor
  · rintro ⟨before, after, hsplit, hafter⟩
    rcases List.eq_nil_or_concat after with rfl | ⟨after, last, rfl⟩
    · exact .inl (List.append_inj_right' hsplit rfl |> List.singleton_inj.mp)
    · rw [List.concat_eq_append, ← List.cons_append, ← List.append_assoc] at hsplit
      rw [List.concat_eq_append] at hafter
      have hlast := List.append_inj_right' hsplit rfl |> List.singleton_inj.mp
      have hhistory := List.append_inj_left' hsplit rfl
      refine .inr ⟨⟨before, after, hhistory, ?_⟩, ?_⟩
      · exact fun hmem => hafter (List.mem_append_left _ hmem)
      · rintro rfl
        exact hafter (hlast ▸ List.mem_append_right _ (List.mem_singleton_self _))
  · rintro (rfl | ⟨⟨before, after, rfl, hafter⟩, hcall⟩)
    · exact ⟨history, [], rfl, List.not_mem_nil⟩
    · refine ⟨before, after ++ [call], ?_, ?_⟩
      · rw [List.append_assoc, List.cons_append]
      · rw [List.mem_append, List.mem_singleton, not_or]
        exact ⟨hafter, Ne.symm hcall⟩

theorem not_present_nil (name : String) : ¬Present [] name := by
  rintro ⟨before, after, hsplit, -⟩
  exact List.append_ne_nil_of_right_ne_nil before (List.cons_ne_nil _ _) hsplit.symm

namespace ArrivedAt

theorem lt_length (h : ArrivedAt history name time) : time < history.length := by
  obtain ⟨before, after, rfl, rfl, -, -⟩ := h
  rw [List.length_append, List.length_cons]
  omega

theorem append (h : ArrivedAt history name time) {call : ViewerCall} (hcall : call ≠ .remove name) :
    ArrivedAt (history ++ [call]) name time := by
  obtain ⟨before, after, rfl, htime, habsent, hafter⟩ := h
  refine ⟨before, after ++ [call], ?_, htime, habsent, ?_⟩
  · rw [List.append_assoc, List.cons_append]
  · rw [List.mem_append, List.mem_singleton, not_or]
    exact ⟨hafter, Ne.symm hcall⟩

theorem of_absent (h : ¬Present history name) : ArrivedAt (history ++ [.add name]) name history.length :=
  ⟨history, [], rfl, rfl, h, List.not_mem_nil⟩

theorem unique {other : Nat} (h : ArrivedAt history name time) (hother : ArrivedAt history name other) :
    time = other := by
  obtain ⟨before, after, hsplit, htime, habsent, hafter⟩ := h
  obtain ⟨before', after', hsplit', htime', habsent', hafter'⟩ := hother
  rcases List.append_eq_append_iff.mp (hsplit.symm.trans hsplit') with ⟨middle, hbefore, hrest⟩ | ⟨middle, hbefore, hrest⟩
  · cases middle with
    | nil => rw [← htime, ← htime', hbefore, List.append_nil]
    | cons call middle =>
      obtain ⟨rfl, rfl⟩ := List.cons.inj hrest
      exact absurd ⟨before, middle, hbefore, fun hmem => hafter (List.mem_append_left _ hmem)⟩ habsent'
  · cases middle with
    | nil => rw [← htime, ← htime', hbefore, List.append_nil]
    | cons call middle =>
      obtain ⟨rfl, rfl⟩ := List.cons.inj hrest
      exact absurd ⟨before', middle, hbefore, fun hmem => hafter' (List.mem_append_left _ hmem)⟩ habsent

end ArrivedAt

/-- Names that are present after a history, in the order in which they last became so. -/
structure Remembers (history : List ViewerCall) (names : List String) : Prop where
  nodup : names.Nodup
  mem_iff : ∀ name, name ∈ names ↔ Present history name
  arrived : ∀ name ∈ names, ∃ time, ArrivedAt history name time
  ordered : names.Pairwise fun first second =>
    ∃ i j, ArrivedAt history first i ∧ ArrivedAt history second j ∧ i < j

namespace Remembers
variable {names : List String} {call : ViewerCall}

theorem ordered_append (h : Remembers history names) {kept : List String} (hkept : kept.Sublist names)
    (hcall : ∀ name ∈ kept, call ≠ .remove name) : kept.Pairwise fun first second =>
      ∃ i j, ArrivedAt (history ++ [call]) first i ∧ ArrivedAt (history ++ [call]) second j ∧ i < j := by
  refine List.Pairwise.imp_of_mem ?_ (h.ordered.sublist hkept)
  rintro first second hfirst hsecond ⟨i, j, hi, hj, hlt⟩
  exact ⟨i, j, hi.append (hcall first hfirst), hj.append (hcall second hsecond), hlt⟩

theorem arrived_append (h : Remembers history names) {kept : List String} (hkept : kept.Sublist names)
    (hcall : ∀ name ∈ kept, call ≠ .remove name) :
    ∀ name ∈ kept, ∃ time, ArrivedAt (history ++ [call]) name time := by
  intro name hname
  obtain ⟨time, htime⟩ := h.arrived name (hkept.subset hname)
  exact ⟨time, htime.append (hcall name hname)⟩

theorem add_present (h : Remembers history names) (hname : name ∈ names) :
    Remembers (history ++ [.add name]) names where
  nodup := h.nodup
  mem_iff other := by
    rw [present_append, ← h.mem_iff]
    constructor
    · exact fun hother => .inr ⟨hother, nofun⟩
    · rintro (heq | ⟨hother, -⟩)
      · cases heq
        exact hname
      · exact hother
  arrived := h.arrived_append (List.Sublist.refl _) nofun
  ordered := h.ordered_append (List.Sublist.refl _) nofun

theorem add_absent (h : Remembers history names) (hname : name ∉ names) :
    Remembers (history ++ [.add name]) (names ++ [name]) := by
  have hlast : ArrivedAt (history ++ [.add name]) name history.length :=
    .of_absent fun hpresent => hname ((h.mem_iff name).mpr hpresent)
  have hkept : ∀ other ∈ names, ViewerCall.add name ≠ .remove other := fun _ _ => nofun
  constructor
  case nodup =>
    refine List.nodup_append.mpr ⟨h.nodup, List.nodup_singleton name, ?_⟩
    rintro first hfirst second hsecond rfl
    exact hname (List.mem_singleton.mp hsecond ▸ hfirst)
  case mem_iff =>
    intro other
    rw [List.mem_append, List.mem_singleton, present_append, h.mem_iff]
    constructor
    · rintro (hother | rfl)
      · exact .inr ⟨hother, nofun⟩
      · exact .inl rfl
    · rintro (heq | ⟨hother, -⟩)
      · cases heq
        exact .inr rfl
      · exact .inl hother
  case arrived =>
    intro other hother
    rcases List.mem_append.mp hother with hother | hother
    · exact h.arrived_append (List.Sublist.refl _) hkept other hother
    · rw [List.mem_singleton.mp hother]
      exact ⟨_, hlast⟩
  case ordered =>
    refine List.pairwise_append.mpr
      ⟨h.ordered_append (List.Sublist.refl _) hkept, List.pairwise_singleton _ _, ?_⟩
    intro first hfirst second hsecond
    obtain ⟨i, hi⟩ := h.arrived first hfirst
    rw [List.mem_singleton.mp hsecond]
    exact ⟨i, history.length, hi.append nofun, hlast, hi.lt_length⟩

theorem remove (h : Remembers history names) (name : String) :
    Remembers (history ++ [.remove name]) (names.filter (· != name)) := by
  have hsublist : (names.filter (· != name)).Sublist names := List.filter_sublist
  have hother : ∀ other ∈ names.filter (· != name), ViewerCall.remove name ≠ .remove other := by
    intro other hmem heq
    cases heq
    simp at hmem
  constructor
  case nodup => exact h.nodup.filter _
  case mem_iff =>
    intro other
    rw [present_append, List.mem_filter, h.mem_iff]
    simp only [bne_iff_ne, ne_eq, reduceCtorEq, ViewerCall.remove.injEq, false_or]
    exact and_congr_right fun _ => not_congr eq_comm
  case arrived => exact h.arrived_append hsublist hother
  case ordered => exact h.ordered_append hsublist hother

theorem apply (h : Remembers history names) (call : ViewerCall) :
    Remembers (history ++ [call]) (call.apply names) := by
  cases call with
  | add name =>
    rw [ViewerCall.apply]
    split
    · exact h.add_present ‹_›
    · exact h.add_absent ‹_›
  | remove name => exact h.remove name

end Remembers

theorem remembers_foldl (history : List ViewerCall) : Remembers history (history.foldl apply []) := by
  induction history using List.reverseRecOn with
  | nil =>
    refine ⟨List.nodup_nil, fun name => ?_, nofun, List.Pairwise.nil⟩
    exact iff_of_false List.not_mem_nil (not_present_nil name)
  | append_singleton history call ih =>
    rw [List.foldl_append]
    exact ih.apply call

example : [.add "alex", .add "steve", .add "alex", .remove "alex", .add "alex"].foldl apply [] =
    ["steve", "alex"] := by decide

end ViewerCall

namespace Actor

def callViewers (a : Actor) : ViewerCall → Bool × Actor
  | .add name => a.addViewer name
  | .remove name => a.removeViewer name

def afterCalls (a : Actor) (calls : List ViewerCall) : Actor :=
  calls.foldl (fun a call => (a.callViewers call).2) a

theorem viewers_callViewers (a : Actor) (call : ViewerCall) :
    (a.callViewers call).2.viewers = call.apply a.viewers := by
  cases call with
  | add name =>
    rw [callViewers, addViewer, ViewerCall.apply]
    split
    · rfl
    · rfl
  | remove name => rfl

theorem viewers_afterCalls (a : Actor) (calls : List ViewerCall) :
    (a.afterCalls calls).viewers = calls.foldl ViewerCall.apply a.viewers := by
  induction calls generalizing a with
  | nil => rfl
  | cons call calls ih =>
    rw [List.foldl_cons, ← viewers_callViewers]
    exact ih _

theorem withoutRepeats_append (names : List String) (last : String) :
    withoutRepeats (names ++ [last]) =
      if last ∈ withoutRepeats names then withoutRepeats names else withoutRepeats names ++ [last] := by
  rw [withoutRepeats, List.foldl_append]
  rfl

theorem mem_withoutRepeats (names : List String) (name : String) :
    name ∈ withoutRepeats names ↔ name ∈ names := by
  induction names using List.reverseRecOn with
  | nil => exact Iff.rfl
  | append_singleton names last ih =>
    rw [withoutRepeats_append, List.mem_append, List.mem_singleton, ← ih]
    split
    · rename_i hlast
      constructor
      · exact .inl
      · rintro (hname | rfl)
        · exact hname
        · exact hlast
    · rw [List.mem_append, List.mem_singleton]

theorem nodup_withoutRepeats (names : List String) : (withoutRepeats names).Nodup := by
  induction names using List.reverseRecOn with
  | nil => exact List.nodup_nil
  | append_singleton names last ih =>
    rw [withoutRepeats_append]
    split
    · exact ih
    · rename_i hlast
      refine List.nodup_append.mpr ⟨ih, List.nodup_singleton last, ?_⟩
      intro name hname other hother heq
      rw [List.mem_singleton.mp hother] at heq
      exact hlast (heq ▸ hname)

theorem withoutRepeats_eq_eraseDups (names : List String) : withoutRepeats names = names.eraseDups := by
  induction names using List.reverseRecOn with
  | nil => rfl
  | append_singleton names last ih =>
    rw [withoutRepeats_append, List.eraseDups_append, ih]
    by_cases hlast : last ∈ names
    · simp [List.removeAll, hlast]
    · simp [List.removeAll, hlast, List.eraseDups_cons]

theorem withoutRepeats_eq_foldl (names : List String) :
    withoutRepeats names = (names.map ViewerCall.add).foldl ViewerCall.apply [] := by
  rw [List.foldl_map]
  rfl

theorem remembers_afterCalls (uniqueId : String) (kind : EntityKind) (location : Location)
    (initial : List String) (handle : Handle) (calls : List ViewerCall) :
    ViewerCall.Remembers (initial.map .add ++ calls)
      ((new uniqueId kind location initial handle).afterCalls calls).viewers := by
  have hviewers : (new uniqueId kind location initial handle).viewers = withoutRepeats initial := rfl
  rw [viewers_afterCalls, hviewers, withoutRepeats_eq_foldl, ← List.foldl_append]
  exact ViewerCall.remembers_foldl _

theorem addViewer_succeeds_iff (a : Actor) (name : String) :
    (a.addViewer name).1 = true ↔ name ∉ a.viewers := by
  rw [addViewer]
  split
  · exact iff_of_false Bool.false_ne_true (not_not_intro ‹_›)
  · exact iff_of_true rfl ‹_›

theorem removeViewer_succeeds_iff (a : Actor) (name : String) :
    (a.removeViewer name).1 = true ↔ name ∈ a.viewers := by
  rw [removeViewer, bne_iff_ne, ne_eq, List.length_filter_eq_length_iff]
  simp

/-- What is known of the viewers of an actor that was created with some, after calls that add and remove
viewers. Those that it was created with count as added before. -/
structure OrderedViewers (initial : List String) (calls : List ViewerCall) (a : Actor) : Prop where
  nodup : a.viewers.Nodup
  add_succeeds_iff : ∀ name, (a.addViewer name).1 = true ↔ name ∉ a.viewers
  added : ∀ name, name ∉ a.viewers → (a.addViewer name).2.viewers = a.viewers ++ [name]
  not_added : ∀ name, name ∈ a.viewers → (a.addViewer name).2.viewers = a.viewers
  remove_succeeds_iff : ∀ name, (a.removeViewer name).1 = true ↔ name ∈ a.viewers
  removed : ∀ name, (a.removeViewer name).2.viewers = a.viewers.erase name
  present_iff : ∀ name, name ∈ a.viewers ↔ ViewerCall.Present (initial.map .add ++ calls) name
  arrived : ∀ name ∈ a.viewers, ∃! time, ViewerCall.ArrivedAt (initial.map .add ++ calls) name time
  ordered : a.viewers.Pairwise fun first second => ∀ i j,
    ViewerCall.ArrivedAt (initial.map .add ++ calls) first i →
      ViewerCall.ArrivedAt (initial.map .add ++ calls) second j → i < j

/-- The viewers of an actor are an ordered set, from whatever list it is created with and whatever is added
and removed. -/
theorem orderedViewers_afterCalls (uniqueId : String) (kind : EntityKind) (location : Location)
    (initial : List String) (handle : Handle) (calls : List ViewerCall) :
    (new uniqueId kind location initial handle).viewers = initial.eraseDups ∧
      OrderedViewers initial calls ((new uniqueId kind location initial handle).afterCalls calls) := by
  have hremembers := remembers_afterCalls uniqueId kind location initial handle calls
  refine ⟨withoutRepeats_eq_eraseDups initial, ?_⟩
  generalize (new uniqueId kind location initial handle).afterCalls calls = a at hremembers
  constructor
  case nodup => exact hremembers.nodup
  case add_succeeds_iff => exact a.addViewer_succeeds_iff
  case added =>
    intro name hname
    rw [addViewer, if_neg hname]
  case not_added =>
    intro name hname
    rw [addViewer, if_pos hname]
  case remove_succeeds_iff => exact a.removeViewer_succeeds_iff
  case removed =>
    intro name
    exact (hremembers.nodup.erase_eq_filter name).symm
  case present_iff => exact hremembers.mem_iff
  case arrived =>
    intro name hname
    obtain ⟨time, htime⟩ := hremembers.arrived name hname
    exact ⟨time, htime, fun other hother => hother.unique htime⟩
  case ordered =>
    refine hremembers.ordered.imp ?_
    rintro first second ⟨i, j, hi, hj, hlt⟩ i' j' hi' hj'
    rw [hi'.unique hi, hj'.unique hj]
    exact hlt

end Actor
end ScriptedActors
