import ScriptedActors.Engine
import ScriptedActors.Proofs.LiveSet.Creation

set_option autoImplicit false

/-!
# Fresh unique ids

A factory that never fails and never gives a unique id twice has every actor admitted, also where unique
ids are enforced, unless the set was shut down; and it goes on like this after each creation.
-/
namespace ScriptedActors

section Freshness
variable {σ : Type}

inductive Factory.Gives (factory : Factory σ) (start : σ) : List String → σ → Prop where
  | nothing : Gives factory start [] start
  | more {given : List String} {supply later : σ} {kind : EntityKind} {location : Location}
      {viewers : List String} {a : Actor} : Gives factory start given supply →
      factory.construct supply kind location viewers = (.ok a, later) →
      Gives factory start (given ++ [a.uniqueId]) later

/-- From now on the factory constructs every actor that it is asked for, each under a unique id that no
live actor has and that it did not give before. -/
def LiveSet.Fresh (set : LiveSet σ) : Prop :=
  ∀ given supply, set.factory.Gives set.supply given supply → ∀ kind location viewers, ∃ a later,
    set.factory.construct supply kind location viewers = (.ok a, later) ∧
      a.uniqueId ∉ set.uniqueIds ∧ a.uniqueId ∉ given

structure LiveSet.Ready (set : LiveSet σ) : Prop where
  kept : LiveSet.Kept set
  fresh : set.Fresh

variable {factory : Factory σ} {start middle : σ} {kind : EntityKind} {location : Location}
  {viewers : List String} {a : Actor}

theorem Factory.Gives.cons (hfirst : factory.construct start kind location viewers = (.ok a, middle))
    {given : List String} {supply : σ} (h : factory.Gives middle given supply) :
    factory.Gives start (a.uniqueId :: given) supply := by
  induction h with
  | nothing => exact .more .nothing hfirst
  | more _ hlast ih => exact .more ih hlast

end Freshness

namespace LiveSet
variable {σ : Type} {set : LiveSet σ}

theorem supply_enter (set : LiveSet σ) (a : Actor) : (set.enter a).2.supply = set.supply := by
  have hdestroy (set : LiveSet σ) (identity : Nat) : (set.destroy identity).supply = set.supply := by
    rw [destroy, visit]
    cases set.actor? identity with
    | none => rfl
    | some a => rfl
  rw [enter]
  split
  · exact hdestroy _ _
  · split
    · exact hdestroy _ _
    · rfl

inductive Received (set : LiveSet σ) (a : Actor) : Except ActorError Nat × LiveSet σ → Prop where
  | closed {after : LiveSet σ} : set.closed = true → after.liveActors = set.liveActors →
      Received set a (.error .shutDown, after)
  | opened {identity : Nat} {after : LiveSet σ} : set.closed = false →
      after.liveActors = set.liveActors ++ [a] → Received set a (.ok identity, after)

theorem received_enter (hset : Kept set) {a : Actor} (hunused : a.uniqueId ∉ set.uniqueIds) :
    Received set a (set.enter a) := by
  have hentered := entered_enter hset a
  have hreply := enter_reply set a
  have hdistinct : ¬(set.enforcesUniqueIds = true ∧ a.uniqueId ∈ set.uniqueIds) := fun h => hunused h.2
  rw [if_neg hdistinct] at hreply
  generalize set.enter a = result at *
  cases hclosed : set.closed with
  | true =>
    rw [if_pos hclosed] at hreply
    cases hentered with
    | refused hlive _ =>
      cases hreply
      exact .closed hclosed hlive
    | admitted _ _ => cases hreply
  | false =>
    rw [if_neg (by simp [hclosed])] at hreply
    cases hentered with
    | refused _ _ => cases hreply
    | admitted hlive _ => exact .opened hclosed hlive

theorem Ready.received (hset : Ready set) (host : Host) (kind : EntityKind) (location : Location)
    (viewers : Option (List String)) {prepare : Actor → Actor}
    (hprepare : ∀ a, (prepare a).uniqueId = a.uniqueId) :
    ∃ a supply, set.constructed host kind location viewers = (.ok a, supply) ∧
      Received set (prepare a) (set.create host kind location viewers prepare) := by
  obtain ⟨a, supply, hconstruct, hunused, -⟩ :=
    hset.fresh [] set.supply .nothing kind location (viewers.getD (host.observers location))
  rw [← hprepare] at hunused
  have hsupplied : Kept { set with supply := supply } :=
    ⟨hset.kept.ordered, hset.kept.known, hset.kept.closed⟩
  have hreceived := received_enter hsupplied hunused
  refine ⟨a, supply, hconstruct, ?_⟩
  rw [create_of_construct hconstruct]
  generalize LiveSet.enter _ (prepare a) = result at *
  cases hreceived with
  | closed hclosed hlive => exact .closed hclosed hlive
  | opened hclosed hlive => exact .opened hclosed hlive

theorem Ready.create (hset : Ready set) (host : Host) (kind : EntityKind) (location : Location)
    (viewers : Option (List String)) {prepare : Actor → Actor}
    (hprepare : ∀ a, (prepare a).uniqueId = a.uniqueId) :
    Ready (set.create host kind location viewers prepare).2 := by
  obtain ⟨a, supply, hconstruct, hreceived⟩ := hset.received host kind location viewers hprepare
  have hkept := hset.kept.create host kind location viewers prepare
  have hfactory := factory_create set host kind location viewers prepare
  have hsupply : (set.create host kind location viewers prepare).2.supply = supply := by
    rw [create_of_construct hconstruct, supply_enter]
  generalize set.create host kind location viewers prepare = result at *
  refine ⟨hkept, ?_⟩
  intro given later hgives next place others
  rw [hfactory, hsupply] at hgives
  obtain ⟨b, last, hlast, hunused, hnew⟩ :=
    hset.fresh (a.uniqueId :: given) later (hgives.cons hconstruct) next place others
  obtain ⟨hother, hgiven⟩ := not_or.mp (mt List.mem_cons.mpr hnew)
  refine ⟨b, last, hfactory ▸ hlast, ?_, hgiven⟩
  cases hreceived with
  | closed _ hlive =>
    rw [uniqueIds, hlive]
    exact hunused
  | opened _ hlive =>
    rw [uniqueIds, hlive, List.map_append, List.map_singleton, hprepare, List.mem_append, not_or]
    exact ⟨hunused, fun hmem => hother (List.mem_singleton.mp hmem)⟩

end LiveSet

theorem Factory.gives_plain {start supply : UniqueIds} {given : List String}
    (h : Factory.plain.Gives start given supply) : supply.source = start.source ∧
      start.taken ≤ supply.taken ∧ ∀ u ∈ given, ∃ i, i < supply.taken ∧ u = start.source i := by
  induction h with
  | nothing => exact ⟨rfl, Nat.le_refl _, by simp⟩
  | more _ hlast ih =>
    obtain ⟨hsource, htaken, hgiven⟩ := ih
    cases hlast
    refine ⟨hsource, Nat.le_succ_of_le htaken, ?_⟩
    intro u hu
    rcases List.mem_append.mp hu with hu | hu
    · obtain ⟨i, hi, heq⟩ := hgiven u hu
      exact ⟨i, Nat.lt_succ_of_lt hi, heq⟩
    · exact ⟨_, Nat.lt_succ_self _, by rw [← hsource]; exact List.mem_singleton.mp hu⟩

/-- Unique ids from a source without repetitions are fresh. -/
theorem LiveSet.fresh_plain {set : LiveSet UniqueIds} (hfactory : set.factory = Factory.plain)
    (hsource : Function.Injective set.supply.source)
    (hids : ∀ u ∈ set.uniqueIds, ∃ i, i < set.supply.taken ∧ u = set.supply.source i) : set.Fresh := by
  intro given supply hgives kind location viewers
  rw [hfactory] at hgives ⊢
  obtain ⟨hsame, htaken, hgiven⟩ := Factory.gives_plain hgives
  refine ⟨_, _, rfl, ?_, ?_⟩
  · intro hmem
    obtain ⟨i, hi, heq⟩ := hids _ hmem
    have hindex : supply.taken = i := hsource (by rw [← heq, ← hsame]; rfl)
    omega
  · intro hmem
    obtain ⟨i, hi, heq⟩ := hgiven _ hmem
    have hindex : supply.taken = i := hsource (by rw [← heq, ← hsame]; rfl)
    omega

end ScriptedActors
