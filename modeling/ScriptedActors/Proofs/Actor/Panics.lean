import ScriptedActors.Proofs.Actor.Rounds

set_option autoImplicit false

/-!
# What a panic takes from an actor

A tick that ends puts back the controllers that it took, without those that were replaced meanwhile. A
tick that panics, in asking or executing a controller, puts back none: of the controllers that the
actor had, none is left.
-/
namespace ScriptedActors
open Text

namespace Stage

def ofActor (a : Actor) : Stage :=
  ⟨a.controllers.mapIdx Post.mk, [], a.destroyed, a.controllers.length, []⟩

theorem shows_ofActor (s : Scene) : (ofActor s.actor).Shows s where
  controllers := by
    apply List.ext_getElem
    · simp [ofActor]
    · intro i _ _
      simp [ofActor]
  destroyed := rfl

theorem number_lt_ofActor (a : Actor) : ∀ p ∈ (ofActor a).posts, p.number < (ofActor a).next := by
  intro p hp
  obtain ⟨i, hi, rfl⟩ := List.mem_mapIdx.mp hp
  exact hi

structure AttachedBy (ds : List Deed) (first : Nat) (σ : Stage) : Prop where
  posts : ∀ p ∈ σ.posts, first ≤ p.number → .attach p.controller ∈ ds
  taken : ∀ r ∈ σ.rounds, ∀ p ∈ r.taken, first ≤ p.number → .attach p.controller ∈ ds

theorem AttachedBy.step {ds : List Deed} {first : Nat} {σ τ : Stage} {d : Deed}
    (h : AttachedBy ds first σ) (hmem : d ∈ ds) (hd : Step σ d τ) : AttachedBy ds first τ := by
  cases hd with
  | attach c =>
    refine ⟨?_, h.taken⟩
    intro p hp
    rcases List.mem_append.mp hp with hold | hnew
    · exact h.posts p (mem_postsBut.mp hold).1
    · rw [List.mem_singleton.mp hnew]
      exact fun _ => hmem
  | detach name => exact ⟨fun p hp => h.posts p (mem_postsBut.mp hp).1, h.taken⟩
  | destroy => exact ⟨h.posts, h.taken⟩
  | start =>
    refine ⟨by simp [start], ?_⟩
    exact List.forall_mem_cons.mpr ⟨h.posts, h.taken⟩
  | @ask asked p waiting rounds hrounds =>
    have htaken := h.taken
    rw [hrounds, List.forall_mem_cons] at htaken
    exact ⟨h.posts, List.forall_mem_cons.mpr ⟨by simpa [Round.taken] using htaken.1, htaken.2⟩⟩
  | @finish asked rounds hrounds =>
    have htaken := h.taken
    rw [hrounds, List.forall_mem_cons, Round.taken, List.append_nil] at htaken
    refine ⟨?_, htaken.2⟩
    intro p hp
    rcases mem_putBack.mp hp with ⟨hasked, -⟩ | hpost
    · exact htaken.1 p hasked
    · exact h.posts p hpost
  | @abandon r rounds hrounds =>
    have htaken := h.taken
    rw [hrounds, List.forall_mem_cons] at htaken
    exact ⟨h.posts, htaken.2⟩

theorem AttachedBy.run {ds : List Deed} {first floor : Nat} {σ τ : Stage} (h : AttachedBy ds first σ)
    (hrun : run floor ds σ = some τ) : AttachedBy ds first τ :=
  run_keeps (fun _ hmem _ _ hσ hd _ => hσ.step hmem hd) hrun h

/-- The last moment of a tick that started on `σ`: `last` is the stage after `during`, where no tick
is nested in it any more. -/
structure Closing (σ : Stage) (during : List Deed) (last : Stage) : Prop where
  during : Stage.run (σ.rounds.length + 1) during σ.start = some last
  innermost : last.rounds.length = σ.rounds.length + 1

theorem Closing.inside {σ last : Stage} {during : List Deed} (h : Closing σ during last) :
    ∃ asked waiting new, Inside σ last [] asked waiting new := by
  obtain ⟨inner, asked, waiting, new, hinside⟩ := inside_run h.during
  have hdepth := h.innermost
  rw [hinside.rounds, List.length_append, List.length_cons] at hdepth
  obtain rfl : inner = [] := List.length_eq_zero_iff.mp (by omega)
  exact ⟨asked, waiting, new, hinside⟩

/-- Wherever a tick panics, what its actor has afterwards was attached in the tick. -/
theorem Closing.lost {σ last after : Stage} {during : List Deed} (h : Closing σ during last)
    (hnumber : ∀ p ∈ σ.posts, p.number < σ.next) (habandon : Step last .abandon after) :
    ∀ p ∈ σ.posts, p ∉ after.posts := by
  obtain ⟨asked, waiting, new, hinside⟩ := h.inside
  intro p hp hafter
  have hposts : after.posts = last.posts := by
    cases habandon
    rfl
  rw [hposts] at hafter
  exact Nat.not_lt_of_le (hinside.posts_new p hafter) (hnumber p hp)

theorem Closing.kept {σ last after : Stage} {during : List Deed} (h : Closing σ during last)
    (hnumber : ∀ p ∈ σ.posts, p.number < σ.next) (hnone : σ.rounds = [])
    (hfinish : Step last .finish after) :
    ∀ p ∈ σ.posts, p ∈ after.posts ∨
      ∃ c, .attach c ∈ during ∧ sameName c.name p.name = true := by
  obtain ⟨asked, waiting, new, hinside⟩ := h.inside
  have hattached : AttachedBy during σ.next σ.start := by
    refine ⟨by simp [start], ?_⟩
    rw [start, hnone]
    refine List.forall_mem_cons.mpr ⟨fun p hp hnew => ?_, by simp⟩
    exact absurd (hnumber p hp) (Nat.not_lt_of_le hnew)
  cases hfinish with
  | @finish done rounds htop =>
    obtain ⟨-, hown, -⟩ | ⟨outer, houter, -⟩ := hinside.innermost htop
    case inr => cases houter
    cases hown
    obtain rfl : asked = σ.posts := by simpa using hinside.taken
    intro p hp
    cases hreplaced : hasPost last.posts p.name with
    | false => exact .inl (mem_putBack.mpr (.inl ⟨hp, hreplaced⟩))
    | true =>
      obtain ⟨q, hq, hname⟩ := hasPost_eq_true.mp hreplaced
      exact .inr ⟨q.controller, (hattached.run h.during).posts q hq (hinside.posts_new q hq), hname⟩

theorem Closing.ends {σ last after : Stage} {during deeds : List Deed} {d : Deed}
    (h : Closing σ during last) (hdeeds : deeds = .start :: during ++ [d]) {floor : Nat}
    (hfloor : floor ≤ σ.rounds.length) (hrun : Stage.run floor deeds σ = some after) :
    Step last d after := by
  rw [hdeeds, List.cons_append] at hrun
  obtain ⟨started, hstart, -, hrest⟩ := run_cons_eq_some hrun
  cases hstart
  obtain ⟨last', hlast, hend⟩ := run_append_eq_some hrest
  have hsame := run_lower (Nat.le_succ_of_le hfloor) h.during
  obtain rfl : last' = last := Option.some.inj (hlast.symm.trans hsame)
  obtain ⟨_, hstep, -, hnil⟩ := run_cons_eq_some hend
  cases hnil
  exact hstep

end Stage

def Deed.attaches (name : String) : Deed → Bool
  | .attach c => sameName c.name name
  | _ => false

namespace Scene

/-- During the tick of an actor another controller of the name is attached. -/
def Replaces (host : Host) (s : Scene) (name : String) : Prop :=
  ∃ c, .attach c ∈ tickDeeds host s ∧ sameName c.name name = true

theorem replaces_iff (host : Host) (s : Scene) (name : String) :
    s.Replaces host name ↔ ∃ d ∈ tickDeeds host s, d.attaches name = true := by
  constructor
  · rintro ⟨c, hc, hname⟩
    exact ⟨_, hc, hname⟩
  · rintro ⟨d, hd, hattaches⟩
    cases d with
    | attach c => exact ⟨c, hd, hattaches⟩
    | _ => cases hattaches

instance (host : Host) (s : Scene) (name : String) : Decidable (s.Replaces host name) :=
  decidable_of_iff _ (replaces_iff host s name).symm

/-- After its tick an actor has every controller that it had before and that was not replaced. -/
def TickKeeps (host : Host) (s : Scene) : Prop :=
  ∀ τ, Stage.run 0 (tickDeeds host s) (.ofActor s.actor) = some τ →
    ∀ p ∈ (Stage.ofActor s.actor).posts, p ∈ τ.posts ∨ s.Replaces host p.name

theorem tickDeeds_standing (host : Host) {s : Scene} (h : s.actor.destroyed = false) {σ : Stage}
    (hσ : σ.Shows s) :
    ∃ during last, Stage.Closing σ during last ∧
      tickDeeds host s = .start :: during ++ [ending (tick host s).1] := by
  obtain ⟨during, htick⟩ := (tellsAt_tick host s).whole h
  obtain ⟨last, -, hrun, hdepth, -, -⟩ := htick.leads hσ
  refine ⟨_, last, ⟨hrun, hdepth⟩, ?_⟩
  rw [tickDeeds, htick.since, List.map_append]
  rfl

theorem tick_destroyed (host : Host) {s : Scene} (h : s.actor.destroyed = true) :
    tick host s = (false, s) ∧ tickDeeds host s = [] := by
  have htick : tick host s = (false, s) := tickAt_destroyed _ host h
  rw [tickDeeds, htick, (Logged.nil rfl).since]
  exact ⟨rfl, rfl⟩

theorem tickKeeps_iff (host : Host) (s : Scene) :
    s.TickKeeps host ↔
      ((tick host s).1 = true → ∀ p ∈ (Stage.ofActor s.actor).posts, s.Replaces host p.name) := by
  have hshows := Stage.shows_ofActor s
  have hnumber := Stage.number_lt_ofActor s.actor
  obtain ⟨rs, htells⟩ := (tellsAt_tick host s).told
  obtain ⟨τ, hreaches, -⟩ := htells.leads hshows
  have hrun : Stage.run 0 (tickDeeds host s) (.ofActor s.actor) = some τ := by
    rw [tickDeeds, htells.since]
    exact hreaches.run
  cases hdestroyed : s.actor.destroyed with
  | true =>
    obtain ⟨htick, hdeeds⟩ := tick_destroyed host hdestroyed
    rw [htick, TickKeeps, hdeeds]
    refine ⟨fun _ => by simp, fun _ τ hτ p hp => ?_⟩
    cases hτ
    exact .inl hp
  | false =>
    obtain ⟨during, last, hclosing, hdeeds⟩ := tickDeeds_standing host hdestroyed hshows
    have hend := hclosing.ends hdeeds (Nat.le_refl 0) hrun
    cases hpanic : (tick host s).1 with
    | true =>
      rw [hpanic] at hend
      refine ⟨fun hkeeps _ p hp => ?_, fun hreplaced _ _ p hp => .inr (hreplaced rfl p hp)⟩
      exact (hkeeps τ hrun p hp).resolve_left (hclosing.lost hnumber hend p hp)
    | false =>
      rw [hpanic] at hend
      refine ⟨fun _ => by simp, fun _ υ hυ p hp => ?_⟩
      obtain rfl : τ = υ := Option.some.inj (hrun.symm.trans hυ)
      refine (hclosing.kept hnumber rfl hend p hp).imp_right ?_
      rintro ⟨c, hc, hname⟩
      refine ⟨c, ?_, hname⟩
      rw [hdeeds]
      exact List.mem_append_left _ (List.mem_cons_of_mem _ hc)

end Scene
end ScriptedActors
