import ScriptedActors.Proofs.Actor.Story

set_option autoImplicit false

/-!
# What a tick keeps

The names of the attached controllers are distinct up to case at every moment, also while ticks are
under way. A tick asks each controller that it took exactly once and in order, the ticks nested in
it ask none of these, and when it ends they stand in front of those that were attached meanwhile,
without the ones that a newer controller of their name replaced.
-/
namespace ScriptedActors
open Text

namespace Stage

def Distinct (posts : List Post) : Prop :=
  posts.Pairwise fun p q => sameName p.name q.name = false

theorem hasPost_eq_true {posts : List Post} {name : String} :
    hasPost posts name = true ↔ ∃ p ∈ posts, sameName p.name name = true := List.any_eq_true

theorem hasPost_eq_false {posts : List Post} {name : String} :
    hasPost posts name = false ↔ ∀ p ∈ posts, sameName p.name name = false := by
  rw [hasPost, List.any_eq_false]
  simp

theorem mem_postsBut {posts : List Post} {name : String} {p : Post} :
    p ∈ postsBut posts name ↔ p ∈ posts ∧ sameName p.name name = false := by
  simp [postsBut]

theorem mem_putBack {taken posts : List Post} {p : Post} :
    p ∈ putBack taken posts ↔ p ∈ taken ∧ hasPost posts p.name = false ∨ p ∈ posts := by
  simp [putBack]

theorem hasPost_congr {a b : String} (h : sameName a b = true) (posts : List Post) :
    hasPost posts a = hasPost posts b := by
  rw [hasPost, hasPost]
  congr 1
  funext p
  exact sameName_congr h p.name

theorem hasPost_append (first second : List Post) (name : String) :
    hasPost (first ++ second) name = (hasPost first name || hasPost second name) := List.any_append

theorem hasPost_postsBut (posts : List Post) (gone name : String) :
    hasPost (postsBut posts gone) name = (!sameName gone name && hasPost posts name) := by
  cases hgone : sameName gone name with
  | true =>
    rw [Bool.not_true, Bool.false_and, hasPost_eq_false]
    intro p hp
    rw [← sameName_congr hgone]
    exact (mem_postsBut.mp hp).2
  | false =>
    rw [Bool.not_false, Bool.true_and, Bool.eq_iff_iff, hasPost_eq_true, hasPost_eq_true]
    constructor
    · rintro ⟨p, hp, hname⟩
      exact ⟨p, (mem_postsBut.mp hp).1, hname⟩
    · rintro ⟨p, hp, hname⟩
      refine ⟨p, mem_postsBut.mpr ⟨hp, ?_⟩, hname⟩
      rw [sameName_comm, sameName_congr hname, hgone]

theorem hasPost_putBack (taken posts : List Post) (name : String) :
    hasPost (putBack taken posts) name = (hasPost taken name || hasPost posts name) := by
  rw [Bool.eq_iff_iff, Bool.or_eq_true]
  constructor
  · intro h
    obtain ⟨p, hp, hname⟩ := hasPost_eq_true.mp h
    rcases mem_putBack.mp hp with ⟨htaken, -⟩ | hpost
    · exact .inl (hasPost_eq_true.mpr ⟨p, htaken, hname⟩)
    · exact .inr (hasPost_eq_true.mpr ⟨p, hpost, hname⟩)
  · intro h
    have hnew : hasPost posts name = true → hasPost (putBack taken posts) name = true := by
      intro hposts
      obtain ⟨p, hp, hname⟩ := hasPost_eq_true.mp hposts
      exact hasPost_eq_true.mpr ⟨p, mem_putBack.mpr (.inr hp), hname⟩
    rcases h with htaken | hposts
    · obtain ⟨p, hp, hname⟩ := hasPost_eq_true.mp htaken
      cases hreplaced : hasPost posts p.name with
      | true => exact hnew (by rwa [← hasPost_congr hname])
      | false => exact hasPost_eq_true.mpr ⟨p, mem_putBack.mpr (.inl ⟨hp, hreplaced⟩), hname⟩
    · exact hnew hposts

theorem Distinct.attach {posts : List Post} (h : Distinct posts) (number : Nat) (c : Controller) :
    Distinct (postsBut posts c.name ++ [⟨number, c⟩]) := by
  refine List.pairwise_append.mpr ⟨h.filter _, List.pairwise_singleton _ _, ?_⟩
  intro p hp q hq
  rw [List.mem_singleton.mp hq]
  exact (mem_postsBut.mp hp).2

theorem Distinct.putBack {taken posts : List Post} (htaken : Distinct taken) (hposts : Distinct posts) :
    Distinct (putBack taken posts) := by
  refine List.pairwise_append.mpr ⟨htaken.filter _, hposts, ?_⟩
  intro p hp q hq
  have hnone : hasPost posts p.name = false := by simpa using (List.mem_filter.mp hp).2
  rw [sameName_comm]
  exact hasPost_eq_false.mp hnone q hq

structure Sound (σ : Stage) : Prop where
  distinct : Distinct σ.posts
  taken_distinct : ∀ r ∈ σ.rounds, Distinct r.taken
  number_lt : ∀ p ∈ σ.posts, p.number < σ.next
  taken_lt : ∀ r ∈ σ.rounds, ∀ p ∈ r.taken, p.number < σ.next

theorem Sound.step {σ τ : Stage} {d : Deed} (h : Sound σ) (hd : Step σ d τ) : Sound τ := by
  cases hd with
  | attach c =>
    refine ⟨h.distinct.attach σ.next c, h.taken_distinct, ?_, ?_⟩
    · intro p hp
      rcases List.mem_append.mp hp with hold | hnew
      · exact Nat.lt_succ_of_lt (h.number_lt p (mem_postsBut.mp hold).1)
      · rw [List.mem_singleton.mp hnew]
        exact Nat.lt_succ_self σ.next
    · exact fun r hr p hp => Nat.lt_succ_of_lt (h.taken_lt r hr p hp)
  | detach name =>
    exact ⟨h.distinct.filter _, h.taken_distinct, fun p hp => h.number_lt p (mem_postsBut.mp hp).1,
      h.taken_lt⟩
  | destroy => exact ⟨h.distinct, h.taken_distinct, h.number_lt, h.taken_lt⟩
  | start hstanding =>
    refine ⟨List.Pairwise.nil, List.forall_mem_cons.mpr ⟨h.distinct, h.taken_distinct⟩, ?_,
      List.forall_mem_cons.mpr ⟨h.number_lt, h.taken_lt⟩⟩
    simp [start]
  | @ask asked p waiting rounds hrounds =>
    have htaken : Round.taken ⟨asked ++ [p], waiting⟩ = Round.taken ⟨asked, p :: waiting⟩ := by
      simp [Round.taken]
    have hdistinct := h.taken_distinct
    have hlt := h.taken_lt
    rw [hrounds, List.forall_mem_cons, ← htaken] at hdistinct hlt
    exact ⟨h.distinct, List.forall_mem_cons.mpr hdistinct, h.number_lt, List.forall_mem_cons.mpr hlt⟩
  | @finish asked rounds hrounds =>
    have hdistinct := h.taken_distinct
    have hlt := h.taken_lt
    rw [hrounds, List.forall_mem_cons, Round.taken, List.append_nil] at hdistinct hlt
    refine ⟨hdistinct.1.putBack h.distinct, hdistinct.2, ?_, hlt.2⟩
    intro p hp
    rcases mem_putBack.mp hp with ⟨htaken, -⟩ | hpost
    · exact hlt.1 p htaken
    · exact h.number_lt p hpost
  | @abandon r rounds hrounds =>
    have hdistinct := h.taken_distinct
    have hlt := h.taken_lt
    rw [hrounds, List.forall_mem_cons] at hdistinct hlt
    exact ⟨h.distinct, hdistinct.2, h.number_lt, hlt.2⟩

theorem Sound.run {floor : Nat} {ds : List Deed} {σ τ : Stage} (h : Sound σ)
    (hrun : run floor ds σ = some τ) : Sound τ :=
  run_keeps (fun _ _ _ _ hσ hd _ => hσ.step hd) hrun h

/-- A tick on a stage: `during` is what is done until it ends, which leads to `last`, where it has
asked all and no tick is nested in it any more. -/
structure Ticks (σ : Stage) (during : List Deed) (last after : Stage) : Prop where
  standing : σ.destroyed = false
  during : Stage.run (σ.rounds.length + 1) during σ.start = some last
  innermost : last.rounds.length = σ.rounds.length + 1
  finish : Step last .finish after

/-- What holds while a tick is under way that started on `σ`: `inner` are the ticks nested in it,
`asked` and `waiting` are its own controllers, and `new` tells who was asked since it started. -/
structure Inside (σ τ : Stage) (inner : List Round) (asked waiting : List Post) (new : List Asking) :
    Prop where
  rounds : τ.rounds = inner ++ ⟨asked, waiting⟩ :: σ.rounds
  taken : asked ++ waiting = σ.posts
  askings : τ.askings = σ.askings ++ new
  own : (new.filter fun a => a.depth == σ.rounds.length + 1).map Asking.post = asked
  nested : ∀ a ∈ new, a.depth ≠ σ.rounds.length + 1 →
    σ.rounds.length + 1 < a.depth ∧ σ.next ≤ a.post.number
  posts_new : ∀ p ∈ τ.posts, σ.next ≤ p.number
  inner_new : ∀ r ∈ inner, ∀ p ∈ r.taken, σ.next ≤ p.number
  next_le : σ.next ≤ τ.next

theorem inside_start (σ : Stage) : Inside σ σ.start [] [] σ.posts [] where
  rounds := rfl
  taken := rfl
  askings := (List.append_nil _).symm
  own := rfl
  nested := by simp
  posts_new := by simp [start]
  inner_new := by simp
  next_le := Nat.le_refl _

theorem Inside.innermost {σ τ : Stage} {inner rounds : List Round} {asked waiting : List Post}
    {new : List Asking} (h : Inside σ τ inner asked waiting new) {r : Round}
    (htop : τ.rounds = r :: rounds) :
    (inner = [] ∧ r = ⟨asked, waiting⟩ ∧ rounds = σ.rounds) ∨
      ∃ outer, inner = r :: outer ∧ rounds = outer ++ ⟨asked, waiting⟩ :: σ.rounds := by
  have hrounds := h.rounds
  rw [htop] at hrounds
  cases inner with
  | nil => exact .inl ⟨rfl, by simpa using hrounds⟩
  | cons top outer =>
    obtain ⟨rfl, rfl⟩ : r = top ∧ rounds = outer ++ ⟨asked, waiting⟩ :: σ.rounds := by
      simpa using hrounds
    exact .inr ⟨outer, rfl, rfl⟩

theorem Inside.ask_own {σ τ : Stage} {asked waiting : List Post} {p : Post} {new : List Asking}
    (h : Inside σ τ [] asked (p :: waiting) new) :
    Inside σ
      { τ with
        rounds := ⟨asked ++ [p], waiting⟩ :: σ.rounds
        askings := τ.askings ++ [⟨σ.rounds.length + 1, p⟩] }
      [] (asked ++ [p]) waiting (new ++ [⟨σ.rounds.length + 1, p⟩]) := by
  refine { h with rounds := rfl, taken := by simpa using h.taken, askings := ?_, own := ?_, nested := ?_ }
  · dsimp only
    rw [h.askings, List.append_assoc]
  · rw [List.filter_append, List.map_append, h.own]
    simp
  · intro a ha hdepth
    rcases List.mem_append.mp ha with hold | hnew
    · exact h.nested a hold hdepth
    · rw [List.mem_singleton.mp hnew] at hdepth
      exact absurd rfl hdepth

theorem Inside.ask_nested {σ τ : Stage} {done rest asked waiting : List Post} {inner : List Round}
    {p : Post} {new : List Asking} (h : Inside σ τ (⟨done, p :: rest⟩ :: inner) asked waiting new) :
    let outer := inner ++ ⟨asked, waiting⟩ :: σ.rounds
    Inside σ
      { τ with
        rounds := ⟨done ++ [p], rest⟩ :: outer
        askings := τ.askings ++ [⟨outer.length + 1, p⟩] }
      (⟨done ++ [p], rest⟩ :: inner) asked waiting (new ++ [⟨outer.length + 1, p⟩]) := by
  intro outer
  obtain ⟨htop_new, hinner_new⟩ := List.forall_mem_cons.mp h.inner_new
  have hdeep : σ.rounds.length + 1 < outer.length + 1 := by
    simp only [outer, List.length_append, List.length_cons]
    omega
  refine { h with rounds := rfl, askings := ?_, own := ?_, nested := ?_, inner_new := ?_ }
  · dsimp only
    rw [h.askings, List.append_assoc]
  · rw [List.filter_append, List.map_append, h.own, List.filter_cons_of_neg (by simpa using by omega)]
    simp
  · intro a ha hdepth
    rcases List.mem_append.mp ha with hold | hnew
    · exact h.nested a hold hdepth
    · rw [List.mem_singleton.mp hnew]
      exact ⟨hdeep, htop_new p (by simp [Round.taken])⟩
  · exact List.forall_mem_cons.mpr ⟨by simpa [Round.taken] using htop_new, hinner_new⟩

theorem Inside.step {σ τ υ : Stage} {inner : List Round} {asked waiting : List Post}
    {new : List Asking} (h : Inside σ τ inner asked waiting new) {d : Deed} (hd : Step τ d υ)
    (hfloor : σ.rounds.length + 1 ≤ υ.rounds.length) :
    ∃ inner asked waiting new, Inside σ υ inner asked waiting new := by
  cases hd with
  | attach c =>
    refine ⟨_, _, _, _, { h with posts_new := ?_, next_le := Nat.le_succ_of_le h.next_le }⟩
    intro p hp
    rcases List.mem_append.mp hp with hold | hnew
    · exact h.posts_new p (mem_postsBut.mp hold).1
    · rw [List.mem_singleton.mp hnew]
      exact h.next_le
  | detach name =>
    exact ⟨_, _, _, _, { h with posts_new := fun p hp => h.posts_new p (mem_postsBut.mp hp).1 }⟩
  | destroy => exact ⟨_, _, _, _, { h with }⟩
  | start hstanding =>
    refine ⟨⟨[], τ.posts⟩ :: inner, _, _, _, { h with
      rounds := congrArg (_ :: ·) h.rounds
      posts_new := by simp [start]
      inner_new := List.forall_mem_cons.mpr ⟨h.posts_new, h.inner_new⟩ }⟩
  | @ask done p rest rounds htop =>
    rcases h.innermost htop with ⟨rfl, hown, rfl⟩ | ⟨outer, rfl, rfl⟩
    · cases hown
      exact ⟨_, _, _, _, h.ask_own⟩
    · exact ⟨_, _, _, _, h.ask_nested⟩
  | @finish done rounds htop =>
    rcases h.innermost htop with ⟨-, -, rfl⟩ | ⟨outer, rfl, rfl⟩
    · -- This would be the end of the tick itself, below the floor.
      exact absurd hfloor (Nat.not_succ_le_self _)
    · obtain ⟨htop_new, houter_new⟩ := List.forall_mem_cons.mp h.inner_new
      refine ⟨outer, _, _, _, { h with rounds := rfl, posts_new := ?_, inner_new := houter_new }⟩
      intro p hp
      rcases mem_putBack.mp hp with ⟨htaken, -⟩ | hpost
      · exact htop_new p (by simpa [Round.taken] using htaken)
      · exact h.posts_new p hpost
  | @abandon r rounds htop =>
    rcases h.innermost htop with ⟨-, -, rfl⟩ | ⟨outer, rfl, rfl⟩
    · exact absurd hfloor (Nat.not_succ_le_self _)
    · obtain ⟨-, houter_new⟩ := List.forall_mem_cons.mp h.inner_new
      exact ⟨outer, _, _, _, { h with rounds := rfl, inner_new := houter_new }⟩

theorem inside_run {σ τ : Stage} {ds : List Deed}
    (h : Stage.run (σ.rounds.length + 1) ds σ.start = some τ) :
    ∃ inner asked waiting new, Inside σ τ inner asked waiting new :=
  run_keeps (P := fun τ => ∃ inner asked waiting new, Inside σ τ inner asked waiting new)
    (fun _ _ _ _ ⟨_, _, _, _, hinside⟩ hd hfloor => hinside.step hd hfloor) h
    ⟨_, _, _, _, inside_start σ⟩

def Holds (p : Post) : List Post → List Round → Prop
  | posts, [] => p ∈ posts
  | posts, r :: rounds => p ∈ posts ∨ hasPost posts p.name = false ∧ Holds p r.taken rounds

theorem holds_of_mem {p : Post} {posts : List Post} (h : p ∈ posts) (rounds : List Round) :
    Holds p posts rounds := by
  cases rounds with
  | nil => exact h
  | cons r rounds => exact .inl h

theorem Holds.imp {p : Post} {posts others : List Post} (hmem : p ∈ posts → p ∈ others)
    (hname : hasPost posts p.name = false → hasPost others p.name = false) {rounds : List Round}
    (h : Holds p posts rounds) : Holds p others rounds := by
  cases rounds with
  | nil => exact hmem h
  | cons r rounds => exact Or.imp hmem (And.imp_left hname) h

theorem Holds.mem {p : Post} {posts : List Post} {rounds : List Round} (h : Holds p posts rounds)
    (hnone : ∀ r ∈ rounds, p ∉ r.taken) : p ∈ posts := by
  induction rounds generalizing posts with
  | nil => exact h
  | cons r rounds ih =>
    obtain ⟨hr, hrounds⟩ := List.forall_mem_cons.mp hnone
    rcases h with hmem | ⟨-, hrest⟩
    · exact hmem
    · exact absurd (ih hrest hrounds) hr

end Stage

def Deed.Spares (name : String) : Deed → Prop
  | .attach c => sameName c.name name = false
  | .detach other _ => sameName other name = false
  | .abandon => False
  | _ => True

namespace Stage

theorem Holds.step {p : Post} {σ τ : Stage} {d : Deed} (h : Holds p σ.posts σ.rounds)
    (hd : Step σ d τ) (hspares : d.Spares p.name) : Holds p τ.posts τ.rounds := by
  cases hd with
  | attach c =>
    have hother : sameName c.name p.name = false := hspares
    refine h.imp (fun hp => List.mem_append_left _ (mem_postsBut.mpr ⟨hp, ?_⟩)) fun hnone => ?_
    · rwa [sameName_comm]
    · rw [hasPost_append, hasPost_postsBut, hother, hnone]
      simpa [hasPost, Post.name] using hother
  | detach name =>
    have hother : sameName name p.name = false := hspares
    refine h.imp (fun hp => mem_postsBut.mpr ⟨hp, ?_⟩) fun hnone => ?_
    · rwa [sameName_comm]
    · rw [hasPost_postsBut, hnone, Bool.and_false]
  | destroy => exact h
  | start => exact .inr ⟨rfl, h⟩
  | @ask asked q waiting rounds hrounds =>
    rw [hrounds] at h
    simpa [Holds, Round.taken] using h
  | @finish asked rounds hrounds =>
    rw [hrounds] at h
    rcases h with hp | ⟨hnone, htaken⟩
    · exact holds_of_mem (mem_putBack.mpr (.inr hp)) rounds
    · rw [Round.taken, List.append_nil] at htaken
      refine htaken.imp (fun hp => mem_putBack.mpr (.inl ⟨hp, hnone⟩)) fun hasked => ?_
      rw [hasPost_putBack, hasked, hnone, Bool.or_false]
  | abandon => exact hspares.elim

theorem Holds.run {p : Post} {floor : Nat} {ds : List Deed} {σ τ : Stage}
    (h : Holds p σ.posts σ.rounds) (hrun : run floor ds σ = some τ)
    (hspare : ∀ d ∈ ds, d.Spares p.name) : Holds p τ.posts τ.rounds :=
  run_keeps (P := fun σ => Holds p σ.posts σ.rounds)
    (fun d hmem _ _ hσ hd _ => hσ.step hd (hspare d hmem)) hrun h

end Stage
end ScriptedActors
