import ScriptedActors.Proofs.Actor.Frame
import ScriptedActors.Proofs.Actor.Log

set_option autoImplicit false

/-!
# What the log tells

Every effect on an actor writes to the log what is attached, detached and destroyed, and for each tick,
however deep it nests, who is asked and what that controller does. These deeds are a run of any stage
that shows the actor, and the stage after them shows the actor after the effect.
-/
namespace ScriptedActors

namespace Scene
open Stage (Reaches)

/-- What was written tells how a scene became another one: it is a run of each stage that shows the
one, to a stage that shows the other, and leaves the ticks under way as they are. The controllers that
are attached then are no higher than some bound. -/
structure Tells (bound : Nat) (rs : List Record) (s t : Scene) : Prop extends Logged rs s t where
  low : heightOf t.actor.controllers ≤ bound
  leads : ∀ {σ : Stage}, σ.Shows s → ∃ τ, Reaches σ.rounds.length rs σ t τ ∧ τ.rounds = σ.rounds

namespace Tells
variable {bound : Nat} {rs later : List Record} {r s t : Scene}

theorem unchanged (hlog : t.log = s.log) (hlow : heightOf s.actor.controllers ≤ bound)
    (hcontrollers : t.actor.controllers = s.actor.controllers)
    (hdestroyed : t.actor.destroyed = s.actor.destroyed) : Tells bound [] s t where
  toLogged := .nil hlog
  low := by rwa [hcontrollers]
  leads {σ} hσ :=
    ⟨σ, .nil ⟨hσ.controllers.trans hcontrollers.symm, hσ.destroyed.trans hdestroyed.symm⟩, rfl⟩

theorem refl (hlow : heightOf s.actor.controllers ≤ bound) : Tells bound [] s s :=
  .unchanged rfl hlow rfl rfl

theorem append (h : Tells bound rs r s) (k : Tells bound later s t) :
    Tells bound (rs ++ later) r t where
  toLogged := h.toLogged.append k.toLogged
  low := k.low
  leads {σ} hσ := by
    obtain ⟨τ, hreaches, hrounds⟩ := h.leads hσ
    obtain ⟨υ, hreaches', hrounds'⟩ := k.leads hreaches.shows
    rw [hrounds] at hreaches'
    exact ⟨υ, hreaches.append hreaches', hrounds'.trans hrounds⟩

theorem one {d : Deed} (hlog : t.log = .did d :: s.log) (hd : d.asked? = none)
    (hlow : heightOf t.actor.controllers ≤ bound)
    (hleads : ∀ {σ : Stage}, σ.Shows s →
      ∃ τ, σ.step d = some τ ∧ τ.Shows t ∧ τ.rounds = σ.rounds ∧ τ.askings = σ.askings) :
    Tells bound [.did d] s t where
  toLogged := .one hlog hd
  low := hlow
  leads hσ := by
    obtain ⟨τ, hstep, hτ, hrounds, hasked⟩ := hleads hσ
    exact ⟨τ, .one hstep (Nat.le_of_eq (congrArg _ hrounds.symm)) hτ hasked, hrounds⟩

end Tells

theorem detach_found (a : Actor) (name : String) : (a.detach name).1 = a.hasController name := by
  have hkept : (a.controllersBut name).length = a.controllers.length ↔ ¬ a.hasController name = true := by
    simp [Actor.controllersBut, Actor.hasController]
  rw [Actor.detach, Bool.eq_iff_iff, bne_iff_ne, ne_eq, hkept, Decidable.not_not]

theorem hasPost_eq (posts : List Post) (name : String) :
    Stage.hasPost posts name = (posts.map Post.controller).any fun c => Text.sameName c.name name := by
  rw [Stage.hasPost, List.any_map]
  rfl

theorem map_controller_postsBut (posts : List Post) (name : String) :
    (Stage.postsBut posts name).map Post.controller =
      (posts.map Post.controller).filter fun c => !Text.sameName c.name name := by
  rw [Stage.postsBut, List.filter_map]
  rfl

section
variable {bound : Nat} {s : Scene} (hlow : heightOf s.actor.controllers ≤ bound)
include hlow

theorem tells_attach {c : Controller} (hc : c.height ≤ bound) :
    Tells bound [.did (.attach c)] s ((s.note (.attach c)).modify (·.attach c)) := by
  refine .one rfl rfl ?_ fun {σ} hσ => ⟨σ.attach c, rfl, ⟨?_, hσ.destroyed⟩, rfl, rfl⟩
  · rw [heightOf_le_iff] at hlow ⊢
    intro d hd
    rcases List.mem_append.mp hd with hold | hnew
    · exact hlow d (List.mem_filter.mp hold).1
    · rw [List.mem_singleton.mp hnew]
      exact hc
  · rw [Stage.attach, List.map_append, map_controller_postsBut, hσ.controllers]
    rfl

theorem tells_detach (name : String) :
    Tells bound [.did (.detach name (s.actor.detach name).1)] s
      ((s.note (.detach name (s.actor.detach name).1)).update (·.detach name)).2 := by
  refine .one rfl rfl ?_ fun {σ} hσ => ⟨σ.detach name, ?_, ⟨?_, hσ.destroyed⟩, rfl, rfl⟩
  · rw [heightOf_le_iff] at hlow ⊢
    exact fun d hd => hlow d (List.mem_filter.mp hd).1
  · have hfound : (s.actor.detach name).1 = Stage.hasPost σ.posts name := by
      rw [hasPost_eq, hσ.controllers, detach_found, Actor.hasController]
    rw [Stage.step, if_pos hfound]
  · rw [Stage.detach, map_controller_postsBut, hσ.controllers]
    rfl

theorem tells_destroy : Tells bound [.did .destroy] s s.destroy := by
  have hcontrollers : s.destroy.actor.controllers = s.actor.controllers := by
    rw [Scene.destroy, Actor.destroy]
    split
    · rfl
    · rfl
  have hdestroyed : s.destroy.actor.destroyed = true := by
    rw [Scene.destroy, Actor.destroy]
    split
    · assumption
    · rfl
  refine .one rfl rfl (by rwa [hcontrollers]) fun {σ} hσ =>
    ⟨{ σ with destroyed := true }, rfl, ⟨?_, hdestroyed.symm⟩, rfl, rfl⟩
  exact hσ.controllers.trans hcontrollers.symm

theorem tells_addViewer (name : String) : Tells bound [] s (s.update (·.addViewer name)).2 := by
  by_cases hname : name ∈ s.actor.viewers
  · simp only [update, Actor.addViewer, if_pos hname]
    exact .refl hlow
  · simp only [update, Actor.addViewer, if_neg hname]
    exact .unchanged rfl hlow rfl rfl

end

def Told (bound : Nat) (s t : Scene) : Prop := ∃ rs, Tells bound rs s t

theorem told_inTurn {α : Type} {step : α → Scene → Stepped} {bound : Nat} {xs : List α}
    (hstep : ∀ x ∈ xs, ∀ s, heightOf s.actor.controllers ≤ bound → Told bound s (step x s).2)
    {s : Scene} (hlow : heightOf s.actor.controllers ≤ bound) : Told bound s (inTurn step xs s).2 := by
  induction xs generalizing s with
  | nil => exact ⟨_, .refl hlow⟩
  | cons x xs ih =>
    obtain ⟨hx, hxs⟩ := List.forall_mem_cons.mp hstep
    obtain ⟨rs, hfirst⟩ := hx s hlow
    rw [inTurn_cons]
    split
    · exact ⟨rs, hfirst⟩
    · obtain ⟨later, hlater⟩ := ih hxs hfirst.low
      exact ⟨_, hfirst.append hlater⟩

section
variable {tick : Host → Scene → Stepped} {bound : Nat}
  (htick : ∀ host s, heightOf s.actor.controllers ≤ bound → Told bound s (tick host s).2)
include htick

theorem told_perform {s : Scene} (hlow : heightOf s.actor.controllers ≤ bound) :
    ∀ e : Effect, e.height ≤ bound → Told bound s (s.perform tick e).2
  | .attach _, he => ⟨_, tells_attach hlow he⟩
  | .detach name, _ => ⟨_, tells_detach hlow name⟩
  | .tick _ _, _ => told_inTurn (fun host _ => htick host) hlow
  | .destroy, _ => ⟨_, tells_destroy hlow⟩
  | .addViewer name, _ => ⟨_, tells_addViewer hlow name⟩
  | .removeViewer _, _ => ⟨_, .unchanged rfl hlow rfl rfl⟩
  | .change _, _ => ⟨_, .unchanged rfl hlow rfl rfl⟩
  | .panic, _ => ⟨_, .refl hlow⟩
  | .guard e, he => told_perform hlow e he

theorem told_execute (host : Host) {c : Controller} (hc : c.height ≤ bound + 1) {s : Scene}
    (hlow : heightOf s.actor.controllers ≤ bound) : Told bound s (execute tick host c s).2 := by
  cases c with
  | scripted name runs effects =>
    rw [Controller.height] at hc
    have heffects : ∀ e ∈ effects, e.height ≤ bound := (effectsHeight_le_iff effects bound).mp (by omega)
    exact told_inTurn (fun e he s hlow => told_perform htick hlow e (heffects e he)) hlow
  | _ => exact ⟨_, .unchanged rfl hlow rfl rfl⟩

end

/-- The controller that waits first is asked, and what it does leaves the others waiting. -/
structure TellsAsking (bound : Nat) (c : Controller) (rs : List Record) (s t : Scene) : Prop
    extends Logged rs s t where
  low : heightOf t.actor.controllers ≤ bound
  leads : ∀ {σ : Stage} {asked waiting : List Post} {rounds : List Round} {p : Post}, σ.Shows s →
    p.controller = c → σ.rounds = ⟨asked, p :: waiting⟩ :: rounds →
    ∃ τ, Reaches (rounds.length + 1) rs σ t τ ∧ τ.rounds = ⟨asked ++ [p], waiting⟩ :: rounds

theorem genuine_question (s : Scene) (c : Controller) :
    ∃ q : Question, q.controller = c ∧ (Record.asked q).Genuine ∧
      (s.question c).2.log = .asked q :: s.log :=
  ⟨⟨c, s.actor.state, s.draws, (s.question c).1⟩, rfl, rfl, rfl⟩

theorem Tells.behind_question {bound : Nat} {s t : Scene} {c : Controller} {rs : List Record}
    (h : Tells bound rs (s.question c).2 t) : ∃ q, TellsAsking bound c (.asked q :: rs) s t := by
  obtain ⟨q, rfl, hgenuine, hlog⟩ := genuine_question s c
  refine ⟨q, .append (.one hlog hgenuine) h.toLogged, h.low, ?_⟩
  rintro σ asked waiting rounds p hσ hp hrounds
  obtain ⟨τ, hreaches, hafter⟩ := h.leads (σ := { σ with
    rounds := ⟨asked ++ [p], waiting⟩ :: rounds
    askings := σ.askings ++ [⟨rounds.length + 1, p⟩] }) ⟨hσ.controllers, hσ.destroyed⟩
  refine ⟨τ, ⟨?_, hreaches.shows, ?_⟩, hafter⟩
  · change Stage.run _ (.ask q.controller.name :: rs.map Record.deed) σ = some τ
    rw [Stage.run_cons, Stage.step, hrounds, ← hp]
    simpa [Post.name] using hreaches.run
  · rw [hreaches.asked, Stage.asked, List.map_append, List.append_assoc]
    exact congrArg _ (congrArg (· :: questioned rs) hp)

section
variable {tick : Host → Scene → Stepped} {bound : Nat}
  (htick : ∀ host s, heightOf s.actor.controllers ≤ bound → Told bound s (tick host s).2)
include htick

theorem tellsAsking_ask (host : Host) {c : Controller} (hc : c.height ≤ bound + 1) {s : Scene}
    (hlow : heightOf s.actor.controllers ≤ bound) :
    ∃ rs, TellsAsking bound c rs s (ask tick host c s).2 := by
  have hlow : heightOf (s.question c).2.actor.controllers ≤ bound := hlow
  rcases ask_cases tick host c s with hleft | hexecuted
  · obtain ⟨q, hasking⟩ := (Tells.refl hlow).behind_question
    exact ⟨_, hleft ▸ hasking⟩
  · obtain ⟨rs, htells⟩ := told_execute htick host hc hlow
    obtain ⟨q, hasking⟩ := htells.behind_question
    exact ⟨_, hexecuted ▸ hasking⟩

end

/-- The controllers of a tick are asked in their order, and all of them unless one panics. -/
structure TellsAskings (bound : Nat) (cs : List Controller) (rs : List Record) (s : Scene)
    (stepped : Stepped) : Prop extends Logged rs s stepped.2 where
  low : heightOf stepped.2.actor.controllers ≤ bound
  leads : ∀ {σ : Stage} {asked waiting : List Post} {rounds : List Round}, σ.Shows s →
    waiting.map Post.controller = cs → σ.rounds = ⟨asked, waiting⟩ :: rounds →
    ∃ τ r, Reaches (rounds.length + 1) rs σ stepped.2 τ ∧ τ.rounds = r :: rounds ∧
      (stepped.1 = false → r = ⟨asked ++ waiting, []⟩)

theorem tellsAskings_nil {bound : Nat} {s : Scene} (hlow : heightOf s.actor.controllers ≤ bound) :
    TellsAskings bound [] [] s (false, s) := by
  refine ⟨.nil rfl, hlow, fun {σ asked waiting rounds} hσ hwaiting hrounds => ?_⟩
  obtain rfl := List.map_eq_nil_iff.mp hwaiting
  exact ⟨σ, _, .nil hσ, hrounds, fun _ => by rw [List.append_nil]⟩

theorem TellsAsking.cons {bound : Nat} {c : Controller} {cs : List Controller} {rs later : List Record}
    {s t : Scene} {stepped : Stepped} (h : TellsAsking bound c rs s t)
    (k : TellsAskings bound cs later t stepped) :
    TellsAskings bound (c :: cs) (rs ++ later) s stepped where
  toLogged := h.toLogged.append k.toLogged
  low := k.low
  leads {σ asked waiting rounds} hσ hwaiting hrounds := by
    obtain ⟨p, waiting, rfl, hp, hwaiting⟩ := List.map_eq_cons_iff.mp hwaiting
    obtain ⟨τ, hreaches, hafter⟩ := h.leads hσ hp hrounds
    obtain ⟨υ, r, hreaches', hlast, hall⟩ := k.leads hreaches.shows hwaiting hafter
    refine ⟨υ, r, hreaches.append hreaches', hlast, fun hquiet => ?_⟩
    rw [hall hquiet, List.append_assoc]
    rfl

theorem TellsAsking.stops {bound : Nat} {c : Controller} {rs : List Record} {s t : Scene}
    (h : TellsAsking bound c rs s t) (cs : List Controller) :
    TellsAskings bound (c :: cs) rs s (true, t) where
  toLogged := h.toLogged
  low := h.low
  leads hσ hwaiting hrounds := by
    obtain ⟨p, waiting, rfl, hp, -⟩ := List.map_eq_cons_iff.mp hwaiting
    obtain ⟨τ, hreaches, hafter⟩ := h.leads hσ hp hrounds
    exact ⟨τ, _, hreaches, hafter, fun hquiet => Bool.noConfusion hquiet⟩

section
variable {tick : Host → Scene → Stepped} {bound : Nat}
  (htick : ∀ host s, heightOf s.actor.controllers ≤ bound → Told bound s (tick host s).2)
include htick

theorem tellsAskings_inTurn (host : Host) {cs : List Controller} (hcs : heightOf cs ≤ bound + 1)
    {s : Scene} (hlow : heightOf s.actor.controllers ≤ bound) :
    ∃ rs, TellsAskings bound cs rs s (inTurn (ask tick host) cs s) := by
  induction cs generalizing s with
  | nil => exact ⟨[], tellsAskings_nil hlow⟩
  | cons c cs ih =>
    rw [heightOf, Nat.max_le] at hcs
    obtain ⟨rs, hfirst⟩ := tellsAsking_ask htick host hcs.1 hlow
    rw [inTurn_cons]
    split
    · rename_i hpanic
      refine ⟨rs, ?_⟩
      rw [← Prod.eta (ask tick host c s), hpanic]
      exact hfirst.stops cs
    · obtain ⟨later, hlater⟩ := ih hcs.2 hfirst.low
      exact ⟨_, hfirst.cons hlater⟩

end

theorem map_controller_putBack {taken posts : List Post} {cs : List Controller} {a : Actor}
    (htaken : taken.map Post.controller = cs) (hposts : posts.map Post.controller = a.controllers) :
    (Stage.putBack taken posts).map Post.controller = (putBack cs a).controllers := by
  rw [Stage.putBack, List.map_append, hposts, ← htaken, Scene.putBack, List.filter_map]
  congr 3
  funext p
  rw [hasPost_eq, hposts]
  rfl

theorem heightOf_putBack {bound : Nat} {taken : List Controller} {a : Actor}
    (htaken : heightOf taken ≤ bound) (ha : heightOf a.controllers ≤ bound) :
    heightOf (putBack taken a).controllers ≤ bound := by
  rw [heightOf_le_iff] at htaken ha ⊢
  intro c hc
  rcases List.mem_append.mp hc with hold | hadded
  · exact htaken c (List.mem_filter.mp hold).1
  · exact ha c hadded

def ending (panicked : Bool) : Deed := if panicked then .abandon else .finish

theorem asked?_ending (panicked : Bool) : (ending panicked).asked? = none := by
  cases panicked with
  | _ => rfl

theorem finish_panicked (taken : List Controller) (stepped : Stepped) :
    (finish taken stepped).1 = stepped.1 := by
  rcases stepped with ⟨_ | _, t⟩
  · rfl
  · rfl

theorem log_finish (taken : List Controller) (stepped : Stepped) :
    (finish taken stepped).2.log = .did (ending stepped.1) :: stepped.2.log := by
  rcases stepped with ⟨_ | _, t⟩
  · rfl
  · rfl

theorem step_ending {last : Stage} {r : Round} {rounds : List Round} {asked : List Post}
    {taken : List Controller} {stepped : Stepped} (hshows : last.Shows stepped.2)
    (hrounds : last.rounds = r :: rounds) (hall : stepped.1 = false → r = ⟨asked, []⟩)
    (htaken : asked.map Post.controller = taken) :
    ∃ τ, last.step (ending stepped.1) = some τ ∧ τ.rounds = rounds ∧ τ.askings = last.askings ∧
      τ.Shows (finish taken stepped).2 := by
  rcases stepped with ⟨_ | _, t⟩
  · obtain rfl := hall rfl
    have hend : last.step .finish =
        some { last with posts := Stage.putBack asked last.posts, rounds := rounds } := by
      rw [Stage.step, hrounds]
    exact ⟨_, hend, rfl, rfl, map_controller_putBack htaken hshows.controllers, hshows.destroyed⟩
  · have hend : last.step .abandon = some { last with rounds := rounds } := by
      rw [Stage.step, hrounds]
    exact ⟨_, hend, rfl, rfl, hshows.controllers, hshows.destroyed⟩

/-- A tick starts, asks the controllers that it takes, and ends. -/
structure TellsTick (during : List Record) (s : Scene) (stepped : Stepped) : Prop
    extends Logged (.did .start :: during ++ [.did (ending stepped.1)]) s stepped.2 where
  leads : ∀ {σ : Stage}, σ.Shows s → ∃ last τ,
    Stage.run (σ.rounds.length + 1) (during.map Record.deed) σ.start = some last ∧
      last.rounds.length = σ.rounds.length + 1 ∧
      Reaches σ.rounds.length (.did .start :: during ++ [.did (ending stepped.1)]) σ stepped.2 τ ∧
      τ.rounds = σ.rounds

theorem tellsTick_finish {bound : Nat} {s : Scene} {during : List Record} {stepped : Stepped}
    (hstanding : s.actor.destroyed = false)
    (h : TellsAskings bound s.actor.controllers during s.start stepped) :
    TellsTick during s (finish s.actor.controllers stepped) where
  toLogged := by
    have hstart : Logged [.did .start] s s.start := .one rfl rfl
    rw [finish_panicked]
    exact (hstart.append h.toLogged).append (.one (log_finish _ _) (asked?_ending _))
  leads {σ} hσ := by
    have hstart : σ.step .start = some σ.start := by
      rw [Stage.step, hσ.destroyed, hstanding]
      rfl
    have hshows : σ.start.Shows s.start := ⟨rfl, hσ.destroyed⟩
    have hbegin : Reaches σ.rounds.length [.did .start] σ s.start σ.start :=
      .one hstart (Nat.le_succ _) hshows rfl
    obtain ⟨last, r, hreaches, hrounds, hall⟩ := h.leads hshows hσ.controllers rfl
    obtain ⟨τ, hend, hτ, hasked, hafter⟩ := step_ending hreaches.shows hrounds hall hσ.controllers
    have hdepth : last.rounds.length = σ.rounds.length + 1 := congrArg List.length hrounds
    have hbefore := hbegin.append (hreaches.lower (Nat.le_succ _))
    rw [finish_panicked]
    exact ⟨last, τ, hreaches.run, hdepth,
      hbefore.append (.one hend (Nat.le_of_eq (congrArg _ hτ.symm)) hafter hasked), hτ⟩

theorem low_finish {bound : Nat} {taken : List Controller} {stepped : Stepped}
    (htaken : heightOf taken ≤ bound) (hlow : heightOf stepped.2.actor.controllers ≤ bound) :
    heightOf (finish taken stepped).2.actor.controllers ≤ bound := by
  rcases stepped with ⟨_ | _, t⟩
  · exact heightOf_putBack htaken hlow
  · exact hlow

theorem TellsTick.tells {bound : Nat} {during : List Record} {s : Scene} {stepped : Stepped}
    (h : TellsTick during s stepped) (hlow : heightOf stepped.2.actor.controllers ≤ bound) :
    Tells bound (.did .start :: during ++ [.did (ending stepped.1)]) s stepped.2 where
  toLogged := h.toLogged
  low := hlow
  leads hσ := by
    obtain ⟨-, τ, -, -, hreaches, hrounds⟩ := h.leads hσ
    exact ⟨τ, hreaches, hrounds⟩

structure TellsAt (depth : Nat) (s : Scene) (stepped : Stepped) : Prop where
  told : Told depth s stepped.2
  whole : s.actor.destroyed = false → ∃ during, TellsTick during s stepped

theorem tellsAt_finish {bound depth : Nat} {s : Scene} {during : List Record} {stepped : Stepped}
    (hbound : bound ≤ depth) (hlow : heightOf s.actor.controllers ≤ depth)
    (hstanding : s.actor.destroyed = false)
    (h : TellsAskings bound s.actor.controllers during s.start stepped) :
    TellsAt depth s (finish s.actor.controllers stepped) := by
  have htick := tellsTick_finish hstanding h
  exact ⟨⟨_, htick.tells (low_finish hlow (Nat.le_trans h.low hbound))⟩, fun _ => ⟨during, htick⟩⟩

theorem tellsAt_destroyed {depth : Nat} (host : Host) {s : Scene}
    (hlow : heightOf s.actor.controllers ≤ depth) (h : s.actor.destroyed = true) :
    TellsAt depth s (tickAt depth host s) := by
  rw [tickAt_destroyed depth host h]
  exact ⟨⟨_, .refl hlow⟩, fun hstanding => absurd (h.symm.trans hstanding) Bool.noConfusion⟩

theorem tellsAt_tickAt (depth : Nat) (host : Host) {s : Scene}
    (hlow : heightOf s.actor.controllers ≤ depth) : TellsAt depth s (tickAt depth host s) := by
  induction depth generalizing host s with
  | zero =>
    cases hdestroyed : s.actor.destroyed with
    | true => exact tellsAt_destroyed host hlow hdestroyed
    | false =>
      have hasks : TellsAskings 0 s.actor.controllers [] s.start
          (inTurn (ask (tickAt (0 - 1)) host) s.actor.controllers s.start) := by
        rw [controllers_eq_nil hlow]
        exact tellsAskings_nil (Nat.zero_le 0)
      rw [tickAt_standing host hlow hdestroyed]
      exact tellsAt_finish (Nat.le_refl 0) hlow hdestroyed hasks
  | succ depth ih =>
    cases hdestroyed : s.actor.destroyed with
    | true => exact tellsAt_destroyed host hlow hdestroyed
    | false =>
      obtain ⟨during, hasks⟩ :=
        tellsAskings_inTurn (fun host s hlow => (ih host hlow).told) host hlow (s := s.start)
          (Nat.zero_le depth)
      rw [tickAt_standing host hlow hdestroyed]
      exact tellsAt_finish (Nat.le_succ depth) hlow hdestroyed hasks

theorem tellsAt_tick (host : Host) (s : Scene) :
    TellsAt (heightOf s.actor.controllers) s (tick host s) :=
  tellsAt_tickAt _ host (Nat.le_refl _)

theorem told_tick {bound : Nat} (host : Host) {s : Scene} (hlow : heightOf s.actor.controllers ≤ bound) :
    Told bound s (tick host s).2 := by
  obtain ⟨rs, htells⟩ := (tellsAt_tick host s).told
  exact ⟨rs, htells.toLogged, Nat.le_trans htells.low hlow, htells.leads⟩

theorem told_acts {bound : Nat} {es : List Effect} {s : Scene} (hlow : heightOf s.actor.controllers ≤ bound)
    (hes : effectsHeight es ≤ bound) : Told bound s (es.foldl (fun s e => (s.act e).2) s) := by
  induction es generalizing s with
  | nil => exact ⟨_, .refl hlow⟩
  | cons e es ih =>
    rw [effectsHeight, Nat.max_le] at hes
    obtain ⟨rs, hfirst⟩ := told_perform (fun host _ => told_tick host) hlow e hes.1
    obtain ⟨later, hlater⟩ := ih hfirst.low hes.2
    exact ⟨_, hfirst.append hlater⟩

/-- What effects write, on an actor that is not in a tick, leads each stage that shows it on. -/
theorem reaches_acts (es : List Effect) (s : Scene) {σ : Stage} (hσ : σ.Shows s) :
    let t := es.foldl (fun s e => (s.act e).2) s
    (∀ r ∈ since s t, r.Genuine) ∧
      ∃ τ, Reaches σ.rounds.length (since s t) σ t τ ∧ τ.rounds = σ.rounds := by
  intro t
  obtain ⟨rs, htells⟩ := told_acts (Nat.le_max_left (heightOf s.actor.controllers) (effectsHeight es))
    (Nat.le_max_right _ _)
  rw [htells.since]
  exact ⟨htells.genuine, htells.leads hσ⟩

theorem run_history (es : List Effect) (s : Scene) {σ : Stage} (hσ : σ.Shows s) :
    ∃ τ, Stage.run σ.rounds.length (history es s) σ = some τ ∧ τ.rounds = σ.rounds ∧
      τ.Shows (es.foldl (fun s e => (s.act e).2) s) := by
  obtain ⟨-, τ, hreaches, hrounds⟩ := reaches_acts es s hσ
  refine ⟨τ, ?_, hrounds, hreaches.shows⟩
  rw [history_eq]
  exact hreaches.run

end Scene
end ScriptedActors
