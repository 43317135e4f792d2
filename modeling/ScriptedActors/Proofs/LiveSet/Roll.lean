import ScriptedActors.LiveSet
import ScriptedActors.Proofs.Actor.Frame

set_option autoImplicit false

/-!
# The roll of a live set

The roll says which actors are live, what every constructed actor is called, and whether the set
was shut down. Whatever happens to single actors keeps the roll: effects, ticks and teardowns.
-/
namespace ScriptedActors

namespace LiveSet
variable {σ : Type}

def names (set : LiveSet σ) : List (String × String) := set.actors.map fun a => (a.id, a.uniqueId)

structure SameRoll (set after : LiveSet σ) : Prop where
  live : after.live = set.live
  closed : after.closed = set.closed
  names : after.names = set.names

theorem SameRoll.refl (set : LiveSet σ) : SameRoll set set := ⟨rfl, rfl, rfl⟩

theorem SameRoll.trans {set middle after : LiveSet σ} (h : SameRoll set middle)
    (k : SameRoll middle after) : SameRoll set after :=
  ⟨k.live.trans h.live, k.closed.trans h.closed, k.names.trans h.names⟩

theorem length_names (set : LiveSet σ) : set.names.length = set.actors.length := by simp [names]

theorem actor?_visit {α : Type} (set : LiveSet σ) (identity other : Nat) (act : Scene → α × Scene) :
    (set.visit identity act).2.actor? other =
      if other = identity then
        (set.actor? other).map fun a => (act (set.scene a)).2.actor
      else set.actor? other := by
  rw [visit]
  cases hactor : set.actor? identity with
  | none =>
    by_cases heq : other = identity
    · rw [if_pos heq, heq, hactor]
      rfl
    · rw [if_neg heq]
  | some a =>
    obtain ⟨hlt, -⟩ := List.getElem?_eq_some_iff.mp hactor
    by_cases heq : other = identity
    · rw [if_pos heq, heq, hactor]
      exact List.getElem?_set_self hlt
    · rw [if_neg heq]
      exact List.getElem?_set_ne (Ne.symm heq)

theorem length_actors_visit {α : Type} (set : LiveSet σ) (identity : Nat) (act : Scene → α × Scene) :
    (set.visit identity act).2.actors.length = set.actors.length := by
  rw [visit]
  cases set.actor? identity with
  | none => rfl
  | some a => exact List.length_set

theorem sameRoll_visit {α : Type} (set : LiveSet σ) (identity : Nat) {act : Scene → α × Scene}
    (hact : ∀ s, Scene.SameNames s (act s).2) : SameRoll set (set.visit identity act).2 := by
  cases hactor : set.actor? identity with
  | none =>
    rw [visit, hactor]
    exact SameRoll.refl set
  | some a =>
    rw [visit, hactor]
    refine ⟨rfl, rfl, ?_⟩
    obtain ⟨hid, huniqueId⟩ := hact (set.scene a)
    -- Writing back the names that stand there changes nothing.
    obtain ⟨hlt, rfl⟩ := List.getElem?_eq_some_iff.mp hactor
    simp only [names, List.map_set, hid, huniqueId]
    refine List.ext_getElem (by simp) ?_
    intro i _ _
    rw [List.getElem_set]
    by_cases hi : identity = i
    · subst hi
      simp [scene]
    · simp [hi]

theorem sameRoll_destroy (set : LiveSet σ) (identity : Nat) : SameRoll set (set.destroy identity) :=
  sameRoll_visit set identity fun s => Scene.frame_sameNames.destroy s

theorem sameRoll_tearDown (identities : List Nat) (set : LiveSet σ) :
    SameRoll set (set.tearDown identities).2 := by
  induction identities generalizing set with
  | nil => exact SameRoll.refl set
  | cons identity rest ih => exact (sameRoll_destroy set identity).trans (ih _)

theorem sameRoll_tickEach (host : Host) (identities : List Nat) (set : LiveSet σ) :
    SameRoll set (tickEach host identities set).2 := by
  induction identities generalizing set with
  | nil => exact SameRoll.refl set
  | cons identity rest ih =>
    have hvisit := sameRoll_visit set identity fun s => Scene.frame_sameNames.tick host s
    rw [tickEach]
    cases hresult : set.visit identity (Scene.tick host) with
    | mk panicked after =>
      rw [hresult] at hvisit
      rcases panicked with _ | _ | _
      · exact hvisit.trans (ih after)
      · exact hvisit.trans (ih after)
      · exact hvisit

theorem sameRoll_tickAll (set : LiveSet σ) (host : Host) : SameRoll set (set.tickAll host).2 :=
  sameRoll_tickEach host set.live set

theorem names_append (set : LiveSet σ) (a : Actor) (live : List Nat) :
    { set with actors := set.actors ++ [a], live := live }.names = set.names ++ [(a.id, a.uniqueId)] := by
  simp [names]

def rules (set : LiveSet σ) : Factory σ × Bool := (set.factory, set.enforcesUniqueIds)

theorem rules_visit {α : Type} (set : LiveSet σ) (identity : Nat) (act : Scene → α × Scene) :
    (set.visit identity act).2.rules = set.rules := by
  rw [visit]
  cases set.actor? identity with
  | none => rfl
  | some a => rfl

theorem rules_tearDown (identities : List Nat) (set : LiveSet σ) :
    (set.tearDown identities).2.rules = set.rules := by
  induction identities generalizing set with
  | nil => rfl
  | cons identity rest ih => exact (ih _).trans (rules_visit set identity _)

theorem rules_tickEach (host : Host) (identities : List Nat) (set : LiveSet σ) :
    (tickEach host identities set).2.rules = set.rules := by
  induction identities generalizing set with
  | nil => rfl
  | cons identity rest ih =>
    have hvisit := rules_visit set identity (Scene.tick host)
    rw [tickEach]
    cases hresult : set.visit identity (Scene.tick host) with
    | mk panicked after =>
      rw [hresult] at hvisit
      rcases panicked with _ | _ | _
      · exact (ih after).trans hvisit
      · exact (ih after).trans hvisit
      · exact hvisit

theorem rules_create (set : LiveSet σ) (host : Host) (kind : EntityKind) (location : Location)
    (viewers : Option (List String)) (prepare : Actor → Actor) :
    (set.create host kind location viewers prepare).2.rules = set.rules := by
  rw [create]
  cases set.factory.construct set.supply kind location (viewers.getD (host.observers location)) with
  | mk made supply =>
    cases made with
    | error error => rfl
    | ok a =>
      dsimp only
      rw [enter]
      split
      · exact rules_visit _ _ _
      · split
        · exact rules_visit _ _ _
        · rfl

theorem factory_create (set : LiveSet σ) (host : Host) (kind : EntityKind) (location : Location)
    (viewers : Option (List String)) (prepare : Actor → Actor) :
    (set.create host kind location viewers prepare).2.factory = set.factory :=
  congrArg Prod.fst (rules_create set host kind location viewers prepare)

def Refused (set : LiveSet σ) (result : Except ActorError Nat × LiveSet σ) : Prop :=
  (∃ error, result.1 = .error error) ∧ result.2.live = set.live ∧ result.2.closed = set.closed ∧
    ∃ more, result.2.names = set.names ++ more

/-- An actor was admitted under a fresh identity. -/
def Admitted (set : LiveSet σ) (result : Except ActorError Nat × LiveSet σ) : Prop :=
  result.1 = .ok set.names.length ∧ set.closed = false ∧
    result.2.live = set.live ++ [set.names.length] ∧ result.2.closed = set.closed ∧
    ∃ name, result.2.names = set.names ++ [name]

theorem refused_or_admitted_enter (set : LiveSet σ) (a : Actor) :
    Refused set (set.enter a) ∨ Admitted set (set.enter a) := by
  have hdestroyed := sameRoll_destroy { set with actors := set.actors ++ [a] } set.actors.length
  have hnames := hdestroyed.names.trans (names_append set a set.live)
  rw [enter]
  by_cases hclosed : set.closed = true
  · rw [if_pos hclosed]
    exact .inl ⟨⟨_, rfl⟩, hdestroyed.live, hdestroyed.closed, _, hnames⟩
  · rw [if_neg hclosed]
    by_cases hduplicate : (set.enforcesUniqueIds && !(set.findByUniqueId a.uniqueId).isEmpty) = true
    · rw [if_pos hduplicate]
      exact .inl ⟨⟨_, rfl⟩, hdestroyed.live, hdestroyed.closed, _, hnames⟩
    · rw [if_neg hduplicate]
      rw [Admitted, length_names]
      exact .inr ⟨rfl, by simpa using hclosed, rfl, rfl, _, names_append set a _⟩

theorem refused_or_admitted_create (set : LiveSet σ) (host : Host) (kind : EntityKind)
    (location : Location) (viewers : Option (List String)) (prepare : Actor → Actor) :
    Refused set (set.create host kind location viewers prepare) ∨
      Admitted set (set.create host kind location viewers prepare) := by
  rw [create]
  cases set.factory.construct set.supply kind location (viewers.getD (host.observers location)) with
  | mk made supply =>
    cases made with
    | error error => exact .inl ⟨⟨_, rfl⟩, rfl, rfl, [], by simp [names]⟩
    | ok a => exact refused_or_admitted_enter { set with supply := supply } (prepare a)

theorem closed_create (set : LiveSet σ) (host : Host) (kind : EntityKind) (location : Location)
    (viewers : Option (List String)) (prepare : Actor → Actor) :
    (set.create host kind location viewers prepare).2.closed = set.closed := by
  rcases refused_or_admitted_create set host kind location viewers prepare with
    ⟨-, -, hclosed, -⟩ | ⟨-, -, -, hclosed, -⟩
  · exact hclosed
  · exact hclosed

/-- Something of every constructed actor is as it was. -/
def SameView {α : Type} (view : Actor → α) (set after : LiveSet σ) : Prop :=
  ∀ identity, (after.actor? identity).map view = (set.actor? identity).map view

section SameView
variable {α : Type} {view : Actor → α} {set middle after : LiveSet σ}

theorem SameView.trans (h : SameView view set middle) (k : SameView view middle after) :
    SameView view set after :=
  fun identity => (k identity).trans (h identity)

theorem SameView.mem_actors (h : SameView view set after) {a : Actor} (ha : a ∈ after.actors) :
    ∃ b ∈ set.actors, view b = view a := by
  obtain ⟨identity, hidentity⟩ := List.mem_iff_getElem?.mp ha
  have hsame := h identity
  rw [actor?, hidentity] at hsame
  obtain ⟨b, hb, hview⟩ := Option.map_eq_some_iff.mp hsame.symm
  exact ⟨b, List.mem_of_getElem? hb, hview⟩

theorem sameView_visit {β : Type} {act : Scene → β × Scene}
    (hact : ∀ s, view (act s).2.actor = view s.actor) (set : LiveSet σ) (identity : Nat) :
    SameView view set (set.visit identity act).2 := by
  intro other
  rw [actor?_visit]
  split
  · rw [Option.map_map]
    congr 1
    funext a
    exact hact (set.scene a)
  · rfl

theorem sameView_tickEach (hview : Scene.Frame fun s t => view t.actor = view s.actor) (host : Host)
    (identities : List Nat) (set : LiveSet σ) : SameView view set (tickEach host identities set).2 := by
  induction identities generalizing set with
  | nil => exact fun _ => rfl
  | cons identity rest ih =>
    have hvisit := sameView_visit (fun s => hview.tick host s) set identity
    rw [tickEach]
    cases hresult : set.visit identity (Scene.tick host) with
    | mk panicked after =>
      rw [hresult] at hvisit
      rcases panicked with _ | _ | _
      · exact hvisit.trans (ih after)
      · exact hvisit.trans (ih after)
      · exact hvisit

end SameView

end LiveSet
end ScriptedActors
