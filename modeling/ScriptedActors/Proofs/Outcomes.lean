import Mathlib.Data.List.Forall2

set_option autoImplicit false

/-!
# Outcomes

A computation that may fail succeeds exactly if each of its parts does, and fails as the first part
that fails. The same holds for a list of inputs that are taken one after the other.
-/
namespace Except

theorem bind_eq_ok_iff {ε α β : Type} {x : Except ε α} {f : α → Except ε β} {b : β} :
    x >>= f = .ok b ↔ ∃ a, x = .ok a ∧ f a = .ok b := by
  cases x with
  | error fault =>
    constructor
    · rintro ⟨⟩
    · rintro ⟨_, ⟨⟩, _⟩
  | ok a =>
    constructor
    · intro h
      exact ⟨a, rfl, h⟩
    · rintro ⟨_, ⟨⟩, h⟩
      exact h

theorem bind_eq_error_iff {ε α β : Type} {x : Except ε α} {f : α → Except ε β} {e : ε} :
    x >>= f = .error e ↔ x = .error e ∨ ∃ a, x = .ok a ∧ f a = .error e := by
  cases x with
  | error fault =>
    constructor
    · rintro ⟨⟩
      exact .inl rfl
    · rintro (⟨⟨⟩⟩ | ⟨_, ⟨⟩, _⟩)
      rfl
  | ok a =>
    constructor
    · intro h
      exact .inr ⟨a, rfl, h⟩
    · rintro (⟨⟨⟩⟩ | ⟨_, ⟨⟩, h⟩)
      exact h

section Lists
variable {ε α β : Type} {f : α → Except ε β}

theorem mapM_eq_ok_iff {inputs : List α} {results : List β} :
    inputs.mapM f = .ok results ↔ List.Forall₂ (fun a b => f a = .ok b) inputs results := by
  induction inputs generalizing results with
  | nil =>
    rw [List.mapM_nil, List.forall₂_nil_left_iff]
    exact ⟨fun h => by cases h; rfl, fun h => by rw [h]; rfl⟩
  | cons a inputs ih =>
    rw [List.mapM_cons, bind_eq_ok_iff, List.forall₂_cons_left_iff]
    constructor
    · rintro ⟨b, hb, hrest⟩
      rw [bind_eq_ok_iff] at hrest
      obtain ⟨others, hothers, hresults⟩ := hrest
      cases hresults
      exact ⟨b, others, hb, ih.mp hothers, rfl⟩
    · rintro ⟨b, others, hb, hothers, rfl⟩
      refine ⟨b, hb, ?_⟩
      rw [bind_eq_ok_iff]
      exact ⟨others, ih.mpr hothers, rfl⟩

/-- The first input that fails is the one that is reported. -/
theorem mapM_eq_error_iff {inputs : List α} {e : ε} :
    inputs.mapM f = .error e ↔ ∃ before a after, inputs = before ++ a :: after ∧
      (∀ b ∈ before, ∃ result, f b = .ok result) ∧ f a = .error e := by
  induction inputs with
  | nil =>
    rw [List.mapM_nil]
    constructor
    · rintro ⟨⟩
    · rintro ⟨before, a, after, hsplit, -⟩
      exact absurd hsplit.symm (List.append_ne_nil_of_right_ne_nil before (List.cons_ne_nil a after))
  | cons a inputs ih =>
    rw [List.mapM_cons, bind_eq_error_iff]
    constructor
    · rintro (herror | ⟨result, hresult, hrest⟩)
      · exact ⟨[], a, inputs, rfl, fun _ hb => absurd hb List.not_mem_nil, herror⟩
      · rw [bind_eq_error_iff] at hrest
        obtain herror | ⟨_, _, ⟨⟩⟩ := hrest
        obtain ⟨before, b, after, rfl, hbefore, hb⟩ := ih.mp herror
        exact ⟨a :: before, b, after, rfl, List.forall_mem_cons.mpr ⟨⟨result, hresult⟩, hbefore⟩, hb⟩
    · rintro ⟨before, b, after, hsplit, hbefore, hb⟩
      cases before with
      | nil =>
        cases hsplit
        exact .inl hb
      | cons first before =>
        cases hsplit
        obtain ⟨⟨result, hresult⟩, hbefore⟩ := List.forall_mem_cons.mp hbefore
        refine .inr ⟨result, hresult, ?_⟩
        rw [bind_eq_error_iff]
        exact .inl (ih.mpr ⟨before, b, after, rfl, hbefore, hb⟩)

end Lists

end Except
