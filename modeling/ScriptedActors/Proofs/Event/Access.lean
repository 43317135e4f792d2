import Mathlib.Data.List.Basic
import ScriptedActors.Proofs.Event.Fields

set_option autoImplicit false

/-!
# Access to fields by name

Reading a field, writing it and the question whether it can be written go to the same field of an
event: the first that was declared under the name, up to case. What is wrong is found in a fixed
order, the name before the right to write and this before the type of the event, and a write that
fails leaves the event as it was.
-/
namespace ScriptedActors
open Text Json

namespace KnownEvent
variable {τ : Type} [EventFamily τ] (known : KnownEvent τ)

theorem field?_eq_some_iff (name : String) (field : EventField known.type) :
    known.field? name = some field ↔ sameName field.name name = true ∧
      ∃ before after, known.fields = before ++ field :: after ∧
        ∀ other ∈ before, sameName other.name name = false := by
  simp [field?, List.find?_eq_some_iff_append]

theorem field?_eq_none_iff (name : String) :
    known.field? name = none ↔ ∀ field ∈ known.fields, sameName field.name name = false := by
  simp [field?]

inductive Reading (event : HostEvent τ) (name : String) : Except FieldError Json → Prop where
  | absent (h : known.field? name = none) :
      Reading event name (.error (.unknown known.type.name name))
  | foreign {field : EventField known.type} (h : known.field? name = some field)
      (htype : event.type ≠ known.type) :
      Reading event name (.error (.typeMismatch known.type.name event.type.name))
  | own {field : EventField known.type} (h : known.field? name = some field) {d : known.type.Data}
      (hevent : event = ⟨known.type, d⟩) : Reading event name (.ok (field.get d))

/-- How assigning under a name ends, and what becomes of the event. -/
inductive Assigning (event : HostEvent τ) (name : String) (value : Json) :
    Except FieldError Unit × HostEvent τ → Prop where
  | absent (h : known.field? name = none) :
      Assigning event name value (.error (.unknown known.type.name name), event)
  | readOnly {field : EventField known.type} (h : known.field? name = some field)
      (hset : field.set = none) :
      Assigning event name value (.error (.readOnly known.type.name field.name), event)
  | foreign {field : EventField known.type} (h : known.field? name = some field)
      {set : Json → known.type.Data → known.type.Data} (hset : field.set = some set)
      (htype : event.type ≠ known.type) :
      Assigning event name value (.error (.typeMismatch known.type.name event.type.name), event)
  | own {field : EventField known.type} (h : known.field? name = some field)
      {set : Json → known.type.Data → known.type.Data} (hset : field.set = some set)
      {d : known.type.Data} (hevent : event = ⟨known.type, d⟩) :
      Assigning event name value (.ok (), ⟨known.type, set value d⟩)

theorem foreign_or_own (t : EventType τ) (event : HostEvent τ) :
    event.type ≠ t ∨ ∃ d : t.Data, event = ⟨t, d⟩ := by
  by_cases htype : event.type = t
  · obtain ⟨type, d⟩ := event
    obtain rfl : type = t := htype
    exact .inr ⟨d, rfl⟩
  · exact .inl htype

theorem reading (event : HostEvent τ) (name : String) :
    known.Reading event name (known.read event name) := by
  cases hfield : known.field? name with
  | none =>
    rw [read, hfield]
    exact .absent hfield
  | some field =>
    rcases foreign_or_own known.type event with htype | ⟨d, rfl⟩
    · simp only [read, hfield, HostEvent.dataAs?_of_ne htype]
      exact .foreign hfield htype
    · rw [read_eq, hfield]
      exact .own hfield rfl

theorem assigning (event : HostEvent τ) (name : String) (value : Json) :
    known.Assigning event name value (known.assign event name value) := by
  cases hfield : known.field? name with
  | none =>
    rw [assign, hfield]
    exact .absent hfield
  | some field =>
    cases hset : field.set with
    | none =>
      simp only [assign, hfield, hset]
      exact .readOnly hfield hset
    | some set =>
      rcases foreign_or_own known.type event with htype | ⟨d, rfl⟩
      · simp only [assign, hfield, hset, HostEvent.update_of_ne htype]
        exact .foreign hfield hset htype
      · simp only [assign, hfield, hset, HostEvent.update_self]
        exact .own hfield hset rfl

theorem assign_eq (event : HostEvent τ) (name : String) (value : Json) :
    known.assign event name value =
      match known.write event name value with
      | .ok after => (.ok (), after)
      | .error error => (.error error, event) := by
  have hassigning := known.assigning event name value
  rw [write]
  generalize known.assign event name value = result at hassigning ⊢
  cases hassigning with
  | absent h => rfl
  | readOnly h hset => rfl
  | foreign h hset htype => rfl
  | own h hset hevent => rfl

variable {known} {event : HostEvent τ} {name : String} {value : Json}

theorem isWritable_of_field {field : EventField known.type} (h : known.field? name = some field) :
    known.isWritable name = field.set.isSome := by
  rw [isWritable, h, Option.any_some]

theorem isWritable_of_absent (h : known.field? name = none) : known.isWritable name = false := by
  rw [isWritable, h, Option.any_none]

theorem unknown_read_iff {result : Except FieldError Json} (h : known.Reading event name result) :
    (∃ type field, result = .error (.unknown type field)) ↔ known.field? name = none := by
  cases h with
  | absent h => simp [h]
  | foreign h htype => simp [h]
  | own h hevent => simp [h]

theorem error_read_iff {result : Except FieldError Json} (h : known.Reading event name result)
    (hfield : known.field? name ≠ none) : (∃ error, result = .error error) ↔ event.type ≠ known.type := by
  cases h with
  | absent h => exact absurd h hfield
  | foreign h htype => simp [htype]
  | own h hevent => simp [hevent]

section
variable {result : Except FieldError Unit × HostEvent τ} (h : known.Assigning event name value result)
include h

theorem unknown_assign_iff : (∃ type field, result.1 = .error (.unknown type field)) ↔
    known.field? name = none := by
  cases h with
  | absent h => simp [h]
  | readOnly h hset => simp [h]
  | foreign h hset htype => simp [h]
  | own h hset hevent => simp [h]

theorem readOnly_assign_iff (hfield : known.field? name ≠ none) :
    (∃ type field, result.1 = .error (.readOnly type field)) ↔ known.isWritable name = false := by
  cases h with
  | absent h => exact absurd h hfield
  | readOnly h hset => simp [isWritable_of_field h, hset]
  | foreign h hset htype => simp [isWritable_of_field h, hset]
  | own h hset hevent => simp [isWritable_of_field h, hset]

theorem typeMismatch_assign_iff (hwritable : known.isWritable name = true) :
    (∃ expected found, result.1 = .error (.typeMismatch expected found)) ↔
      event.type ≠ known.type := by
  cases h with
  | absent h => simp [isWritable_of_absent h] at hwritable
  | readOnly h hset => simp [isWritable_of_field h, hset] at hwritable
  | foreign h hset htype => simp [htype]
  | own h hset hevent => simp [hevent]

theorem ok_assign_iff (hwritable : known.isWritable name = true) :
    result.1 = .ok () ↔ event.type = known.type := by
  cases h with
  | absent h => simp [isWritable_of_absent h] at hwritable
  | readOnly h hset => simp [isWritable_of_field h, hset] at hwritable
  | foreign h hset htype => simp [htype]
  | own h hset hevent => simp [hevent]

theorem kept_of_error {error : FieldError} (herror : result.1 = .error error) : result.2 = event := by
  cases h with
  | absent h => rfl
  | readOnly h hset => rfl
  | foreign h hset htype => rfl
  | own h hset hevent => cases herror

end

structure Reaches (known : KnownEvent τ) (event : HostEvent τ) (name : String) (value : Json)
    (field : EventField known.type) : Prop where
  writable : known.isWritable name = field.set.isSome
  read : ∀ d, event = ⟨known.type, d⟩ → known.read event name = .ok (field.get d)
  assign : ∀ set d, field.set = some set → event = ⟨known.type, d⟩ →
    known.assign event name value = (.ok (), ⟨known.type, set value d⟩)

theorem reaches_of_field {field : EventField known.type} (h : known.field? name = some field) :
    known.Reaches event name value field := by
  refine ⟨isWritable_of_field h, ?_, ?_⟩
  · rintro d rfl
    rw [read_eq, h]
  · rintro set d hset rfl
    simp only [KnownEvent.assign, h, hset, HostEvent.update_self]

/-- Access to an event under a name: where it goes, what it answers and what it leaves. -/
structure Access (known : KnownEvent τ) (event : HostEvent τ) (name : String) (value : Json) : Prop where
  first : ∀ before field after, known.fields = before ++ field :: after →
    sameName field.name name = true → (∀ other ∈ before, sameName other.name name = false) →
      known.Reaches event name value field
  unknown_assign : (∃ type field, (known.assign event name value).1 = .error (.unknown type field)) ↔
    ∀ field ∈ known.fields, sameName field.name name = false
  unknown_read : (∃ type field, known.read event name = .error (.unknown type field)) ↔
    ∀ field ∈ known.fields, sameName field.name name = false
  readOnly : (∃ field ∈ known.fields, sameName field.name name = true) →
    ((∃ type field, (known.assign event name value).1 = .error (.readOnly type field)) ↔
      known.isWritable name = false)
  typeMismatch : known.isWritable name = true →
    ((∃ expected found, (known.assign event name value).1 = .error (.typeMismatch expected found)) ↔
      event.type ≠ known.type)
  assigned : known.isWritable name = true →
    ((known.assign event name value).1 = .ok () ↔ event.type = known.type)
  unread : (∃ field ∈ known.fields, sameName field.name name = true) →
    ((∃ error, known.read event name = .error error) ↔ event.type ≠ known.type)
  kept : ∀ error, (known.assign event name value).1 = .error error →
    (known.assign event name value).2 = event
  write : known.assign event name value =
    match known.write event name value with
    | .ok after => (.ok (), after)
    | .error error => (.error error, event)

/-- Every access to a field of any event finds the first field of the name, reports the first thing
that is wrong, and changes the event only if nothing is. -/
theorem access (known : KnownEvent τ) (event : HostEvent τ) (name : String) (value : Json) :
    known.Access event name value := by
  have hreading := known.reading event name
  have hassigning := known.assigning event name value
  have habsent := known.field?_eq_none_iff name
  have hpresent (h : ∃ field ∈ known.fields, sameName field.name name = true) :
      known.field? name ≠ none := by
    obtain ⟨field, hmem, hname⟩ := h
    intro hnone
    exact absurd (habsent.mp hnone field hmem) (by simp [hname])
  refine ⟨?_, ?_, ?_, ?_, ?_, ?_, ?_, ?_, known.assign_eq event name value⟩
  · intro before field after hfields hname hbefore
    apply reaches_of_field
    exact (known.field?_eq_some_iff name field).mpr ⟨hname, before, after, hfields, hbefore⟩
  · exact (unknown_assign_iff hassigning).trans habsent
  · exact (unknown_read_iff hreading).trans habsent
  · exact fun h => readOnly_assign_iff hassigning (hpresent h)
  · exact typeMismatch_assign_iff hassigning
  · exact ok_assign_iff hassigning
  · exact fun h => error_read_iff hreading (hpresent h)
  · exact fun error => kept_of_error hassigning

/-- A field that can be written is hidden by an earlier one of its name that cannot. -/
example :
    let hidden : KnownEvent Empty := ⟨.playerChat, [⟨"text", EventTable.utteranceMessage, none⟩,
      ⟨"TEXT", EventTable.utterancePlayer, some EventTable.setUtteranceMessage⟩]⟩
    hidden.isWritable "TEXT" = false := by
  decide

end KnownEvent
end ScriptedActors
