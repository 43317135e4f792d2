import Mathlib.Data.List.Basic
import ScriptedActors.Event.Table
import ScriptedActors.Proofs.Registrations

set_option autoImplicit false

/-!
# Fields of the known events

A field that was written is read as the truth or the text of what was written last, and no write
changes what another field is read as. Writing back what was read changes nothing, unless that is
the null of a message that is absent: it becomes the text `null`.
-/
namespace ScriptedActors
open Text Json KeywordTable

/-- What a field is read as once a value was written to it. -/
def storedValue (field : String) (v : Json) : Json :=
  if sameName field "cancelled" then .bool v.coerceBool else .string v.coerceText

theorem storedValue_congr {a b : String} (h : sameName a b = true) (v : Json) :
    storedValue a v = storedValue b v := by
  rw [storedValue, storedValue, sameName_comm a, sameName_comm b, sameName_congr h]

theorem storedValue_message (v : Json) : storedValue "message" v = .string v.coerceText := rfl

theorem storedValue_command (v : Json) : storedValue "command" v = .string v.coerceText := rfl

theorem storedValue_cancelled (v : Json) : storedValue "cancelled" v = .bool v.coerceBool := rfl

def writableNames : List String := ["message", "command", "cancelled"]

def HostEvent.lacksMessage {τ : Type} [EventFamily τ] : HostEvent τ → Bool
  | ⟨.playerJoin, (e : Passage)⟩ => e.message.isNone
  | ⟨.playerQuit, (e : Passage)⟩ => e.message.isNone
  | _ => false

/-- The laws of the setter of a field that stands among others. -/
structure EventField.Lawful {τ : Type} [EventFamily τ] {t : EventType τ} (fields : List (EventField t)) (field : EventField t)
    (set : Json → t.Data → t.Data) : Prop where
  stored : ∀ v d, field.get (set v d) = storedValue field.name v
  kept : fields.Forall fun other => sameName field.name other.name = false →
    ∀ v d, other.get (set v d) = other.get d
  restored : ∀ d, set (field.get d) d = d ↔ (HostEvent.mk t d).lacksMessage = false
  named : field.name ∈ writableNames

def KnownEvent.Lawful {τ : Type} [EventFamily τ] (known : KnownEvent τ) : Prop :=
  known.fields.Forall fun field => ∀ set, field.set = some set → field.Lawful known.fields set

namespace EventTable
variable {τ : Type} [EventFamily τ]

theorem passageMessage_restored (e : Passage) :
    setPassageMessage (passageMessage e) e = e ↔ e.message.isNone = false := by
  obtain ⟨player, message⟩ := e
  cases message with
  | none => simp [passageMessage, setPassageMessage, optionalText]
  | some text => simp [passageMessage, setPassageMessage, optionalText, coerceText]

theorem not_apart {name : String} {p : Prop} (h : sameName name name = false) : p := by
  rw [sameName_refl] at h
  cases h

theorem lawful_join : (join : KnownEvent τ).Lawful := by
  refine ⟨nofun, ?_⟩
  rintro _ ⟨⟩
  exact {
    stored := fun v _ => (storedValue_message v).symm
    kept := ⟨fun _ v d => rfl, not_apart⟩
    restored := passageMessage_restored
    named := by simp [writableNames] }

theorem lawful_quit : (quit : KnownEvent τ).Lawful := by
  refine ⟨nofun, ?_⟩
  rintro _ ⟨⟩
  exact {
    stored := fun v _ => (storedValue_message v).symm
    kept := ⟨fun _ v d => rfl, not_apart⟩
    restored := passageMessage_restored
    named := by simp [writableNames] }

theorem lawful_chat : (chat : KnownEvent τ).Lawful := by
  refine ⟨nofun, ?_, ?_⟩
  · rintro _ ⟨⟩
    exact {
      stored := fun v _ => (storedValue_message v).symm
      kept := ⟨fun _ v d => rfl, not_apart, fun _ v d => rfl⟩
      restored := fun d => ⟨fun _ => rfl, fun _ => rfl⟩
      named := by simp [writableNames] }
  · rintro _ ⟨⟩
    exact {
      stored := fun v _ => (storedValue_cancelled v).symm
      kept := ⟨fun _ v d => rfl, fun _ v d => rfl, not_apart⟩
      restored := fun d => ⟨fun _ => rfl, fun _ => rfl⟩
      named := by simp [writableNames] }

theorem lawful_command : (command : KnownEvent τ).Lawful := by
  refine ⟨nofun, ?_, ?_⟩
  · rintro _ ⟨⟩
    exact {
      stored := fun v _ => (storedValue_command v).symm
      kept := ⟨fun _ v d => rfl, not_apart, fun _ v d => rfl⟩
      restored := fun d => ⟨fun _ => rfl, fun _ => rfl⟩
      named := by simp [writableNames] }
  · rintro _ ⟨⟩
    exact {
      stored := fun v _ => (storedValue_cancelled v).symm
      kept := ⟨fun _ v d => rfl, fun _ v d => rfl, not_apart⟩
      restored := fun d => ⟨fun _ => rfl, fun _ => rfl⟩
      named := by simp [writableNames] }

theorem lawful_damage : (damage : KnownEvent τ).Lawful := by
  refine ⟨nofun, nofun, nofun, ?_⟩
  rintro _ ⟨⟩
  exact {
    stored := fun v _ => (storedValue_cancelled v).symm
    kept := ⟨fun _ v d => rfl, fun _ v d => rfl, fun _ v d => rfl, not_apart⟩
    restored := fun d => ⟨fun _ => rfl, fun _ => rfl⟩
    named := by simp [writableNames] }

theorem lawful_interact : (interact : KnownEvent τ).Lawful := by
  refine ⟨nofun, nofun, nofun, nofun, ?_⟩
  rintro _ ⟨⟩
  exact {
    stored := fun v _ => (storedValue_cancelled v).symm
    kept := ⟨fun _ v d => rfl, fun _ v d => rfl, fun _ v d => rfl, fun _ v d => rfl,
      not_apart⟩
    restored := fun d => ⟨fun _ => rfl, fun _ => rfl⟩
    named := by simp [writableNames] }

theorem lawful_vocabulary : (vocabulary : List (String × KnownEvent τ)).Forall fun entry => entry.2.Lawful :=
  ⟨lawful_join, lawful_quit, lawful_chat, lawful_command, lawful_damage, lawful_interact⟩

theorem vocabulary_names_distinct : Distinct (vocabulary : List (String × KnownEvent τ)) := by
  have hnames : ["join", "quit", "chat", "command", "npc_damage", "npc_interact"].Pairwise
      fun a b => sameName a b = false := by decide
  have hmapped : ((vocabulary : List (String × KnownEvent τ)).map Prod.fst).Pairwise
      fun a b => sameName a b = false := hnames
  exact List.pairwise_map.mp hmapped

theorem lawful_of_resolve {name : String} {known : KnownEvent τ}
    (h : builtin.resolve name = some known) : known.Lawful := by
  have hentries : (builtin : EventTable τ).entries = vocabulary :=
    entries_registerAll vocabulary empty vocabulary_names_distinct
  obtain ⟨bound, hmem, -⟩ := (resolve_eq_some builtin (hentries ▸ vocabulary_names_distinct) name known).mp h
  exact List.forall_iff_forall_mem.mp lawful_vocabulary _ (hentries ▸ hmem)

end EventTable

namespace KnownEvent
variable {τ : Type} [EventFamily τ] {known : KnownEvent τ}

theorem sameName_of_field? {name : String} {field : EventField known.type}
    (h : known.field? name = some field) : sameName field.name name = true := by
  rw [field?, List.find?_eq_some_iff_append] at h
  exact h.1

theorem isWritable_iff (name : String) : known.isWritable name = true ↔
    ∃ field set, known.field? name = some field ∧ field.set = some set := by
  rw [isWritable]
  cases known.field? name with
  | none => simp
  | some field => simp [Option.isSome_iff_exists]

theorem Lawful.setter (h : known.Lawful) {name : String} {field : EventField known.type}
    (hfield : known.field? name = some field) {set : Json → known.type.Data → known.type.Data}
    (hset : field.set = some set) : field.Lawful known.fields set ∧ sameName field.name name = true :=
  ⟨List.forall_iff_forall_mem.mp h field (List.mem_of_find?_eq_some hfield) set hset,
    sameName_of_field? hfield⟩

theorem Lawful.sameName_of_isWritable (h : known.Lawful) {name : String}
    (hname : known.isWritable name = true) : ∃ n ∈ writableNames, sameName n name = true := by
  obtain ⟨field, set, hfield, hset⟩ := (isWritable_iff name).mp hname
  obtain ⟨hlawful, hsame⟩ := h.setter hfield hset
  exact ⟨field.name, hlawful.named, hsame⟩

theorem read_eq (d : known.type.Data) (name : String) : known.read ⟨known.type, d⟩ name =
    match known.field? name with
    | none => .error (.unknown known.type.name name)
    | some field => .ok (field.get d) := by
  rw [read]
  cases known.field? name with
  | none => rfl
  | some field => simp only [HostEvent.dataAs?_self]

theorem write_eq_ok_iff (d : known.type.Data) (name : String) (v : Json) (e : HostEvent τ) :
    known.write ⟨known.type, d⟩ name v = .ok e ↔ ∃ field set, known.field? name = some field ∧
      field.set = some set ∧ e = ⟨known.type, set v d⟩ := by
  rw [write, assign]
  cases known.field? name with
  | none => simp
  | some field =>
    cases hset : field.set with
    | none => simp [hset]
    | some set => simp [hset, HostEvent.update_self, eq_comm]

theorem exists_write_iff (d : known.type.Data) (name : String) (v : Json) :
    (∃ e, known.write ⟨known.type, d⟩ name v = .ok e) ↔ known.isWritable name = true := by
  simp only [write_eq_ok_iff, isWritable_iff]
  constructor
  · rintro ⟨_, field, set, hfield, hset, rfl⟩
    exact ⟨field, set, hfield, hset⟩
  · rintro ⟨field, set, hfield, hset⟩
    exact ⟨_, field, set, hfield, hset, rfl⟩

/-- One write changes what is read of its field, and of no other one. -/
theorem Lawful.read_write (h : known.Lawful) {d : known.type.Data} {name : String} {v : Json}
    {e : HostEvent τ} (hwrite : known.write ⟨known.type, d⟩ name v = .ok e) (other : String) :
    known.read e other = if sameName name other = true then .ok (storedValue other v)
      else known.read ⟨known.type, d⟩ other := by
  obtain ⟨field, set, hfield, hset, rfl⟩ := (write_eq_ok_iff d name v e).mp hwrite
  obtain ⟨hlawful, hname⟩ := h.setter hfield hset
  rw [read_eq, read_eq]
  by_cases hsame : sameName name other = true
  · have hother : known.field? other = some field := by
      rw [← hfield, field?, field?]
      congr 1
      funext candidate
      exact (sameName_congr hsame candidate.name).symm
    rw [if_pos hsame, hother]
    simp only
    rw [hlawful.stored, storedValue_congr (sameName_trans hname hsame)]
  · rw [if_neg hsame]
    cases hother : known.field? other with
    | none => rfl
    | some found =>
      have hfound : sameName found.name other = true := sameName_of_field? hother
      have hdifferent : sameName field.name found.name = false := by
        rw [Bool.eq_false_iff]
        intro hclash
        exact hsame (sameName_trans (by rwa [sameName_comm]) (sameName_trans hclash hfound))
      simp only
      rw [List.forall_iff_forall_mem.mp hlawful.kept found (List.mem_of_find?_eq_some hother) hdifferent]

def writeAll (known : KnownEvent τ) (event : HostEvent τ) : List (String × Json) → HostEvent τ
  | [] => event
  | w :: writes =>
    match known.write event w.1 w.2 with
    | .ok next => known.writeAll next writes
    | .error _ => known.writeAll event writes

def accepted (known : KnownEvent τ) (event : HostEvent τ) : List (String × Json) → List (String × Json)
  | [] => []
  | w :: writes =>
    match known.write event w.1 w.2 with
    | .ok next => w :: known.accepted next writes
    | .error _ => known.accepted event writes

theorem lastOf_cons {α : Type} (w : String × α) (rest : List (String × α)) (name : String) :
    lastOf (w :: rest) name = (lastOf rest name).or (if sameName w.1 name then some w else none) := by
  rw [lastOf, lastOf, List.reverse_cons, List.find?_append, List.find?_singleton]

theorem accepted_eq (d : known.type.Data) (writes : List (String × Json)) :
    known.accepted ⟨known.type, d⟩ writes = writes.filter fun w => known.isWritable w.1 := by
  induction writes generalizing d with
  | nil => rfl
  | cons w writes ih =>
    have hw := exists_write_iff d w.1 w.2
    rw [accepted, List.filter_cons]
    split
    · rename_i next hwrite
      obtain ⟨field, set, -, -, rfl⟩ := (write_eq_ok_iff d w.1 w.2 next).mp hwrite
      rw [if_pos (hw.mp ⟨_, hwrite⟩), ih]
    · rename_i error hwrite
      have hrefused : ¬ known.isWritable w.1 = true := by
        rw [← hw, hwrite]
        rintro ⟨_, ⟨⟩⟩
      rw [if_neg hrefused, ih]

theorem Lawful.read_writeAll (h : known.Lawful) (d : known.type.Data) (writes : List (String × Json))
    (name : String) : known.read (known.writeAll ⟨known.type, d⟩ writes) name =
      match lastOf (known.accepted ⟨known.type, d⟩ writes) name with
      | some w => .ok (storedValue name w.2)
      | none => known.read ⟨known.type, d⟩ name := by
  induction writes generalizing d with
  | nil => rfl
  | cons w writes ih =>
    rw [writeAll, accepted]
    split
    · rename_i next hwrite
      obtain ⟨field, set, -, -, rfl⟩ := (write_eq_ok_iff d w.1 w.2 next).mp hwrite
      rw [ih, lastOf_cons]
      cases lastOf (known.accepted ⟨known.type, set w.2 d⟩ writes) name with
      | some later => rfl
      | none =>
        simp only [Option.none_or]
        rw [h.read_write hwrite]
        split <;> rfl
    · exact ih d

structure Independent (known : KnownEvent τ) (event : HostEvent τ) (writes : List (String × Json)) : Prop where
  accepted : known.accepted event writes = writes.filter fun w => known.isWritable w.1
  named : ∀ w ∈ known.accepted event writes, ∃ n ∈ writableNames, sameName n w.1 = true
  text : ∀ name w, lastOf (known.accepted event writes) name = some w →
    sameName name "cancelled" = false →
    known.read (known.writeAll event writes) name = .ok (.string w.2.coerceText)
  truth : ∀ name w, lastOf (known.accepted event writes) name = some w →
    sameName name "cancelled" = true →
    known.read (known.writeAll event writes) name = .ok (.bool w.2.coerceBool)
  kept : ∀ name, lastOf (known.accepted event writes) name = none →
    known.read (known.writeAll event writes) name = known.read event name
  fixed : ∀ n ∈ ["player", "id", "uniqueId", "action"], ∀ name, sameName n name = true →
    known.read (known.writeAll event writes) name = known.read event name

end KnownEvent

namespace EventTable
variable {τ : Type} [EventFamily τ]

/-- After any writes each field of a known event is read as what was last written to it, or as before. -/
theorem independent_writeAll {name : String} {known : KnownEvent τ}
    (hknown : builtin.resolve name = some known) {event : HostEvent τ} (htype : event.type = known.type)
    (writes : List (String × Json)) : known.Independent event writes := by
  have hlawful := lawful_of_resolve hknown
  obtain ⟨type, d⟩ := event
  obtain rfl : type = known.type := htype
  have hread := hlawful.read_writeAll d writes
  have haccepted := KnownEvent.accepted_eq d writes
  have hnamed : ∀ w ∈ known.accepted ⟨known.type, d⟩ writes, ∃ n ∈ writableNames, sameName n w.1 = true := by
    rw [haccepted]
    intro w hw
    exact hlawful.sameName_of_isWritable (List.mem_filter.mp hw).2
  have hkept : ∀ field, lastOf (known.accepted ⟨known.type, d⟩ writes) field = none →
      known.read (known.writeAll ⟨known.type, d⟩ writes) field = known.read ⟨known.type, d⟩ field := by
    intro field hlast
    rw [hread, hlast]
  refine ⟨haccepted, hnamed, ?_, ?_, hkept, ?_⟩
  · intro field w hlast hfield
    rw [hread, hlast]
    simp [storedValue, hfield]
  · intro field w hlast hfield
    rw [hread, hlast]
    simp [storedValue, hfield]
  · intro n hn field hsame
    refine hkept field ((lastOf_eq_none_iff _ field).mpr ?_)
    intro w hw
    obtain ⟨m, hm, hwritable⟩ := hnamed w hw
    have hdistinct : ∀ n ∈ ["player", "id", "uniqueId", "action"], ∀ m ∈ writableNames,
        sameName m n = false := by decide
    rw [Bool.eq_false_iff]
    intro hclash
    have hback : sameName field n = true := by rwa [sameName_comm]
    have hboth := sameName_trans hwritable (sameName_trans hclash hback)
    rw [hdistinct n hn m hm] at hboth
    cases hboth

/-- A message in two spellings, a field that cannot be written and a truth given as a text. -/
theorem independent_chat : (builtin : EventTable Empty).resolve "Chat" = some chat ∧
    (chat : KnownEvent Empty).Independent ⟨.playerChat, (⟨"alex", "hello", false⟩ : Utterance)⟩
      [("message", .null), ("PLAYER", .string "x"), ("Message", .int 5), ("cancelled", .string " Yes ")] :=
  ⟨rfl, independent_writeAll (show (builtin : EventTable Empty).resolve "Chat" = some chat from rfl) rfl _⟩

/-- What was read of a field is written back without a change exactly if no message is absent. -/
theorem write_read_iff {name : String} {known : KnownEvent τ} (hknown : builtin.resolve name = some known)
    {event : HostEvent τ} (htype : event.type = known.type) {field : String}
    (hfield : known.isWritable field = true) :
    ∃ v after, known.read event field = .ok v ∧ known.write event field v = .ok after ∧
      (after = event ↔ event.lacksMessage = false) := by
  have hlawful := lawful_of_resolve hknown
  obtain ⟨type, d⟩ := event
  obtain rfl : type = known.type := htype
  obtain ⟨found, set, hfound, hset⟩ := (KnownEvent.isWritable_iff field).mp hfield
  have hrestored := (hlawful.setter hfound hset).1.restored d
  refine ⟨found.get d, ⟨known.type, set (found.get d) d⟩, ?_, ?_, ?_⟩
  · rw [KnownEvent.read_eq, hfound]
  · rw [KnownEvent.write_eq_ok_iff]
    exact ⟨found, set, hfound, hset, rfl⟩
  · rw [← hrestored, HostEvent.mk.injEq]
    simp

theorem write_read_chat :
    let event : HostEvent Empty := ⟨.playerChat, (⟨"alex", "", true⟩ : Utterance)⟩
    (builtin : EventTable Empty).resolve "chat" = some chat ∧
      (chat : KnownEvent Empty).isWritable "CANCELLED" = true ∧
      ∃ v after, chat.read event "CANCELLED" = .ok v ∧ chat.write event "CANCELLED" v = .ok after ∧
        (after = event ↔ event.lacksMessage = false) :=
  ⟨rfl, by decide,
    write_read_iff (show (builtin : EventTable Empty).resolve "chat" = some chat from rfl) rfl (by decide)⟩

/-- An absent message is read as null, and null is written back as the text `null`. -/
theorem not_restored_absent_message :
    ¬ ∀ (name : String) (known : KnownEvent Empty) (event : HostEvent Empty) (field : String) (v : Json),
      builtin.resolve name = some known → event.type = known.type → known.isWritable field = true →
      known.read event field = .ok v → known.write event field v = .ok event := by
  intro h
  have hwrite := h "join" join ⟨.playerJoin, (⟨"steve", none⟩ : Passage)⟩ "message" .null rfl rfl
    (by decide) rfl
  have hread : (join : KnownEvent Empty).read ⟨.playerJoin, (⟨"steve", some "null"⟩ : Passage)⟩ "message" =
      .ok (.string "null") := rfl
  have hafter : (join : KnownEvent Empty).write ⟨.playerJoin, (⟨"steve", none⟩ : Passage)⟩ "message" .null =
      .ok ⟨.playerJoin, (⟨"steve", some "null"⟩ : Passage)⟩ := rfl
  rw [hafter, Except.ok.injEq] at hwrite
  rw [hwrite] at hread
  cases hread

end EventTable
end ScriptedActors
