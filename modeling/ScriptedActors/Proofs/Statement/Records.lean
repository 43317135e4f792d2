import ScriptedActors.Proofs.Json.Settled
import ScriptedActors.Proofs.Location.Record
import ScriptedActors.Statement.ActionRecord

set_option autoImplicit false

/-!
# Actions that are stored

A stored action is read back exactly if all its numbers are, whatever the order of its members and
whatever other members stand beside them.
-/
namespace ScriptedActors
open Json

namespace Action

def ReadsBack : Action → Prop
  | .create _ _ place | .look place _ | .move place | .teleport place => place.ReadsBack
  | .metadata _ value => value.Every Json.ReadsBack
  | _ => True

/-- Metadata is a value that a text can hold, with the keys of every object in order and no deeper
than fits inside an object. -/
structure IsStorable (v : Json) : Prop where
  readable : v.Every IsReadable
  settled : v.Every IsSettled
  depth : v.depth < maxDepth

def Storable : Action → Prop
  | .metadata _ value => IsStorable value
  | _ => True

def record (a : Action) : List (String × Json) := ("action", .string a.name) :: a.members

theorem nodup_record (a : Action) : (a.record.map Prod.fst).Nodup := by
  cases a <;> simp [record, members]

theorem action_notMem_fields (a : Action) : "action" ∉ a.members.map Prod.fst :=
  (List.nodup_cons.mp a.nodup_record).1

section Fields
variable {α β γ : Type} {first second third : String} {v w u : Json}
  {readFirst : Json → Option α} {readSecond : Option Json → Option β} {readThird : Json → Option γ}

theorem ofOne_congr {all fields : List (String × Json)} {make : α → Action}
    (h : ∀ name ∈ [first], valuesOf name all = valuesOf name fields) :
    ofOne first readFirst make (.object all) = ofOne first readFirst make (.object fields) := by
  rw [ofOne, ofOne, Json.fields, Json.fields, fieldsOfMembers_congr h]

theorem ofTwo_congr {all fields : List (String × Json)} {make : α → β → Action}
    (h : ∀ name ∈ [first, second], valuesOf name all = valuesOf name fields) :
    ofTwo first second readFirst readSecond make (.object all) =
      ofTwo first second readFirst readSecond make (.object fields) := by
  rw [ofTwo, ofTwo, Json.fields, Json.fields, fieldsOfMembers_congr h]

theorem ofThree_congr {all fields : List (String × Json)} {read : Json → Option β}
    {make : α → β → γ → Action}
    (h : ∀ name ∈ [first, second, third], valuesOf name all = valuesOf name fields) :
    ofThree first second third readFirst read readThird make (.object all) =
      ofThree first second third readFirst read readThird make (.object fields) := by
  rw [ofThree, ofThree, Json.fields, Json.fields, fieldsOfMembers_congr h]

theorem reread_ofOne {make : α → Action} :
    ((rereadMembers [(first, v)]).bind fun fields => ofOne first readFirst make (.object fields)) =
      (v.reread.bind readFirst).map make := by
  rw [rereadMembers, rereadMembers]
  rcases v.reread with _ | v'
  · rfl
  have hfields : fieldsOfMembers [(first, v')] [first] = some [some v'] :=
    fieldsOfMembers_keys (List.nodup_singleton first)
  simp [ofOne, fields, hfields, required, Option.map_eq_bind]

theorem reread_ofTwo {make : α → β → Action} (hne : first ≠ second) :
    ((rereadMembers [(first, v), (second, w)]).bind fun fields =>
      ofTwo first second readFirst readSecond make (.object fields)) =
        (v.reread.bind readFirst).bind fun x => (w.reread.bind fun w => readSecond (some w)).map (make x) := by
  rw [rereadMembers, rereadMembers, rereadMembers]
  rcases v.reread with _ | v'
  · rfl
  rcases w.reread with _ | w'
  · simp
  have hfields : fieldsOfMembers [(first, v'), (second, w')] [first, second] = some [some v', some w'] :=
    fieldsOfMembers_keys (by simpa using hne)
  simp [ofTwo, fields, hfields, required, Option.map_eq_bind]

theorem reread_ofThree {read : Json → Option β} {make : α → β → γ → Action}
    (hnodup : [first, second, third].Nodup) :
    ((rereadMembers [(first, v), (second, w), (third, u)]).bind fun fields =>
      ofThree first second third readFirst read readThird make (.object fields)) =
        (v.reread.bind readFirst).bind fun x => (w.reread.bind read).bind fun y =>
          (u.reread.bind readThird).map (make x y) := by
  rw [rereadMembers, rereadMembers, rereadMembers, rereadMembers]
  rcases v.reread with _ | v'
  · rfl
  rcases w.reread with _ | w'
  · simp
  rcases u.reread with _ | u'
  · simp
  have hfields : fieldsOfMembers [(first, v'), (second, w'), (third, u')] [first, second, third] =
      some [some v', some w', some u'] := fieldsOfMembers_keys hnodup
  simp [ofThree, fields, hfields, required, Option.map_eq_bind]

theorem map_eq_some_iff {make : α → Action} (hmake : ∀ {x y}, make x = make y → x = y) {read : Option α}
    {x : α} : read.map make = some (make x) ↔ read = some x := by
  rw [Option.map_eq_some_iff]
  constructor
  · rintro ⟨y, rfl, heq⟩
    rw [hmake heq]
  · exact fun h => ⟨x, h, rfl⟩

end Fields

theorem ofFields_congr (a : Action) {all fields : List (String × Json)}
    (h : ∀ name ∈ a.members.map Prod.fst, valuesOf name all = valuesOf name fields) :
    ofFields (.object all) a.name = ofFields (.object fields) a.name := by
  cases a with
  | log _ | wait _ | js _ | get _ | run _ | move _ | teleport _ | animation _ | permission _
  | placeholder _ => exact ofOne_congr h
  | set _ _ | select _ _ | look _ _ | tag _ _ | metadata _ _ | viewer _ _ | passenger _ _
  | controller _ _ | event _ _ | listen _ _ | command _ _ => exact ofTwo_congr h
  | check _ _ _ | create _ _ _ => exact ofThree_congr h
  | pause | terminate | respawn | destroy | remove | delete | stopMoving | sleeping | proceed => rfl

theorem reread_optional (text : Option String) :
    ((ofText? text).reread.bind fun v => nullable asString (some v)) = some text := by
  cases text <;> rfl

theorem reread_bool (b : Bool) : ((Json.bool b).reread.bind fun v => required asBool (some v)) = some b := by
  cases b <;> rfl

theorem reread_metadata_iff {v : Json} (h : IsStorable v) :
    (v.reread.bind fun w => required (fun w => some w.settled) (some w)) = some v ↔ v.Every Json.ReadsBack := by
  have hsettled : (v.reread.bind fun w => required (fun w => some w.settled) (some w)) =
      v.reread.map settled := by
    cases v.reread <;> rfl
  rw [hsettled, settled_reread h.settled, reread_eq_self_iff h.readable]

theorem ofFields_eq_some_iff {a : Action} (h : a.Storable) :
    ((rereadMembers a.members).bind fun fields => ofFields (.object fields) a.name) = some a ↔
      a.ReadsBack := by
  cases a with
  | pause | terminate | respawn | destroy | remove | delete | stopMoving | sleeping | proceed =>
    exact iff_of_true rfl trivial
  | log _ | js _ | get _ | run _ | animation _ | permission _ | placeholder _ =>
    exact iff_of_true reread_ofOne trivial
  | wait ticks => exact iff_of_true (reread_ofOne.trans (by rw [reread_word]; rfl)) trivial
  | set _ _ | listen _ _ => exact iff_of_true (reread_ofTwo (by decide)) trivial
  | tag _ value | event _ value =>
    exact iff_of_true ((reread_ofTwo (by decide)).trans (by rw [reread_optional]; rfl)) trivial
  | select _ key =>
    exact iff_of_true ((reread_ofTwo (by decide)).trans (by cases key <;> rfl)) trivial
  | command _ sender =>
    exact iff_of_true ((reread_ofTwo (by decide)).trans (by cases sender <;> rfl)) trivial
  | viewer op _ | passenger op _ | controller op _ =>
    exact iff_of_true ((reread_ofTwo (by decide)).trans (by cases op <;> rfl)) trivial
  | check _ op _ =>
    exact iff_of_true ((reread_ofThree (by decide)).trans (by cases op <;> rfl)) trivial
  | metadata _ value =>
    rw [ReadsBack, ← reread_metadata_iff h]
    exact (Eq.congr_left (reread_ofTwo (by decide))).trans
      (map_eq_some_iff fun heq => (metadata.inj heq).2)
  | move target =>
    rw [ReadsBack, ← target.reread_bind_eq_some_iff]
    exact (Eq.congr_left reread_ofOne).trans (map_eq_some_iff move.inj)
  | teleport target =>
    rw [ReadsBack, ← target.reread_bind_eq_some_iff]
    exact (Eq.congr_left reread_ofOne).trans (map_eq_some_iff teleport.inj)
  | look target smooth =>
    rw [ReadsBack, ← target.reread_bind_eq_some_iff]
    exact (Eq.congr_left (reread_ofTwo (by decide))).trans (by simp [reread_bool, Option.bind_eq_some_iff])
  | create _ _ location =>
    rw [ReadsBack, ← location.reread_bind_eq_some_iff]
    exact (Eq.congr_left (reread_ofThree (by decide))).trans
      (map_eq_some_iff fun heq => (create.inj heq).2.2)

theorem valuesOf_others {name : String} (h : name ≠ "action") (members : List (String × Json)) :
    valuesOf name (members.filter fun member => member.1 != "action") = valuesOf name members := by
  rw [valuesOf, valuesOf, List.filter_filter]
  congr 1
  refine List.filter_congr fun member _ => ?_
  by_cases heq : member.1 = name
  · simp [heq, h]
  · simp [heq]

/-- What an action is read as depends on what it is stored with only. -/
theorem ofJson_eq_ofFields (a : Action) {all fields : List (String × Json)}
    (hname : valuesOf "action" all = [.string a.name])
    (hfields : ∀ name ∈ a.members.map Prod.fst, valuesOf name all = valuesOf name fields) :
    ofJson (.object all) = ofFields (.object fields) a.name := by
  simp only [ofJson, hname]
  refine a.ofFields_congr fun name hmem => ?_
  have hne : name ≠ "action" := by
    rintro rfl
    exact a.action_notMem_fields hmem
  rw [valuesOf_others hne, hfields name hmem]

theorem valuesOf_action {a : Action} {fields : List (String × Json)}
    (h : rereadMembers a.members = some fields) :
    valuesOf "action" (("action", .string a.name) :: fields) = [.string a.name] := by
  have hkeys := a.action_notMem_fields
  rw [← keys_rereadMembers h] at hkeys
  rw [valuesOf_cons, if_pos rfl, valuesOf_eq_nil hkeys]

theorem ofJson_record {a : Action} {fields : List (String × Json)}
    (h : rereadMembers a.members = some fields) :
    ofJson (.object (("action", .string a.name) :: fields)) = ofFields (.object fields) a.name := by
  refine a.ofJson_eq_ofFields (valuesOf_action h) fun name hmem => ?_
  rw [valuesOf_cons, if_neg]
  rintro rfl
  exact a.action_notMem_fields hmem

theorem reread_bind_eq_some_iff {a : Action} (h : a.Storable) :
    a.toJson.reread.bind ofJson = some a ↔ a.ReadsBack := by
  rw [← ofFields_eq_some_iff h, toJson, reread, rereadMembers, reread, Option.bind_some, Option.map_map,
    Option.bind_map]
  cases hfields : rereadMembers a.members with
  | none => rfl
  | some fields =>
    rw [Option.bind_some, Option.bind_some, ← ofJson_record hfields]
    rfl

theorem depth_ofText? (text : Option String) : (ofText? text).depth = 0 := by
  cases text <;> rfl

theorem depth_toJson {a : Action} (h : a.Storable) : a.toJson.depth ≤ maxDepth := by
  rw [toJson, depth, memberDepth, maxDepth]
  cases a with
  | metadata key value =>
    have hdepth := h.depth
    rw [maxDepth] at hdepth
    simp only [members, memberDepth, depth]
    omega
  | _ => simp [members, memberDepth, depth, Location.toJson, depth_ofText?]

/-- An action is read from any object with its fields, in any order and among others, as from its
record alone. -/
theorem reread_extends {a : Action} {members : List (String × Json)} (h : Extends members a.record) :
    (object members).reread.bind ofJson = a.toJson.reread.bind ofJson := by
  refine h.reread_bind a.nodup_record fun all fields hrecord hvalues => ?_
  rw [record, rereadMembers, reread, Option.bind_some, Option.map_eq_some_iff] at hrecord
  obtain ⟨rest, hrest, rfl⟩ := hrecord
  have hname := hvalues "action" List.mem_cons_self
  rw [valuesOf_action hrest] at hname
  rw [a.ofJson_eq_ofFields hname fun name hmem => hvalues name (List.mem_cons_of_mem _ hmem),
    a.ofJson_eq_ofFields (valuesOf_action hrest) fun _ _ => rfl]

/-- A stored action is read back exactly if all its numbers are. -/
theorem read_record_iff {a : Action} (ha : a.Storable) {members : List (String × Json)}
    (hmembers : Extends members a.record) {text : String} (htext : IsTextOf text (.object members)) :
    (read? text).bind ofJson = (read? a.toJson.compact).bind ofJson ∧
      ((read? text).bind ofJson = some a ↔ a.ReadsBack) := by
  have hdepth := depth_toJson ha
  rw [htext.read? (hmembers.depth_le hdepth), read?_compact _ hdepth, reread_extends hmembers]
  exact ⟨rfl, reread_bind_eq_some_iff ha⟩

def ranked : Action :=
  .metadata "rank" (.object [("level", .int 3), ("titles", .array [.null])])

def rankedMembers : List (String × Json) := ("zone", .bool true) :: ranked.record.reverse

theorem read_ranked : ranked.Storable ∧ Extends rankedMembers ranked.record ∧
    IsTextOf (object rankedMembers).pretty (.object rankedMembers) ∧ ranked.ReadsBack ∧
    (read? ranked.toJson.compact).bind ofJson = some ranked ∧
    (read? (object rankedMembers).pretty).bind ofJson = some ranked := by
  have hstorable : ranked.Storable := {
    readable := ⟨trivial, show IsWord 3 by decide, ⟨trivial, trivial, trivial⟩, trivial⟩
    settled := ⟨List.pairwise_pair.mpr (show "level" < "titles" by decide), trivial,
      ⟨trivial, trivial, trivial⟩, trivial⟩
    depth := by decide }
  have hextends : Extends rankedMembers ranked.record := by
    refine ⟨[("zone", .bool true)], ?_, ?_⟩
    · exact ((List.reverse_perm _).cons _).trans (List.perm_append_singleton _ _).symm
    · intro other hother
      cases List.mem_singleton.mp hother
      exact ⟨by decide, by decide, rfl⟩
  have hback : ranked.ReadsBack := ⟨trivial, trivial, ⟨trivial, trivial, trivial⟩, trivial⟩
  exact ⟨hstorable, hextends, .inr rfl, hback,
    (read_record_iff hstorable (Extends.refl _) (.inl rfl)).2.mpr hback,
    (read_record_iff hstorable hextends (.inr rfl)).2.mpr hback⟩

end Action
end ScriptedActors
