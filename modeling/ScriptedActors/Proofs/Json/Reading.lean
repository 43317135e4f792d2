import ScriptedActors.Json.Reader
import ScriptedActors.Proofs.Json.Lexing

set_option autoImplicit false

/-!
# Reading a written value

A value that is written on one line and read again keeps everything but its numbers with a
fraction, which may change in their last place. So a value is read as it was written exactly if all
of these numbers are.
-/
namespace ScriptedActors.Json

mutual
def depth : Json → Nat
  | .array items => itemDepth items + 1
  | .object members => memberDepth members + 1
  | _ => 0

def itemDepth : List Json → Nat
  | [] => 0
  | item :: items => max item.depth (itemDepth items)

def memberDepth : List (String × Json) → Nat
  | [] => 0
  | (_, value) :: members => max value.depth (memberDepth members)
end

mutual
/-- What a value is read as once it was written, unless a number is too large. -/
def reread : Json → Option Json
  | .string s => some (.string s)
  | .array items => (rereadItems items).map .array
  | .object members => (rereadMembers members).map .object
  | leaf => leafValue leaf

def rereadItems : List Json → Option (List Json)
  | [] => some []
  | item :: items => item.reread.bind fun first => (rereadItems items).map (first :: ·)

def rereadMembers : List (String × Json) → Option (List (String × Json))
  | [] => some []
  | (key, value) :: members =>
    value.reread.bind fun first => (rereadMembers members).map ((key, first) :: ·)
end

namespace Reader
variable {ignores : String → Bool}

def run (ignores : String → Bool) (r : Reader) (tokens : List Token) : Option Reader :=
  tokens.foldlM (step ignores) r

theorem run_nil (r : Reader) : r.run ignores [] = some r := rfl

theorem run_cons (r : Reader) (t : Token) (ts : List Token) :
    r.run ignores (t :: ts) = (r.step ignores t).bind fun r' => r'.run ignores ts := rfl

theorem step_value (frames : List Frame) (t : Token) :
    step ignores ⟨frames, .value⟩ t = value ignores frames t := rfl

theorem step_itemOrEnd (frames : List Frame) (t : Token) :
    step ignores ⟨frames, .itemOrEnd⟩ t = (close frames t).or (value ignores frames t) := rfl

theorem step_keyOrEnd (frames : List Frame) (t : Token) :
    step ignores ⟨frames, .keyOrEnd⟩ t = (close frames t).or (key ignores frames t) := rfl

theorem step_key (frames : List Frame) (t : Token) :
    step ignores ⟨frames, .key⟩ t = key ignores frames t := rfl

theorem step_commaOrEnd (frames : List Frame) (t : Token) :
    step ignores ⟨frames, .commaOrEnd⟩ t = (close frames t).or (comma frames t) := rfl

/-- Nothing inside these frames is ignored. -/
def Counted (ignores : String → Bool) (frames : List Frame) : Prop :=
  ∀ inner, isIgnored ignores (inner ++ frames) = false

theorem Counted.cons {frames : List Frame} (h : Counted ignores frames) (frame : Frame) :
    Counted ignores (frame :: frames) := by
  intro inner
  have hinner := h (inner ++ [frame])
  rwa [List.append_assoc] at hinner

theorem counted_false (frames : List Frame) : Counted (fun _ => false) frames := by
  intro inner
  generalize inner ++ frames = all
  induction all with
  | nil => rfl
  | cons frame rest ih =>
    cases rest with
    | nil => cases frame <;> rfl
    | cons next rest => cases frame <;> exact ih

theorem counted_object {before : List (String × Json)} {k : String} (h : ignores k = false) :
    Counted ignores [.object before k] := by
  intro inner
  induction inner with
  | nil => exact h
  | cons frame rest ih =>
    cases rest with
    | nil => cases frame <;> exact ih
    | cons next rest => cases frame <;> exact ih

theorem leaf_of_counted {frames : List Frame} (h : Counted ignores frames) (v : Option Json) :
    leaf ignores frames v = v.map fun w => complete w frames := by
  have hframes : isIgnored ignores frames = false := h []
  cases v with
  | some w => rfl
  | none => rw [leaf, hframes]; rfl

theorem enter_of_depth {frames : List Frame} (h : frames.length < maxDepth) (frame : Frame)
    (expected : Expected) : enter ignores frames frame expected = some ⟨frame :: frames, expected⟩ := by
  rw [enter, if_pos]
  rw [Bool.or_eq_true]
  exact .inl (decide_eq_true h)

theorem close_eq_none {t : Token} (harray : t ≠ .endArray) (hobject : t ≠ .endObject)
    (frames : List Frame) : close frames t = none := by
  unfold close
  split
  · exact absurd rfl harray
  · exact absurd rfl hobject
  · rfl

theorem close_comma (frames : List Frame) : close frames .comma = none :=
  close_eq_none (t := .comma) nofun nofun frames

theorem close_string (s : Option String) (frames : List Frame) : close frames (.string s) = none :=
  close_eq_none (t := .string s) nofun nofun frames

theorem exists_tokens (v : Json) :
    ∃ t ts, v.tokens = t :: ts ∧ ∀ frames, close frames t = none := by
  cases v with
  | string s => exact ⟨_, _, rfl, close_string _⟩
  | array items => exact ⟨_, _, rfl, close_eq_none nofun nofun⟩
  | object members => exact ⟨_, _, rfl, close_eq_none nofun nofun⟩
  | null => exact ⟨_, _, rfl, close_eq_none nofun nofun⟩
  | bool b => exact ⟨_, _, rfl, close_eq_none nofun nofun⟩
  | int n => exact ⟨_, _, rfl, close_eq_none nofun nofun⟩
  | float x => exact ⟨_, _, rfl, close_eq_none nofun nofun⟩
  | float32 x => exact ⟨_, _, rfl, close_eq_none nofun nofun⟩

theorem run_itemOrEnd {t : Token} (h : ∀ frames, close frames t = none) (frames : List Frame)
    (ts : List Token) :
    (⟨frames, .itemOrEnd⟩ : Reader).run ignores (t :: ts) =
      (⟨frames, .value⟩ : Reader).run ignores (t :: ts) := by
  rw [run_cons, run_cons, step_itemOrEnd, step_value, h, Option.none_or]

theorem run_keyOrEnd (s : Option String) (frames : List Frame) (ts : List Token) :
    (⟨frames, .keyOrEnd⟩ : Reader).run ignores (.string s :: ts) =
      (⟨frames, .key⟩ : Reader).run ignores (.string s :: ts) := by
  rw [run_cons, run_cons, step_keyOrEnd, step_key, close_string, Option.none_or]

theorem run_key (before : List (String × Json)) (last k : String) (frames : List Frame)
    (ts : List Token) :
    (⟨.object before last :: frames, .key⟩ : Reader).run ignores (.string (some k) :: .colon :: ts) =
      (⟨.object before k :: frames, .value⟩ : Reader).run ignores ts := rfl

theorem intercalate_comma (first : List Token) (others : List (List Token)) (hne : others ≠ []) :
    [Token.comma].intercalate (first :: others) =
      first ++ .comma :: [Token.comma].intercalate others := by
  obtain ⟨second, more, rfl⟩ := List.exists_cons_of_ne_nil hne
  rw [List.intercalate_cons_cons, List.append_assoc]
  rfl

theorem exists_intercalate_cons (t : Token) (ts : List Token) (others : List (List Token))
    (rest : List Token) :
    ∃ more, [Token.comma].intercalate ((t :: ts) :: others) ++ rest = t :: more := by
  cases others with
  | nil => exact ⟨_, rfl⟩
  | cons second others => exact ⟨_, by rw [List.intercalate_cons_cons]; rfl⟩

theorem itemTokens_ne_nil {items : List Json} (h : items ≠ []) : itemTokens items ≠ [] := by
  cases items with
  | nil => exact absurd rfl h
  | cons item items => exact List.cons_ne_nil _ _

theorem memberTokens_ne_nil {members : List (String × Json)} (h : members ≠ []) :
    memberTokens members ≠ [] := by
  cases members with
  | nil => exact absurd rfl h
  | cons member members => exact List.cons_ne_nil _ _

theorem run_object {members : List (String × Json)} {frames : List Frame} {rest : List Token}
    (hdepth : frames.length < maxDepth)
    (hmembers : members ≠ [] → (⟨.object [] "" :: frames, .key⟩ : Reader).run ignores
        ([Token.comma].intercalate (memberTokens members) ++ .endObject :: rest) =
      (rereadMembers members).bind fun ws => (complete (.object ws) frames).run ignores rest) :
    (⟨frames, .value⟩ : Reader).run ignores ((object members).tokens ++ rest) =
      (object members).reread.bind fun w => (complete w frames).run ignores rest := by
  rw [tokens, List.cons_append, run_cons, step_value, value, enter_of_depth hdepth,
    Option.bind_some, List.append_assoc, reread, Option.bind_map]
  cases members with
  | nil => rfl
  | cons member members =>
    obtain ⟨more, hmore⟩ := exists_intercalate_cons (.string (some member.1))
      (.colon :: member.2.tokens) (memberTokens members) ([.endObject] ++ rest)
    rw [memberTokens, hmore, run_keyOrEnd, ← hmore]
    exact hmembers (List.cons_ne_nil _ _)

mutual
/-- The tokens of a value put what it is read as in its place. -/
theorem run_tokens (v : Json) (frames : List Frame) (rest : List Token) (hcounted : Counted ignores frames)
    (hdepth : frames.length + v.depth ≤ maxDepth) :
    (⟨frames, .value⟩ : Reader).run ignores (v.tokens ++ rest) =
      v.reread.bind fun w => (complete w frames).run ignores rest := by
  have hleaf : ∀ w : Option Json, (⟨frames, .value⟩ : Reader).run ignores (.scalar w :: rest) =
      w.bind fun w => (complete w frames).run ignores rest := by
    intro w
    rw [run_cons, step_value, value, leaf_of_counted hcounted, Option.bind_map]
    rfl
  cases v with
  | string s =>
    rw [tokens, List.singleton_append, run_cons, step_value, value, leaf_of_counted hcounted]
    rfl
  | array items =>
    rw [depth] at hdepth
    rw [tokens, List.cons_append, run_cons, step_value, value, enter_of_depth (by omega),
      Option.bind_some, List.append_assoc, reread, Option.bind_map]
    cases items with
    | nil => rfl
    | cons item items =>
      obtain ⟨t, ts, htokens, hclose⟩ := exists_tokens item
      have hitems := run_items (item :: items) (List.cons_ne_nil _ _) [] frames rest hcounted (by omega)
      obtain ⟨more, hmore⟩ := exists_intercalate_cons t ts (itemTokens items) ([.endArray] ++ rest)
      rw [← htokens] at hmore
      rw [itemTokens, hmore, run_itemOrEnd hclose, ← hmore]
      exact hitems
  | object members =>
    rw [depth] at hdepth
    exact run_object (by omega) fun hne => run_members members hne [] "" frames rest
      (fun before member _ => hcounted.cons (.object before member.1)) (by omega)
  | null => exact hleaf _
  | bool b => exact hleaf _
  | int n => exact hleaf _
  | float x => exact hleaf _
  | float32 x => exact hleaf _

theorem run_items (items : List Json) (hne : items ≠ []) (before : List Json) (frames : List Frame)
    (rest : List Token) (hcounted : Counted ignores frames)
    (hdepth : frames.length + (itemDepth items + 1) ≤ maxDepth) :
    (⟨.array before :: frames, .value⟩ : Reader).run ignores
        ([Token.comma].intercalate (itemTokens items) ++ .endArray :: rest) =
      (rereadItems items).bind fun ws =>
        (complete (.array (before.reverse ++ ws)) frames).run ignores rest := by
  cases items with
  | nil => exact absurd rfl hne
  | cons item items =>
    rw [itemDepth] at hdepth
    have hitem := fun more => run_tokens item (.array before :: frames) more (hcounted.cons _)
      (by rw [List.length_cons]; omega)
    by_cases hlast : items = []
    · subst hlast
      rw [itemTokens, itemTokens, List.intercalate_singleton, hitem, rereadItems, Option.bind_assoc]
      congr 1
      funext w
      simp [complete, run_cons, step, close, rereadItems]
    · have hmore := fun w => run_items items hlast (w :: before) frames rest hcounted (by omega)
      rw [itemTokens, intercalate_comma _ _ (itemTokens_ne_nil hlast), List.append_assoc, hitem,
        rereadItems, Option.bind_assoc]
      congr 1
      funext w
      rw [Option.bind_map, List.cons_append, run_cons, complete, step_commaOrEnd,
        close_comma, Option.none_or, comma, Option.bind_some, hmore]
      simp

theorem run_members (members : List (String × Json)) (hne : members ≠ []) (before : List (String × Json))
    (last : String) (frames : List Frame) (rest : List Token)
    (hcounted : ∀ before, ∀ member ∈ members, Counted ignores (.object before member.1 :: frames))
    (hdepth : frames.length + (memberDepth members + 1) ≤ maxDepth) :
    (⟨.object before last :: frames, .key⟩ : Reader).run ignores
        ([Token.comma].intercalate (memberTokens members) ++ .endObject :: rest) =
      (rereadMembers members).bind fun ws =>
        (complete (.object (before.reverse ++ ws)) frames).run ignores rest := by
  cases members with
  | nil => exact absurd rfl hne
  | cons member members =>
    obtain ⟨k, v⟩ := member
    rw [memberDepth] at hdepth
    have hvalue := fun more => run_tokens v (.object before k :: frames) more
      (hcounted before (k, v) List.mem_cons_self) (by rw [List.length_cons]; omega)
    by_cases hlast : members = []
    · subst hlast
      rw [memberTokens, memberTokens, List.intercalate_singleton, List.cons_append, List.cons_append,
        run_key, hvalue, rereadMembers, Option.bind_assoc]
      congr 1
      funext w
      simp [complete, run_cons, step, close, rereadMembers]
    · have hmore := fun w => run_members members hlast ((k, w) :: before) k frames rest
        (fun others next hnext => hcounted others next (List.mem_cons_of_mem _ hnext)) (by omega)
      rw [memberTokens, intercalate_comma _ _ (memberTokens_ne_nil hlast), List.append_assoc,
        List.cons_append, List.cons_append, run_key, hvalue, rereadMembers, Option.bind_assoc]
      congr 1
      funext w
      rw [Option.bind_map, List.cons_append, run_cons, complete, step_commaOrEnd, close_comma,
        Option.none_or, comma, Option.bind_some, hmore]
      simp
end

end Reader

theorem ofTokens?_of_run {ignores : String → Bool} {v : Json}
    (h : (⟨[], .value⟩ : Reader).run ignores (v.tokens ++ []) =
      v.reread.bind fun w => (Reader.complete w []).run ignores []) :
    ofTokens? ignores v.tokens = v.reread := by
  rw [List.append_nil] at h
  rw [ofTokens?]
  change (Reader.run ignores ⟨[], .value⟩ v.tokens).bind Reader.finish = v.reread
  rw [h, Option.bind_assoc]
  cases v.reread with
  | none => rfl
  | some w => rfl

theorem ofTokens?_tokens (v : Json) (h : v.depth ≤ maxDepth) :
    ofTokens? (fun _ => false) v.tokens = v.reread :=
  ofTokens?_of_run (Reader.run_tokens v [] [] (Reader.counted_false [])
    (by rw [List.length_nil]; omega))

theorem ofTokens?_object {ignores : String → Bool} {members : List (String × Json)}
    (hcounted : ∀ member ∈ members, ignores member.1 = false) (h : (object members).depth ≤ maxDepth) :
    ofTokens? ignores (object members).tokens = (object members).reread := by
  rw [depth] at h
  exact ofTokens?_of_run (Reader.run_object (by decide) fun hne =>
    Reader.run_members members hne [] "" [] []
      (fun before member hmember => Reader.counted_object (hcounted member hmember))
      (by rw [List.length_nil]; omega))

/-- A value that is not nested too deep is written and read again. -/
theorem read?_compact (v : Json) (h : v.depth ≤ maxDepth) : read? v.compact = v.reread := by
  rw [read?, (lexes_compact v).tokens?, Option.bind_some, ofTokens?_tokens v h]

theorem read?_scalar {cs : List Char} {value : Option Json} (h : IsScalarText cs)
    (hread : readScalar cs = some value) : read? (String.ofList cs) = value := by
  rw [read?, String.toList_ofList, (Lexes.scalar h hread).tokens?, Option.bind_some, ofTokens?]
  change (Reader.run (fun _ => false) ⟨[], .value⟩ [.scalar value]).bind Reader.finish = value
  rw [Reader.run_cons, Reader.step_value, Reader.value,
    Reader.leaf_of_counted (Reader.counted_false [])]
  cases value with
  | none => rfl
  | some v => rfl

mutual
def Every (p : Json → Prop) : Json → Prop
  | .array items => p (.array items) ∧ EveryItem p items
  | .object members => p (.object members) ∧ EveryMember p members
  | leaf => p leaf

def EveryItem (p : Json → Prop) : List Json → Prop
  | [] => True
  | item :: items => item.Every p ∧ EveryItem p items

def EveryMember (p : Json → Prop) : List (String × Json) → Prop
  | [] => True
  | (_, value) :: members => value.Every p ∧ EveryMember p members
end

variable {p q : Json → Prop}

mutual
theorem Every.imp (h : ∀ v, p v → q v) {v : Json} (hv : v.Every p) : v.Every q := by
  cases v with
  | array items => exact ⟨h _ hv.1, EveryItem.imp h hv.2⟩
  | object members => exact ⟨h _ hv.1, EveryMember.imp h hv.2⟩
  | null => exact h _ hv
  | bool b => exact h _ hv
  | int n => exact h _ hv
  | float x => exact h _ hv
  | float32 x => exact h _ hv
  | string s => exact h _ hv

theorem EveryItem.imp (h : ∀ v, p v → q v) {items : List Json} (hitems : EveryItem p items) :
    EveryItem q items := by
  cases items with
  | nil => trivial
  | cons item items => exact ⟨Every.imp h hitems.1, EveryItem.imp h hitems.2⟩

theorem EveryMember.imp (h : ∀ v, p v → q v) {members : List (String × Json)}
    (hmembers : EveryMember p members) : EveryMember q members := by
  cases members with
  | nil => trivial
  | cons member members => exact ⟨Every.imp h hmembers.1, EveryMember.imp h hmembers.2⟩
end

/-- A value that a text can hold: whole numbers have 64 bits, and no number has half the width. -/
def IsReadable : Json → Prop
  | .int n => IsWord n
  | .float32 _ => False
  | _ => True

def ReadsBack : Json → Prop
  | .float x => read? (Json.float x).compact = some (.float x)
  | _ => True

mutual
theorem reread_eq_self_iff {v : Json} (h : v.Every IsReadable) :
    v.reread = some v ↔ v.Every ReadsBack := by
  cases v with
  | null =>
    have hread : null.reread = some .null := rfl
    exact ⟨fun _ => trivial, fun _ => hread⟩
  | bool b =>
    have hread : (Json.bool b).reread = some (.bool b) := by cases b <;> rfl
    exact ⟨fun _ => trivial, fun _ => hread⟩
  | int n => exact ⟨fun _ => trivial, fun _ => leafValue_int h⟩
  | float x =>
    have hread := read?_compact (.float x) (Nat.zero_le maxDepth)
    rw [← hread]
    rfl
  | float32 x => exact h.elim
  | string s => exact ⟨fun _ => trivial, fun _ => rfl⟩
  | array items =>
    have hitems := rereadItems_eq_self_iff h.2
    simp only [reread, Option.map_eq_some_iff, array.injEq, exists_eq_right, Every, ReadsBack, true_and]
    exact hitems
  | object members =>
    have hmembers := rereadMembers_eq_self_iff h.2
    simp only [reread, Option.map_eq_some_iff, object.injEq, exists_eq_right, Every, ReadsBack, true_and]
    exact hmembers

theorem rereadItems_eq_self_iff {items : List Json} (h : EveryItem IsReadable items) :
    rereadItems items = some items ↔ EveryItem ReadsBack items := by
  cases items with
  | nil => exact ⟨fun _ => trivial, fun _ => rfl⟩
  | cons item items =>
    rw [EveryItem, ← reread_eq_self_iff h.1, ← rereadItems_eq_self_iff h.2, rereadItems]
    cases item.reread <;> cases rereadItems items <;> simp

theorem rereadMembers_eq_self_iff {members : List (String × Json)} (h : EveryMember IsReadable members) :
    rereadMembers members = some members ↔ EveryMember ReadsBack members := by
  cases members with
  | nil => exact ⟨fun _ => trivial, fun _ => rfl⟩
  | cons member members =>
    obtain ⟨key, value⟩ := member
    rw [EveryMember, ← reread_eq_self_iff h.1, ← rereadMembers_eq_self_iff h.2, rereadMembers]
    cases value.reread <;> cases rereadMembers members <;> simp
end

/-- A value is read as it was written exactly if all its numbers are. -/
theorem read?_compact_eq_self_iff {v : Json} (hdepth : v.depth ≤ maxDepth) (h : v.Every IsReadable) :
    read? v.compact = some v ↔ v.Every ReadsBack := by
  rw [read?_compact v hdepth]
  exact reread_eq_self_iff h

end ScriptedActors.Json
