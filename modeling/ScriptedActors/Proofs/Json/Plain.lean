import ScriptedActors.Proofs.Json.Reading
import ScriptedActors.Proofs.Text.Pieces

set_option autoImplicit false

/-!
# Values without strings and objects

A text without quotation marks and opening braces is read as such a value if it is read at all, and
every such value is written as a text of this kind, without blanks.
-/
namespace ScriptedActors.Json

/-- Neither a string nor an object, and a whole number has 64 bits. -/
def IsPlain : Json → Prop
  | .null | .bool _ | .float _ | .array _ => True
  | .int n => IsWord n
  | .float32 _ | .string _ | .object _ => False

theorem isReadable_of_isPlain (v : Json) (h : v.IsPlain) : v.IsReadable := by
  cases v with
  | int n => exact h
  | float32 x => exact h.elim
  | null => trivial
  | bool b => trivial
  | float x => trivial
  | string s => trivial
  | array items => trivial
  | object members => trivial

theorem everyItem_iff {p : Json → Prop} {items : List Json} :
    EveryItem p items ↔ ∀ item ∈ items, item.Every p := by
  induction items with
  | nil => simp [EveryItem]
  | cons item items ih => rw [EveryItem, ih, List.forall_mem_cons]

theorem itemDepth_le_iff {items : List Json} {bound : Nat} :
    itemDepth items ≤ bound ↔ ∀ item ∈ items, item.depth ≤ bound := by
  induction items with
  | nil => simp [itemDepth]
  | cons item items ih => rw [itemDepth, Nat.max_le, ih, List.forall_mem_cons]

/-- A value that fits inside some open arrays. -/
structure Fits (v : Json) (outer : Nat) : Prop where
  plain : v.Every IsPlain
  depth : v.depth + outer ≤ maxDepth

theorem NumberText.isWord_of_toInt {t : NumberText} {n : Int} (h : t.toInt = some n) : IsWord n := by
  unfold toInt at h
  generalize t.whole.foldl (fun n d => n * 10 + d) 0 = m at h
  dsimp only at h
  rw [IsWord]
  split at h
  · cases h
  · split at h
    · split at h
      · rename_i hbits
        cases h
        simp only [Bool.and_eq_true, decide_eq_true_eq] at hbits
        omega
      · cases h
    · split at h
      · cases h
        omega
      · cases h

theorem NumberText.isPlain_value {t : NumberText} {v : Json} (h : t.value = some v) :
    v.Every IsPlain ∧ v.depth = 0 := by
  rw [NumberText.value] at h
  split at h
  · rename_i n hn
    cases h
    exact ⟨t.isWord_of_toInt hn, rfl⟩
  · obtain ⟨x, -, rfl⟩ := Option.map_eq_some_iff.mp h
    exact ⟨trivial, rfl⟩

theorem isPlain_of_readScalar {cs : List Char} {v : Json} (h : readScalar cs = some (some v)) :
    v.Every IsPlain ∧ v.depth = 0 := by
  rw [readScalar] at h
  split at h
  · cases h
    exact ⟨trivial, rfl⟩
  · split at h
    · cases h
      exact ⟨trivial, rfl⟩
    · split at h
      · cases h
        exact ⟨trivial, rfl⟩
      · obtain ⟨t, -, ht⟩ := Option.map_eq_some_iff.mp h
        exact t.isPlain_value ht

namespace Token

def IsPlain : Token → Prop
  | .scalar value => ∀ v ∈ value, v.Every Json.IsPlain ∧ v.depth = 0
  | .string _ | .beginObject => False
  | _ => True

end Token

namespace Lexer

def IsPlain (l : Lexer) : Prop :=
  (∀ t ∈ l.tokens, t.IsPlain) ∧
    match l.mode with
    | .between | .scalar _ | .failed => True
    | _ => False

theorem isPlain_start {tokens : List Token} (h : ∀ t ∈ tokens, t.IsPlain) {c : Char} (hquote : c ≠ '"')
    (hbrace : c ≠ '\x7b') : (start tokens c).IsPlain := by
  have hcons : ∀ t : Token, t.IsPlain → ∀ u ∈ t :: tokens, u.IsPlain := fun t ht =>
    List.forall_mem_cons.mpr ⟨ht, h⟩
  simp only [start, hquote, hbrace, if_false]
  split
  · exact ⟨h, trivial⟩
  · split
    · exact ⟨hcons .beginArray trivial, trivial⟩
    · split
      · exact ⟨hcons .endArray trivial, trivial⟩
      · split
        · exact ⟨hcons .endObject trivial, trivial⟩
        · split
          · exact ⟨hcons .comma trivial, trivial⟩
          · split
            · exact ⟨hcons .colon trivial, trivial⟩
            · split
              · exact ⟨h, trivial⟩
              · exact ⟨h, trivial⟩

theorem isPlain_endScalar {tokens ended : List Token} {text : List Char} (h : ∀ t ∈ tokens, t.IsPlain)
    (hended : endScalar tokens text = some ended) : ∀ t ∈ ended, t.IsPlain := by
  obtain ⟨value, hvalue, rfl⟩ := Option.map_eq_some_iff.mp hended
  refine List.forall_mem_cons.mpr ⟨?_, h⟩
  rintro v rfl
  exact isPlain_of_readScalar hvalue

theorem isPlain_step {l : Lexer} (h : l.IsPlain) {c : Char} (hquote : c ≠ '"') (hbrace : c ≠ '\x7b') :
    (l.step c).IsPlain := by
  obtain ⟨tokens, mode⟩ := l
  obtain ⟨htokens, hmode⟩ := h
  cases mode with
  | between => exact isPlain_start htokens hquote hbrace
  | scalar text =>
    simp only [step]
    split
    · exact ⟨htokens, trivial⟩
    · split
      · rename_i ended hended
        exact isPlain_start (isPlain_endScalar htokens hended) hquote hbrace
      · exact ⟨htokens, trivial⟩
  | failed => exact ⟨htokens, trivial⟩
  | string text => exact hmode.elim
  | escape text => exact hmode.elim
  | code text value digits first => exact hmode.elim
  | awaitEscape text first => exact hmode.elim
  | awaitCode text first => exact hmode.elim

theorem isPlain_run {l : Lexer} (h : l.IsPlain) {cs : List Char} (hquote : '"' ∉ cs)
    (hbrace : '\x7b' ∉ cs) : (l.run cs).IsPlain := by
  induction cs generalizing l with
  | nil => exact h
  | cons c cs ih =>
    rw [List.mem_cons, not_or] at hquote hbrace
    exact ih (isPlain_step h (Ne.symm hquote.1) (Ne.symm hbrace.1)) hquote.2 hbrace.2

end Lexer

/-- A text without quotation marks and opening braces has plain tokens. -/
theorem isPlain_of_tokens? {cs : List Char} (hquote : '"' ∉ cs) (hbrace : '\x7b' ∉ cs)
    {tokens : List Token} (h : tokens? cs = some tokens) : ∀ t ∈ tokens, t.IsPlain := by
  have hrun : ((⟨[], .between⟩ : Lexer).run cs).IsPlain :=
    Lexer.isPlain_run ⟨by simp, trivial⟩ hquote hbrace
  change ((⟨[], .between⟩ : Lexer).run cs).finish = some tokens at h
  rw [Lexer.finish_eq] at h
  obtain ⟨ended, hended, rfl⟩ := Option.map_eq_some_iff.mp h
  generalize (⟨[], .between⟩ : Lexer).run cs = l at *
  have hplain : ∀ t ∈ ended, t.IsPlain := by
    obtain ⟨before, mode⟩ := l
    cases mode with
    | between =>
      cases hended
      exact hrun.1
    | scalar text => exact Lexer.isPlain_endScalar hrun.1 hended
    | _ => cases hended
  exact fun t ht => hplain t (List.mem_reverse.mp ht)

namespace Reader

def FramesFit : List Frame → Prop
  | [] => True
  | .array items :: frames =>
    frames.length < maxDepth ∧ (∀ item ∈ items, Fits item (frames.length + 1)) ∧ FramesFit frames
  | .object _ _ :: _ => False

structure Fit (r : Reader) : Prop where
  frames : FramesFit r.frames
  value : ∀ v, r.expected = .nothing v → Fits v 0

theorem fit_complete {v : Json} {frames : List Frame} (hv : Fits v frames.length)
    (h : FramesFit frames) : (complete v frames).Fit := by
  cases frames with
  | nil =>
    refine ⟨trivial, ?_⟩
    rintro w ⟨⟩
    exact hv
  | cons frame frames =>
    cases frame with
    | array items =>
      refine ⟨⟨h.1, List.forall_mem_cons.mpr ⟨hv, h.2.1⟩, h.2.2⟩, ?_⟩
      rintro w ⟨⟩
    | object members key => exact h.elim

theorem fit_value {frames : List Frame} {t : Token} {r : Reader} (h : FramesFit frames)
    (hdepth : frames.length ≤ maxDepth) (ht : t.IsPlain)
    (hr : value (fun _ => false) frames t = some r) : r.Fit := by
  cases t with
  | scalar v =>
    rw [value, leaf_of_counted (counted_false frames)] at hr
    obtain ⟨w, rfl, rfl⟩ := Option.map_eq_some_iff.mp hr
    obtain ⟨hplain, hleaf⟩ := ht w rfl
    exact fit_complete ⟨hplain, by omega⟩ h
  | string s => exact ht.elim
  | beginArray =>
    have hcounted : isIgnored (fun _ => false) frames = false := counted_false frames []
    rw [value, enter, hcounted, Bool.or_false] at hr
    split at hr
    · rename_i hlt
      cases hr
      refine ⟨⟨of_decide_eq_true hlt, by simp, h⟩, ?_⟩
      rintro w ⟨⟩
    · cases hr
  | beginObject => exact ht.elim
  | endArray => cases hr
  | endObject => cases hr
  | comma => cases hr
  | colon => cases hr

theorem fit_close {frames : List Frame} {t : Token} {r : Reader} (h : FramesFit frames)
    (hr : close frames t = some r) : r.Fit := by
  unfold close at hr
  split at hr
  · rename_i items frames
    cases hr
    obtain ⟨hlt, hitems, hframes⟩ := h
    have hdepth : itemDepth items.reverse ≤ maxDepth - (frames.length + 1) := by
      rw [itemDepth_le_iff]
      intro item hitem
      have hfits := (hitems item (List.mem_reverse.mp hitem)).depth
      omega
    refine fit_complete ⟨⟨trivial, everyItem_iff.mpr fun item hitem => ?_⟩, ?_⟩ hframes
    · exact (hitems item (List.mem_reverse.mp hitem)).plain
    · rw [depth]
      omega
  · exact h.elim
  · cases hr

theorem fit_comma {frames : List Frame} {t : Token} {r : Reader} (h : FramesFit frames)
    (hr : comma frames t = some r) : r.Fit := by
  unfold comma at hr
  split at hr
  · cases hr
    refine ⟨h, ?_⟩
    rintro w ⟨⟩
  · exact h.elim
  · cases hr

theorem key_eq_none {ignores : String → Bool} {frames : List Frame} (h : FramesFit frames)
    (t : Token) : key ignores frames t = none := by
  unfold key
  split
  · exact h.elim
  · exact h.elim
  · rfl

theorem fit_step {r r' : Reader} {t : Token} (h : r.Fit) (ht : t.IsPlain)
    (hr : r.step (fun _ => false) t = some r') : r'.Fit := by
  obtain ⟨frames, expected⟩ := r
  have hframes : FramesFit frames := h.frames
  clear h
  have hdepth : frames.length ≤ maxDepth := by
    cases frames with
    | nil => exact Nat.zero_le _
    | cons frame frames =>
      cases frame with
      | array items => exact hframes.1
      | object members key => exact hframes.elim
  cases expected with
  | value => exact fit_value hframes hdepth ht hr
  | itemOrEnd =>
    rcases Option.or_eq_some_iff.mp hr with hclose | ⟨-, hvalue⟩
    · exact fit_close hframes hclose
    · exact fit_value hframes hdepth ht hvalue
  | commaOrEnd =>
    rcases Option.or_eq_some_iff.mp hr with hclose | ⟨-, hcomma⟩
    · exact fit_close hframes hclose
    · exact fit_comma hframes hcomma
  | keyOrEnd =>
    rcases Option.or_eq_some_iff.mp hr with hclose | ⟨-, hkey⟩
    · exact fit_close hframes hclose
    · rw [key_eq_none hframes] at hkey
      cases hkey
  | key =>
    rw [step_key, key_eq_none hframes] at hr
    cases hr
  | colon =>
    unfold step at hr
    dsimp only at hr
    split at hr
    · cases hr
      refine ⟨hframes, ?_⟩
      rintro w ⟨⟩
    · cases hr
  | nothing v => cases hr

theorem fit_run {r r' : Reader} (h : r.Fit) {tokens : List Token} (ht : ∀ t ∈ tokens, t.IsPlain)
    (hr : r.run (fun _ => false) tokens = some r') : r'.Fit := by
  induction tokens generalizing r with
  | nil =>
    cases hr
    exact h
  | cons t ts ih =>
    rw [List.forall_mem_cons] at ht
    obtain ⟨next, hstep, hrest⟩ := Option.bind_eq_some_iff.mp hr
    exact ih (fit_step h ht.1 hstep) ht.2 hrest

end Reader

/-- A text without quotation marks and opening braces is read as a plain value that fits. -/
theorem fits_of_read? {text : String} {v : Json} (hquote : '"' ∉ text.toList)
    (hbrace : '\x7b' ∉ text.toList) (h : read? text = some v) : Fits v 0 := by
  obtain ⟨tokens, htokens, hvalue⟩ := Option.bind_eq_some_iff.mp h
  obtain ⟨r, hr, hfinish⟩ := Option.bind_eq_some_iff.mp hvalue
  have hstart : Reader.Fit ⟨[], .value⟩ := ⟨trivial, nofun⟩
  have hfit := Reader.fit_run hstart (isPlain_of_tokens? hquote hbrace htokens) hr
  unfold Reader.finish at hfinish
  split at hfinish
  · rename_i w hexpected
    cases hfinish
    exact hfit.value v hexpected
  · cases hfinish

def isPlainText (c : Char) : Bool := isScalar c || c == '[' || c == ']' || c == ','

mutual
theorem isPlainText_compact {v : Json} (h : v.Every IsPlain) :
    ∀ c ∈ v.compact.toList, isPlainText c = true := by
  have hleaf : ∀ {w : Json}, IsScalarLeaf w → ∀ c ∈ (leafText w).toList, isPlainText c = true := by
    intro w hw c hc
    rw [isPlainText, (isScalarText_leafText hw).scalar c hc]
    rfl
  cases v with
  | null => exact hleaf (w := .null) trivial
  | bool b => exact hleaf (w := .bool b) trivial
  | int n => exact hleaf (w := .int n) trivial
  | float x => exact hleaf (w := .float x) trivial
  | float32 x => exact h.elim
  | string s => exact h.elim
  | object members => exact h.1.elim
  | array items =>
    have hitems := isPlainText_compactItems h.2
    intro c hc
    rw [compact, String.toList_append, String.toList_append, String.toList_intercalate] at hc
    rcases List.mem_append.mp hc with hc | hc
    · rcases List.mem_append.mp hc with hc | hc
      · rw [List.mem_singleton.mp hc]
        decide
      · obtain hc | ⟨text, htext, hc⟩ := Text.mem_of_mem_intercalate hc
        · rw [List.mem_singleton.mp hc]
          decide
        · exact hitems text htext c hc
    · rw [List.mem_singleton.mp hc]
      decide

theorem isPlainText_compactItems {items : List Json} (h : EveryItem IsPlain items) :
    ∀ text ∈ (compactItems items).map String.toList, ∀ c ∈ text, isPlainText c = true := by
  cases items with
  | nil => simp [compactItems]
  | cons item items =>
    rw [compactItems, List.map_cons, List.forall_mem_cons]
    exact ⟨isPlainText_compact h.1, isPlainText_compactItems h.2⟩
end

end ScriptedActors.Json
