import ScriptedActors.Proofs.Statement.Rendering

set_option autoImplicit false

/-!
# Parsing is a retraction onto the statements of actions

Every statement that is parsed asks for an action that has a statement of its own. That statement
is parsed to the same action unless a metadata value holds a number that is not read as it is
written, such as `9.999999999999999e-31`.
-/
namespace ScriptedActors
open Text Reading

namespace Production

/-- Tokens that could have been read give only actions that have a statement. -/
def Keeps (production : Production) : Prop :=
  ∀ tokens a, (∀ t ∈ tokens, t.WellFormed) → production tokens a → a.Canonical

theorem keeps_bare {a : Action} (h : a.Canonical) : Keeps (Bare a) := by
  rintro _ _ - ⟨⟩
  exact h

theorem keeps_one {make : String → Action} (h : ∀ text, (make text).Canonical) : Keeps (One make) := by
  rintro _ _ - ⟨t⟩
  exact h t.text

theorem keeps_rest {make : String → Action} (h : ∀ text, (make text).Canonical) : Keeps (Rest make) := by
  rintro _ _ - ⟨_, -⟩
  exact h _

theorem keeps_place {make : Location → Action} (h : ∀ l : Location, l.Printable → (make l).Canonical) :
    Keeps (Place make) := by
  rintro _ _ - ⟨t, l, hl⟩
  exact h l (Location.printable_of_ofText hl)

theorem keeps_collection {make : CollectionOp → String → Action}
    (h : ∀ op text, (make op text).Canonical) : Keeps (Collection make) := by
  rintro _ _ - ⟨op, word, t, -⟩
  exact h op t.text

theorem keeps_wait : Keeps Wait := by
  rintro _ _ - ⟨⟩
  trivial

theorem keeps_set : Keeps Set := by
  rintro _ _ - ⟨⟩
  trivial

theorem keeps_check : Keeps Check := by
  rintro _ _ - ⟨⟩
  trivial

theorem keeps_select : Keeps Select := by
  rintro _ _ - ⟨⟩ <;> trivial

theorem keeps_create : Keeps Create := by
  rintro _ _ - ⟨id, kind, place, l, hl⟩
  exact Location.printable_of_ofText hl

theorem keeps_look : Keeps Look := by
  rintro _ _ - (⟨t, l, -, hl⟩ | ⟨word, t, l, -, hl⟩)
  · exact Location.printable_of_ofText hl
  · exact Location.printable_of_ofText hl

theorem keeps_tag : Keeps Tag := by
  rintro _ _ - ⟨⟩ <;> trivial

/-- The value of a token is a string, or the token is a word that was read as a plain value. -/
theorem canonical_metadata (key : String) {t : Token} (h : t.WellFormed) :
    (Action.metadata key (metadataValue t)).Canonical := by
  cases t with
  | word text =>
    rw [Action.metadataValue_word h]
    cases hread : Json.read? text with
    | none => exact .inl ⟨text, rfl⟩
    | some v =>
      have hfits := Action.fits_of_read?_bare h hread
      exact .inr ⟨hfits.plain, hfits.depth⟩
  | quoted text => exact .inl ⟨text, rfl⟩
  | block text => exact .inl ⟨text, rfl⟩

theorem keeps_metadata : Keeps Metadata := by
  rintro _ _ htokens (⟨key, value, -⟩ | ⟨key, word, value, -⟩)
  · exact canonical_metadata key.text (htokens value (by simp))
  · exact canonical_metadata key.text (htokens value (by simp))

theorem keeps_event : Keeps Event := by
  rintro _ _ - ⟨⟩ <;> trivial

theorem keeps_listen : Keeps Listen := by
  rintro _ _ htokens ⟨event, body⟩
  exact htokens (.block body) (by simp)

theorem keeps_command : Keeps Command := by
  rintro _ _ - ⟨⟩ <;> trivial

theorem keeps_of_mem : ∀ entry ∈ ofKeyword, Keeps entry.2 := by
  unfold ofKeyword
  simp only [List.forall_mem_cons]
  exact ⟨keeps_rest fun _ => trivial, keeps_wait, keeps_one fun _ => trivial, keeps_set,
    keeps_one fun _ => trivial, keeps_one fun _ => trivial, keeps_check, keeps_bare trivial,
    keeps_bare trivial, keeps_bare trivial, keeps_bare trivial, keeps_bare trivial, keeps_bare trivial,
    keeps_bare trivial, keeps_bare trivial, keeps_select, keeps_select, keeps_create, keeps_look,
    keeps_place fun _ h => h, keeps_place fun _ h => h, keeps_tag, keeps_metadata,
    keeps_one fun _ => trivial, keeps_collection fun _ _ => trivial, keeps_collection fun _ _ => trivial,
    keeps_collection fun _ _ => trivial, keeps_event, keeps_listen, keeps_command, keeps_bare trivial,
    keeps_one fun _ => trivial, keeps_rest fun _ => trivial, by simp⟩

end Production

namespace ActionTable

theorem production_of_mem {name : String} {reading : Reading Action} (h : (name, reading) ∈ vocabulary) :
    ∃ production, (name, production) ∈ Production.ofKeyword := by
  have hnames : vocabulary.map Prod.fst = Production.ofKeyword.map Prod.fst := rfl
  have hmem : name ∈ Production.ofKeyword.map Prod.fst := by
    rw [← hnames]
    exact List.mem_map_of_mem h
  obtain ⟨⟨_, production⟩, hproduction, rfl⟩ := List.mem_map.mp hmem
  exact ⟨production, hproduction⟩

theorem exists_production_of_parse {statement : String} {a : Action} (h : builtin.parse statement = .ok a) :
    ∃ name production arguments, (name, production) ∈ Production.ofKeyword ∧
      (∀ t ∈ arguments, t.WellFormed) ∧ production arguments a := by
  rw [parse] at h
  split at h
  · cases h
  · rename_i tokens hscan
    have hwellFormed := Token.wellFormed_of_scan hscan
    cases tokens with
    | nil => cases h
    | cons first arguments =>
      cases first with
      | quoted text => cases h
      | block text => cases h
      | word keyword =>
        have hresolve := h
        rw [parseTokens] at hresolve
        split at hresolve
        · cases hresolve
        · rename_i reading hreading
          obtain ⟨name, hmem, hname⟩ := (resolveAction_eq_ok keyword reading).mp hreading
          obtain ⟨production, hproduction⟩ := production_of_mem hmem
          exact ⟨name, production, arguments, hproduction,
            fun t ht => hwellFormed t (List.mem_cons_of_mem _ ht),
            (parseTokens_eq_ok_iff keyword name production arguments a hproduction hname).mp h⟩

theorem canonical_of_parse {statement : String} {a : Action} (h : builtin.parse statement = .ok a) :
    a.Canonical := by
  obtain ⟨name, production, arguments, hmem, harguments, hproduction⟩ := exists_production_of_parse h
  exact Production.keeps_of_mem _ hmem arguments a harguments hproduction

theorem parse_retracts :
    (∀ a : Action, a.Canonical → (builtin.parse a.render = .ok a ↔ a.FloatsReadBack)) ∧
      ∀ statement a, builtin.parse statement = .ok a →
        a.Canonical ∧ (builtin.parse a.render = .ok a ↔ a.FloatsReadBack) := by
  constructor
  · intro a ha
    exact Action.parse_render_iff ha
  · intro statement a h
    have ha := canonical_of_parse h
    exact ⟨ha, Action.parse_render_iff ha⟩

theorem parse_render_array :
    builtin.parse (Action.metadata "k" (.array [.int 1, .null])).render =
        .ok (.metadata "k" (.array [.int 1, .null])) ∧
      builtin.parse "log  hi" = .ok (.log "hi") ∧ builtin.parse (Action.log "hi").render = .ok (.log "hi") := by
  have hone : Json.IsWord 1 := by decide
  have hplain : (Json.array [.int 1, .null]).Every Json.IsPlain := ⟨trivial, hone, trivial, trivial⟩
  have hcanonical : (Action.metadata "k" (.array [.int 1, .null])).Canonical := .inr ⟨hplain, by decide⟩
  have hparse : builtin.parse "log  hi" = .ok (.log "hi") := rfl
  refine ⟨(parse_retracts.1 _ hcanonical).mpr ⟨trivial, trivial, trivial, trivial⟩, hparse, ?_⟩
  exact (parse_retracts.2 _ _ hparse).2.mpr trivial

theorem value_of_small (t : Json.NumberText) (kept : Json.Kept) (e : Nat) {x : Float}
    (hint : t.toInt = none)
    (hkept : Json.Kept.fraction (Json.Kept.whole ⟨0, 0⟩ t.whole) (t.fraction.getD []) = kept)
    (hscale : kept.scale + t.exponent.getD 0 = -(e : Int)) (hpos : 0 < e) (hbound : e ≤ 308)
    (hsign : t.negative = false) (hx : (Float.ofNat kept.digits / Json.powerOfTen e).toModel = x.toModel) :
    t.value = some (.float x) := by
  have hneg : -(e : Int) < 0 := by omega
  have hdown : Json.scaleDown (Float.ofNat kept.digits) e = x := by
    rw [Json.scaleDown, if_pos hbound]
    exact congrArg Float.ofModel hx
  rw [Json.NumberText.value, hint, Json.NumberText.toFloat]
  simp only [hkept, hscale, Json.scale, hneg, if_true, Int.natAbs_neg, Int.natAbs_natCast, hdown, hsign,
    Bool.false_eq_true, if_false, Option.map_some]

theorem read?_small {text : String} {whole rest : List Char} {t : Json.NumberText} {x : Float}
    (h : Json.IsWhole whole) (htext : text.toList = whole ++ rest)
    (hscalar : ∀ c ∈ text.toList, Json.isScalar c = true)
    (hread : Json.NumberText.read text.toList = some t) (hvalue : t.value = some (.float x)) :
    Json.read? text = some (.float x) := by
  have hnumber : Json.readScalar (whole ++ rest) = (Json.NumberText.read (whole ++ rest)).map _ :=
    Json.readScalar_number (s := .positive) h
  rw [← htext, hread, Option.map_some, hvalue] at hnumber
  have hresult := Json.read?_scalar (.of_number hscalar (by rw [hread]; rfl)) hnumber
  rwa [String.ofList_toList] at hresult

theorem metadata_mem : ("meta", Production.Metadata) ∈ Production.ofKeyword :=
  Action.production_mem (.metadata "" .null)

theorem parse_metadata_word (statement key : String) {text : String} {v : Json}
    (hscan : Token.scan statement = .ok [.word "meta", .word key, .word text])
    (hvalue : isWord "to" (.word text) = false) (hread : Json.read? text = some v) (h : Token.IsBare text.toList) :
    builtin.parse statement = .ok (.metadata key v) := by
  have hplain := Production.Metadata.plain (.word key) (.word text) hvalue
  rw [Action.metadataValue_word h, hread, Option.getD_some] at hplain
  rw [parse_of_scan _ hscan, parseTokens_eq_ok_iff _ _ _ _ _ metadata_mem (sameName_refl _)]
  exact hplain

/-- A number in a metadata value is parsed as its text is read. -/
theorem parse_render_float {key : String} {x y : Float}
    (hread : Json.read? (Json.float x).compact = some (.float y)) :
    builtin.parse (Action.metadata key (.float x)).render = .ok (.metadata key (.float y)) := by
  have hplain : (Json.float x).Every Json.IsPlain := trivial
  have hcanonical : (Action.metadata key (.float x)).Canonical := .inr ⟨hplain, Nat.zero_le _⟩
  have hto := Production.Metadata.withTo (.quoted key) (.word "to") (.word (Json.float x).compact) (by decide)
  rw [Action.metadataValue_word (Action.isBare_compact hplain), hread, Option.getD_some] at hto
  rw [parse_of_scan _ (Action.scan_render hcanonical)]
  exact (parseTokens_eq_ok_iff "meta" "meta" _ _ _ metadata_mem (sameName_refl _)).mpr hto

theorem read?_small_number : Json.read? "1e-30" = some (.float (Float.ofBits 0x39b4484bfeebc29f)) := by
  have hparts : Json.NumberText.read "1e-30".toList = some ⟨false, [1], none, some (-30)⟩ := rfl
  have hwhole : Json.IsWhole ['1'] := ⟨List.all_eq_true.mp rfl, rfl⟩
  refine read?_small hwhole (show "1e-30".toList = ['1'] ++ "e-30".toList by decide) (List.all_eq_true.mp rfl) hparts ?_
  exact value_of_small _ ⟨1, 0⟩ 30 (by decide) rfl (by decide) (by decide) (by decide) rfl (by decide +kernel)

theorem read?_compact_small_number :
    Json.read? (Json.float (Float.ofBits 0x39b4484bfeebc29f)).compact =
      some (.float (Float.ofBits 0x39b4484bfeebc2a0)) := by
  have hcompact : (Json.float (Float.ofBits 0x39b4484bfeebc29f)).compact = "9.999999999999999e-31" := by
    decide +kernel
  have hparts : Json.NumberText.read "9.999999999999999e-31".toList =
    some ⟨false, [9], some [9, 9, 9, 9, 9, 9, 9, 9, 9, 9, 9, 9, 9, 9, 9], some (-31)⟩ := rfl
  have hwhole : Json.IsWhole ['9'] := ⟨List.all_eq_true.mp rfl, rfl⟩
  have hread : Json.read? "9.999999999999999e-31" = some (.float (Float.ofBits 0x39b4484bfeebc2a0)) := by
    refine read?_small hwhole (show "9.999999999999999e-31".toList = ['9'] ++ ".999999999999999e-31".toList by
      decide) (List.all_eq_true.mp rfl) hparts ?_
    exact value_of_small _ ⟨9999999999999999, -15⟩ 46 (by decide) rfl (by decide) (by decide) (by decide) rfl
      (by decide +kernel)
  exact (congrArg Json.read? hcompact).trans hread

/-- Some of the numbers that a text holds lose their last place when they are written and read again. -/
theorem parse_render_small_number : ∃ a, builtin.parse "meta k 1e-30" = .ok a ∧ a.Canonical ∧
    builtin.parse a.render ≠ .ok a := by
  have hparse := parse_metadata_word "meta k 1e-30" "k" (by decide) (by decide)
    read?_small_number (Action.isBare_of_isBareText rfl)
  refine ⟨_, hparse, canonical_of_parse hparse, ?_⟩
  rw [parse_render_float read?_compact_small_number]
  intro heq
  injection heq with haction
  injection haction with _ hvalue
  injection hvalue with hfloat
  have hbits := congrArg Float.toBits hfloat
  revert hbits
  decide +kernel

end ActionTable
end ScriptedActors
