import ScriptedActors.Text.Utf8

set_option autoImplicit false

/-!
# Text as bytes and back

A text that is written as bytes is read as the same characters, and bytes that are read as a text
are the bytes of that text.
-/
namespace ScriptedActors.Text.Utf8

theorem toList_loop (bytes : ByteArray) (i : Nat) (read : List UInt8) :
    ByteArray.toList.loop bytes i read = read.reverse ++ bytes.data.toList.drop i := by
  fun_induction ByteArray.toList.loop bytes i read with
  | case1 i read hlt ih =>
    have hlength : i < bytes.data.toList.length := hlt
    have hget : bytes.get! i = bytes.data.toList[i] := by
      simp [ByteArray.get!, getElem!_pos, hlt]
    rw [ih, List.drop_eq_getElem_cons hlength, List.reverse_cons, List.append_assoc, hget]
    rfl
  | case2 i read hle =>
    have hlength : bytes.data.toList.length ≤ i := Nat.le_of_not_lt hle
    rw [List.drop_eq_nil_of_le hlength, List.append_nil]

theorem toList_toByteArray (bytes : List UInt8) : bytes.toByteArray.toList = bytes := by
  rw [ByteArray.toList, toList_loop, List.drop_zero, List.toList_data_toByteArray]
  rfl

theorem encode_eq (s : String) : encode s = s.toList.flatMap String.utf8EncodeChar := by
  rw [encode, String.toUTF8_eq_toByteArray, ← String.utf8Encode_toList, List.utf8Encode, toList_toByteArray]

theorem continues_iff (b : UInt8) : continues b = true ↔ 128 ≤ b.toNat ∧ b.toNat < 192 := by
  simp only [continues, Bool.and_eq_true, decide_eq_true_eq, UInt8.le_iff_toNat_le, UInt8.reduceToNat]
  omega

theorem secondOfThree_iff (a b : UInt8) : secondOfThree a b = true ↔
    continues b = true ∧ (a.toNat = 224 → 160 ≤ b.toNat) ∧ (a.toNat = 237 → b.toNat < 160) := by
  simp only [secondOfThree, ← UInt8.toNat_inj, continues_iff, UInt8.reduceToNat]
  split
  · simp only [Bool.and_eq_true, decide_eq_true_eq, UInt8.le_iff_toNat_le, UInt8.reduceToNat]
    omega
  · split
    · simp only [Bool.and_eq_true, decide_eq_true_eq, UInt8.le_iff_toNat_le, UInt8.reduceToNat]
      omega
    · rw [continues_iff]
      omega

theorem secondOfFour_iff (a b : UInt8) : secondOfFour a b = true ↔
    continues b = true ∧ (a.toNat = 240 → 144 ≤ b.toNat) ∧ (a.toNat = 244 → b.toNat < 144) := by
  simp only [secondOfFour, ← UInt8.toNat_inj, continues_iff, UInt8.reduceToNat]
  split
  · simp only [Bool.and_eq_true, decide_eq_true_eq, UInt8.le_iff_toNat_le, UInt8.reduceToNat]
    omega
  · split
    · simp only [Bool.and_eq_true, decide_eq_true_eq, UInt8.le_iff_toNat_le, UInt8.reduceToNat]
      omega
    · rw [continues_iff]
      omega

theorem front_one {b : UInt8} (h : b.toNat < 128) (rest : List UInt8) :
    front b rest = (.char (Char.ofNat b.toNat), 0) := by
  unfold front
  rw [if_pos (UInt8.lt_iff_toNat_lt.mpr h)]

theorem front_two {b c : UInt8} (hb : 194 ≤ b.toNat) (hb' : b.toNat < 224) (hc : continues c = true)
    (rest : List UInt8) :
    front b (c :: rest) = (.char (Char.ofNat ((b.toNat % 32) * 64 + payload c)), 1) := by
  simp only [front, UInt8.lt_iff_toNat_lt, UInt8.le_iff_toNat_le, UInt8.reduceToNat, Bool.and_eq_true,
    decide_eq_true_eq, hc, if_true]
  rw [if_neg (by omega), if_pos (by omega)]

theorem front_three {b c d : UInt8} (hb : 224 ≤ b.toNat) (hb' : b.toNat < 240)
    (hc : secondOfThree b c = true) (hd : continues d = true) (rest : List UInt8) :
    front b (c :: d :: rest) =
      (.char (Char.ofNat ((b.toNat % 16) * 4096 + payload c * 64 + payload d)), 2) := by
  simp only [front, UInt8.lt_iff_toNat_lt, UInt8.le_iff_toNat_le, UInt8.reduceToNat, Bool.and_eq_true,
    decide_eq_true_eq, hc, hd, if_true]
  rw [if_neg (by omega), if_neg (by omega), if_pos (by omega)]

theorem front_four {b c d e : UInt8} (hb : 240 ≤ b.toNat) (hb' : b.toNat < 245)
    (hc : secondOfFour b c = true) (hd : continues d = true) (he : continues e = true)
    (rest : List UInt8) :
    front b (c :: d :: e :: rest) = (.char (Char.ofNat
      ((b.toNat % 8) * 262144 + payload c * 4096 + payload d * 64 + payload e)), 3) := by
  simp only [front, UInt8.lt_iff_toNat_lt, UInt8.le_iff_toNat_le, UInt8.reduceToNat, Bool.and_eq_true,
    decide_eq_true_eq, hc, hd, he, if_true]
  rw [if_neg (by omega), if_neg (by omega), if_neg (by omega), if_pos (by omega)]

theorem toNat_ofNat {n : Nat} (h : n < 256) : (UInt8.ofNat n).toNat = n := by
  rw [UInt8.toNat_ofNat', Nat.mod_eq_of_lt h]

theorem front_utf8EncodeChar (c : Char) (rest : List UInt8) :
    ∃ b bs, String.utf8EncodeChar c = b :: bs ∧ front b (bs ++ rest) = (.char c, bs.length) := by
  have hvalid : c.val.toNat < 55296 ∨ 57343 < c.val.toNat ∧ c.val.toNat < 1114112 := c.valid
  have hc : Char.ofNat c.val.toNat = c := Char.ofNat_toNat c
  rw [String.utf8EncodeChar]
  generalize c.val.toNat = v at *
  split
  · refine ⟨_, _, rfl, ?_⟩
    rw [front_one (by rw [toNat_ofNat] <;> omega), toNat_ofNat (by omega), hc]
    rfl
  · split
    · refine ⟨_, _, rfl, ?_⟩
      have hb := toNat_ofNat (show v / 64 % 32 + 192 < 256 by omega)
      have hd := toNat_ofNat (show v % 64 + 128 < 256 by omega)
      rw [List.singleton_append, front_two (by omega) (by omega) ((continues_iff _).mpr (by omega))]
      rw [payload, hb, hd, show (v / 64 % 32 + 192) % 32 * 64 + (v % 64 + 128) % 64 = v by omega, hc]
      rfl
    · split
      · refine ⟨_, _, rfl, ?_⟩
        have hb := toNat_ofNat (show v / 4096 % 16 + 224 < 256 by omega)
        have hd := toNat_ofNat (show v / 64 % 64 + 128 < 256 by omega)
        have he := toNat_ofNat (show v % 64 + 128 < 256 by omega)
        rw [List.cons_append, List.singleton_append, front_three (by omega) (by omega)
          ((secondOfThree_iff _ _).mpr ⟨(continues_iff _).mpr (by omega), by omega, by omega⟩)
          ((continues_iff _).mpr (by omega))]
        rw [payload, payload, hb, hd, he, show (v / 4096 % 16 + 224) % 16 * 4096 +
          (v / 64 % 64 + 128) % 64 * 64 + (v % 64 + 128) % 64 = v by omega, hc]
        rfl
      · refine ⟨_, _, rfl, ?_⟩
        have hb := toNat_ofNat (show v / 262144 % 8 + 240 < 256 by omega)
        have hd := toNat_ofNat (show v / 4096 % 64 + 128 < 256 by omega)
        have he := toNat_ofNat (show v / 64 % 64 + 128 < 256 by omega)
        have hf := toNat_ofNat (show v % 64 + 128 < 256 by omega)
        rw [List.cons_append, List.cons_append, List.singleton_append, front_four (by omega) (by omega)
          ((secondOfFour_iff _ _).mpr ⟨(continues_iff _).mpr (by omega), by omega, by omega⟩)
          ((continues_iff _).mpr (by omega)) ((continues_iff _).mpr (by omega))]
        rw [payload, payload, payload, hb, hd, he, hf, show (v / 262144 % 8 + 240) % 8 * 262144 +
          (v / 4096 % 64 + 128) % 64 * 4096 + (v / 64 % 64 + 128) % 64 * 64 + (v % 64 + 128) % 64 = v
          by omega, hc]
        rfl

theorem pieces_utf8EncodeChar (c : Char) (rest : List UInt8) :
    pieces (String.utf8EncodeChar c ++ rest) = .char c :: pieces rest := by
  obtain ⟨b, bs, hbytes, hfront⟩ := front_utf8EncodeChar c rest
  rw [hbytes, List.cons_append, pieces, hfront, List.drop_left]

theorem pieces_encode (s : String) : pieces (encode s) = s.toList.map .char := by
  rw [encode_eq]
  induction s.toList with
  | nil => rw [List.flatMap_nil, pieces, List.map_nil]
  | cons c cs ih => rw [List.flatMap_cons, pieces_utf8EncodeChar, ih, List.map_cons]

theorem toNat_char {n : Nat} (h : n < 55296 ∨ 57343 < n ∧ n < 1114112) :
    (Char.ofNat n).val.toNat = n := by
  have hvalid : n.isValidChar := h
  rw [Char.ofNat, dif_pos hvalid]
  rfl

theorem ofNat_eq {b : UInt8} {n : Nat} (h : b.toNat = n) : UInt8.ofNat n = b := by
  rw [← h, UInt8.ofNat_toNat]

theorem utf8EncodeChar_one {b : UInt8} (h : b.toNat < 128) :
    String.utf8EncodeChar (Char.ofNat b.toNat) = [b] := by
  rw [String.utf8EncodeChar, toNat_char (by omega)]
  rw [if_pos (by omega), UInt8.ofNat_toNat]

theorem utf8EncodeChar_two {b c : UInt8} (hb : 194 ≤ b.toNat) (hb' : b.toNat < 224)
    (hc : continues c = true) :
    String.utf8EncodeChar (Char.ofNat ((b.toNat % 32) * 64 + payload c)) = [b, c] := by
  rw [continues_iff] at hc
  rw [payload, String.utf8EncodeChar, toNat_char (by omega)]
  rw [if_neg (by omega), if_pos (by omega), ofNat_eq (b := b) (by omega), ofNat_eq (b := c) (by omega)]

theorem utf8EncodeChar_three {b c d : UInt8} (hb : 224 ≤ b.toNat) (hb' : b.toNat < 240)
    (hc : secondOfThree b c = true) (hd : continues d = true) :
    String.utf8EncodeChar (Char.ofNat ((b.toNat % 16) * 4096 + payload c * 64 + payload d)) =
      [b, c, d] := by
  rw [secondOfThree_iff, continues_iff] at hc
  rw [continues_iff] at hd
  rw [payload, payload, String.utf8EncodeChar, toNat_char (by omega)]
  rw [if_neg (by omega), if_neg (by omega), if_pos (by omega), ofNat_eq (b := b) (by omega),
    ofNat_eq (b := c) (by omega), ofNat_eq (b := d) (by omega)]

theorem utf8EncodeChar_four {b c d e : UInt8} (hb : 240 ≤ b.toNat) (hb' : b.toNat < 245)
    (hc : secondOfFour b c = true) (hd : continues d = true) (he : continues e = true) :
    String.utf8EncodeChar (Char.ofNat
      ((b.toNat % 8) * 262144 + payload c * 4096 + payload d * 64 + payload e)) = [b, c, d, e] := by
  rw [secondOfFour_iff, continues_iff] at hc
  rw [continues_iff] at hd he
  rw [payload, payload, payload, String.utf8EncodeChar, toNat_char (by omega)]
  rw [if_neg (by omega), if_neg (by omega), if_neg (by omega), ofNat_eq (b := b) (by omega),
    ofNat_eq (b := c) (by omega), ofNat_eq (b := d) (by omega), ofNat_eq (b := e) (by omega)]

/-- A character at the front of bytes stands there with its own bytes. -/
theorem utf8EncodeChar_of_front {b : UInt8} {rest : List UInt8} {c : Char} {k : Nat}
    (h : front b rest = (.char c, k)) : String.utf8EncodeChar c = b :: rest.take k := by
  simp only [front, UInt8.lt_iff_toNat_lt, UInt8.le_iff_toNat_le, UInt8.reduceToNat, Bool.and_eq_true,
    decide_eq_true_eq] at h
  split at h
  · rename_i hone
    cases h
    exact utf8EncodeChar_one hone
  · split at h
    · rename_i htwo
      split at h
      · cases h
      · split at h
        · rename_i hsecond
          cases h
          exact utf8EncodeChar_two htwo.1 (by omega) hsecond
        · cases h
    · split at h
      · rename_i hthree
        split at h
        · cases h
        · split at h
          · rename_i hsecond
            split at h
            · cases h
            · split at h
              · rename_i hthird
                cases h
                exact utf8EncodeChar_three hthree.1 (by omega) hsecond hthird
              · cases h
          · cases h
      · split at h
        · rename_i hfour
          split at h
          · cases h
          · split at h
            · rename_i hsecond
              split at h
              · cases h
              · split at h
                · rename_i hthird
                  split at h
                  · cases h
                  · split at h
                    · rename_i hfourth
                      cases h
                      exact utf8EncodeChar_four hfour.1 (by omega) hsecond hthird hfourth
                    · cases h
                · cases h
            · cases h
        · cases h

theorem utf8EncodeChar_of_charactersFrom {index : Nat} {bytes : List UInt8} {cs : List Char}
    (h : charactersFrom index (pieces bytes) = .ok cs) : cs.flatMap String.utf8EncodeChar = bytes := by
  induction bytes using pieces.induct generalizing index cs with
  | case1 =>
    rw [pieces] at h
    cases h
    rfl
  | case2 b rest ih =>
    rw [pieces] at h
    generalize hfront : front b rest = found at h ih
    obtain ⟨piece, k⟩ := found
    cases piece with
    | char c =>
      rw [charactersFrom] at h
      cases hrest : charactersFrom (index + c.utf8Size) (pieces (rest.drop k)) with
      | error fault =>
        rw [hrest] at h
        cases h
      | ok ds =>
        rw [hrest] at h
        cases h
        rw [List.flatMap_cons, ih hrest, utf8EncodeChar_of_front hfront, List.cons_append,
          List.take_append_drop]
    | invalid fault => cases h
    | incomplete fault => cases h

theorem encode_of_decode {bytes : List UInt8} {s : String} (h : decode bytes = .ok s) :
    encode s = bytes := by
  rw [decode] at h
  cases hcs : charactersFrom 0 (pieces bytes) with
  | error fault =>
    rw [hcs] at h
    cases h
  | ok cs =>
    rw [hcs] at h
    cases h
    rw [encode_eq, String.toList_ofList, utf8EncodeChar_of_charactersFrom hcs]

theorem charactersFrom_char (index : Nat) (cs : List Char) : charactersFrom index (cs.map .char) = .ok cs := by
  induction cs generalizing index with
  | nil => rfl
  | cons c cs ih =>
    rw [List.map_cons, charactersFrom, ih]
    rfl

theorem decode_eq_ok_iff (bytes : List UInt8) (s : String) : decode bytes = .ok s ↔ encode s = bytes := by
  constructor
  · exact encode_of_decode
  · rintro rfl
    rw [decode, pieces_encode, charactersFrom_char]
    exact congrArg Except.ok String.ofList_toList

theorem encode_injective {s t : String} (h : encode s = encode t) : s = t := by
  have hdecode := (decode_eq_ok_iff (encode t) s).mpr h
  rw [(decode_eq_ok_iff (encode t) t).mpr rfl] at hdecode
  exact (Except.ok.inj hdecode).symm

end ScriptedActors.Text.Utf8
