set_option autoImplicit false

/-!
# Names up to ASCII case

Keywords, field names and script names are compared with the letters `A` to `Z` folded onto
`a` to `z`. No other letter is folded: `É` and `é` are different names.
-/
namespace ScriptedActors.Text

def lower (s : String) : String := String.ofList (s.toList.map Char.toLower)

def upper (s : String) : String := String.ofList (s.toList.map Char.toUpper)

def sameName (a b : String) : Bool := lower a == lower b

theorem sameName_iff (a b : String) : sameName a b = true ↔ lower a = lower b := by
  simp [sameName]

theorem sameName_refl (a : String) : sameName a a = true := by simp [sameName]

theorem sameName_comm (a b : String) : sameName a b = sameName b a := by
  simp only [sameName]
  exact Bool.beq_comm

theorem sameName_trans {a b c : String} (h : sameName a b = true) (k : sameName b c = true) :
    sameName a c = true := by
  rw [sameName_iff] at *
  exact h.trans k

theorem sameName_congr {a b : String} (h : sameName a b = true) (c : String) :
    sameName c a = sameName c b := by
  rw [sameName, sameName, (sameName_iff a b).mp h]

end ScriptedActors.Text
