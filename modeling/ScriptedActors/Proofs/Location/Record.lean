import ScriptedActors.Location.Record
import ScriptedActors.Proofs.Json.Records

set_option autoImplicit false

/-!
# Locations that are stored

A stored location is read back exactly if each of its numbers is, which are finite then.
-/
namespace ScriptedActors
open Json

structure Location.ReadsBack (l : Location) : Prop where
  x : (read? (Json.float l.x).compact).bind asFloat = some l.x
  y : (read? (Json.float l.y).compact).bind asFloat = some l.y
  z : (read? (Json.float l.z).compact).bind asFloat = some l.z
  yaw : (read? (Json.float32 l.yaw).compact).bind asFloat32 = some l.yaw
  pitch : (read? (Json.float32 l.pitch).compact).bind asFloat32 = some l.pitch

theorem read?_null : read? "null" = some .null :=
  read?_compact .null (Nat.zero_le maxDepth)

/-- A number that is not finite is written as null, and no location has that for a number. -/
theorem Location.ReadsBack.finite {l : Location} (h : l.ReadsBack) :
    l.x.isFinite = true ∧ l.y.isFinite = true ∧ l.z.isFinite = true ∧ l.yaw.isFinite = true ∧
      l.pitch.isFinite = true := by
  have hfloat : ∀ x : Float, (read? (Json.float x).compact).bind asFloat = some x → x.isFinite = true := by
    intro x hx
    by_contra hinfinite
    rw [show (Json.float x).compact = floatText x from rfl, floatText, if_neg hinfinite, read?_null] at hx
    cases hx
  have hfloat32 : ∀ x : Float32, (read? (Json.float32 x).compact).bind asFloat32 = some x →
      x.isFinite = true := by
    intro x hx
    by_contra hinfinite
    rw [show (Json.float32 x).compact = float32Text x from rfl, float32Text, if_neg hinfinite,
      read?_null] at hx
    cases hx
  exact ⟨hfloat _ h.x, hfloat _ h.y, hfloat _ h.z, hfloat32 _ h.yaw, hfloat32 _ h.pitch⟩

theorem Location.ofJson_object (world : String) (x y z yaw pitch : Json) :
    ofJson (.object [("world", .string world), ("x", x), ("y", y), ("z", z), ("yaw", yaw),
      ("pitch", pitch)]) = (asFloat x).bind fun x => (asFloat y).bind fun y => (asFloat z).bind fun z =>
        (asFloat32 yaw).bind fun yaw => (asFloat32 pitch).map fun pitch => ⟨world, x, y, z, yaw, pitch⟩ := by
  have hfields : fields fieldNames (.object [("world", .string world), ("x", x), ("y", y), ("z", z),
      ("yaw", yaw), ("pitch", pitch)]) =
      some [some (.string world), some x, some y, some z, some yaw, some pitch] :=
    fieldsOfMembers_keys (show fieldNames.Nodup by decide)
  rw [ofJson, hfields]
  simp [required, asString, Option.map_eq_bind]

theorem Location.reread_bind_eq_some_iff (l : Location) :
    l.toJson.reread.bind ofJson = some l ↔ l.ReadsBack := by
  obtain ⟨world, x, y, z, yaw, pitch⟩ := l
  have hread : ∀ v : Json, v.depth = 0 → read? v.compact = v.reread := fun v hv =>
    read?_compact v (hv ▸ Nat.zero_le maxDepth)
  have hback : (⟨world, x, y, z, yaw, pitch⟩ : Location).ReadsBack ↔
      (Json.float x).reread.bind asFloat = some x ∧ (Json.float y).reread.bind asFloat = some y ∧
      (Json.float z).reread.bind asFloat = some z ∧ (Json.float32 yaw).reread.bind asFloat32 = some yaw ∧
      (Json.float32 pitch).reread.bind asFloat32 = some pitch := by
    simp only [← hread _ (show (Json.float _).depth = 0 from rfl),
      ← hread _ (show (Json.float32 _).depth = 0 from rfl)]
    exact ⟨fun h => ⟨h.x, h.y, h.z, h.yaw, h.pitch⟩, fun ⟨hx, hy, hz, hyaw, hpitch⟩ =>
      ⟨hx, hy, hz, hyaw, hpitch⟩⟩
  rw [hback, toJson]
  simp only [reread, rereadMembers]
  -- A number that is too large for any of the fields ends the reading.
  rcases (Json.float x).leafValue with _ | x'
  · simp
  rcases (Json.float y).leafValue with _ | y'
  · simp
  rcases (Json.float z).leafValue with _ | z'
  · simp
  rcases (Json.float32 yaw).leafValue with _ | yaw'
  · simp
  rcases (Json.float32 pitch).leafValue with _ | pitch'
  · simp
  simp [ofJson_object, Option.bind_eq_some_iff]

end ScriptedActors
