import DoorAccess.Registry.DocumentFormat
import DoorAccess.Proofs.Json.RoundTrip

/-!
A document that was rendered is read back with all its entries, whatever they are called: no
string, level or repetition is lost on the way.
-/
namespace DoorAccess.Document

open Json (Value Fields Unit16)

/-! ### Entries -/

@[simp] theorem string?_ofString (s : String) : (Value.ofString s).string? = some s := by
  simp [Value.ofString, Value.string?, Unit16.decode?_map_char]

@[simp] theorem level?_levelValue (level : Level) : level? (levelValue level) = some level := by
  have small : level.toNat ≤ 255 := Nat.le_of_lt_succ level.toNat_lt
  have natural : (levelValue level).natural? 255 = some level.toNat := by
    simp [levelValue, Value.natural?, Json.Number.natural?, Json.Number.isInteger,
      Json.Number.ofNat, Text.Decimal.value?_digits, small]
  simp [level?, natural]

/-- A tidying that leaves objects alone whose keys are all different. -/
def Keeps (tidy : Fields → Fields) : Prop :=
  ∀ fields : Fields, (fields.map (·.1)).Nodup → tidy fields = fields

theorem keeps_lastWins : Keeps Fields.lastWins := by
  intro fields distinct
  induction fields with
  | nil => rfl
  | cons field fields ih =>
      obtain ⟨fresh, distinct⟩ := List.nodup_cons.mp distinct
      have once : fields.any (·.1 = field.1) = false := by
        simp only [List.any_eq_false, decide_eq_true_eq]
        intro other member same
        exact fresh (List.mem_map.mpr ⟨other, member, same⟩)
      simp [Fields.lastWins, once, ih distinct]

theorem decode?_key (name : String) : Unit16.decode? (key name) = some name.toList :=
  Unit16.decode?_map_char name.toList

/-- The object with these members. -/
def written (fields : Fields) : Value := .object (fields.map fun field => (key field.1, field.2))

theorem ofMembers?_written (fields : Fields) :
    Fields.ofMembers? (fields.map fun field => (key field.1, field.2)) = some fields := by
  induction fields with
  | nil => rfl
  | cons field fields ih =>
      rw [Fields.ofMembers?] at ih
      rw [Fields.ofMembers?, List.map_cons, List.mapM_cons, ih]
      simp [decode?_key]

theorem ofFields?_written {tidy : Fields → Fields} (keeps : Keeps tidy) (fields : Fields)
    (distinct : (fields.map (·.1)).Nodup) : ofFields? tidy (written fields) = some fields := by
  rw [written, ofFields?, ofMembers?_written, Option.map_some, keeps fields distinct]

theorem door?_doorValue {tidy : Fields → Fields} (keeps : Keeps tidy) (d : Door) :
    door? tidy (doorValue d) = some d := by
  have fields := ofFields?_written keeps
    [("name", .ofString d.name), ("lvl", levelValue d.level)]
    (show ["name", "lvl"].Nodup by decide)
  change ofFields? tidy (doorValue d) = _ at fields
  rw [door?, fields]
  · simp [Fields.only?, Fields.under]
  · exact nofun

theorem user?_userValue {tidy : Fields → Fields} (keeps : Keeps tidy) (u : User) :
    user? tidy (userValue u) = some u := by
  have fields := ofFields?_written keeps
    [("name", .ofString u.name), ("uid", .ofString u.credential), ("lvl", levelValue u.level)]
    (show ["name", "uid", "lvl"].Nodup by decide)
  change ofFields? tidy (userValue u) = _ at fields
  rw [user?, fields]
  · simp [Fields.only?, Fields.under]
  · exact nofun

/-! ### The text -/

theorem wellFormed_ofString (s : String) : (Value.ofString s).WellFormed := by
  intro u member
  obtain ⟨c, _, rfl⟩ := List.mem_map.mp member
  trivial

theorem wellFormed_key (name : String) : ∀ u ∈ key name, u.WellFormed :=
  wellFormed_ofString name

theorem wellFormed_doorValue (d : Door) : (doorValue d).WellFormed :=
  ⟨wellFormed_key _, wellFormed_ofString _, wellFormed_key _, Json.Number.wellFormed_ofNat _, trivial⟩

theorem wellFormed_userValue (u : User) : (userValue u).WellFormed :=
  ⟨wellFormed_key _, wellFormed_ofString _, wellFormed_key _, wellFormed_ofString _,
    wellFormed_key _, Json.Number.wellFormed_ofNat _, trivial⟩

theorem wellFormed_items {α : Type} {value : α → Value} (each : ∀ x, (value x).WellFormed)
    (xs : List α) : Json.ItemsWellFormed (xs.map value) := by
  induction xs with
  | nil => trivial
  | cons x xs ih => exact ⟨each x, ih⟩

theorem wellFormed_toValue (doc : Document) : doc.toValue.WellFormed :=
  ⟨wellFormed_key _, wellFormed_items wellFormed_doorValue _, wellFormed_key _,
    wellFormed_items wellFormed_userValue _, trivial⟩

/-- The text that is written holds the document as a value. -/
theorem parse?_render (doc : Document) : Json.parse? (doc.render ++ "\n") = some doc.toValue := by
  have text : doc.render ++ "\n" = String.ofList (Json.writeValue 0 doc.toValue ++ ['\n']) := by
    rw [render, String.ofList_append]
  rw [text, Json.parse?_writeValue (wellFormed_toValue doc)]

/-! ### The limits of a reader -/

theorem isFinite_level : ∀ n < 256, (Json.Number.ofNat n).isFinite = true := by decide +kernel

theorem isSound_ofString (s : String) : (Value.ofString s).isSound = true := by
  simp [Value.ofString, Value.isSound, Unit16.decode?_map_char]

theorem isSound_levelValue (level : Level) : (levelValue level).isSound = true :=
  isFinite_level _ level.toNat_lt

theorem areSound_map {α : Type} {value : α → Value} (each : ∀ x, (value x).isSound = true)
    (xs : List α) : Value.areSound (xs.map value) = true := by
  induction xs with
  | nil => rfl
  | cons x xs ih => simp [Value.areSound, each, ih]

theorem depthOfItems_map_le {α : Type} {value : α → Value} {limit : Nat}
    (each : ∀ x, (value x).depth ≤ limit) (xs : List α) :
    Value.depthOfItems (xs.map value) ≤ limit := by
  induction xs with
  | nil => exact Nat.zero_le limit
  | cons x xs ih =>
      simp only [List.map_cons, Value.depthOfItems]
      exact Nat.max_le.mpr ⟨each x, ih⟩

/-- However long a document is, it is three levels deep. -/
theorem isAdmissible_toValue (doc : Document) : doc.toValue.isAdmissible = true := by
  have flat (d : Door) : (doorValue d).depth ≤ 1 := by
    simp [doorValue, Value.depth, Value.depthOfMembers, Value.ofString, levelValue]
  have flatUser (u : User) : (userValue u).depth ≤ 1 := by
    simp [userValue, Value.depth, Value.depthOfMembers, Value.ofString, levelValue]
  have soundDoor (d : Door) : (doorValue d).isSound = true := by
    simp [doorValue, Value.isSound, Value.membersAreSound, decode?_key,
      isSound_ofString, isSound_levelValue]
  have soundUser (u : User) : (userValue u).isSound = true := by
    simp [userValue, Value.isSound, Value.membersAreSound, decode?_key,
      isSound_ofString, isSound_levelValue]
  have doors := depthOfItems_map_le flat doc.doors
  have users := depthOfItems_map_le flatUser doc.users
  have depth : doc.toValue.depth ≤ 3 := by
    simp only [toValue, Value.depth, Value.depthOfMembers]
    omega
  have sound : doc.toValue.isSound = true := by
    simp [toValue, Value.isSound, Value.membersAreSound, decode?_key,
      areSound_map soundDoor, areSound_map soundUser]
  have allowed : doc.toValue.depth ≤ Value.maxDepth := Nat.le_trans depth (by decide)
  simp [Value.isAdmissible, sound, allowed]

theorem filterMap_map_of_some {α : Type} {value : α → Value} {item? : Value → Option α}
    (back : ∀ x, item? (value x) = some x) (xs : List α) : (xs.map value).filterMap item? = xs := by
  rw [List.filterMap_map, show item? ∘ value = some from funext back, List.filterMap_some]

/-- A rendered document is read back as it was, and no entry of it is left out. -/
theorem Lenient.parse_render (doc : Document) : Lenient.parse (doc.render ++ "\n") = .ok (doc, 0) := by
  have fields := ofFields?_written keeps_lastWins
    [("doors", .array (doc.doors.map doorValue)), ("users", .array (doc.users.map userValue))]
    (show ["doors", "users"].Nodup by decide)
  change ofFields? _ doc.toValue = _ at fields
  have doors := filterMap_map_of_some (door?_doorValue keeps_lastWins) doc.doors
  have users := filterMap_map_of_some (user?_userValue keeps_lastWins) doc.users
  rw [Lenient.parse, parse?_render, Option.filter_some, isAdmissible_toValue, if_pos rfl]
  simp [fields, Lenient.part, Fields.only?, Fields.under, doors, users]

theorem keeps_id : Keeps id := fun _ _ => rfl

theorem Strict.entries?_map {α : Type} {value : α → Value} {item? : Value → Option α}
    (back : ∀ x, item? (value x) = some x) (xs : List α) :
    Strict.entries? item? (.array (xs.map value)) = some xs := by
  rw [Strict.entries?]
  induction xs with
  | nil => rfl
  | cons x xs ih => simp [List.mapM_cons, back, ih]

/-- Nor does the strict reading find anything wrong with it. -/
theorem Strict.parse?_render (doc : Document) : Strict.parse? (doc.render ++ "\n") = some doc := by
  have fields := ofFields?_written keeps_id
    [("doors", .array (doc.doors.map doorValue)), ("users", .array (doc.users.map userValue))]
    (show ["doors", "users"].Nodup by decide)
  change ofFields? _ doc.toValue = _ at fields
  have doors := entries?_map (door?_doorValue keeps_id) doc.doors
  have users := entries?_map (user?_userValue keeps_id) doc.users
  rw [Strict.parse?, Document.parse?_render, Option.bind_eq_bind, Option.bind_some, ofValue?, fields]
  · simp [part?, Fields.under, doors, users]
  all_goals exact nofun

end DoorAccess.Document
