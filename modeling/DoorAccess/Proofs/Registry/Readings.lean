import DoorAccess.Registry.DocumentFormat

/-!
The two readings of a document. Where the strict one takes a text that holds an object, the lenient
one gives the same document and leaves nothing out: it only makes good what the strict one refuses.
What the lenient one makes good without leaving an entry out is that something is given twice, or
that what should be a list is none.
-/
namespace DoorAccess

namespace Json.Fields

theorem under_cons_of_mem {field : String × Value} {names : List String} (named : field.1 ∈ names)
    (fields : Fields) : under (field :: fields) names = field :: under fields names :=
  List.filter_cons_of_pos (by simpa using named)

theorem under_cons_of_notMem {field : String × Value} {names : List String}
    (foreign : field.1 ∉ names) (fields : Fields) :
    under (field :: fields) names = under fields names :=
  List.filter_cons_of_neg (by simpa using foreign)

theorem length_under_le (fields : Fields) {names names' : List String}
    (within : ∀ name ∈ names, name ∈ names') :
    (fields.under names).length ≤ (fields.under names').length := by
  rw [under, under, ← List.countP_eq_length_filter, ← List.countP_eq_length_filter]
  refine List.countP_mono_left fun field _ named => ?_
  simpa using within field.1 (by simpa using named)

/-- None of the names is given twice. -/
def IsDistinct (fields : Fields) (names : List String) : Prop :=
  ∀ name ∈ names, (fields.under [name]).length ≤ 1

theorem isDistinct_of_length {fields : Fields} {names : List String}
    (once : (fields.under names).length ≤ 1) : fields.IsDistinct names := by
  intro name named
  refine Nat.le_trans (length_under_le fields ?_) once
  rintro _ (_ | ⟨_, ⟨⟩⟩)
  exact named

theorem isDistinct_of_only? {fields : Fields} {names : List String} {v : Value}
    (h : fields.only? names = some v) : fields.IsDistinct names := by
  refine isDistinct_of_length ?_
  rw [only?] at h
  split at h
  · next single => simp [single]
  · cases h

/-- Members that are given once are not touched when duplicates are dropped. -/
theorem under_lastWins {fields : Fields} {names : List String} (distinct : fields.IsDistinct names) :
    (lastWins fields).under names = fields.under names := by
  induction fields with
  | nil => rfl
  | cons field fields ih =>
      have later : IsDistinct fields names := fun name named =>
        Nat.le_trans ((List.sublist_cons_self field fields).filter _).length_le (distinct name named)
      by_cases named : field.1 ∈ names
      · have others : under fields [field.1] = [] := by
          have once := distinct field.1 named
          rw [under_cons_of_mem (List.mem_singleton_self field.1)] at once
          exact List.length_eq_zero_iff.mp (Nat.le_zero.mp (Nat.le_of_succ_le_succ once))
        have fresh : fields.any (·.1 = field.1) = false := by
          simp only [List.any_eq_false, decide_eq_true_eq]
          intro other member same
          have listed : other ∈ under fields [field.1] :=
            List.mem_filter.mpr ⟨member, by simpa using same⟩
          simp [others] at listed
        rw [lastWins, if_neg (by simp [fresh]), under_cons_of_mem named, under_cons_of_mem named,
          ih later]
      · rw [lastWins, under_cons_of_notMem named]
        split
        · exact ih later
        · rw [under_cons_of_notMem named, ih later]

theorem only?_lastWins {fields : Fields} {names names' : List String}
    (distinct : fields.IsDistinct names') (within : ∀ name ∈ names, name ∈ names') :
    (lastWins fields).only? names = fields.only? names := by
  rw [only?, only?, under_lastWins fun name named => distinct name (within name named)]

end Json.Fields

namespace Document

open Json (Value Fields)

theorem ofFields?_eq_some {tidy : Fields → Fields} {v : Value} {fields : Fields}
    (h : ofFields? tidy v = some fields) :
    ∃ members read, v = .object members ∧ Fields.ofMembers? members = some read ∧
      fields = tidy read := by
  cases v with
  | object members =>
      obtain ⟨read, all, rfl⟩ := Option.map_eq_some_iff.mp h
      exact ⟨members, read, rfl, all, rfl⟩
  | null | bool | number | string | array => cases h

theorem ofFields?_lastWins (v : Value) :
    ofFields? Fields.lastWins v = (ofFields? id v).map Fields.lastWins := by
  cases v with
  | object members => rw [ofFields?, ofFields?, Option.map_map, Function.comp_id]
  | null | bool | number | string | array => rfl

/-! ### Entries -/

/-- An entry that gives none of its fields twice. What is no object gives no field. -/
def IsPlain (names : List String) (v : Value) : Prop :=
  ∀ fields, ofFields? id v = some fields → fields.IsDistinct names

def doorFields : List String := ["name", "lvl", "accessLevel"]

def userFields : List String := ["name", "uid", "lvl", "accessLevel"]

theorem isPlain_array (names : List String) (items : List Value) :
    IsPlain names (.array items) := nofun

theorem isPlain_of_door? {v : Value} {d : Door} (h : door? id v = some d) :
    IsPlain doorFields v := by
  unfold door? at h
  split at h
  · exact isPlain_array _ _
  · simp only [Option.bind_eq_bind, Option.bind_eq_some_iff] at h
    obtain ⟨fields, read, name, named, _, _, level, levelled, _⟩ := h
    have named := Fields.isDistinct_of_only? named
    have levelled := Fields.isDistinct_of_only? levelled
    intro fields' again
    cases read.symm.trans again
    simp only [Fields.IsDistinct, doorFields, List.forall_mem_cons] at named levelled ⊢
    exact ⟨named.1, levelled⟩

theorem isPlain_of_user? {v : Value} {u : User} (h : user? id v = some u) :
    IsPlain userFields v := by
  unfold user? at h
  split at h
  · exact isPlain_array _ _
  · simp only [Option.bind_eq_bind, Option.bind_eq_some_iff] at h
    obtain ⟨fields, read, name, named, _, _, uid, held, _, _, level, levelled, _⟩ := h
    have named := Fields.isDistinct_of_only? named
    have held := Fields.isDistinct_of_only? held
    have levelled := Fields.isDistinct_of_only? levelled
    intro fields' again
    cases read.symm.trans again
    simp only [Fields.IsDistinct, userFields, List.forall_mem_cons] at named held levelled ⊢
    exact ⟨named.1, held.1, levelled⟩

theorem door?_lastWins {v : Value} (plain : IsPlain doorFields v) :
    door? Fields.lastWins v = door? id v := by
  unfold door?
  split
  · rfl
  · rw [ofFields?_lastWins]
    cases read : ofFields? id v with
    | none => rfl
    | some fields =>
        have distinct := plain fields read
        simp only [Option.map_some, Option.bind_eq_bind, Option.bind_some]
        rw [Fields.only?_lastWins distinct (by decide), Fields.only?_lastWins distinct (by decide)]

theorem user?_lastWins {v : Value} (plain : IsPlain userFields v) :
    user? Fields.lastWins v = user? id v := by
  unfold user?
  split
  · rfl
  · rw [ofFields?_lastWins]
    cases read : ofFields? id v with
    | none => rfl
    | some fields =>
        have distinct := plain fields read
        simp only [Option.map_some, Option.bind_eq_bind, Option.bind_some]
        rw [Fields.only?_lastWins distinct (by decide), Fields.only?_lastWins distinct (by decide),
          Fields.only?_lastWins distinct (by decide)]

/-- Two readings of entries of which one takes what the other takes, if it is plain. -/
def Narrows {α : Type} (strict? lenient? : Value → Option α) (plain : Value → Prop) : Prop :=
  ∀ v x, strict? v = some x ↔ lenient? v = some x ∧ plain v

theorem narrows_door? : Narrows (door? id) (door? Fields.lastWins) (IsPlain doorFields) := by
  intro v d
  constructor
  · intro strict
    have plain := isPlain_of_door? strict
    exact ⟨(door?_lastWins plain).trans strict, plain⟩
  · rintro ⟨lenient, plain⟩
    exact (door?_lastWins plain).symm.trans lenient

theorem narrows_user? : Narrows (user? id) (user? Fields.lastWins) (IsPlain userFields) := by
  intro v u
  constructor
  · intro strict
    have plain := isPlain_of_user? strict
    exact ⟨(user?_lastWins plain).trans strict, plain⟩
  · rintro ⟨lenient, plain⟩
    exact (user?_lastWins plain).symm.trans lenient

section Parts
variable {α : Type} {strict? lenient? : Value → Option α} {plain : Value → Prop}

theorem mapM_eq_some_iff (narrows : Narrows strict? lenient? plain) (items : List Value)
    (xs : List α) : items.mapM strict? = some xs ↔
      (items.filterMap lenient? = xs ∧ items.length = xs.length) ∧ ∀ item ∈ items, plain item := by
  induction items generalizing xs with
  | nil => simp [eq_comm]
  | cons item items ih =>
      simp only [List.mapM_cons, Option.bind_eq_bind, Option.bind_eq_some_iff, ih, narrows item,
        List.forall_mem_cons, List.filterMap_cons]
      constructor
      · rintro ⟨x, ⟨first, here⟩, rest, ⟨⟨rfl, length⟩, there⟩, made⟩
        cases made
        simp only [first, List.length_cons, length, here, true_and]
        exact there
      · rintro ⟨⟨listed, length⟩, here, there⟩
        cases first : lenient? item with
        | none =>
            have short := List.length_filterMap_le lenient? items
            simp only [first] at listed
            simp only [listed, List.length_cons] at short length
            omega
        | some x =>
            simp only [first] at listed
            subst listed
            exact ⟨x, ⟨rfl, here⟩, _, ⟨⟨rfl, Nat.succ.inj length⟩, there⟩, rfl⟩

/-- The part is given at most once and then as a list, all of it plain. -/
def IsListed (fields : Fields) (name : String) (plain : Value → Prop) : Prop :=
  (fields.under [name]).length ≤ 1 ∧
    ∀ v, fields.only? [name] = some v → ∃ items, v = .array items ∧ ∀ item ∈ items, plain item

theorem part?_eq_some_iff (narrows : Narrows strict? lenient? plain) (fields : Fields)
    (name : String) (xs : List α) : Strict.part? fields name strict? = some xs ↔
      Lenient.part fields.lastWins name lenient? = (xs, 0) ∧ IsListed fields name plain := by
  cases given : fields.under [name] with
  | nil =>
      have once : fields.IsDistinct [name] := Fields.isDistinct_of_length (by simp [given])
      rw [Strict.part?, Lenient.part, Fields.only?_lastWins once fun _ named => named]
      simp [IsListed, Fields.only?, given, eq_comm]
  | cons field fields' =>
      cases fields' with
      | nil =>
          have once : fields.IsDistinct [name] := Fields.isDistinct_of_length (by simp [given])
          have single : fields.only? [name] = some field.2 := by simp only [Fields.only?, given]
          rw [Strict.part?, Lenient.part, Fields.only?_lastWins once fun _ named => named, given,
            single, IsListed, given, single]
          cases value : field.2 with
          | array items =>
              have short := List.length_filterMap_le lenient? items
              have listed : (∀ v, some (Value.array items) = some v →
                  ∃ items, v = .array items ∧ ∀ item ∈ items, plain item) ↔
                  ∀ item ∈ items, plain item := by simp
              simp only [value, Strict.entries?, mapM_eq_some_iff narrows, Prod.mk.injEq, listed,
                List.length_singleton, Nat.le_refl, true_and]
              refine and_congr_left fun _ => and_congr_right fun here => ?_
              rw [here] at short ⊢
              omega
          | null | bool | number | string | object => simp [Strict.entries?, value]
      | cons other rest => simp [Strict.part?, IsListed, given]

end Parts

/-! ### Documents -/

/-- Doors and users are given once each and as lists, and no entry gives a field twice. -/
def IsUnambiguous (fields : Fields) : Prop :=
  IsListed fields "doors" (IsPlain doorFields) ∧ IsListed fields "users" (IsPlain userFields)

theorem ofMembers?_of_isSound {members : List (List Json.Unit16 × Value)}
    (sound : Value.membersAreSound members = true) :
    ∃ fields, Fields.ofMembers? members = some fields := by
  induction members with
  | nil => exact ⟨[], rfl⟩
  | cons member members ih =>
      obtain ⟨key, v⟩ := member
      simp only [Value.membersAreSound, Bool.and_eq_true, Option.isSome_iff_exists] at sound
      obtain ⟨⟨⟨cs, decoded⟩, _⟩, later⟩ := sound
      obtain ⟨fields, rest⟩ := ih later
      refine ⟨(String.ofList cs, v) :: fields, ?_⟩
      rw [Fields.ofMembers?] at rest
      simp [Fields.ofMembers?, rest, decoded]

section Object
variable {text : String} {members : List (List Json.Unit16 × Value)} {fields : Fields}

theorem Strict.parse?_of_fields (parsed : Json.parse? text = some (.object members))
    (read : Fields.ofMembers? members = some fields) (doc : Document) : parse? text = some doc ↔
      part? fields "doors" (door? id) = some doc.doors ∧
        part? fields "users" (user? id) = some doc.users := by
  have all : ofFields? id (.object members) = some fields := by rw [ofFields?, read]; rfl
  rw [parse?, parsed]
  simp only [Option.bind_eq_bind, Option.bind_some, ofValue?, all, Option.bind_eq_some_iff]
  constructor
  · rintro ⟨doors, doorsRead, users, usersRead, made⟩
    cases made
    exact ⟨doorsRead, usersRead⟩
  · rintro ⟨doorsRead, usersRead⟩
    exact ⟨doc.doors, doorsRead, doc.users, usersRead, rfl⟩

theorem Lenient.parse_of_fields (parsed : Json.parse? text = some (.object members))
    (admissible : (Value.object members).isAdmissible = true)
    (read : Fields.ofMembers? members = some fields) :
    let doors := part fields.lastWins "doors" (door? Fields.lastWins)
    let users := part fields.lastWins "users" (user? Fields.lastWins)
    parse text = .ok (⟨doors.1, users.1⟩, doors.2 + users.2) := by
  have all : ofFields? Fields.lastWins (.object members) = some fields.lastWins := by
    rw [ofFields?, read]
    rfl
  rw [parse, parsed, Option.filter_some, if_pos admissible]
  simp only [all]

/-- The strict reading takes what the lenient one takes whole, unless something is given twice or is
no list. -/
theorem Strict.parse?_iff_lenient (parsed : Json.parse? text = some (.object members))
    (admissible : (Value.object members).isAdmissible = true)
    (read : Fields.ofMembers? members = some fields) (doc : Document) : parse? text = some doc ↔
      Lenient.parse text = .ok (doc, 0) ∧ IsUnambiguous fields := by
  rw [parse?_of_fields parsed read, Lenient.parse_of_fields parsed admissible read,
    part?_eq_some_iff narrows_door?, part?_eq_some_iff narrows_user?, IsUnambiguous]
  obtain ⟨doors, skippedDoors⟩ := Lenient.part fields.lastWins "doors" (door? Fields.lastWins)
  obtain ⟨users, skippedUsers⟩ := Lenient.part fields.lastWins "users" (user? Fields.lastWins)
  obtain ⟨doors', users'⟩ := doc
  simp only [Except.ok.injEq, Prod.mk.injEq, Document.mk.injEq, Nat.add_eq_zero_iff]
  constructor
  · rintro ⟨⟨⟨rfl, rfl⟩, doorsListed⟩, ⟨rfl, rfl⟩, usersListed⟩
    exact ⟨⟨⟨rfl, rfl⟩, rfl, rfl⟩, doorsListed, usersListed⟩
  · rintro ⟨⟨⟨rfl, rfl⟩, rfl, rfl⟩, doorsListed, usersListed⟩
    exact ⟨⟨⟨rfl, rfl⟩, doorsListed⟩, ⟨rfl, rfl⟩, usersListed⟩

end Object

theorem Lenient.parse_eq_ok {text : String} {doc : Document} {skipped : Nat}
    (h : parse text = .ok (doc, skipped)) : ∃ members,
      Json.parse? text = some (.object members) ∧
        (Value.object members).isAdmissible = true := by
  rw [parse] at h
  split at h
  · cases h
  · next v parsed =>
      obtain ⟨parsed, admissible⟩ := Option.filter_eq_some_iff.mp parsed
      split at h
      · cases h
      · next fields read =>
          obtain ⟨members, _, rfl, _⟩ := ofFields?_eq_some read
          exact ⟨members, parsed, admissible⟩

theorem ofMembers?_of_isAdmissible {members : List (List Json.Unit16 × Value)}
    (admissible : (Value.object members).isAdmissible = true) :
    ∃ fields, Fields.ofMembers? members = some fields := by
  rw [Value.isAdmissible, Value.isSound, Bool.and_eq_true] at admissible
  exact ofMembers?_of_isSound admissible.2

/-- A text of which the lenient reading leaves something out, or takes it for another document, is
refused by the strict one. -/
theorem Lenient.eq_of_strict {text : String} {doc doc' : Document} {skipped : Nat}
    (loaded : parse text = .ok (doc, skipped)) (accepted : Strict.parse? text = some doc') :
    doc' = doc ∧ skipped = 0 := by
  obtain ⟨members, parsed, admissible⟩ := parse_eq_ok loaded
  obtain ⟨fields, read⟩ := ofMembers?_of_isAdmissible admissible
  rw [((Strict.parse?_iff_lenient parsed admissible read doc').mp accepted).1] at loaded
  cases loaded
  exact ⟨rfl, rfl⟩

/-- An object that is read as a whole is taken by the lenient reading in any case. The strict one
takes it just if the lenient one leaves nothing out and nothing in it is ambiguous, and then takes it
for the same document. -/
theorem readings_agree {text : String} {members : List (List Json.Unit16 × Value)}
    (parsed : Json.parse? text = some (.object members))
    (admissible : (Value.object members).isAdmissible = true) :
    (∃ doc skipped, Lenient.parse text = .ok (doc, skipped)) ∧
    ∀ doc, Strict.parse? text = some doc ↔
      Lenient.parse text = .ok (doc, 0) ∧
        ∀ fields, Fields.ofMembers? members = some fields → IsUnambiguous fields := by
  obtain ⟨fields, read⟩ := ofMembers?_of_isAdmissible admissible
  refine ⟨⟨_, _, Lenient.parse_of_fields parsed admissible read⟩, fun doc => ?_⟩
  simp only [Strict.parse?_iff_lenient parsed admissible read, read, Option.some.injEq, forall_eq']

/-- An escaped key, no doors at all, a user as a list of its fields and one with surplus fields, in
another order and with the other name of its level. -/
theorem readings_agree_on_odd_spelling :
    let text := "\x7b\"us\\u0065rs\": [[\"ann\", \"u1\", 5], \x7b\"uid\": \"u2\", \"badge\": [1], " ++
      "\"accessLevel\": 3, \"badge\": null, \"name\": \"bob\"\x7d], \"version\": 2\x7d"
    let doc : Document := ⟨[], [⟨"ann", "u1", 5⟩, ⟨"bob", "u2", 3⟩]⟩
    ∃ members, Json.parse? text = some (.object members) ∧
      (Value.object members).isAdmissible = true ∧ Strict.parse? text = some doc ∧
        Lenient.parse text = .ok (doc, 0) := by
  intro text doc
  have taken : (Lenient.parse text).isOk = true := by decide +kernel
  have strict : Strict.parse? text = some doc := by decide +kernel
  cases loaded : Lenient.parse text with
  | error e => rw [loaded] at taken; cases taken
  | ok read =>
      obtain ⟨members, parsed, admissible⟩ := Lenient.parse_eq_ok loaded
      have agreed := (((readings_agree parsed admissible).2 doc).mp strict).1
      exact ⟨members, parsed, admissible, strict, loaded.symm.trans agreed⟩

end Document

end DoorAccess
