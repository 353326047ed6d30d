import DoorAccess.Proofs.Registry.Additions

/-!
What a registry built from a document keeps. The entries are gone through in order, doors first, and
each is taken just if it claims a record that clashes with none taken before; an entry that was
refused claims nothing.
-/
namespace DoorAccess

namespace Document
variable (doc : Document)

/-- The entries in the order in which they are gone through. -/
def entries : List Record := doc.doors.map .door ++ doc.users.map .user

/-- The document of the first `n` entries. -/
def before (n : Nat) : Document := ⟨doc.doors.take n, doc.users.take (n - doc.doors.length)⟩

/-- The record that the entry at this place would be stored as. -/
def claim? (n : Nat) : Option Record := doc.entries[n]?.bind Record.canonical?

/-- There is an entry at this place, and with it no more are refused than without it. -/
def IsKept (n : Nat) : Prop :=
  n < doc.entries.length ∧
    (Registry.ofDocument (doc.before (n + 1))).refused =
      (Registry.ofDocument (doc.before n)).refused

instance : DecidablePred doc.IsKept := fun _ => inferInstanceAs (Decidable (_ ∧ _))

theorem entries_before (n : Nat) : (doc.before n).entries = doc.entries.take n := by
  rw [entries, entries, before, List.take_append, List.map_take, List.map_take, List.length_map]

theorem before_length : doc.before doc.entries.length = doc := by
  have doors : doc.doors.take (doc.doors.length + doc.users.length) = doc.doors :=
    List.take_of_length_le (Nat.le_add_right ..)
  simp [before, entries, doors]

end Document

namespace Registry

namespace Building

/-- One entry more, of either kind. -/
def add (b : Building) (entry : Record) : Building :=
  match b.registry.apply entry.request with
  | (.ok _, registry) => { b with registry }
  | (.error _, _) => { b with refused := b.refused + 1 }

theorem add_door (b : Building) (d : Door) : b.add (.door d) = b.addDoor d := by
  rw [add, addDoor, Record.request, apply, apply.aDoor]
  rcases b.registry.insertDoor d.name d.level with ⟨_ | _, registry⟩ <;> rfl

theorem add_user (b : Building) (u : User) : b.add (.user u) = b.addUser u := by
  rw [add, addUser, Record.request, apply, apply.aUser]
  rcases b.registry.insertUser u.name u.level u.credential with ⟨_ | _, registry⟩ <;> rfl

/-- An entry is either stored or counted. -/
theorem add_cases {b : Building} (sound : b.registry.Sound) (entry : Record) :
    (∃ record, entry.canonical? = some record ∧ b.registry.IsFreeFor record ∧
      (b.add entry).refused = b.refused ∧ b.registry.Gains (b.add entry).registry record) ∨
    (∀ record, entry.canonical? = some record → ¬ b.registry.IsFreeFor record) ∧
      b.add entry = ⟨b.registry, b.refused + 1⟩ := by
  rw [add]
  rcases sound.request_cases entry with
    ⟨record, r', canonical, free, granted, gains⟩ | ⟨unfit, failure, refused⟩
  · rw [granted]
    exact .inl ⟨record, canonical, free, rfl, gains⟩
  · rw [refused]
    exact .inr ⟨unfit, rfl⟩

end Building

variable (doc : Document)

theorem ofDocument_eq : ofDocument doc = doc.entries.foldl .add ⟨.empty, 0⟩ := by
  simp only [ofDocument, Document.entries, List.foldl_append, List.foldl_map, Building.add_door,
    Building.add_user]

theorem ofDocument_before_succ {n : Nat} {entry : Record} (here : doc.entries[n]? = some entry) :
    ofDocument (doc.before (n + 1)) = (ofDocument (doc.before n)).add entry := by
  rw [ofDocument_eq, ofDocument_eq, doc.entries_before, doc.entries_before, List.take_add_one, here,
    List.foldl_append]
  rfl

/-- What becomes of the entry at a place is decided by the registry built from those before it. -/
theorem keeps_cases {n : Nat} (within : n < doc.entries.length) :
    let built := ofDocument (doc.before n)
    let next := ofDocument (doc.before (n + 1))
    (∃ record, doc.claim? n = some record ∧ built.registry.IsFreeFor record ∧ doc.IsKept n ∧
      next.refused = built.refused ∧ built.registry.Gains next.registry record) ∨
    (∀ record, doc.claim? n = some record → ¬ built.registry.IsFreeFor record) ∧ ¬ doc.IsKept n ∧
      next = ⟨built.registry, built.refused + 1⟩ := by
  have here := List.getElem?_eq_getElem within
  have claim : doc.claim? n = doc.entries[n].canonical? := by simp [Document.claim?, here]
  have sound := sound_ofDocument (doc.before n)
  rw [claim, Document.IsKept, ofDocument_before_succ doc here]
  rcases Building.add_cases sound doc.entries[n] with
    ⟨record, canonical, free, none, gains⟩ | ⟨unfit, refused⟩
  · exact .inl ⟨record, canonical, free, ⟨within, none⟩, none, gains⟩
  · refine .inr ⟨unfit, fun keeps => ?_, refused⟩
    rw [refused] at keeps
    exact Nat.succ_ne_self _ keeps.2

/-- At every stage, what is stored are the claims of the entries kept so far. -/
theorem stores_before_iff {n : Nat} (within : n ≤ doc.entries.length) (record : Record) :
    (ofDocument (doc.before n)).registry.Stores record ↔
      ∃ m < n, doc.IsKept m ∧ doc.claim? m = some record := by
  induction n with
  | zero => simp [Document.before, ofDocument, not_stores_empty]
  | succ n stored =>
      rcases keeps_cases doc within with
        ⟨claimed, claim, _, keeps, _, gains⟩ | ⟨_, dropped, refused⟩
      · rw [gains.stored, stored (by omega)]
        constructor
        · rintro (⟨m, earlier, kept⟩ | rfl)
          · exact ⟨m, by omega, kept⟩
          · exact ⟨n, by omega, keeps, claim⟩
        · rintro ⟨m, earlier, keeps', claim'⟩
          rcases Nat.lt_succ_iff_lt_or_eq.mp earlier with earlier | rfl
          · exact .inl ⟨m, earlier, keeps', claim'⟩
          · exact .inr (Option.some.inj (claim'.symm.trans claim))
      · rw [refused, stored (by omega)]
        constructor
        · rintro ⟨m, earlier, kept⟩
          exact ⟨m, by omega, kept⟩
        · rintro ⟨m, earlier, keeps, claim⟩
          rcases Nat.lt_succ_iff_lt_or_eq.mp earlier with earlier | rfl
          · exact ⟨m, earlier, keeps, claim⟩
          · exact absurd keeps dropped

theorem refused_before {n : Nat} (within : n ≤ doc.entries.length) :
    (ofDocument (doc.before n)).refused = (List.range n).countP fun m => ¬ doc.IsKept m := by
  induction n with
  | zero => simp [Document.before, ofDocument]
  | succ n counted =>
      rw [List.range_succ, List.countP_append, ← counted (by omega)]
      rcases keeps_cases doc within with ⟨_, _, _, keeps, none, _⟩ | ⟨_, dropped, refused⟩
      · simp [none, keeps]
      · simp [refused, dropped]

theorem keeps_iff (n : Nat) :
    doc.IsKept n ↔ ∃ record, doc.claim? n = some record ∧ ∀ m < n, doc.IsKept m →
      ∀ earlier, doc.claim? m = some earlier → ¬ record.Clashes earlier := by
  by_cases within : n < doc.entries.length
  · have free_iff (record : Record) :
        (ofDocument (doc.before n)).registry.IsFreeFor record ↔ ∀ m < n, doc.IsKept m →
          ∀ earlier, doc.claim? m = some earlier → ¬ record.Clashes earlier := by
      simp only [IsFreeFor, stores_before_iff doc within.le]
      exact ⟨fun free m before keeps other claim => free other ⟨m, before, keeps, claim⟩,
        fun free other ⟨m, before, keeps, claim⟩ => free m before keeps other claim⟩
    simp only [← free_iff]
    rcases keeps_cases doc within with ⟨record, claim, free, keeps, _⟩ | ⟨unfit, dropped, _⟩
    · exact iff_of_true keeps ⟨record, claim, free⟩
    · exact iff_of_false dropped fun ⟨record, claim, free⟩ => unfit record claim free
  · have claim : doc.claim? n = none := by
      simp [Document.claim?, List.getElem?_eq_none (Nat.le_of_not_lt within)]
    simp [Document.IsKept, within, claim]

/-- An entry of a document is kept just if something remains of its trimmed name, it has a
credential if it is a user, and no entry kept before it claims the same name or the same credential.
What is stored are the kept entries, under their canonical names and with their own levels and
credentials, and all others are counted. -/
theorem ofDocument_keeps_first_claimants :
    (∀ n, doc.IsKept n ↔ ∃ record, doc.claim? n = some record ∧ ∀ m < n, doc.IsKept m →
      ∀ earlier, doc.claim? m = some earlier → ¬ record.Clashes earlier) ∧
    (∀ record, (ofDocument doc).registry.Stores record ↔
      ∃ n, doc.IsKept n ∧ doc.claim? n = some record) ∧
    (ofDocument doc).refused =
      (List.range doc.entries.length).countP fun n => ¬ doc.IsKept n := by
  have stored := stores_before_iff doc le_rfl
  have refused := refused_before doc le_rfl
  rw [doc.before_length] at stored refused
  refine ⟨keeps_iff doc, fun record => (stored record).trans ?_, refused⟩
  exact exists_congr fun n => and_iff_right_of_imp fun kept => kept.1.1

/-- The second user is refused for the name of the first, so its credential is free for the third;
the fourth has nothing of its own. -/
example :
    let doc : Document := ⟨[], [⟨"Ann", "a", 1⟩, ⟨" ann ", "b", 2⟩, ⟨"Bob", "b", 3⟩, ⟨"bob", "a", 4⟩]⟩
    (List.range 4).filter (doc.IsKept ·) = [0, 2] ∧ (ofDocument doc).refused = 2 := by
  decide +kernel

end Registry

end DoorAccess
