import DoorAccess.Proofs.Registry.Outcomes

/-!
When a new record is taken. It is, just if its name and, for a user, its credential come to
something and no record of its kind has claimed them before.
-/
namespace DoorAccess

namespace Record

/-- The request to add the record as it is written. -/
def request : Record → Change
  | .door d => .addDoor d.name d.level
  | .user u => .addUser u.name u.level u.credential

/-- The record that is stored if the request is granted. None if nothing remains of the name or
there is no credential. -/
def canonical? : Record → Option Record
  | .door d => (Name.canonical? d.name).map fun key => .door ⟨key, d.level⟩
  | .user u =>
    if u.credential = "" then none
    else (Name.canonical? u.name).map fun key => .user ⟨key, u.credential, u.level⟩

/-- The two cannot be stored together. -/
def Clashes : Record → Record → Prop
  | .door d, .door e => d.name = e.name
  | .user u, .user v => u.name = v.name ∨ u.credential = v.credential
  | _, _ => False

instance : DecidableRel Clashes
  | .door d, .door e => inferInstanceAs (Decidable (d.name = e.name))
  | .user u, .user v => inferInstanceAs (Decidable (u.name = v.name ∨ u.credential = v.credential))
  | .door _, .user _ | .user _, .door _ => inferInstanceAs (Decidable False)

theorem Clashes.symm {record other : Record} (clash : record.Clashes other) :
    other.Clashes record := by
  cases record <;> cases other <;> simp only [Clashes] at clash ⊢
  · exact clash.symm
  · exact clash.imp Eq.symm Eq.symm

theorem request_eq (entry : Record) : entry.request = entry.addition entry.name none := by
  cases entry <;> rfl

/-- A record is stored under its canonical name, with all else as it is written. -/
theorem canonical?_eq_some_iff {entry record : Record} :
    entry.canonical? = some record ↔
      (∀ user, entry = .user user → user.credential ≠ "") ∧
        ∃ key, Name.canonical? entry.name = some key ∧ record = entry.renamed key none := by
  cases entry with
  | door d => simp [canonical?, Record.name, renamed, eq_comm (a := record)]
  | user u =>
      by_cases absent : u.credential = ""
      · simp [canonical?, absent]
      · simp [canonical?, absent, Record.name, renamed, eq_comm (a := record)]

end Record

namespace Registry

/-- Nothing that is stored stands in the way of the record. -/
def IsFreeFor (r : Registry) (record : Record) : Prop :=
  ∀ other, r.Stores other → ¬ record.Clashes other

variable {r r' : Registry} {entry record : Record}

theorem not_stores_empty (record : Record) : ¬ empty.Stores record := by
  cases record with
  | door d => simp [Stores, empty]
  | user u => exact UserTable.not_holds_empty u

theorem request_error {failure : AccessError}
    (refused : r.apply entry.request = (.error failure, r')) : r' = r := by
  cases entry with
  | door d => exact (insertDoor_error (aDoor_eq_error.mp refused)).2
  | user u => exact (insertUser_error (aUser_eq_error.mp refused)).2

namespace IsFreeFor

theorem admits (sound : r.Sound) (canonical : entry.canonical? = some record)
    (free : r.IsFreeFor record) : r.Admits entry := by
  obtain ⟨credited, key, _, rfl⟩ := Record.canonical?_eq_some_iff.mp canonical
  cases entry with
  | door d => trivial
  | user u =>
      refine ⟨credited u rfl, Option.eq_none_iff_forall_ne_some.mpr fun other found => ?_⟩
      obtain ⟨stored, held⟩ := sound.userOf?_eq_some_iff.mp found
      exact free _ stored (.inr held.symm)

theorem not_isTaken (free : r.IsFreeFor record) : ¬ r.IsTaken record.kind record.name := by
  rintro ⟨other, stored, kind, name⟩
  refine free other stored ?_
  cases record <;> cases other <;> simp_all [Record.kind, Record.name, Record.Clashes]

end IsFreeFor

namespace Sound

theorem request_ok (sound : r.Sound) (granted : r.apply entry.request = (.ok record, r')) :
    entry.canonical? = some record ∧ r.IsFreeFor record := by
  cases entry with
  | door d =>
      obtain ⟨door, inserted, rfl⟩ := aDoor_eq_ok granted
      obtain ⟨canonical, free, level, _⟩ := insertDoor_ok inserted
      refine ⟨by simp [Record.canonical?, canonical, ← level], fun other stored clash => ?_⟩
      cases other with
      | user u => exact clash
      | door e =>
          rw [sound.stores_door_iff, ← show door.name = e.name from clash, free] at stored
          cases stored
  | user u =>
      obtain ⟨user, inserted, rfl⟩ := aUser_eq_ok granted
      obtain ⟨canonical, present, credential, level, users, inserted, _⟩ := insertUser_ok inserted
      obtain ⟨noName, noCredential, _⟩ := UserTable.insert_ok inserted
      rw [← credential] at present
      refine ⟨by simp [Record.canonical?, canonical, present, ← level, ← credential],
        fun other stored clash => ?_⟩
      cases other with
      | door e => exact clash
      | user v =>
          rcases clash with name | held
          · have found := sound.table.findName?_eq_some_iff.mpr ⟨stored, name.symm⟩
            simp [UserTable.findName?, noName] at found
          · have found := sound.table.findCredential?_eq_some_iff.mpr ⟨stored, held.symm⟩
            simp [UserTable.findCredential?, noCredential] at found

theorem request_of_free (sound : r.Sound) (canonical : entry.canonical? = some record)
    (free : r.IsFreeFor record) :
    ∃ r', r.apply entry.request = (.ok record, r') ∧ r.Gains r' record := by
  have admits := free.admits sound canonical
  have untaken := free.not_isTaken
  obtain ⟨_, key, named, rfl⟩ := Record.canonical?_eq_some_iff.mp canonical
  rw [Record.kind_renamed, Record.name_renamed] at untaken
  rw [Record.request_eq]
  rcases sound.addition_cases admits entry.name none with
    ⟨nameless, _⟩ | ⟨key', named', ⟨taken, _⟩ | ⟨_, r', made, gains⟩⟩
  · rw [named] at nameless
    cases nameless
  · rw [named, Option.some.injEq] at named'
    exact absurd (named' ▸ taken) untaken
  · rw [named, Option.some.injEq] at named'
    subst named'
    exact ⟨r', made, gains⟩

/-- A request is granted or refused by what it comes to and what is stored. -/
theorem request_cases (sound : r.Sound) (entry : Record) :
    (∃ record r', entry.canonical? = some record ∧ r.IsFreeFor record ∧
      r.apply entry.request = (.ok record, r') ∧ r.Gains r' record) ∨
    (∀ record, entry.canonical? = some record → ¬ r.IsFreeFor record) ∧
      ∃ failure, r.apply entry.request = (.error failure, r) := by
  cases outcome : r.apply entry.request with
  | mk result r' =>
      cases result with
      | ok record =>
          obtain ⟨canonical, free⟩ := sound.request_ok outcome
          obtain ⟨r'', made, gains⟩ := sound.request_of_free canonical free
          obtain rfl : r' = r'' := congrArg Prod.snd (outcome.symm.trans made)
          exact .inl ⟨record, r', canonical, free, rfl, gains⟩
      | error failure =>
          obtain rfl := request_error outcome
          refine .inr ⟨fun record canonical free => ?_, failure, rfl⟩
          obtain ⟨r'', made, _⟩ := sound.request_of_free canonical free
          cases outcome.symm.trans made

end Sound

end Registry

end DoorAccess
