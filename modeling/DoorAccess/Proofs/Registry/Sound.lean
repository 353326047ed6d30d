import DoorAccess.Registry.Document
import DoorAccess.Proofs.Registry.Name
import DoorAccess.Proofs.Registry.Operations

/-!
Every registry there can be is sound: its records have canonical names and stand under them, and
every user has a credential. Each operation keeps it so, and so does building from a document.
-/
namespace DoorAccess.Registry

structure Sound (r : Registry) : Prop where
  door : ∀ (key : String) (door : Door), r.doors[key]? = some door →
    door.name = key ∧ Name.canonical? key = some key
  table : r.users.Sound
  user : ∀ user, r.users.Holds user →
    Name.canonical? user.name = some user.name ∧ user.credential ≠ ""

theorem sound_empty : empty.Sound where
  door := by simp [empty]
  table := UserTable.sound_empty
  user := fun user held => absurd held (UserTable.not_holds_empty user)

namespace Sound
variable {r r' : Registry}

theorem insertDoor {name : String} {level : Level} {result : Except AccessError Door}
    (sound : r.Sound) (h : r.insertDoor name level = (result, r')) : r'.Sound := by
  cases result with
  | error failure => exact (insertDoor_error h).2 ▸ sound
  | ok door =>
      obtain ⟨canonical, _, _, rfl⟩ := insertDoor_ok h
      refine ⟨?_, sound.table, sound.user⟩
      intro key other found
      simp only [Std.TreeMap.getElem?_insert, Std.LawfulEqCmp.compare_eq_iff_eq] at found
      split at found
      · next here =>
          cases found
          exact ⟨here, here ▸ Name.canonical?_canonical canonical⟩
      · exact sound.door key other found

theorem withUsers {user : User} {users : UserTable} (sound : r.Sound)
    (storable : Name.canonical? user.name = some user.name ∧ user.credential ≠ "")
    (inserted : r.users.insert user = .ok users) : Sound { r with users } := by
  refine ⟨sound.door, sound.table.insert inserted, ?_⟩
  intro other held
  rcases (sound.table.holds_insert inserted other).mp held with held | rfl
  · exact sound.user other held
  · exact storable

theorem insertUser {name credential : String} {level : Level} {result : Except AccessError User}
    (sound : r.Sound) (h : r.insertUser name level credential = (result, r')) : r'.Sound := by
  cases result with
  | error failure => exact (insertUser_error h).2 ▸ sound
  | ok user =>
      obtain ⟨canonical, present, credited, _, users, inserted, rfl⟩ := insertUser_ok h
      exact sound.withUsers ⟨Name.canonical?_canonical canonical, credited ▸ present⟩ inserted

theorem removeDoor {name : String} {result : Except AccessError Door} (sound : r.Sound)
    (h : r.removeDoor name = (result, r')) : r'.Sound := by
  cases result with
  | error failure => exact (removeDoor_error h).2.2 ▸ sound
  | ok door =>
      obtain ⟨_, rfl⟩ := removeDoor_ok h
      refine ⟨?_, sound.table, sound.user⟩
      intro key other found
      rw [Std.TreeMap.getElem?_erase] at found
      split at found
      · cases found
      · exact sound.door key other found

theorem removeUser {name : String} {result : Except AccessError User} (sound : r.Sound)
    (h : r.removeUser name = (result, r')) : r'.Sound := by
  rcases sound.table.removeName (Name.snakeCase name) with
    ⟨absent, _⟩ | ⟨user, users, removed, held, _, table, remaining⟩
  · simp only [Registry.removeUser, absent, Prod.mk.injEq] at h
    obtain ⟨_, rfl⟩ := h
    exact sound
  · simp only [Registry.removeUser, removed, Prod.mk.injEq] at h
    obtain ⟨_, rfl⟩ := h
    exact ⟨sound.door, table, fun other kept => sound.user other ((remaining other).mp kept).1⟩

theorem editDoor {old new : String} {level : Option Level} {result : Except AccessError Door}
    (sound : r.Sound) (h : r.editDoor old new level = (result, r')) : r'.Sound := by
  rw [Registry.editDoor] at h
  split at h
  · next absent =>
      cases h
      exact sound.removeDoor absent
  · next removed => exact (sound.removeDoor removed).insertDoor h

theorem editUser {old new : String} {level : Option Level} {result : Except AccessError User}
    (sound : r.Sound) (h : r.editUser old new level = (result, r')) : r'.Sound := by
  rw [Registry.editUser] at h
  split at h
  · next absent =>
      cases h
      exact sound.removeUser absent
  · next removed => exact (sound.removeUser removed).insertUser h

/-- Whether a change is made or refused, it leaves a sound registry. -/
theorem apply (sound : r.Sound) (change : Change) : (r.apply change).2.Sound := by
  cases change with
  | addDoor name level =>
      simp only [Registry.apply, apply.aDoor]
      exact sound.insertDoor (Prod.eta _).symm
  | addUser name level credential =>
      simp only [Registry.apply, apply.aUser]
      exact sound.insertUser (Prod.eta _).symm
  | remove kind name =>
      cases kind with
      | door =>
          simp only [Registry.apply, apply.aDoor]
          exact sound.removeDoor (Prod.eta _).symm
      | user =>
          simp only [Registry.apply, apply.aUser]
          exact sound.removeUser (Prod.eta _).symm
  | edit kind old new level =>
      cases kind with
      | door =>
          simp only [Registry.apply, apply.aDoor]
          exact sound.editDoor (Prod.eta _).symm
      | user =>
          simp only [Registry.apply, apply.aUser]
          exact sound.editUser (Prod.eta _).symm

end Sound

theorem sound_addDoor {b : Building} (sound : b.registry.Sound) (entry : Door) :
    (b.addDoor entry).registry.Sound := by
  rw [Building.addDoor]
  split
  · next inserted => exact sound.insertDoor inserted
  · exact sound

theorem sound_addUser {b : Building} (sound : b.registry.Sound) (entry : User) :
    (b.addUser entry).registry.Sound := by
  rw [Building.addUser]
  split
  · next inserted => exact sound.insertUser inserted
  · exact sound

/-- Whatever the document holds, the registry built from it is sound. -/
theorem sound_ofDocument (doc : Document) : (ofDocument doc).registry.Sound := by
  have doors : (doc.doors.foldl Building.addDoor ⟨empty, 0⟩).registry.Sound := by
    refine List.foldlRecOn (motive := fun b : Building => b.registry.Sound) _ _ sound_empty ?_
    exact fun b sound entry _ => sound_addDoor sound entry
  refine List.foldlRecOn (motive := fun b : Building => b.registry.Sound) _ _ doors ?_
  exact fun b sound entry _ => sound_addUser sound entry

end DoorAccess.Registry
