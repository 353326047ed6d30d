import DoorAccess.Proofs.Registry.Name
import DoorAccess.Proofs.Registry.Operations

/-!
The record that a change is about. What was added or edited is found afterwards under its own name
with the very values that the answer gives; what was removed was there before and is there no more.
-/
namespace DoorAccess

namespace UserTable
variable {t t' : UserTable} {user : User} {name : String}

theorem find_insert (h : t.insert user = .ok t') :
    t'.findName? user.name = some user ∧ t'.findCredential? user.credential = some user := by
  obtain ⟨_, _, rfl⟩ := insert_ok h
  simp [findName?, findCredential?]

theorem find_removeName (h : t.removeName name = (some user, t')) :
    t.findName? name = some user ∧ t'.findName? name = none := by
  rw [removeName] at h
  split at h
  · cases h
  · next id led =>
      split at h
      · cases h
      · next stored =>
          cases h
          simp [findName?, led, stored]

end UserTable

namespace Registry

/-- The record is found under its name, and a user under the credential too. -/
def Has (r : Registry) : Record → Prop
  | .door door => r.door? door.name = some door
  | .user user => r.user? user.name = some user ∧ r.userOf? user.credential = some user

/-- A change was made, and this is the record it leaves, or the one it has taken out. -/
inductive Done (before after : Registry) : Change → Record → Prop
  | addedDoor (name key : String) (level : Level) (canonical : Name.canonical? name = some key)
      (has : after.Has (.door ⟨key, level⟩)) : Done before after (.addDoor name level)
        (.door ⟨key, level⟩)
  | addedUser (name key : String) (level : Level) (credential : String)
      (canonical : Name.canonical? name = some key)
      (has : after.Has (.user ⟨key, credential, level⟩)) :
      Done before after (.addUser name level credential) (.user ⟨key, credential, level⟩)
  | removedDoor (name : String) (door : Door) (was : before.door? name = some door)
      (gone : after.door? name = none) : Done before after (.remove .door name) (.door door)
  | removedUser (name : String) (user : User) (was : before.user? name = some user)
      (gone : after.user? name = none) : Done before after (.remove .user name) (.user user)
  | editedDoor (old new key : String) (level : Option Level) (door : Door)
      (was : before.door? old = some door) (canonical : Name.canonical? new = some key)
      (has : after.Has (.door ⟨key, level.getD door.level⟩)) :
      Done before after (.edit .door old new level) (.door ⟨key, level.getD door.level⟩)
  | editedUser (old new key : String) (level : Option Level) (user : User)
      (was : before.user? old = some user) (canonical : Name.canonical? new = some key)
      (has : after.Has (.user ⟨key, user.credential, level.getD user.level⟩)) :
      Done before after (.edit .user old new level)
        (.user ⟨key, user.credential, level.getD user.level⟩)

section Operations
variable {r r' : Registry} {name credential : String} {level : Level}

theorem has_insertDoor {door : Door} (h : r.insertDoor name level = (.ok door, r')) :
    ∃ key, Name.canonical? name = some key ∧ door = ⟨key, level⟩ ∧ r'.Has (.door door) := by
  obtain ⟨canonical, _, rfl, rfl⟩ := insertDoor_ok h
  exact ⟨door.name, canonical, rfl, by simp [Has, door?, Name.snakeCase_of_canonical? canonical]⟩

theorem has_insertUser {user : User} (h : r.insertUser name level credential = (.ok user, r')) :
    ∃ key, Name.canonical? name = some key ∧ user = ⟨key, credential, level⟩ ∧
      r'.Has (.user user) := by
  obtain ⟨canonical, _, rfl, rfl, users, inserted, rfl⟩ := insertUser_ok h
  obtain ⟨named, credited⟩ := UserTable.find_insert inserted
  refine ⟨user.name, canonical, rfl, ?_, credited⟩
  rwa [user?, Name.snakeCase_of_canonical? canonical]

theorem gone_removeDoor {door : Door} (h : r.removeDoor name = (.ok door, r')) :
    r.door? name = some door ∧ r'.door? name = none := by
  obtain ⟨was, rfl⟩ := removeDoor_ok h
  exact ⟨was, by simp [door?]⟩

theorem gone_removeUser {user : User} (h : r.removeUser name = (.ok user, r')) :
    r.user? name = some user ∧ r'.user? name = none := by
  rw [removeUser] at h
  split at h
  · cases h
  · next removed =>
      cases h
      exact UserTable.find_removeName removed

theorem done_apply {change : Change} {record : Record} (h : r.apply change = (.ok record, r')) :
    Done r r' change record := by
  cases change with
  | addDoor name level =>
      obtain ⟨door, added, rfl⟩ := aDoor_eq_ok h
      obtain ⟨key, canonical, rfl, has⟩ := has_insertDoor added
      exact .addedDoor name key level canonical has
  | addUser name level credential =>
      obtain ⟨user, added, rfl⟩ := aUser_eq_ok h
      obtain ⟨key, canonical, rfl, has⟩ := has_insertUser added
      exact .addedUser name key level credential canonical has
  | remove kind name =>
      cases kind with
      | door =>
          obtain ⟨door, removed, rfl⟩ := aDoor_eq_ok h
          obtain ⟨was, gone⟩ := gone_removeDoor removed
          exact .removedDoor name door was gone
      | user =>
          obtain ⟨user, removed, rfl⟩ := aUser_eq_ok h
          obtain ⟨was, gone⟩ := gone_removeUser removed
          exact .removedUser name user was gone
  | edit kind old new level =>
      cases kind with
      | door =>
          obtain ⟨door, edited, rfl⟩ := aDoor_eq_ok h
          rw [editDoor] at edited
          split at edited
          · cases edited
          · next before left removed =>
              obtain ⟨key, canonical, rfl, has⟩ := has_insertDoor edited
              exact .editedDoor old new key level before (gone_removeDoor removed).1 canonical has
      | user =>
          obtain ⟨user, edited, rfl⟩ := aUser_eq_ok h
          rw [editUser] at edited
          split at edited
          · cases edited
          · next before left removed =>
              obtain ⟨key, canonical, rfl, has⟩ := has_insertUser edited
              exact .editedUser old new key level before (gone_removeUser removed).1 canonical has

end Operations

end Registry

end DoorAccess
