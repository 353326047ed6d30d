import DoorAccess.Proofs.Registry.Sound

/-!
Changes that are not refused for their syntax. A change can be stored if the name it stores under
has a canonical form and a new user has a credential; what an edit puts back was stored before, so
its credential is there in every sound registry.
-/
namespace DoorAccess

/-- Whatever the change stores has a key to be stored under, and a credential if it is a new
user. -/
def Change.IsStorable : Change → Prop
  | .addDoor name _ => Name.canonical? name ≠ none
  | .addUser name _ credential => Name.canonical? name ≠ none ∧ credential ≠ ""
  | .remove _ _ => True
  | .edit _ _ new _ => Name.canonical? new ≠ none

namespace Registry
variable {r r' : Registry} {name credential : String} {level : Level} {failure : AccessError}

theorem insertDoor_ne_badSyntax (named : Name.canonical? name ≠ none)
    (h : r.insertDoor name level = (.error failure, r')) : failure ≠ .badSyntax := by
  rcases (insertDoor_reason h).1 with ⟨_, nameless⟩ | rfl
  · exact absurd nameless named
  · nofun

theorem insertUser_ne_badSyntax (named : Name.canonical? name ≠ none) (present : credential ≠ "")
    (h : r.insertUser name level credential = (.error failure, r')) : failure ≠ .badSyntax := by
  rcases (insertUser_reason h).1 with ⟨_, nameless | nothing⟩ | rfl | rfl
  · exact absurd nameless named
  · exact absurd nothing present
  · nofun
  · nofun

theorem removeDoor_ne_badSyntax (h : r.removeDoor name = (.error failure, r')) :
    failure ≠ .badSyntax := by
  rw [(removeDoor_error h).1]
  nofun

theorem removeUser_ne_badSyntax (h : r.removeUser name = (.error failure, r')) :
    failure ≠ .badSyntax := by
  rw [(removeUser_error h).1]
  nofun

theorem editDoor_ne_badSyntax {old new : String} {level : Option Level}
    (named : Name.canonical? new ≠ none) (h : r.editDoor old new level = (.error failure, r')) :
    failure ≠ .badSyntax := by
  rw [editDoor] at h
  split at h
  · next absent =>
      cases h
      exact removeDoor_ne_badSyntax absent
  · exact insertDoor_ne_badSyntax named h

namespace Sound

theorem credential_of_removeUser {user : User} (sound : r.Sound)
    (h : r.removeUser name = (.ok user, r')) : user.credential ≠ "" := by
  rcases sound.table.removeName (Name.snakeCase name) with
    ⟨absent, _⟩ | ⟨stored, users, removed, held, _⟩
  · simp [Registry.removeUser, absent] at h
  · simp only [Registry.removeUser, removed, Prod.mk.injEq, Except.ok.injEq] at h
    obtain ⟨rfl, _⟩ := h
    exact (sound.user stored held).2

theorem editUser_ne_badSyntax {old new : String} {level : Option Level} (sound : r.Sound)
    (named : Name.canonical? new ≠ none) (h : r.editUser old new level = (.error failure, r')) :
    failure ≠ .badSyntax := by
  rw [Registry.editUser] at h
  split at h
  · next absent =>
      cases h
      exact removeUser_ne_badSyntax absent
  · next removed => exact insertUser_ne_badSyntax named (sound.credential_of_removeUser removed) h

theorem apply_ne_badSyntax {change : Change} (sound : r.Sound) (storable : change.IsStorable)
    (h : r.apply change = (.error failure, r')) : failure ≠ .badSyntax := by
  cases change with
  | addDoor name level =>
      rw [Registry.apply, aDoor_eq_error] at h
      exact insertDoor_ne_badSyntax storable h
  | addUser name level credential =>
      rw [Registry.apply, aUser_eq_error] at h
      exact insertUser_ne_badSyntax storable.1 storable.2 h
  | remove kind name =>
      cases kind with
      | door =>
          rw [Registry.apply, aDoor_eq_error] at h
          exact removeDoor_ne_badSyntax h
      | user =>
          rw [Registry.apply, aUser_eq_error] at h
          exact removeUser_ne_badSyntax h
  | edit kind old new level =>
      cases kind with
      | door =>
          rw [Registry.apply, aDoor_eq_error] at h
          exact editDoor_ne_badSyntax storable h
      | user =>
          rw [Registry.apply, aUser_eq_error] at h
          exact sound.editUser_ne_badSyntax storable h

end Sound

end Registry

end DoorAccess
