import DoorAccess.Registry.Basic
import DoorAccess.Proofs.Registry.UserTable

/-!
What the operations of the registry can do. Each either refuses, for one of six reasons, or makes
the one change it is named after.
-/
namespace DoorAccess

/-- The reasons for which the registry itself refuses a change. -/
def AccessError.refusals : List AccessError :=
  [.badSyntax, .doorExists, .userExists, .credentialInUse, .doorNotFound, .userNotFound]

namespace Registry
variable {r r' : Registry} {name credential : String} {level : Level} {failure : AccessError}

/-- The reasons for which no door is added. -/
theorem insertDoor_reason (h : r.insertDoor name level = (.error failure, r')) :
    ((failure = .badSyntax ∧ Name.canonical? name = none) ∨ failure = .doorExists) ∧ r' = r := by
  rw [insertDoor] at h
  split at h
  · next nothing =>
      cases h
      exact ⟨.inl ⟨rfl, nothing⟩, rfl⟩
  · split at h
    · cases h
      exact ⟨.inr rfl, rfl⟩
    · cases h

theorem insertDoor_error (h : r.insertDoor name level = (.error failure, r')) :
    failure ∈ AccessError.refusals ∧ r' = r := by
  obtain ⟨reason, same⟩ := insertDoor_reason h
  refine ⟨?_, same⟩
  rcases reason with ⟨rfl, _⟩ | rfl <;> simp [AccessError.refusals]

theorem insertDoor_ok {door : Door} (h : r.insertDoor name level = (.ok door, r')) :
    Name.canonical? name = some door.name ∧ r.doors[door.name]? = none ∧ door.level = level ∧
      r' = { r with doors := r.doors.insert door.name door } := by
  rw [insertDoor] at h
  split at h
  · cases h
  · next key canonical =>
      split at h
      · cases h
      · next free =>
          cases h
          exact ⟨canonical, by simpa using free, rfl, rfl⟩

/-- The reasons for which no user is added. -/
theorem insertUser_reason (h : r.insertUser name level credential = (.error failure, r')) :
    ((failure = .badSyntax ∧ (Name.canonical? name = none ∨ credential = "")) ∨
      failure = .userExists ∨ failure = .credentialInUse) ∧ r' = r := by
  rw [insertUser] at h
  split at h
  · next nothing =>
      cases h
      exact ⟨.inl ⟨rfl, .inl nothing⟩, rfl⟩
  · split at h
    · next nothing =>
        cases h
        exact ⟨.inl ⟨rfl, .inr nothing⟩, rfl⟩
    · split at h
      · next refused =>
          cases h
          exact ⟨.inr (UserTable.insert_error refused), rfl⟩
      · cases h

theorem insertUser_error (h : r.insertUser name level credential = (.error failure, r')) :
    failure ∈ AccessError.refusals ∧ r' = r := by
  obtain ⟨reason, same⟩ := insertUser_reason h
  refine ⟨?_, same⟩
  rcases reason with ⟨rfl, _⟩ | rfl | rfl <;> simp [AccessError.refusals]

theorem insertUser_ok {user : User} (h : r.insertUser name level credential = (.ok user, r')) :
    Name.canonical? name = some user.name ∧ credential ≠ "" ∧ user.credential = credential ∧
      user.level = level ∧ ∃ users, r.users.insert user = .ok users ∧ r' = { r with users } := by
  rw [insertUser] at h
  split at h
  · cases h
  · next key canonical =>
      split at h
      · cases h
      · next present =>
          split at h
          · cases h
          · next users inserted =>
              cases h
              exact ⟨canonical, present, rfl, rfl, users, inserted, rfl⟩

theorem removeDoor_error (h : r.removeDoor name = (.error failure, r')) :
    failure = .doorNotFound ∧ r.door? name = none ∧ r' = r := by
  rw [removeDoor] at h
  split at h
  · next absent =>
      cases h
      exact ⟨rfl, absent, rfl⟩
  · cases h

theorem removeDoor_ok {door : Door} (h : r.removeDoor name = (.ok door, r')) :
    r.door? name = some door ∧ r' = { r with doors := r.doors.erase (Name.snakeCase name) } := by
  rw [removeDoor] at h
  split at h
  · cases h
  · next found =>
      cases h
      exact ⟨found, rfl⟩

theorem removeUser_error (h : r.removeUser name = (.error failure, r')) :
    failure = .userNotFound ∧
      ∃ users, r.users.removeName (Name.snakeCase name) = (none, users) ∧ r' = { r with users } := by
  rw [removeUser] at h
  split at h
  · next users absent =>
      cases h
      exact ⟨rfl, users, absent, rfl⟩
  · cases h

theorem editDoor_error {old new : String} {level : Option Level}
    (h : r.editDoor old new level = (.error failure, r')) : failure ∈ AccessError.refusals := by
  rw [editDoor] at h
  split at h
  · next absent =>
      cases h
      obtain ⟨rfl, _⟩ := removeDoor_error absent
      simp [AccessError.refusals]
  · exact (insertDoor_error h).1

theorem editUser_error {old new : String} {level : Option Level}
    (h : r.editUser old new level = (.error failure, r')) : failure ∈ AccessError.refusals := by
  rw [editUser] at h
  split at h
  · next absent =>
      cases h
      obtain ⟨rfl, _⟩ := removeUser_error absent
      simp [AccessError.refusals]
  · exact (insertUser_error h).1

theorem aDoor_eq_error {result : Except AccessError Door × Registry} :
    apply.aDoor result = (.error failure, r') ↔ result = (.error failure, r') := by
  obtain ⟨outcome, left⟩ := result
  cases outcome <;> simp [apply.aDoor, Except.map]

theorem aUser_eq_error {result : Except AccessError User × Registry} :
    apply.aUser result = (.error failure, r') ↔ result = (.error failure, r') := by
  obtain ⟨outcome, left⟩ := result
  cases outcome <;> simp [apply.aUser, Except.map]

theorem aDoor_eq_ok {result : Except AccessError Door × Registry} {record : Record}
    (h : apply.aDoor result = (.ok record, r')) :
    ∃ door, result = (.ok door, r') ∧ record = .door door := by
  obtain ⟨outcome, left⟩ := result
  cases outcome with
  | error => cases h
  | ok stored =>
      cases h
      exact ⟨stored, rfl, rfl⟩

theorem aUser_eq_ok {result : Except AccessError User × Registry} {record : Record}
    (h : apply.aUser result = (.ok record, r')) :
    ∃ user, result = (.ok user, r') ∧ record = .user user := by
  obtain ⟨outcome, left⟩ := result
  cases outcome with
  | error => cases h
  | ok stored =>
      cases h
      exact ⟨stored, rfl, rfl⟩

theorem apply_error {change : Change} (h : r.apply change = (.error failure, r')) :
    failure ∈ AccessError.refusals := by
  have missing : failure = .doorNotFound ∨ failure = .userNotFound →
      failure ∈ AccessError.refusals := by
    intro lost
    cases lost with
    | inl door => simp [door, AccessError.refusals]
    | inr user => simp [user, AccessError.refusals]
  cases change with
  | addDoor name level =>
      rw [apply, aDoor_eq_error] at h
      exact (insertDoor_error h).1
  | addUser name level credential =>
      rw [apply, aUser_eq_error] at h
      exact (insertUser_error h).1
  | remove kind name =>
      cases kind with
      | door =>
          rw [apply, aDoor_eq_error] at h
          exact missing (.inl (removeDoor_error h).1)
      | user =>
          rw [apply, aUser_eq_error] at h
          exact missing (.inr (removeUser_error h).1)
  | edit kind old new level =>
      cases kind with
      | door =>
          rw [apply, aDoor_eq_error] at h
          exact editDoor_error h
      | user =>
          rw [apply, aUser_eq_error] at h
          exact editUser_error h

end Registry

end DoorAccess
