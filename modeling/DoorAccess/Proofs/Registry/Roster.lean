import DoorAccess.Registry.Basic
import DoorAccess.Proofs.Registry.Name
import Mathlib.Data.Finmap

/-!
The registry as it looks from outside: a finite map from the names of the doors to their levels, and
a finite set of users. Nothing is indexed or numbered here, and a roster that breaks the rules on
names and credentials cannot be built.
-/
namespace DoorAccess

structure Roster where
  doors : Finmap fun _ : String => Level
  users : Finset User
  canonical : ∀ name ∈ doors, Name.canonical? name = some name
  storable : ∀ user ∈ users, Name.canonical? user.name = some user.name ∧ user.credential ≠ ""
  named : Set.InjOn User.name users
  credited : Set.InjOn User.credential users

namespace Roster

def empty : Roster where
  doors := ∅
  users := ∅
  canonical := fun _ member => absurd member Finmap.notMem_empty
  storable := by simp
  named := by simp
  credited := by simp

/-! ### Lookups -/

section Find
variable {users : Finset User} {key : User → String}

theorem existsUnique_of_injOn (unique : Set.InjOn key users) {k : String}
    (found : ∃ user ∈ users, key user = k) : ∃! user, user ∈ users ∧ key user = k := by
  obtain ⟨user, member, here⟩ := found
  exact ⟨user, ⟨member, here⟩, fun other h => unique h.1 member (h.2.trans here.symm)⟩

/-- The only user of the set that has the key, if one has it. -/
def find? (users : Finset User) (key : User → String) (unique : Set.InjOn key users) (k : String) :
    Option User :=
  if found : ∃ user ∈ users, key user = k then
    some (users.choose (fun user => key user = k) (existsUnique_of_injOn unique found))
  else
    none

theorem find?_eq_some_iff {unique : Set.InjOn key users} {k : String} {user : User} :
    find? users key unique k = some user ↔ user ∈ users ∧ key user = k := by
  rw [find?]
  split
  · next found =>
      have only := existsUnique_of_injOn unique found
      have chosen := users.choose_spec (fun user => key user = k) only
      rw [Option.some.injEq]
      constructor
      · rintro rfl
        exact chosen
      · exact fun this => only.unique chosen this
  · next absent =>
      simp only [reduceCtorEq, false_iff]
      exact fun this => absent ⟨user, this⟩

end Find

def door? (s : Roster) (name : String) : Option Door :=
  (s.doors.lookup (Name.snakeCase name)).map (Door.mk (Name.snakeCase name))

def user? (s : Roster) (name : String) : Option User :=
  find? s.users User.name s.named (Name.snakeCase name)

def userOf? (s : Roster) (credential : String) : Option User :=
  find? s.users User.credential s.credited credential

/-- What is to be answered to a request. -/
inductive Answers (s : Roster) (door credential : String) : Decision × Option User → Prop
  | unknown (absent : Name.snakeCase door ∉ s.doors) :
      Answers s door credential (.unknownDoor, none)
  | approved {level : Level} {user : User}
      (known : s.doors.lookup (Name.snakeCase door) = some level) (member : user ∈ s.users)
      (holder : user.credential = credential) (enough : level ≤ user.level) :
      Answers s door credential (.approved, some user)
  | tooLow {level : Level} {user : User}
      (known : s.doors.lookup (Name.snakeCase door) = some level) (member : user ∈ s.users)
      (holder : user.credential = credential) (below : user.level < level) :
      Answers s door credential (.denied, some user)
  | nobody (known : Name.snakeCase door ∈ s.doors)
      (unheld : ∀ user ∈ s.users, user.credential ≠ credential) :
      Answers s door credential (.denied, none)

theorem Answers.unique {s : Roster} {door credential : String} {a b : Decision × Option User}
    (ha : s.Answers door credential a) (hb : s.Answers door credential b) : a = b := by
  cases ha with
  | unknown absent =>
      cases hb with
      | unknown => rfl
      | approved known | tooLow known => exact absurd (Finmap.mem_of_lookup_eq_some known) absent
      | nobody known => exact absurd known absent
  | approved known member holder enough =>
      cases hb with
      | unknown absent => exact absurd (Finmap.mem_of_lookup_eq_some known) absent
      | approved known' member' holder' =>
          rw [s.credited member member' (holder.trans holder'.symm)]
      | tooLow known' member' holder' below =>
          cases s.credited member member' (holder.trans holder'.symm)
          cases known.symm.trans known'
          exact absurd enough (UInt8.not_le.mpr below)
      | nobody _ unheld => exact absurd holder (unheld _ member)
  | tooLow known member holder below =>
      cases hb with
      | unknown absent => exact absurd (Finmap.mem_of_lookup_eq_some known) absent
      | approved known' member' holder' enough =>
          cases s.credited member member' (holder.trans holder'.symm)
          cases known.symm.trans known'
          exact absurd enough (UInt8.not_le.mpr below)
      | tooLow known' member' holder' =>
          rw [s.credited member member' (holder.trans holder'.symm)]
      | nobody _ unheld => exact absurd holder (unheld _ member)
  | nobody known unheld =>
      cases hb with
      | unknown absent => exact absurd known absent
      | approved _ member holder | tooLow _ member holder => exact absurd holder (unheld _ member)
      | nobody => rfl

/-! ### Changes -/

def withDoor (s : Roster) (door : Door) (canonical : Name.canonical? door.name = some door.name) :
    Roster where
  doors := s.doors.insert door.name door.level
  users := s.users
  canonical := by
    intro name member
    cases Finmap.mem_insert.mp member with
    | inl here => exact here ▸ canonical
    | inr before => exact s.canonical name before
  storable := s.storable
  named := s.named
  credited := s.credited

theorem injOn_insert {users : Finset User} {key : User → String} (unique : Set.InjOn key users)
    {user : User} (free : ∀ other ∈ users, key other ≠ key user) :
    Set.InjOn key (insert user users : Finset User) := by
  intro a ha b hb same
  simp only [Finset.coe_insert, Set.mem_insert_iff, Finset.mem_coe] at ha hb
  rcases ha with rfl | ha <;> rcases hb with rfl | hb
  · rfl
  · exact absurd same.symm (free b hb)
  · exact absurd same (free a ha)
  · exact unique ha hb same

def withUser (s : Roster) (user : User)
    (storable : Name.canonical? user.name = some user.name ∧ user.credential ≠ "")
    (newName : ∀ other ∈ s.users, other.name ≠ user.name)
    (newCredential : ∀ other ∈ s.users, other.credential ≠ user.credential) : Roster where
  doors := s.doors
  users := insert user s.users
  canonical := s.canonical
  storable := by
    intro other member
    cases Finset.mem_insert.mp member with
    | inl here => exact here ▸ storable
    | inr before => exact s.storable other before
  named := injOn_insert s.named newName
  credited := injOn_insert s.credited newCredential

def withoutDoor (s : Roster) (name : String) : Roster where
  doors := s.doors.erase name
  users := s.users
  canonical := fun name member => s.canonical name (Finmap.mem_erase.mp member).2
  storable := s.storable
  named := s.named
  credited := s.credited

def withoutUser (s : Roster) (user : User) : Roster where
  doors := s.doors
  users := s.users.erase user
  canonical := s.canonical
  storable := fun other member => s.storable other (Finset.mem_of_mem_erase member)
  named := s.named.mono (Finset.coe_subset.mpr (Finset.erase_subset user s.users))
  credited := s.credited.mono (Finset.coe_subset.mpr (Finset.erase_subset user s.users))

def insertDoor (s : Roster) (name : String) (level : Level) : Except AccessError Door × Roster :=
  match canonical : Name.canonical? name with
  | none => (.error .badSyntax, s)
  | some name =>
    if name ∈ s.doors then
      (.error .doorExists, s)
    else
      (.ok ⟨name, level⟩, s.withDoor ⟨name, level⟩ (Name.canonical?_canonical canonical))

/-- A name or a credential that is empty is refused first, then a name that somebody has, then a
credential that somebody has. -/
def insertUser (s : Roster) (name : String) (level : Level) (credential : String) :
    Except AccessError User × Roster :=
  match canonical : Name.canonical? name with
  | none => (.error .badSyntax, s)
  | some name =>
    if noCredential : credential = "" then
      (.error .badSyntax, s)
    else if nameTaken : ∃ other ∈ s.users, other.name = name then
      (.error .userExists, s)
    else if credentialTaken : ∃ other ∈ s.users, other.credential = credential then
      (.error .credentialInUse, s)
    else
      (.ok ⟨name, credential, level⟩,
        s.withUser ⟨name, credential, level⟩ ⟨Name.canonical?_canonical canonical, noCredential⟩
          (fun other member same => nameTaken ⟨other, member, same⟩)
          (fun other member same => credentialTaken ⟨other, member, same⟩))

def removeDoor (s : Roster) (name : String) : Except AccessError Door × Roster :=
  match s.door? name with
  | none => (.error .doorNotFound, s)
  | some door => (.ok door, s.withoutDoor (Name.snakeCase name))

def removeUser (s : Roster) (name : String) : Except AccessError User × Roster :=
  match s.user? name with
  | none => (.error .userNotFound, s)
  | some user => (.ok user, s.withoutUser user)

/-- The door is gone also if it cannot be put back. -/
def editDoor (s : Roster) (old new : String) (level : Option Level) :
    Except AccessError Door × Roster :=
  match s.removeDoor old with
  | (.error e, s) => (.error e, s)
  | (.ok door, s) => s.insertDoor new (level.getD door.level)

def editUser (s : Roster) (old new : String) (level : Option Level) :
    Except AccessError User × Roster :=
  match s.removeUser old with
  | (.error e, s) => (.error e, s)
  | (.ok user, s) => s.insertUser new (level.getD user.level) user.credential

def apply (s : Roster) : Change → Except AccessError Record × Roster
  | .addDoor name level => (s.insertDoor name level).map (Except.map .door) id
  | .addUser name level credential => (s.insertUser name level credential).map (Except.map .user) id
  | .remove .door name => (s.removeDoor name).map (Except.map .door) id
  | .remove .user name => (s.removeUser name).map (Except.map .user) id
  | .edit .door old new level => (s.editDoor old new level).map (Except.map .door) id
  | .edit .user old new level => (s.editUser old new level).map (Except.map .user) id

end Roster

end DoorAccess
