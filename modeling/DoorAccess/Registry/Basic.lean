import DoorAccess.Name
import DoorAccess.Registry.UserTable

/-!
The registry of doors and users, and the decision whether a credential opens a door.

A record is stored under its canonical name. Editing takes the record out and puts it back under
its new name, so a failed edit leaves it out: who needs all or nothing works on a copy.
-/
namespace DoorAccess

/-- A door or a user that an operation has stored or taken out. -/
inductive Record
  | door (door : Door)
  | user (user : User)
deriving DecidableEq, Repr

structure Registry where
  doors : Std.TreeMap String Door := ∅
  users : UserTable := {}

namespace Registry

def empty : Registry := {}

def door? (r : Registry) (name : String) : Option Door := r.doors[Name.snakeCase name]?

def user? (r : Registry) (name : String) : Option User := r.users.findName? (Name.snakeCase name)

def userOf? (r : Registry) (credential : String) : Option User := r.users.findCredential? credential

def doorCount (r : Registry) : Nat := r.doors.size

def userCount (r : Registry) : Nat := r.users.size

/-- Decides on a request and names the user whose credential it is. An unknown door is answered
without looking at the credential. -/
def authorize (r : Registry) (door credential : String) : Decision × Option User :=
  match r.door? door with
  | none => (.unknownDoor, none)
  | some door =>
    match r.userOf? credential with
    | none => (.denied, none)
    | some user => (if door.level ≤ user.level then .approved else .denied, some user)

def insertDoor (r : Registry) (name : String) (level : Level) :
    Except AccessError Door × Registry :=
  match Name.canonical? name with
  | none => (.error .badSyntax, r)
  | some name =>
    if r.doors.contains name then
      (.error .doorExists, r)
    else
      (.ok ⟨name, level⟩, { r with doors := r.doors.insert name ⟨name, level⟩ })

def insertUser (r : Registry) (name : String) (level : Level) (credential : String) :
    Except AccessError User × Registry :=
  match Name.canonical? name with
  | none => (.error .badSyntax, r)
  | some name =>
    if credential = "" then
      (.error .badSyntax, r)
    else
      match r.users.insert ⟨name, credential, level⟩ with
      | .error e => (.error e, r)
      | .ok users => (.ok ⟨name, credential, level⟩, { r with users })

def removeDoor (r : Registry) (name : String) : Except AccessError Door × Registry :=
  match r.door? name with
  | none => (.error .doorNotFound, r)
  | some door => (.ok door, { r with doors := r.doors.erase (Name.snakeCase name) })

def removeUser (r : Registry) (name : String) : Except AccessError User × Registry :=
  match r.users.removeName (Name.snakeCase name) with
  | (none, users) => (.error .userNotFound, { r with users })
  | (some user, users) => (.ok user, { r with users })

def editDoor (r : Registry) (old new : String) (level : Option Level) :
    Except AccessError Door × Registry :=
  match r.removeDoor old with
  | (.error e, r) => (.error e, r)
  | (.ok door, r) => r.insertDoor new (level.getD door.level)

/-- Renames a user, and changes the level if one is given. The credential stays. -/
def editUser (r : Registry) (old new : String) (level : Option Level) :
    Except AccessError User × Registry :=
  match r.removeUser old with
  | (.error e, r) => (.error e, r)
  | (.ok user, r) => r.insertUser new (level.getD user.level) user.credential

end Registry

inductive Change
  | addDoor (name : String) (level : Level)
  | addUser (name : String) (level : Level) (credential : String)
  | remove (kind : RecordKind) (name : String)
  | edit (kind : RecordKind) (old new : String) (level : Option Level)
deriving DecidableEq, Repr

namespace Registry

def apply (r : Registry) (change : Change) : Except AccessError Record × Registry :=
  match change with
  | .addDoor name level => aDoor (r.insertDoor name level)
  | .addUser name level credential => aUser (r.insertUser name level credential)
  | .remove .door name => aDoor (r.removeDoor name)
  | .remove .user name => aUser (r.removeUser name)
  | .edit .door old new level => aDoor (r.editDoor old new level)
  | .edit .user old new level => aUser (r.editUser old new level)
where
  aDoor (result : Except AccessError Door × Registry) : Except AccessError Record × Registry :=
    (result.1.map .door, result.2)
  aUser (result : Except AccessError User × Registry) : Except AccessError Record × Registry :=
    (result.1.map .user, result.2)

end Registry

end DoorAccess
