import DoorAccess.Error
import DoorAccess.Registry.Record
import Std.Data.TreeMap

/-!
The users, stored once under a number of their own and found by name or by credential. No two
users share a name or a credential, and both indices always lead to the user they were made for.
-/
namespace DoorAccess

structure UserTable where
  records : Std.TreeMap Nat User := ∅
  byName : Std.TreeMap String Nat := ∅
  byCredential : Std.TreeMap String Nat := ∅
  /-- A number no user has had yet. -/
  nextId : Nat := 0

namespace UserTable

def findName? (t : UserTable) (name : String) : Option User :=
  t.byName[name]?.bind fun id => t.records[id]?

def findCredential? (t : UserTable) (credential : String) : Option User :=
  t.byCredential[credential]?.bind fun id => t.records[id]?

def size (t : UserTable) : Nat := t.records.size

def isEmpty (t : UserTable) : Bool := t.records.isEmpty

/-- The users in the order of their names. -/
def toList (t : UserTable) : List User :=
  t.byName.toList.filterMap fun (_, id) => t.records[id]?

def insert (t : UserTable) (user : User) : Except AccessError UserTable :=
  if t.byName.contains user.name then
    .error .userExists
  else if t.byCredential.contains user.credential then
    .error .credentialInUse
  else
    .ok {
      records := t.records.insert t.nextId user
      byName := t.byName.insert user.name t.nextId
      byCredential := t.byCredential.insert user.credential t.nextId
      nextId := t.nextId + 1
    }

def removeName (t : UserTable) (name : String) : Option User × UserTable :=
  match t.byName[name]? with
  | none => (none, t)
  | some id =>
    match t.records[id]? with
    | none => (none, { t with byName := t.byName.erase name })
    | some user =>
      (some user, {
        records := t.records.erase id
        byName := t.byName.erase name
        byCredential := t.byCredential.erase user.credential
        nextId := t.nextId
      })

/-- Whether each index has one entry for each user and leads from the user's own key to it. -/
def isConsistent (t : UserTable) : Bool :=
  t.byName.size == t.records.size && t.byCredential.size == t.records.size &&
    t.records.toList.all fun (id, user) =>
      t.byName[user.name]? == some id && t.byCredential[user.credential]? == some id

end UserTable

end DoorAccess
