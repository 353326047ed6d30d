import DoorAccess.Registry.Basic

/-!
The document a registry is kept as: its doors and its users, each in the order of their names. A
document from elsewhere may hold anything; building a registry from it keeps the first entry for
each name and each credential.
-/
namespace DoorAccess

structure Document where
  doors : List Door := []
  users : List User := []
deriving DecidableEq, Repr

namespace Registry

/-- A registry under construction and the number of entries it has refused. -/
structure Building where
  registry : Registry
  refused : Nat

def Building.addDoor (b : Building) (entry : Door) : Building :=
  match b.registry.insertDoor entry.name entry.level with
  | (.ok _, registry) => { b with registry }
  | (.error _, _) => { b with refused := b.refused + 1 }

def Building.addUser (b : Building) (entry : User) : Building :=
  match b.registry.insertUser entry.name entry.level entry.credential with
  | (.ok _, registry) => { b with registry }
  | (.error _, _) => { b with refused := b.refused + 1 }

def ofDocument (doc : Document) : Building :=
  doc.users.foldl .addUser (doc.doors.foldl .addDoor ⟨.empty, 0⟩)

def toDocument (r : Registry) : Document where
  doors := r.doors.toList.map (·.2)
  users := r.users.toList

end Registry

end DoorAccess
