import DoorAccess.Store.Basic

/-!
The registry together with the file it is kept in. A change is tried on a copy, the copy is
written, and only then does it become the registry. What fails changes neither.
-/
namespace DoorAccess

structure Authorization where
  decision : Decision
  /-- The canonical name of a registered door, the requested text otherwise. -/
  door : String
  user : Option User
deriving DecidableEq, Repr

structure Engine where
  registry : Registry
  store : Store
  /-- How many doors and users were registered when the registry last changed. -/
  doorGauge : Nat
  userGauge : Nat
  /-- How often the file was written since the start, and how often writing it failed. -/
  writes : Nat
  writeFailures : Nat

namespace Engine

def install (e : Engine) (registry : Registry) : Engine :=
  { e with registry, doorGauge := registry.doorCount, userGauge := registry.userCount }

/-- Builds the registry from the file, and writes the file anew if it holds anything else. -/
def «open» (store : Store) (number : UInt32) (d : Disk) (faults : Disk.Faults := []) :
    Except AccessError Engine × Disk :=
  let (doc, state) := store.load d
  let built := Registry.ofDocument doc
  let engine : Engine := ⟨built.registry, store, built.registry.doorCount,
    built.registry.userCount, 0, 0⟩
  if state ≠ .loaded ∨ 0 < built.refused ∨ built.registry.toDocument ≠ doc then
    let (written, d) := store.writeAtomic built.registry.toDocument number d faults
    (written.map fun _ => engine, d)
  else
    (.ok engine, d)

def authorize (e : Engine) (door credential : String) : Authorization :=
  let (decision, user) := e.registry.authorize door credential
  ⟨decision, ((e.registry.door? door).map (·.name)).getD door, user⟩

structure Committed where
  result : Except AccessError Record
  engine : Engine
  disk : Disk

def commit (e : Engine) (change : Change) (number : UInt32) (d : Disk)
    (faults : Disk.Faults := []) : Committed :=
  match e.registry.apply change with
  | (.error failure, _) => ⟨.error failure, e, d⟩
  | (.ok record, staged) =>
    match e.store.writeAtomic staged.toDocument number d faults with
    | (.error failure, d) => ⟨.error failure, { e with writeFailures := e.writeFailures + 1 }, d⟩
    | (.ok (), d) => ⟨.ok record, { e with writes := e.writes + 1 }.install staged, d⟩

end Engine

end DoorAccess
