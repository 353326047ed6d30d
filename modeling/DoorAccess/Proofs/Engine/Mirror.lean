import DoorAccess.Proofs.Engine.Commit
import DoorAccess.Proofs.Registry.Rebuild
import DoorAccess.Proofs.Store.Load

/-!
The file mirrors the registry. It does so from the moment an engine is opened and again after every
change that is made, and as long as nobody else writes it an engine opened anew is as good as the
old one.
-/
namespace DoorAccess.Engine

/-- An engine at work on a disk that others may change. -/
structure Lifetime where
  engine : Engine
  disk : Disk
  /-- Nobody else has changed the disk since the engine was opened or has last made a change. -/
  undisturbed : Bool := true

namespace Lifetime

inductive Act
  | commit (change : Change) (number : UInt32) (faults : Disk.Faults)
  | outside (disk : Disk)

def take (l : Lifetime) : Act → Lifetime
  | .commit change number faults =>
    let c := l.engine.commit change number l.disk faults
    ⟨c.engine, c.disk, c.result.isOk || l.undisturbed⟩
  | .outside disk => { l with disk, undisturbed := false }

def run (l : Lifetime) (acts : List Act) : Lifetime := acts.foldl take l

/-- The file holds the document of the registry, and nothing that a reader would leave out. -/
def Mirrored (l : Lifetime) : Prop :=
  l.engine.store.load l.disk = (l.engine.registry.toDocument, .loaded)

structure Invariant (l : Lifetime) (store : Store) : Prop where
  store : l.engine.store = store
  sound : l.engine.registry.Sound
  doorGauge : l.engine.doorGauge = l.engine.registry.doorCount
  userGauge : l.engine.userGauge = l.engine.registry.userCount
  mirrored : l.undisturbed = true → l.Mirrored

end Lifetime

/-! ### Opening -/

/-- What an opened engine starts with. -/
def ofBuilding (store : Store) (b : Registry.Building) : Engine :=
  ⟨b.registry, store, b.registry.doorCount, b.registry.userCount, 0, 0⟩

/-- The file was loaded, and the registry built from it has this very document: opening finds
nothing to write anew. -/
structure Settled (store : Store) (d : Disk) : Prop where
  loaded : (store.load d).2 = .loaded
  refused : (Registry.ofDocument (store.load d).1).refused = 0
  document : (Registry.ofDocument (store.load d).1).registry.toDocument = (store.load d).1

theorem settled_iff (store : Store) (d : Disk) : Settled store d ↔
    ¬ ((store.load d).2 ≠ .loaded ∨ 0 < (Registry.ofDocument (store.load d).1).refused ∨
      (Registry.ofDocument (store.load d).1).registry.toDocument ≠ (store.load d).1) := by
  rw [not_or, not_or, Classical.not_not, Classical.not_not, Nat.not_lt, Nat.le_zero]
  exact ⟨fun s => ⟨s.loaded, s.refused, s.document⟩, fun ⟨l, r, d⟩ => ⟨l, r, d⟩⟩

theorem open_of_settled {store : Store} {d : Disk} (settled : Settled store d) (number : UInt32)
    (faults : Disk.Faults) : Engine.open store number d faults =
      (.ok (ofBuilding store (Registry.ofDocument (store.load d).1)), d) :=
  if_neg ((settled_iff store d).mp settled)

theorem open_of_not_settled {store : Store} {d : Disk} (unsettled : ¬ Settled store d)
    (number : UInt32) (faults : Disk.Faults) :
    let built := Registry.ofDocument (store.load d).1
    let written := store.writeAtomic built.registry.toDocument number d faults
    Engine.open store number d faults =
      (written.1.map fun _ => ofBuilding store built, written.2) :=
  if_pos (Classical.not_not.mp fun other => unsettled ((settled_iff store d).mpr other))

theorem open_ok {store : Store} {number : UInt32} {d d' : Disk} {faults : Disk.Faults} {e : Engine}
    (h : Engine.open store number d faults = (.ok e, d')) :
    e = ofBuilding store (Registry.ofDocument (store.load d).1) ∧
      store.load d' = (e.registry.toDocument, .loaded) := by
  by_cases settled : Settled store d
  · rw [open_of_settled settled] at h
    cases h
    refine ⟨rfl, ?_⟩
    change _ = ((Registry.ofDocument (store.load d).1).registry.toDocument, DocumentState.loaded)
    rw [settled.document, ← settled.loaded]
  · rw [open_of_not_settled settled] at h
    cases written : store.writeAtomic
        (Registry.ofDocument (store.load d).1).registry.toDocument number d faults with
    | mk outcome d₁ =>
        rw [written] at h
        cases outcome with
        | error failure => cases h
        | ok _ =>
            cases h
            exact ⟨rfl, Store.load_of_content (Store.writeAtomic_ok written).content⟩

theorem settled_of_mirrored {store : Store} {d : Disk} {r : Registry} (sound : r.Sound)
    (mirrored : store.load d = (r.toDocument, .loaded)) : Settled store d := by
  obtain ⟨refused, alike⟩ := sound.rebuild
  have document := sound.toDocument_eq (Registry.sound_ofDocument r.toDocument) alike
  refine ⟨?_, ?_, ?_⟩ <;> rw [mirrored]
  · exact refused
  · exact document

/-- An engine opened on a file that mirrors a registry knows what this registry knows, and the
file stays as it is. -/
theorem open_of_mirrored {e : Engine} {d : Disk} (sound : e.registry.Sound)
    (mirrored : e.store.load d = (e.registry.toDocument, .loaded)) (number : UInt32)
    (faults : Disk.Faults) :
    ∃ e', Engine.open e.store number d faults = (.ok e', d) ∧ e.Agrees e' := by
  obtain ⟨_, alike⟩ := sound.rebuild
  have sound' := Registry.sound_ofDocument e.registry.toDocument
  refine ⟨_, open_of_settled (settled_of_mirrored sound mirrored) number faults, ?_⟩
  rw [mirrored]
  exact agrees_of_lookups (Registry.Sound.door?_eq alike)
    (Registry.Sound.user?_eq sound sound' alike) (Registry.Sound.userOf?_eq sound sound' alike)

/-! ### Runs -/

namespace Lifetime

theorem invariant_open {store : Store} {number : UInt32} {d d' : Disk} {faults : Disk.Faults}
    {e : Engine} (opened : Engine.open store number d faults = (.ok e, d')) :
    (⟨e, d', true⟩ : Lifetime).Invariant store := by
  obtain ⟨rfl, mirrored⟩ := open_ok opened
  exact ⟨rfl, Registry.sound_ofDocument _, rfl, rfl, fun _ => mirrored⟩

theorem invariant_take {l : Lifetime} {store : Store} (invariant : l.Invariant store) (act : Act) :
    (l.take act).Invariant store := by
  cases act with
  | outside disk =>
      exact ⟨invariant.store, invariant.sound, invariant.doorGauge, invariant.userGauge, nofun⟩
  | commit change number faults =>
      cases outcome : (l.engine.commit change number l.disk faults).result with
      | ok record =>
          obtain ⟨staged, d', applied, replaced, commit⟩ := commit_ok outcome
          have sound := invariant.sound.apply change
          rw [applied] at sound
          rw [take, commit]
          exact ⟨invariant.store, sound, rfl, rfl, fun _ => Store.load_of_content replaced.content⟩
      | error failure =>
          obtain ⟨undone, _⟩ := commit_error outcome
          have same := Store.load_congr undone.file.content
          rw [take, outcome]
          refine ⟨undone.store.trans invariant.store, ?_, ?_, ?_, fun undisturbed => ?_⟩
          · exact undone.registry ▸ invariant.sound
          · rw [undone.doorGauge, undone.registry, invariant.doorGauge]
          · rw [undone.userGauge, undone.registry, invariant.userGauge]
          · rw [Mirrored, undone.store, undone.registry, same]
            exact invariant.mirrored undisturbed

theorem invariant_run {l : Lifetime} {store : Store} (invariant : l.Invariant store)
    (acts : List Act) : (l.run acts).Invariant store := by
  induction acts generalizing l with
  | nil => exact invariant
  | cons act acts ih => exact ih (invariant_take invariant act)

end Lifetime

/-- Whatever the file held when the engine was opened, and whatever is asked of the engine and done
to the file afterwards: the gauges count what is registered. While nobody else has changed the file
since it was opened or a change was last made, it holds the whole registry, and opening it anew
succeeds, leaves it alone and gives an engine with the same answers. -/
theorem reopening_agrees (store : Store) (number : UInt32) (d : Disk) (faults : Disk.Faults)
    (e : Engine) (d' : Disk) (opened : Engine.open store number d faults = (.ok e, d'))
    (acts : List Lifetime.Act) :
    let l := Lifetime.run ⟨e, d', true⟩ acts
    l.engine.doorGauge = l.engine.registry.doorCount ∧
      l.engine.userGauge = l.engine.registry.userCount ∧
      (l.undisturbed = true →
        store.load l.disk = (l.engine.registry.toDocument, .loaded) ∧
          ∀ number faults, ∃ e', Engine.open store number l.disk faults = (.ok e', l.disk) ∧
            l.engine.Agrees e') := by
  intro l
  have invariant := Lifetime.invariant_run (Lifetime.invariant_open opened) acts
  refine ⟨invariant.doorGauge, invariant.userGauge, fun undisturbed => ?_⟩
  have mirrored := invariant.mirrored undisturbed
  rw [← invariant.store]
  exact ⟨mirrored, open_of_mirrored invariant.sound mirrored⟩

/-- The first start makes the file, somebody removes it, and a door is added. -/
theorem reopening_agrees_after_loss :
    let store : Store := ⟨⟨{}, some "doors.json"⟩⟩
    let opened := Engine.open store 7 Disk.empty []
    let e := ofBuilding store ⟨.empty, 0⟩
    let l := Lifetime.run ⟨e, opened.2, true⟩
      [.outside Disk.empty, .commit (.addDoor "Main Hall" 3) 8 []]
    opened.1 = .ok e ∧ l.undisturbed = true ∧
      store.load l.disk = ({ doors := [⟨"main hall", 3⟩] }, .loaded) ∧
      ∃ e', Engine.open store 9 l.disk [] = (.ok e', l.disk) ∧ l.engine.Agrees e' := by
  intro store opened e l
  have first : opened = (.ok e, opened.2) := rfl
  have undisturbed : l.undisturbed = true := rfl
  obtain ⟨_, _, mirrored⟩ := reopening_agrees store 7 Disk.empty [] e opened.2 first
    [.outside Disk.empty, .commit (.addDoor "Main Hall" 3) 8 []]
  obtain ⟨loaded, reopened⟩ := mirrored undisturbed
  exact ⟨rfl, undisturbed, loaded, reopened 9 []⟩

end DoorAccess.Engine
