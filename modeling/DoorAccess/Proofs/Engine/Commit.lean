import DoorAccess.Engine
import DoorAccess.Proofs.Registry.Operations
import DoorAccess.Proofs.Store.Write

/-!
A change is made as a whole or not at all. The registry works on a copy, and the copy counts only
once the file holds it.
-/
namespace DoorAccess

/-- An edit that takes its record out and then cannot put it back. -/
inductive Registry.Strands (r : Registry) : Change → AccessError → Prop
  | door (old new : String) (level : Option Level) (door : Door) (left last : Registry)
      (failure : AccessError) (removed : r.removeDoor old = (.ok door, left))
      (refused : left.insertDoor new (level.getD door.level) = (.error failure, last)) :
      Strands r (.edit .door old new level) failure
  | user (old new : String) (level : Option Level) (user : User) (left last : Registry)
      (failure : AccessError) (removed : r.removeUser old = (.ok user, left))
      (refused : left.insertUser new (level.getD user.level) user.credential =
        (.error failure, last)) :
      Strands r (.edit .user old new level) failure

/-- The record is gone from the registry that the edit leaves behind. -/
theorem Registry.apply_of_strands {r : Registry} {change : Change} {failure : AccessError}
    (strands : r.Strands change failure) : ∃ left, r.apply change = (.error failure, left) := by
  cases strands with
  | door old new level door left last failure removed refused =>
      refine ⟨last, ?_⟩
      simp only [apply, editDoor, removed, aDoor_eq_error]
      exact refused
  | user old new level user left last failure removed refused =>
      refine ⟨last, ?_⟩
      simp only [apply, editUser, removed, aUser_eq_error]
      exact refused

namespace Engine

/-- Both engines give the same answer to every question. -/
structure Agrees (e e' : Engine) : Prop where
  door : ∀ name, e'.registry.door? name = e.registry.door? name
  user : ∀ name, e'.registry.user? name = e.registry.user? name
  holder : ∀ credential, e'.registry.userOf? credential = e.registry.userOf? credential
  authorize : ∀ door credential, e'.authorize door credential = e.authorize door credential

/-- What is asked of an engine is decided by its lookups. -/
theorem agrees_of_lookups {e e' : Engine}
    (door : ∀ name, e'.registry.door? name = e.registry.door? name)
    (user : ∀ name, e'.registry.user? name = e.registry.user? name)
    (holder : ∀ credential, e'.registry.userOf? credential = e.registry.userOf? credential) :
    e.Agrees e' where
  door := door
  user := user
  holder := holder
  authorize name credential := by
    simp only [Engine.authorize, Registry.authorize, door, holder]

/-- A change that was asked for and has left no trace but in the counters of the writes. -/
structure Undone (e : Engine) (number : UInt32) (d : Disk) (c : Committed) : Prop where
  registry : c.engine.registry = e.registry
  answers : e.Agrees c.engine
  doorGauge : c.engine.doorGauge = e.doorGauge
  userGauge : c.engine.userGauge = e.userGauge
  store : c.engine.store = e.store
  file : e.store.Spared number d c.disk

/-- The registry refuses the change, so nothing is written: whatever the disk, it is not touched. -/
structure Refuses (e : Engine) (change : Change) (failure : AccessError) : Prop where
  reason : failure ∈ AccessError.refusals
  untried : ∀ number d faults, e.commit change number d faults = ⟨.error failure, e, d⟩

/-- The registry has made the change and the file could not be written. -/
structure Unwritten (e : Engine) (failure : AccessError) (c : Committed) : Prop where
  reason : ∃ text, failure = .persistence text
  writes : c.engine.writes = e.writes
  writeFailures : c.engine.writeFailures = e.writeFailures + 1

section Commit
variable {e : Engine} {change : Change} {number : UInt32} {d : Disk} {faults : Disk.Faults}

theorem commit_of_refused {failure : AccessError} {left : Registry}
    (refused : e.registry.apply change = (.error failure, left)) (number : UInt32) (d : Disk)
    (faults : Disk.Faults) : e.commit change number d faults = ⟨.error failure, e, d⟩ := by
  simp only [commit, refused]

theorem commit_of_unwritten {record : Record} {staged : Registry} {failure : AccessError} {d' : Disk}
    (applied : e.registry.apply change = (.ok record, staged))
    (unwritten : e.store.writeAtomic staged.toDocument number d faults = (.error failure, d')) :
    e.commit change number d faults =
      ⟨.error failure, { e with writeFailures := e.writeFailures + 1 }, d'⟩ := by
  simp only [commit, applied, unwritten]

theorem commit_of_written {record : Record} {staged : Registry} {d' : Disk}
    (applied : e.registry.apply change = (.ok record, staged))
    (written : e.store.writeAtomic staged.toDocument number d faults = (.ok (), d')) :
    e.commit change number d faults =
      ⟨.ok record, { e with writes := e.writes + 1 }.install staged, d'⟩ := by
  simp only [commit, applied, written]

theorem agrees_of_registry {e e' : Engine} (same : e'.registry = e.registry) : e.Agrees e' :=
  agrees_of_lookups (by simp [same]) (by simp [same]) (by simp [same])

theorem commit_error {failure : AccessError}
    (h : (e.commit change number d faults).result = .error failure) :
    e.Undone number d (e.commit change number d faults) ∧
      (e.Refuses change failure ∨ e.Unwritten failure (e.commit change number d faults)) := by
  cases applied : e.registry.apply change with
  | mk outcome staged =>
      cases outcome with
      | error reason =>
          have commit := commit_of_refused applied
          rw [commit number d faults] at h ⊢
          cases h
          exact ⟨⟨rfl, agrees_of_registry rfl, rfl, rfl, rfl, Store.spared_refl _ _ _⟩,
            .inl ⟨Registry.apply_error applied, commit⟩⟩
      | ok record =>
          cases written : e.store.writeAtomic staged.toDocument number d faults with
          | mk outcome d' =>
              cases outcome with
              | error reason =>
                  obtain ⟨text, spared⟩ := Store.writeAtomic_error written
                  rw [commit_of_unwritten applied written] at h ⊢
                  cases h
                  exact ⟨⟨rfl, agrees_of_registry rfl, rfl, rfl, rfl, spared⟩,
                    .inr ⟨text, rfl, rfl⟩⟩
              | ok _ =>
                  rw [commit_of_written applied written] at h
                  cases h

/-- A change fails because the registry refuses it or because the file cannot be written. -/
theorem refused_or_unwritten {failure : AccessError}
    (h : (e.commit change number d faults).result = .error failure) :
    (∃ left, e.registry.apply change = (.error failure, left)) ∨
      ∃ text, failure = .persistence text := by
  cases applied : e.registry.apply change with
  | mk outcome staged =>
      cases outcome with
      | error reason =>
          rw [commit_of_refused applied] at h
          cases h
          exact .inl ⟨staged, rfl⟩
      | ok record =>
          cases written : e.store.writeAtomic staged.toDocument number d faults with
          | mk outcome d' =>
              cases outcome with
              | error reason =>
                  rw [commit_of_unwritten applied written] at h
                  cases h
                  exact .inr (Store.writeAtomic_error written).1
              | ok _ =>
                  rw [commit_of_written applied written] at h
                  cases h

theorem commit_eq_ok {record : Record} (h : (e.commit change number d faults).result = .ok record) :
    ∃ staged d', e.registry.apply change = (.ok record, staged) ∧
      e.store.writeAtomic staged.toDocument number d faults = (.ok (), d') := by
  cases applied : e.registry.apply change with
  | mk outcome staged =>
      cases outcome with
      | error reason =>
          rw [commit_of_refused applied] at h
          cases h
      | ok made =>
          cases written : e.store.writeAtomic staged.toDocument number d faults with
          | mk outcome d' =>
              cases outcome with
              | error reason =>
                  rw [commit_of_unwritten applied written] at h
                  cases h
              | ok _ =>
                  rw [commit_of_written applied written] at h
                  cases h
                  exact ⟨staged, d', rfl, written⟩

theorem commit_ok {record : Record} (h : (e.commit change number d faults).result = .ok record) :
    ∃ staged d', e.registry.apply change = (.ok record, staged) ∧
      e.store.Replaced staged.toDocument number d d' ∧
      e.commit change number d faults =
        ⟨.ok record, { e with writes := e.writes + 1 }.install staged, d'⟩ := by
  obtain ⟨staged, d', applied, written⟩ := commit_eq_ok h
  exact ⟨staged, d', applied, Store.writeAtomic_ok written, commit_of_written applied written⟩

end Commit

/-- Whatever is on the disk and whatever fault strikes it: a change that fails leaves the registry,
its answers, the gauges and the file as they were, and no new file beside it. A refusal does not
even try to write, a write that fails is counted once, and so is one that succeeds. An edit that
fails halfway is undone. -/
theorem commit_all_or_nothing (e : Engine) (change : Change) (number : UInt32) (d : Disk)
    (faults : Disk.Faults) :
    (match (e.commit change number d faults).result with
      | .error failure =>
        e.Undone number d (e.commit change number d faults) ∧
          (e.Refuses change failure ∨ e.Unwritten failure (e.commit change number d faults))
      | .ok _ =>
        (e.commit change number d faults).engine.writes = e.writes + 1 ∧
          (e.commit change number d faults).engine.writeFailures = e.writeFailures) ∧
    ∀ failure, e.registry.Strands change failure →
      e.commit change number d faults = ⟨.error failure, e, d⟩ := by
  constructor
  · split
    · next failure failed => exact commit_error failed
    · next record made =>
        obtain ⟨staged, d', _, _, commit⟩ := commit_ok made
        rw [commit]
        exact ⟨rfl, rfl⟩
  · intro failure strands
    obtain ⟨left, refused⟩ := Registry.apply_of_strands strands
    exact commit_of_refused refused number d faults

/-- Renaming the one door to nothing: it has been taken out when the new name is refused. -/
theorem commit_undoes_rename_to_nothing :
    let hall : Registry := (Registry.empty.insertDoor "hall" 3).2
    let e : Engine := ⟨hall, ⟨⟨{}, some "doors.json"⟩⟩, 1, 0, 0, 0⟩
    hall.Strands (.edit .door "hall" "" none) .badSyntax ∧
      ∀ d, e.commit (.edit .door "hall" "" none) 7 d [] = ⟨.error .badSyntax, e, d⟩ := by
  intro hall e
  have strands : hall.Strands (.edit .door "hall" "" none) .badSyntax :=
    .door "hall" "" none ⟨"hall", 3⟩ _ _ .badSyntax rfl rfl
  exact ⟨strands, fun d => (commit_all_or_nothing e _ 7 d []).2 _ strands⟩

end Engine

end DoorAccess
