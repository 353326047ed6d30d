import DoorAccess.Proofs.Registry.Canonical

/-!
What a change leaves as it was. A record stays in the registry under every change that is made,
unless the change removes or edits the record that stands under this very name.
-/
namespace DoorAccess

/-- The change takes the record of this kind from under the name, for good or to put it back
edited. -/
def Change.TakesOut (kind : RecordKind) (key : String) : Change → Prop
  | .remove k old | .edit k old _ _ => k = kind ∧ Name.snakeCase old = key
  | .addDoor _ _ | .addUser _ _ _ => False

instance (kind : RecordKind) (key : String) : DecidablePred (Change.TakesOut kind key)
  | .remove _ _ | .edit _ _ _ _ => inferInstanceAs (Decidable (_ ∧ _))
  | .addDoor _ _ | .addUser _ _ _ => inferInstanceAs (Decidable False)

namespace Registry

/-- Whatever is not given up is still stored. -/
structure Spares (given : RecordKind → String → Prop) (r r' : Registry) : Prop where
  door : ∀ (key : String) (door : Door), ¬ given .door key → r.doors[key]? = some door →
    r'.doors[key]? = some door
  user : ∀ user, ¬ given .user user.name → r.users.Holds user → r'.users.Holds user

section Operations
variable {given : RecordKind → String → Prop} {r r' r'' : Registry}

theorem spares_refl (given : RecordKind → String → Prop) (r : Registry) : Spares given r r :=
  ⟨fun _ _ _ stored => stored, fun _ _ held => held⟩

theorem Spares.mono {given' : RecordKind → String → Prop} (spares : Spares given r r')
    (more : ∀ kind key, given kind key → given' kind key) : Spares given' r r' where
  door key door free := spares.door key door fun gives => free (more _ _ gives)
  user user free := spares.user user fun gives => free (more _ _ gives)

theorem Spares.trans (first : Spares given r r') (second : Spares given r' r'') :
    Spares given r r'' where
  door key door free stored := second.door key door free (first.door key door free stored)
  user user free held := second.user user free (first.user user free held)

theorem spares_insertDoor {name : String} {level : Level} {door : Door}
    (h : r.insertDoor name level = (.ok door, r')) : Spares given r r' := by
  obtain ⟨_, free, _, rfl⟩ := insertDoor_ok h
  refine ⟨fun key other _ stored => ?_, fun _ _ held => held⟩
  rw [Std.TreeMap.getElem?_insert, if_neg, stored]
  rw [Std.LawfulEqCmp.compare_eq_iff_eq]
  rintro rfl
  rw [free] at stored
  cases stored

theorem spares_removeDoor {name : String} {door : Door}
    (h : r.removeDoor name = (.ok door, r')) (gives : given .door (Name.snakeCase name)) :
    Spares given r r' := by
  obtain ⟨_, rfl⟩ := removeDoor_ok h
  refine ⟨fun key other free stored => ?_, fun _ _ held => held⟩
  rw [Std.TreeMap.getElem?_erase, if_neg, stored]
  rw [Std.LawfulEqCmp.compare_eq_iff_eq]
  rintro rfl
  exact free gives

theorem spares_insertUser {name credential : String} {level : Level} {user : User}
    (sound : r.Sound) (h : r.insertUser name level credential = (.ok user, r')) :
    Spares given r r' := by
  obtain ⟨_, _, _, _, users, inserted, rfl⟩ := insertUser_ok h
  refine ⟨fun _ _ _ stored => stored, fun other _ held => ?_⟩
  exact (sound.table.holds_insert inserted other).mpr (.inl held)

theorem spares_removeUser {name : String} {user : User} (sound : r.Sound)
    (h : r.removeUser name = (.ok user, r')) (gives : given .user (Name.snakeCase name)) :
    Spares given r r' := by
  rcases sound.table.removeName (Name.snakeCase name) with
    ⟨absent, _⟩ | ⟨taken, users, removed, _, named, _, remaining⟩
  · simp only [removeUser, absent, Prod.mk.injEq] at h
    cases h.1
  · simp only [removeUser, removed, Prod.mk.injEq] at h
    obtain ⟨_, rfl⟩ := h
    refine ⟨fun _ _ _ stored => stored, fun other free held => (remaining other).mpr ⟨held, ?_⟩⟩
    rintro rfl
    exact free (named ▸ gives)

/-- A change that is made gives up no record but the one it takes out. -/
theorem spares_apply {change : Change} {record : Record} (sound : r.Sound)
    (h : r.apply change = (.ok record, r')) :
    Spares (fun kind key => change.TakesOut kind key) r r' := by
  cases change with
  | addDoor name level =>
      obtain ⟨door, added, rfl⟩ := aDoor_eq_ok h
      exact spares_insertDoor added
  | addUser name level credential =>
      obtain ⟨user, added, rfl⟩ := aUser_eq_ok h
      exact spares_insertUser sound added
  | remove kind name =>
      cases kind with
      | door =>
          obtain ⟨door, removed, rfl⟩ := aDoor_eq_ok h
          exact spares_removeDoor removed ⟨rfl, rfl⟩
      | user =>
          obtain ⟨user, removed, rfl⟩ := aUser_eq_ok h
          exact spares_removeUser sound removed ⟨rfl, rfl⟩
  | edit kind old new level =>
      cases kind with
      | door =>
          obtain ⟨door, edited, rfl⟩ := aDoor_eq_ok h
          rw [editDoor] at edited
          split at edited
          · cases edited
          · next before left removed =>
              exact (spares_removeDoor removed ⟨rfl, rfl⟩).trans (spares_insertDoor edited)
      | user =>
          obtain ⟨user, edited, rfl⟩ := aUser_eq_ok h
          rw [editUser] at edited
          split at edited
          · cases edited
          · next before left removed =>
              exact (spares_removeUser sound removed ⟨rfl, rfl⟩).trans
                (spares_insertUser (sound.removeUser removed) edited)

end Operations

end Registry

end DoorAccess
