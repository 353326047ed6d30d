import DoorAccess.Proofs.Registry.Indices
import DoorAccess.Proofs.Registry.Roster
import DoorAccess.Proofs.Registry.Sound

/-!
The registry behaves as the roster it stands for. Each operation answers as it does on the roster
and leaves a registry for the roster that is left, so the two agree over every sequence of changes.
-/
namespace DoorAccess

/-- The registry has the doors and the users of the roster. -/
structure Registry.Refines (r : Registry) (s : Roster) : Prop where
  sound : r.Sound
  door : ∀ key : String, r.doors[key]? = (s.doors.lookup key).map (Door.mk key)
  user : ∀ user, r.users.Holds user ↔ user ∈ s.users

/-- The same answer, and a registry for the roster that is left. -/
structure Matches {α : Type} (a : Except AccessError α × Registry)
    (b : Except AccessError α × Roster) : Prop where
  answer : a.1 = b.1
  left : a.2.Refines b.2

namespace Matches

theorem outcome {α : Type} {a : Except AccessError α × Registry} {b : Except AccessError α × Roster}
    (m : Matches a b) :
    (∃ failure r s, a = (.error failure, r) ∧ b = (.error failure, s) ∧ r.Refines s) ∨
      ∃ item r s, a = (.ok item, r) ∧ b = (.ok item, s) ∧ r.Refines s := by
  obtain ⟨answer, r⟩ := a
  obtain ⟨expected, s⟩ := b
  obtain ⟨same, left⟩ := m
  cases same
  cases answer with
  | error failure => exact .inl ⟨failure, r, s, rfl, rfl, left⟩
  | ok item => exact .inr ⟨item, r, s, rfl, rfl, left⟩

theorem door {a : Except AccessError Door × Registry} {b : Except AccessError Door × Roster}
    (m : Matches a b) : Matches (Registry.apply.aDoor a) (b.map (Except.map .door) id) :=
  ⟨congrArg (Except.map Record.door) m.answer, m.left⟩

theorem user {a : Except AccessError User × Registry} {b : Except AccessError User × Roster}
    (m : Matches a b) : Matches (Registry.apply.aUser a) (b.map (Except.map .user) id) :=
  ⟨congrArg (Except.map Record.user) m.answer, m.left⟩

end Matches

namespace Registry.Refines
variable {r : Registry} {s : Roster}

theorem empty : Registry.empty.Refines Roster.empty where
  sound := sound_empty
  door := by simp [Registry.empty, Roster.empty]
  user user := by simp [Registry.empty, Roster.empty, UserTable.not_holds_empty user]

/-! ### Lookups -/

theorem door?_eq (h : r.Refines s) (name : String) : r.door? name = s.door? name :=
  h.door (Name.snakeCase name)

theorem user?_eq (h : r.Refines s) (name : String) : r.user? name = s.user? name := by
  refine Option.ext fun user => ?_
  rw [user?, Roster.user?, h.sound.table.findName?_eq_some_iff, Roster.find?_eq_some_iff, h.user]

theorem userOf?_eq (h : r.Refines s) (credential : String) :
    r.userOf? credential = s.userOf? credential := by
  refine Option.ext fun user => ?_
  rw [userOf?, Roster.userOf?, h.sound.table.findCredential?_eq_some_iff, Roster.find?_eq_some_iff,
    h.user]

theorem contains_door_iff (h : r.Refines s) (key : String) :
    r.doors.contains key ↔ key ∈ s.doors := by
  rw [Std.TreeMap.contains_eq_isSome_getElem?, h.door, Option.isSome_map, Finmap.lookup_isSome]

theorem contains_name_iff (h : r.Refines s) (name : String) :
    r.users.byName.contains name ↔ ∃ user ∈ s.users, user.name = name := by
  simp only [← h.user]
  exact h.sound.table.named.contains_iff name

theorem contains_credential_iff (h : r.Refines s) (credential : String) :
    r.users.byCredential.contains credential ↔ ∃ user ∈ s.users, user.credential = credential := by
  simp only [← h.user]
  exact h.sound.table.credited.contains_iff credential

theorem doorCount_eq (h : r.Refines s) : r.doorCount = s.doors.keys.card := by
  have same : r.doors.keys.toFinset = s.doors.keys := by
    ext key
    rw [List.mem_toFinset, Std.TreeMap.mem_keys, ← Std.TreeMap.contains_iff_mem,
      h.contains_door_iff, Finmap.mem_keys]
  rw [doorCount, ← Std.TreeMap.length_keys, ← same,
    List.toFinset_card_of_nodup UserTable.nodup_keys]

theorem userCount_eq (h : r.Refines s) : r.userCount = s.users.card := by
  have nodup := h.sound.table.named.reaches.nodup_keysOf
  have same : (UserTable.keysOf r.users.records User.name).toFinset = s.users.image User.name := by
    ext name
    rw [List.mem_toFinset, UserTable.mem_keysOf, Finset.mem_image]
    constructor
    · rintro ⟨id, user, stored, here⟩
      exact ⟨user, (h.user user).mp ⟨id, stored⟩, here⟩
    · rintro ⟨user, member, here⟩
      obtain ⟨id, stored⟩ := (h.user user).mpr member
      exact ⟨id, user, stored, here⟩
  rw [userCount, UserTable.size, ← UserTable.length_keysOf, ← List.toFinset_card_of_nodup nodup,
    same, Finset.card_image_of_injOn s.named]

theorem answers_authorize (h : r.Refines s) (door credential : String) :
    s.Answers door credential (r.authorize door credential) := by
  have holder := h.userOf?_eq credential
  rw [authorize, h.door?_eq, Roster.door?]
  cases known : s.doors.lookup (Name.snakeCase door) with
  | none => exact .unknown (Finmap.lookup_eq_none.mp known)
  | some level =>
      rw [holder, Roster.userOf?]
      cases held : Roster.find? s.users User.credential s.credited credential with
      | none =>
          refine .nobody (Finmap.mem_of_lookup_eq_some known) fun user member same => ?_
          rw [Roster.find?_eq_some_iff.mpr ⟨member, same⟩] at held
          cases held
      | some user =>
          obtain ⟨member, same⟩ := Roster.find?_eq_some_iff.mp held
          change s.Answers door credential
            (if level ≤ user.level then .approved else .denied, some user)
          split
          · next enough => exact .approved known member same enough
          · next below => exact .tooLow known member same (UInt8.not_le.mp below)

theorem authorize_iff (h : r.Refines s) (door credential : String)
    (answer : Decision × Option User) :
    r.authorize door credential = answer ↔ s.Answers door credential answer := by
  constructor
  · rintro rfl
    exact h.answers_authorize door credential
  · exact fun answers => (h.answers_authorize door credential).unique answers

/-! ### Changes -/

theorem refuse (h : r.Refines s) {α : Type} {result : Except AccessError α × Registry}
    {failure : AccessError} (refused : result = (.error failure, r)) :
    Matches result (.error failure, s) := by
  rw [refused]
  exact ⟨rfl, h⟩

theorem insertDoor (h : r.Refines s) (name : String) (level : Level) :
    Matches (r.insertDoor name level) (s.insertDoor name level) := by
  rw [Roster.insertDoor]
  split
  · next absent => exact h.refuse (by simp only [Registry.insertDoor, absent])
  · next key canonical =>
      split
      · next taken =>
          refine h.refuse ?_
          simp only [Registry.insertDoor, canonical, h.contains_door_iff, if_pos taken]
      · next free =>
          have made : r.insertDoor name level =
              (.ok ⟨key, level⟩, { r with doors := r.doors.insert key ⟨key, level⟩ }) := by
            simp only [Registry.insertDoor, canonical, h.contains_door_iff, if_neg free]
          rw [made]
          refine ⟨rfl, h.sound.insertDoor made, fun other => ?_, h.user⟩
          rw [Std.TreeMap.getElem?_insert, Roster.withDoor]
          by_cases here : key = other
          · subst here
            simp
          · rw [Finmap.lookup_insert_of_ne _ (Ne.symm here), if_neg, h.door]
            rwa [Std.LawfulEqCmp.compare_eq_iff_eq]

theorem withUser (h : r.Refines s) (user : User)
    (storable : Name.canonical? user.name = some user.name ∧ user.credential ≠ "")
    (newName : ∀ other ∈ s.users, other.name ≠ user.name)
    (newCredential : ∀ other ∈ s.users, other.credential ≠ user.credential) :
    ∃ users, r.users.insert user = .ok users ∧
      Refines { r with users } (s.withUser user storable newName newCredential) := by
  obtain ⟨users, inserted⟩ := h.sound.table.insert_of_free fun other held =>
    ⟨newName other ((h.user other).mp held), newCredential other ((h.user other).mp held)⟩
  refine ⟨users, inserted, h.sound.withUsers storable inserted, h.door, fun other => ?_⟩
  rw [h.sound.table.holds_insert inserted, h.user, Roster.withUser, Finset.mem_insert, or_comm]

theorem insertUser (h : r.Refines s) (name : String) (level : Level) (credential : String) :
    Matches (r.insertUser name level credential) (s.insertUser name level credential) := by
  rw [Roster.insertUser]
  split
  · next absent => exact h.refuse (by simp only [Registry.insertUser, absent])
  · next key canonical =>
      split
      · next noCredential =>
          refine h.refuse ?_
          simp only [Registry.insertUser, canonical, if_pos noCredential]
      · next given =>
          split
          · next nameTaken =>
              refine h.refuse ?_
              simp only [Registry.insertUser, canonical, if_neg given, UserTable.insert,
                h.contains_name_iff, if_pos nameTaken]
          · next newName =>
              split
              · next credentialTaken =>
                  refine h.refuse ?_
                  simp only [Registry.insertUser, canonical, if_neg given, UserTable.insert,
                    h.contains_name_iff, if_neg newName, h.contains_credential_iff,
                    if_pos credentialTaken]
              · next newCredential =>
                  obtain ⟨users, inserted, refines⟩ := h.withUser ⟨key, credential, level⟩
                    ⟨Name.canonical?_canonical canonical, given⟩
                    (fun other member same => newName ⟨other, member, same⟩)
                    (fun other member same => newCredential ⟨other, member, same⟩)
                  have made : r.insertUser name level credential =
                      (.ok ⟨key, credential, level⟩, { r with users }) := by
                    simp only [Registry.insertUser, canonical, if_neg given, inserted]
                  rw [made]
                  exact ⟨rfl, refines⟩

theorem removeDoor (h : r.Refines s) (name : String) :
    Matches (r.removeDoor name) (s.removeDoor name) := by
  rw [Roster.removeDoor, ← h.door?_eq]
  split
  · next absent => exact h.refuse (by simp only [Registry.removeDoor, absent])
  · next door found =>
      have removed : r.removeDoor name =
          (.ok door, { r with doors := r.doors.erase (Name.snakeCase name) }) := by
        simp only [Registry.removeDoor, found]
      rw [removed]
      refine ⟨rfl, h.sound.removeDoor removed, fun key => ?_, h.user⟩
      rw [Std.TreeMap.getElem?_erase, Roster.withoutDoor]
      by_cases here : Name.snakeCase name = key
      · subst here
        simp
      · rw [Finmap.lookup_erase_ne (Ne.symm here), if_neg, h.door]
        rwa [Std.LawfulEqCmp.compare_eq_iff_eq]

theorem removeUser (h : r.Refines s) (name : String) :
    Matches (r.removeUser name) (s.removeUser name) := by
  rw [Roster.removeUser, ← h.user?_eq, user?]
  rcases h.sound.table.removeName (Name.snakeCase name) with
    ⟨absent, none⟩ | ⟨user, users, removed, held, here, _, remaining⟩
  · have unfound : r.users.findName? (Name.snakeCase name) = .none := by
      rw [Option.eq_none_iff_forall_ne_some]
      intro user found
      obtain ⟨held, here⟩ := h.sound.table.findName?_eq_some_iff.mp found
      exact none user held here
    rw [unfound]
    exact h.refuse (by simp only [Registry.removeUser, absent])
  · have found := h.sound.table.findName?_eq_some_iff.mpr ⟨held, here⟩
    have gone : r.removeUser name = (.ok user, { r with users }) := by
      simp only [Registry.removeUser, removed]
    rw [found, gone]
    change Matches _ (.ok user, s.withoutUser user)
    refine ⟨rfl, h.sound.removeUser gone, h.door, fun other => ?_⟩
    rw [remaining, h.user, Roster.withoutUser, Finset.mem_erase, and_comm]

theorem editDoor (h : r.Refines s) (old new : String) (level : Option Level) :
    Matches (r.editDoor old new level) (s.editDoor old new level) := by
  rw [Registry.editDoor, Roster.editDoor]
  rcases (h.removeDoor old).outcome with
    ⟨failure, r', s', failed, failed', left⟩ | ⟨door, r', s', removed, removed', left⟩
  · rw [failed, failed']
    exact ⟨rfl, left⟩
  · rw [removed, removed']
    exact left.insertDoor new (level.getD door.level)

theorem editUser (h : r.Refines s) (old new : String) (level : Option Level) :
    Matches (r.editUser old new level) (s.editUser old new level) := by
  rw [Registry.editUser, Roster.editUser]
  rcases (h.removeUser old).outcome with
    ⟨failure, r', s', failed, failed', left⟩ | ⟨user, r', s', removed, removed', left⟩
  · rw [failed, failed']
    exact ⟨rfl, left⟩
  · rw [removed, removed']
    exact left.insertUser new (level.getD user.level) user.credential

/-- One change, made or refused. -/
theorem apply (h : r.Refines s) (change : Change) : Matches (r.apply change) (s.apply change) := by
  cases change with
  | addDoor name level =>
      rw [Registry.apply, Roster.apply]
      exact (h.insertDoor name level).door
  | addUser name level credential =>
      rw [Registry.apply, Roster.apply]
      exact (h.insertUser name level credential).user
  | remove kind name =>
      cases kind with
      | door =>
          rw [Registry.apply, Roster.apply]
          exact (h.removeDoor name).door
      | user =>
          rw [Registry.apply, Roster.apply]
          exact (h.removeUser name).user
  | edit kind old new level =>
      cases kind with
      | door =>
          rw [Registry.apply, Roster.apply]
          exact (h.editDoor old new level).door
      | user =>
          rw [Registry.apply, Roster.apply]
          exact (h.editUser old new level).user

end Registry.Refines

/-! ### Runs -/

/-- Makes the changes one after the other and collects the answers. -/
def perform {σ : Type} (apply : σ → Change → Except AccessError Record × σ) (s : σ) :
    List Change → List (Except AccessError Record) × σ
  | [] => ([], s)
  | change :: changes =>
    let (answer, s) := apply s change
    let (answers, s) := perform apply s changes
    (answer :: answers, s)

theorem Registry.Refines.perform {r : Registry} {s : Roster} (h : r.Refines s)
    (changes : List Change) :
    (perform Registry.apply r changes).1 = (perform Roster.apply s changes).1 ∧
      (perform Registry.apply r changes).2.Refines (perform Roster.apply s changes).2 := by
  induction changes generalizing r s with
  | nil => exact ⟨rfl, h⟩
  | cons change changes ih =>
      obtain ⟨same, left⟩ := h.apply change
      obtain ⟨rest, final⟩ := ih left
      exact ⟨congrArg₂ List.cons same rest, final⟩

/-! ### Numbers

The numbers of the users are never taken back, so they count what was inserted at any time.
-/

/-- Whether the change can put a user into the table. -/
def Change.insertsUser : Change → Bool
  | .addUser _ _ _ => true
  | .edit .user _ _ _ => true
  | _ => false

namespace Registry

theorem users_insertDoor (r : Registry) (name : String) (level : Level) :
    (r.insertDoor name level).2.users = r.users := by
  rw [insertDoor]
  split
  · rfl
  · split <;> rfl

theorem users_removeDoor (r : Registry) (name : String) :
    (r.removeDoor name).2.users = r.users := by
  rw [removeDoor]
  split <;> rfl

theorem users_editDoor (r : Registry) (old new : String) (level : Option Level) :
    (r.editDoor old new level).2.users = r.users := by
  have same := r.users_removeDoor old
  rw [editDoor]
  split
  · next failed =>
      rw [failed] at same
      exact same
  · next removed =>
      rw [removed] at same
      rw [users_insertDoor]
      exact same

theorem nextId_insertUser (r : Registry) (name : String) (level : Level) (credential : String) :
    (r.insertUser name level credential).2.users.nextId ≤ r.users.nextId + 1 := by
  cases result : r.insertUser name level credential with
  | mk outcome left =>
      cases outcome with
      | error failure =>
          obtain ⟨_, rfl⟩ := insertUser_error result
          exact Nat.le_succ _
      | ok user =>
          obtain ⟨_, _, _, _, users, inserted, rfl⟩ := insertUser_ok result
          obtain ⟨_, _, rfl⟩ := UserTable.insert_ok inserted
          exact Nat.le_refl _

theorem nextId_removeUser (r : Registry) (name : String) :
    (r.removeUser name).2.users.nextId = r.users.nextId := by
  have same := r.users.nextId_removeName (Name.snakeCase name)
  rw [removeUser]
  split <;> next out => rwa [out] at same

theorem nextId_editUser (r : Registry) (old new : String) (level : Option Level) :
    (r.editUser old new level).2.users.nextId ≤ r.users.nextId + 1 := by
  have same := r.nextId_removeUser old
  rw [editUser]
  split
  · next failed =>
      rw [failed] at same
      exact Nat.le_succ_of_le (Nat.le_of_eq same)
  · next removed =>
      rw [removed] at same
      rw [← same]
      exact nextId_insertUser _ _ _ _

theorem nextId_apply (r : Registry) (change : Change) :
    (r.apply change).2.users.nextId ≤ r.users.nextId + if change.insertsUser then 1 else 0 := by
  cases change with
  | addDoor name level =>
      rw [apply, apply.aDoor, r.users_insertDoor]
      exact Nat.le_add_right _ _
  | addUser name level credential =>
      simp only [apply, apply.aUser, Change.insertsUser, if_true]
      exact r.nextId_insertUser name level credential
  | remove kind name =>
      cases kind with
      | door =>
          rw [apply, apply.aDoor, r.users_removeDoor]
          exact Nat.le_add_right _ _
      | user =>
          rw [apply, apply.aUser, r.nextId_removeUser]
          exact Nat.le_add_right _ _
  | edit kind old new level =>
      cases kind with
      | door =>
          rw [apply, apply.aDoor, r.users_editDoor]
          exact Nat.le_add_right _ _
      | user =>
          simp only [apply, apply.aUser, Change.insertsUser, if_true]
          exact r.nextId_editUser old new level

theorem nextId_perform (r : Registry) (changes : List Change) :
    (perform Registry.apply r changes).2.users.nextId ≤
      r.users.nextId + changes.countP Change.insertsUser := by
  induction changes generalizing r with
  | nil => exact Nat.le_refl _
  | cons change changes ih =>
      have one := r.nextId_apply change
      have rest := ih (r.apply change).2
      rw [List.countP_cons]
      change (perform Registry.apply (r.apply change).2 changes).2.users.nextId ≤ _
      omega

/-- Nothing that can be asked tells the registry from the roster. -/
structure Agrees (r : Registry) (s : Roster) : Prop where
  door : ∀ name, r.door? name = s.door? name
  user : ∀ name, r.user? name = s.user? name
  userOf : ∀ credential, r.userOf? credential = s.userOf? credential
  doorCount : r.doorCount = s.doors.keys.card
  userCount : r.userCount = s.users.card
  authorize : ∀ door credential answer,
    r.authorize door credential = answer ↔ s.Answers door credential answer

/-- Any sequence of changes, failed ones included, is answered by the registry as by the roster, and
afterwards the two agree. The numbers of the users stay within the insertions, so fewer than 2 ^ 64
of these never need a number of more than 64 bits. -/
theorem perform_as_roster (changes : List Change) :
    let (answers, registry) := perform Registry.apply .empty changes
    let (expected, roster) := perform Roster.apply .empty changes
    answers = expected ∧ registry.Agrees roster ∧
      registry.users.nextId ≤ changes.countP Change.insertsUser := by
  obtain ⟨same, refines⟩ := Refines.empty.perform changes
  have numbers := nextId_perform .empty changes
  rw [show Registry.empty.users.nextId = 0 from rfl, Nat.zero_add] at numbers
  exact ⟨same, ⟨refines.door?_eq, refines.user?_eq, refines.userOf?_eq, refines.doorCount_eq,
    refines.userCount_eq, refines.authorize_iff⟩, numbers⟩

end Registry

end DoorAccess
