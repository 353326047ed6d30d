import DoorAccess.Proofs.Registry.Canonical

/-!
What the operations on a sound registry come to, for doors and users alike. A removal finds its
record and takes it alone out, or finds none. An addition is refused for its name, or puts one record
more in. All that can be asked of a registry follows from the records it stores.
-/
namespace DoorAccess

namespace RecordKind

/-- The answer to a name that no record of the kind has. -/
def missing : RecordKind → AccessError
  | .door => .doorNotFound
  | .user => .userNotFound

/-- The answer to a new name that a record of the kind has already. -/
def taken : RecordKind → AccessError
  | .door => .doorExists
  | .user => .userExists

end RecordKind

namespace Record

def kind : Record → RecordKind
  | .door _ => .door
  | .user _ => .user

def name : Record → String
  | .door d => d.name
  | .user u => u.name

/-- The record under this key, with another level if one is given. -/
def renamed (key : String) (level : Option Level) : Record → Record
  | .door d => .door ⟨key, level.getD d.level⟩
  | .user u => .user ⟨key, u.credential, level.getD u.level⟩

/-- The change that adds such a record under a name. -/
def addition (name : String) (level : Option Level) : Record → Change
  | .door d => .addDoor name (level.getD d.level)
  | .user u => .addUser name (level.getD u.level) u.credential

/-- The record has a say in what is answered to the request. -/
def Concerns (asked credential : String) : Record → Prop
  | .door d => d.name = Name.snakeCase asked
  | .user u => u.credential = credential

@[simp] theorem kind_renamed (record : Record) (key : String) (level : Option Level) :
    (record.renamed key level).kind = record.kind := by
  cases record <;> rfl

@[simp] theorem name_renamed (record : Record) (key : String) (level : Option Level) :
    (record.renamed key level).name = key := by
  cases record <;> rfl

theorem renamed_name (record : Record) : record.renamed record.name none = record := by
  cases record <;> rfl

end Record

namespace Registry

def record? (r : Registry) : RecordKind → String → Option Record
  | .door, name => (r.door? name).map .door
  | .user, name => (r.user? name).map .user

def count (r : Registry) : RecordKind → Nat
  | .door => r.doorCount
  | .user => r.userCount

/-- A record of the kind has this name. -/
def IsTaken (r : Registry) (kind : RecordKind) (key : String) : Prop :=
  ∃ record, r.Stores record ∧ record.kind = kind ∧ record.name = key

/-- Nothing but the name can keep the record out: if it is a user, there is a credential, and nobody
has it. -/
def Admits (r : Registry) : Record → Prop
  | .door _ => True
  | .user user => user.credential ≠ "" ∧ r.userOf? user.credential = none

/-- The second registry stores one record more, and nothing else is different. -/
structure Gains (r r' : Registry) (record : Record) : Prop where
  new : ¬ r.Stores record
  stored : ∀ other, r'.Stores other ↔ r.Stores other ∨ other = record

/-! ### What is stored -/

namespace Sound
variable {r : Registry} {record other : Record}

theorem record?_eq_some_iff (sound : r.Sound) {kind : RecordKind} {name : String} :
    r.record? kind name = some record ↔
      r.Stores record ∧ record.kind = kind ∧ record.name = Name.snakeCase name := by
  have door (d : Door) :
      r.door? name = some d ↔ r.Stores (.door d) ∧ d.name = Name.snakeCase name := by
    constructor
    · exact fun found => ⟨⟨_, found⟩, (sound.door _ d found).1⟩
    · rintro ⟨stored, named⟩
      rw [door?, ← named]
      exact (sound.stores_door_iff d).mp stored
  have user (u : User) : r.user? name = some u ↔ r.Stores (.user u) ∧ u.name = Name.snakeCase name :=
    sound.table.findName?_eq_some_iff
  cases kind <;> cases record <;> simp [record?, door, user, Record.kind, Record.name]

theorem record?_eq_none_iff (sound : r.Sound) {kind : RecordKind} {name : String} :
    r.record? kind name = none ↔ ¬ r.IsTaken kind (Name.snakeCase name) := by
  rw [Option.eq_none_iff_forall_ne_some, IsTaken, not_exists]
  exact forall_congr' fun record => not_congr sound.record?_eq_some_iff

theorem userOf?_eq_some_iff (sound : r.Sound) {credential : String} {user : User} :
    r.userOf? credential = some user ↔ r.Stores (.user user) ∧ user.credential = credential :=
  sound.table.findCredential?_eq_some_iff

theorem canonical (sound : r.Sound) (stored : r.Stores record) :
    Name.canonical? record.name = some record.name := by
  cases record with
  | door d =>
      obtain ⟨key, found⟩ := stored
      obtain ⟨rfl, canonical⟩ := sound.door key d found
      exact canonical
  | user u => exact (sound.user u stored).1

theorem eq_of_name (sound : r.Sound) (stored : r.Stores record) (stored' : r.Stores other)
    (kind : record.kind = other.kind) (name : record.name = other.name) : record = other := by
  have key := Name.snakeCase_of_canonical? (sound.canonical stored)
  have found := sound.record?_eq_some_iff.mpr ⟨stored, rfl, key.symm⟩
  have found' := sound.record?_eq_some_iff.mpr ⟨stored', kind.symm, name.symm.trans key.symm⟩
  exact Option.some.inj (found.symm.trans found')

end Sound

/-! ### One record more -/

theorem length_of_mem_iff {α : Type} {xs ys : List α} {x : α} (once : xs.Nodup) (once' : ys.Nodup)
    (new : x ∉ xs) (same : ∀ a, a ∈ ys ↔ a ∈ xs ∨ a = x) : ys.length = xs.length + 1 := by
  have perm : ys.Perm (x :: xs) :=
    (List.perm_ext_iff_of_nodup once' (List.nodup_cons.mpr ⟨new, once⟩)).mpr fun a => by
      rw [same, List.mem_cons, or_comm]
  rw [perm.length_eq, List.length_cons]

namespace Gains
variable {r r' : Registry} {record : Record}

theorem count (gains : r.Gains r' record) (sound : r.Sound) (sound' : r'.Sound)
    (kind : RecordKind) :
    r'.count kind = r.count kind + if record.kind = kind then 1 else 0 := by
  -- Each kind is counted by a list without repetitions. The list of the record's own kind has the
  -- record more, the other one has the same members as before.
  have before := sound.collects
  have after := sound'.collects
  cases kind with
  | door =>
      rw [Registry.count, Registry.count, ← Sound.length_doors, ← Sound.length_doors]
      cases record with
      | door d =>
          exact length_of_mem_iff before.doorsOnce after.doorsOnce
            (fun listed => gains.new ((before.doors d).mp listed))
            fun other => by rw [after.doors, before.doors, gains.stored, Record.door.injEq]
      | user u =>
          refine ((List.perm_ext_iff_of_nodup after.doorsOnce before.doorsOnce).mpr
            fun other => ?_).length_eq
          rw [after.doors, before.doors, gains.stored]
          exact or_iff_left (by simp)
  | user =>
      rw [Registry.count, Registry.count, ← sound.length_users, ← sound'.length_users]
      cases record with
      | user u =>
          exact length_of_mem_iff before.usersOnce after.usersOnce
            (fun listed => gains.new ((before.users u).mp listed))
            fun other => by rw [after.users, before.users, gains.stored, Record.user.injEq]
      | door d =>
          refine ((List.perm_ext_iff_of_nodup after.usersOnce before.usersOnce).mpr
            fun other => ?_).length_eq
          rw [after.users, before.users, gains.stored]
          exact or_iff_left (by simp)

/-- Whoever asks for another name is answered as before. -/
theorem record?_eq (gains : r.Gains r' record) (sound : r.Sound) (sound' : r'.Sound)
    (kind : RecordKind) (name : String)
    (away : record.kind = kind → record.name ≠ Name.snakeCase name) :
    r'.record? kind name = r.record? kind name := by
  refine Option.ext fun other => ?_
  rw [sound.record?_eq_some_iff, sound'.record?_eq_some_iff, gains.stored, or_and_right]
  refine or_iff_left ?_
  rintro ⟨rfl, here, named⟩
  exact away here named

theorem userOf?_eq (gains : r.Gains r' record) (sound : r.Sound) (sound' : r'.Sound)
    {credential : String} (away : ∀ user, record = .user user → user.credential ≠ credential) :
    r'.userOf? credential = r.userOf? credential := by
  refine Option.ext fun user => ?_
  rw [sound.userOf?_eq_some_iff, sound'.userOf?_eq_some_iff, gains.stored, or_and_right]
  refine or_iff_left ?_
  rintro ⟨rfl, held⟩
  exact away user rfl held

/-- A request that the record has no say in is decided as before. -/
theorem authorize_eq (gains : r.Gains r' record) (sound : r.Sound) (sound' : r'.Sound)
    {door credential : String} (away : ¬ record.Concerns door credential) :
    r'.authorize door credential = r.authorize door credential := by
  have found : r'.door? door = r.door? door := by
    have same := gains.record?_eq sound sound' .door door fun here named => by
      cases record with
      | door d => exact away named
      | user u => cases here
    exact Option.map_injective (fun _ _ => Record.door.inj) same
  have holder : r'.userOf? credential = r.userOf? credential :=
    gains.userOf?_eq sound sound' fun user here held => away (here ▸ held)
  rw [authorize, authorize, found, holder]

end Gains

/-! ### Operations -/

namespace Sound
variable {r : Registry}

theorem isTaken_door_iff (sound : r.Sound) (key : String) :
    r.IsTaken .door key ↔ r.doors.contains key = true := by
  rw [Std.TreeMap.contains_eq_isSome_getElem?, Option.isSome_iff_exists]
  constructor
  · rintro ⟨record, stored, here, rfl⟩
    cases record with
    | door d => exact ⟨d, (sound.stores_door_iff d).mp stored⟩
    | user u => cases here
  · rintro ⟨d, found⟩
    exact ⟨.door d, ⟨key, found⟩, rfl, (sound.door key d found).1⟩

theorem isTaken_user_iff (sound : r.Sound) (key : String) :
    r.IsTaken .user key ↔ r.users.byName.contains key = true := by
  rw [sound.table.named.contains_iff]
  constructor
  · rintro ⟨record, stored, here, rfl⟩
    cases record with
    | door d => cases here
    | user u => exact ⟨u, stored, rfl⟩
  · rintro ⟨u, held, rfl⟩
    exact ⟨.user u, held, rfl, rfl⟩

/-- One door more is stored if the lookups tell the registries apart under its name alone. -/
theorem gains_door {r' : Registry} {d : Door} (sound : r.Sound) (sound' : r'.Sound)
    (users : r'.users = r.users) (new : r.doors[d.name]? = none)
    (found : ∀ key : String, r'.doors[key]? = if d.name = key then some d else r.doors[key]?) :
    r.Gains r' (.door d) := by
  refine ⟨fun stored => ?_, fun other => ?_⟩
  · rw [sound.stores_door_iff, new] at stored
    cases stored
  · cases other with
    | user u => simp [Stores, users]
    | door e =>
        rw [sound'.stores_door_iff, sound.stores_door_iff, found]
        by_cases here : d.name = e.name
        · simp [here, here ▸ new, eq_comm]
        · have apart : e ≠ d := fun same => here (same ▸ rfl)
          simp [here, apart]

theorem removeDoor_cases (sound : r.Sound) (name : String) :
    (r.door? name = none ∧ r.removeDoor name = (.error .doorNotFound, r)) ∨
      ∃ d left, r.door? name = some d ∧ r.removeDoor name = (.ok d, left) ∧
        left.Gains r (.door d) := by
  cases found : r.door? name with
  | none => exact .inl ⟨rfl, by simp only [Registry.removeDoor, found]⟩
  | some d =>
      have removed : r.removeDoor name =
          (.ok d, { r with doors := r.doors.erase (Name.snakeCase name) }) := by
        simp only [Registry.removeDoor, found]
      have named := (sound.door _ d found).1
      refine .inr ⟨d, _, rfl, removed, (sound.removeDoor removed).gains_door sound rfl ?_ ?_⟩
      · simp [named]
      · intro key
        rw [Std.TreeMap.getElem?_erase, named]
        by_cases here : Name.snakeCase name = key
        · rw [if_pos here, ← here]
          exact found
        · simp only [if_neg here, Std.LawfulEqCmp.compare_eq_iff_eq]

theorem removeUser_cases (sound : r.Sound) (name : String) :
    (r.user? name = none ∧ r.removeUser name = (.error .userNotFound, r)) ∨
      ∃ u left, r.user? name = some u ∧ r.removeUser name = (.ok u, left) ∧
        left.Gains r (.user u) := by
  rcases sound.table.removeName (Name.snakeCase name) with
    ⟨absent, nobody⟩ | ⟨u, users, removed, held, named, _, remaining⟩
  · refine .inl ⟨Option.eq_none_iff_forall_ne_some.mpr fun u found => ?_,
      by simp only [Registry.removeUser, absent]⟩
    obtain ⟨held, named⟩ := sound.table.findName?_eq_some_iff.mp found
    exact nobody u held named
  · refine .inr ⟨u, { r with users }, sound.table.findName?_eq_some_iff.mpr ⟨held, named⟩,
      by simp only [Registry.removeUser, removed], ?_, ?_⟩
    · exact fun kept => ((remaining u).mp kept).2 rfl
    · intro other
      cases other with
      | door d => exact (or_iff_left (by simp)).symm
      | user v =>
          rw [Stores, Stores, remaining, Record.user.injEq]
          by_cases here : v = u
          · simp [here, held]
          · simp [here]

theorem insertDoor_cases (sound : r.Sound) (name : String) (level : Level) :
    (Name.canonical? name = none ∧ r.insertDoor name level = (.error .badSyntax, r)) ∨
      ∃ key, Name.canonical? name = some key ∧
        ((r.IsTaken .door key ∧ r.insertDoor name level = (.error .doorExists, r)) ∨
          ¬ r.IsTaken .door key ∧ ∃ r', r.insertDoor name level = (.ok ⟨key, level⟩, r') ∧
            r.Gains r' (.door ⟨key, level⟩)) := by
  cases canonical : Name.canonical? name with
  | none => exact .inl ⟨rfl, by simp only [Registry.insertDoor, canonical]⟩
  | some key =>
      refine .inr ⟨key, rfl, ?_⟩
      rw [sound.isTaken_door_iff]
      by_cases taken : r.doors.contains key = true
      · exact .inl ⟨taken, by simp only [Registry.insertDoor, canonical, if_pos taken]⟩
      · have inserted : r.insertDoor name level =
            (.ok ⟨key, level⟩, { r with doors := r.doors.insert key ⟨key, level⟩ }) := by
          simp only [Registry.insertDoor, canonical, if_neg taken]
        refine .inr ⟨taken, _, inserted, sound.gains_door (sound.insertDoor inserted) rfl ?_ ?_⟩
        · rw [Std.TreeMap.contains_eq_isSome_getElem?, Option.not_isSome_iff_eq_none] at taken
          exact taken
        · intro other
          simp only [Std.TreeMap.getElem?_insert, Std.LawfulEqCmp.compare_eq_iff_eq]

theorem insertUser_cases (sound : r.Sound) (name : String) (level : Level) {credential : String}
    (admits : credential ≠ "" ∧ r.userOf? credential = none) :
    (Name.canonical? name = none ∧
      r.insertUser name level credential = (.error .badSyntax, r)) ∨
      ∃ key, Name.canonical? name = some key ∧
        ((r.IsTaken .user key ∧ r.insertUser name level credential = (.error .userExists, r)) ∨
          ¬ r.IsTaken .user key ∧ ∃ r',
            r.insertUser name level credential = (.ok ⟨key, credential, level⟩, r') ∧
              r.Gains r' (.user ⟨key, credential, level⟩)) := by
  obtain ⟨present, free⟩ := admits
  cases canonical : Name.canonical? name with
  | none => exact .inl ⟨rfl, by simp only [Registry.insertUser, canonical]⟩
  | some key =>
      refine .inr ⟨key, rfl, ?_⟩
      by_cases taken : r.IsTaken .user key
      · refine .inl ⟨taken, ?_⟩
        rw [sound.isTaken_user_iff] at taken
        simp only [Registry.insertUser, canonical, if_neg present, UserTable.insert, if_pos taken]
      · have unheld (other : User) (held : r.users.Holds other) : other.credential ≠ credential := by
          intro same
          rw [sound.userOf?_eq_some_iff.mpr ⟨held, same⟩] at free
          cases free
        obtain ⟨users, inserted⟩ : ∃ users, r.users.insert ⟨key, credential, level⟩ = .ok users :=
          sound.table.insert_of_free fun other held =>
            ⟨fun named => taken ⟨.user other, held, rfl, named⟩, unheld other held⟩
        refine .inr ⟨taken, { r with users },
          by simp only [Registry.insertUser, canonical, if_neg present, inserted], ?_, ?_⟩
        · exact fun stored => taken ⟨_, stored, rfl, rfl⟩
        · intro other
          cases other with
          | door d => exact (or_iff_left (by simp)).symm
          | user u =>
              rw [Stores, Stores, sound.table.holds_insert inserted, Record.user.injEq]

theorem remove_cases (sound : r.Sound) (kind : RecordKind) (name : String) :
    (r.record? kind name = none ∧ r.apply (.remove kind name) = (.error kind.missing, r)) ∨
      ∃ record left, r.record? kind name = some record ∧
        r.apply (.remove kind name) = (.ok record, left) ∧ left.Gains r record := by
  cases kind with
  | door =>
      rcases sound.removeDoor_cases name with ⟨absent, refused⟩ | ⟨d, left, found, removed, gains⟩
      · exact .inl ⟨congrArg (Option.map Record.door) absent, congrArg apply.aDoor refused⟩
      · exact .inr ⟨.door d, left, congrArg (Option.map Record.door) found,
          congrArg apply.aDoor removed, gains⟩
  | user =>
      rcases sound.removeUser_cases name with ⟨absent, refused⟩ | ⟨u, left, found, removed, gains⟩
      · exact .inl ⟨congrArg (Option.map Record.user) absent, congrArg apply.aUser refused⟩
      · exact .inr ⟨.user u, left, congrArg (Option.map Record.user) found,
          congrArg apply.aUser removed, gains⟩

theorem addition_cases (sound : r.Sound) {record : Record} (admits : r.Admits record) (name : String)
    (level : Option Level) :
    let outcome := r.apply (record.addition name level)
    (Name.canonical? name = none ∧ outcome = (.error .badSyntax, r)) ∨
      ∃ key, Name.canonical? name = some key ∧
        ((r.IsTaken record.kind key ∧ outcome = (.error record.kind.taken, r)) ∨
          ¬ r.IsTaken record.kind key ∧ ∃ r', outcome = (.ok (record.renamed key level), r') ∧
            r.Gains r' (record.renamed key level)) := by
  cases record with
  | door d =>
      rcases sound.insertDoor_cases name (level.getD d.level) with
        ⟨nameless, refused⟩ | ⟨key, canonical, ⟨taken, refused⟩ | ⟨free, r', made, gains⟩⟩
      · exact .inl ⟨nameless, congrArg apply.aDoor refused⟩
      · exact .inr ⟨key, canonical, .inl ⟨taken, congrArg apply.aDoor refused⟩⟩
      · exact .inr ⟨key, canonical, .inr ⟨free, r', congrArg apply.aDoor made, gains⟩⟩
  | user u =>
      rcases sound.insertUser_cases name (level.getD u.level) admits with
        ⟨nameless, refused⟩ | ⟨key, canonical, ⟨taken, refused⟩ | ⟨free, r', made, gains⟩⟩
      · exact .inl ⟨nameless, congrArg apply.aUser refused⟩
      · exact .inr ⟨key, canonical, .inl ⟨taken, congrArg apply.aUser refused⟩⟩
      · exact .inr ⟨key, canonical, .inr ⟨free, r', congrArg apply.aUser made, gains⟩⟩

end Sound

end Registry

end DoorAccess
