import DoorAccess.Proofs.Registry.UserTable
import Mathlib.Data.List.Perm.Subperm

/-!
The two indices of a user table never drift from its users, whatever is inserted and removed. The
check of a table is exact: an index that knows every user and has no more entries than there are
users has no entry that leads astray.
-/
namespace DoorAccess.UserTable

/-! ### Counting entries -/

section Counting
variable {records : Std.TreeMap Nat User} {key : User → String} {index : Std.TreeMap String Nat}

/-- The key of every user, in the order of the numbers. -/
def keysOf (records : Std.TreeMap Nat User) (key : User → String) : List String :=
  records.toList.map fun (_, user) => key user

theorem mem_keysOf {k : String} :
    k ∈ keysOf records key ↔
      ∃ (id : Nat) (user : User), records[id]? = some user ∧ key user = k := by
  simp [keysOf, Std.TreeMap.mem_toList_iff_getElem?_eq_some]

theorem mem_keys {k : String} : k ∈ index.keys ↔ ∃ id : Nat, index[k]? = some id := by
  rw [Std.TreeMap.mem_keys, Std.TreeMap.mem_iff_isSome_getElem?, Option.isSome_iff_exists]

theorem nodup_keys {α : Type} {entries : Std.TreeMap String α} : entries.keys.Nodup :=
  Std.TreeMap.distinct_keys.imp fun apart same =>
    apart (Std.LawfulEqCmp.compare_eq_iff_eq.mpr same)

theorem length_keysOf : (keysOf records key).length = records.size := by
  simp [keysOf, Std.TreeMap.length_toList]

/-- Every user is found under the key. -/
def Reaches (records : Std.TreeMap Nat User) (key : User → String)
    (index : Std.TreeMap String Nat) : Prop :=
  ∀ (id : Nat) (user : User), records[id]? = some user → index[key user]? = some id

theorem Indexes.reaches (indexes : Indexes records key index) : Reaches records key index :=
  fun id user stored => (indexes (key user) id).mpr ⟨user, stored, rfl⟩

/-- No two users have a key under which both of them are found. -/
theorem Reaches.nodup_keysOf (reaches : Reaches records key index) :
    (keysOf records key).Nodup := by
  refine List.pairwise_map.mpr (Std.TreeMap.distinct_keys_toList.imp_of_mem ?_)
  rintro ⟨id, user⟩ ⟨id', user'⟩ listed listed' apart same
  rw [Std.TreeMap.mem_toList_iff_getElem?_eq_some] at listed listed'
  have led := reaches id user listed
  rw [show key user = key user' from same, reaches id' user' listed'] at led
  exact apart (Std.LawfulEqCmp.compare_eq_iff_eq.mpr (Option.some.inj led).symm)

theorem Reaches.subset_keys (reaches : Reaches records key index) :
    keysOf records key ⊆ index.keys := by
  intro k listed
  obtain ⟨id, user, stored, rfl⟩ := mem_keysOf.mp listed
  exact mem_keys.mpr ⟨id, reaches id user stored⟩

/-- There is no room for an entry that leads to no user. -/
theorem Reaches.indexes (reaches : Reaches records key index) (size : index.size ≤ records.size) :
    Indexes records key index := by
  have enough : index.keys.length ≤ (keysOf records key).length := by
    rwa [length_keysOf, Std.TreeMap.length_keys]
  have perm : (keysOf records key).Perm index.keys :=
    (List.subperm_of_subset reaches.nodup_keysOf reaches.subset_keys).perm_of_length_le enough
  intro k id
  constructor
  · intro led
    obtain ⟨id', user, stored, rfl⟩ := mem_keysOf.mp (perm.mem_iff.mpr (mem_keys.mpr ⟨id, led⟩))
    rw [reaches id' user stored] at led
    exact ⟨user, Option.some.inj led ▸ stored, rfl⟩
  · rintro ⟨user, stored, rfl⟩
    exact reaches id user stored

theorem Indexes.size_eq (indexes : Indexes records key index) : index.size = records.size := by
  have perm : (keysOf records key).Perm index.keys := by
    refine (List.perm_ext_iff_of_nodup indexes.reaches.nodup_keysOf nodup_keys).mpr fun k => ?_
    rw [mem_keysOf, mem_keys]
    exact exists_congr fun id => (indexes k id).symm
  rw [← Std.TreeMap.length_keys, ← perm.length_eq, length_keysOf]

end Counting

/-! ### The check -/

/-- The index is a bijection from its keys to the numbers of the users, and every user is found
under the key that the user has. -/
structure Bijects (records : Std.TreeMap Nat User) (key : User → String)
    (index : Std.TreeMap String Nat) : Prop where
  leads : ∀ (k : String) (id : Nat), index[k]? = some id →
    ∃ user : User, records[id]? = some user ∧ key user = k
  injective : ∀ (k k' : String) (id : Nat), index[k]? = some id → index[k']? = some id → k = k'
  surjective : ∀ (id : Nat) (user : User), records[id]? = some user →
    ∃ k : String, index[k]? = some id

theorem bijects_iff_indexes {records : Std.TreeMap Nat User} {key : User → String}
    {index : Std.TreeMap String Nat} : Bijects records key index ↔ Indexes records key index := by
  constructor
  · intro bijects k id
    constructor
    · exact bijects.leads k id
    · rintro ⟨user, stored, rfl⟩
      obtain ⟨k, led⟩ := bijects.surjective id user stored
      obtain ⟨other, found, rfl⟩ := bijects.leads k id led
      cases stored.symm.trans found
      exact led
  · intro indexes
    refine ⟨fun k id => (indexes k id).mp, ?_,
      fun id user stored => ⟨_, indexes.reaches id user stored⟩⟩
    intro k k' id led led'
    obtain ⟨user, stored, rfl⟩ := (indexes k id).mp led
    obtain ⟨other, found, rfl⟩ := (indexes k' id).mp led'
    cases stored.symm.trans found
    rfl

theorem isConsistent_eq_true_iff (t : UserTable) :
    t.isConsistent = true ↔
      Indexes t.records User.name t.byName ∧ Indexes t.records User.credential t.byCredential := by
  have each : (t.records.toList.all fun (id, user) =>
      t.byName[user.name]? == some id && t.byCredential[user.credential]? == some id) = true ↔
      Reaches t.records User.name t.byName ∧ Reaches t.records User.credential t.byCredential := by
    simp only [List.all_eq_true, Prod.forall, Std.TreeMap.mem_toList_iff_getElem?_eq_some,
      Bool.and_eq_true, beq_iff_eq]
    exact ⟨fun all => ⟨fun id user stored => (all id user stored).1,
      fun id user stored => (all id user stored).2⟩,
      fun both id user stored => ⟨both.1 id user stored, both.2 id user stored⟩⟩
  simp only [isConsistent, Bool.and_eq_true, beq_iff_eq, each]
  constructor
  · rintro ⟨⟨names, credentials⟩, named, credited⟩
    exact ⟨named.indexes (Nat.le_of_eq names), credited.indexes (Nat.le_of_eq credentials)⟩
  · rintro ⟨named, credited⟩
    exact ⟨⟨named.size_eq, credited.size_eq⟩, named.reaches, credited.reaches⟩

/-! ### Sizes -/

theorem size_insert {t t' : UserTable} {user : User} (sound : t.Sound)
    (h : t.insert user = .ok t') : t'.size = t.size + 1 ∧ t'.nextId = t.nextId + 1 := by
  obtain ⟨_, _, rfl⟩ := insert_ok h
  have unused : t.records.contains t.nextId = false := by
    rw [Std.TreeMap.contains_eq_isSome_getElem?, sound.unused]
    rfl
  exact ⟨by simp [size, Std.TreeMap.size_insert, unused], rfl⟩

theorem nextId_removeName (t : UserTable) (name : String) :
    (t.removeName name).2.nextId = t.nextId := by
  rw [removeName]
  split
  · rfl
  · split <;> rfl

theorem size_removeName {t t' : UserTable} {name : String} {user : User}
    (h : t.removeName name = (some user, t')) : t'.size + 1 = t.size := by
  rw [removeName] at h
  split at h
  · cases h
  · next id led =>
      split at h
      · cases h
      · next found =>
          cases h
          have stored : t.records.contains id = true := by
            rw [Std.TreeMap.contains_eq_isSome_getElem?, found]
            rfl
          have some : t.records.size ≠ 0 := by
            intro zero
            have empty : t.records.isEmpty = true := by
              rw [Std.TreeMap.isEmpty_eq_size_eq_zero, zero]
              rfl
            rw [Std.TreeMap.isEmpty_iff_forall_contains.mp empty id] at stored
            cases stored
          simp only [size, Std.TreeMap.size_erase, stored, if_true]
          omega

/-! ### Histories -/

inductive Call
  | insert (user : User)
  | remove (name : String)

/-- What can be asked of a table: nobody has the name or the credential yet, or somebody has the
name. -/
def Possible (t : UserTable) : Call → Prop
  | .insert user =>
    ∀ other, t.Holds other → other.name ≠ user.name ∧ other.credential ≠ user.credential
  | .remove name => ∃ user, t.Holds user ∧ user.name = name

/-- A table and how many of the calls that were made on it have succeeded. -/
structure History where
  table : UserTable := {}
  inserted : Nat := 0
  removed : Nat := 0

namespace History

def take (h : History) : Call → History
  | .insert user =>
    match h.table.insert user with
    | .ok table => { h with table, inserted := h.inserted + 1 }
    | .error _ => h
  | .remove name =>
    match h.table.removeName name with
    | (some _, table) => { h with table, removed := h.removed + 1 }
    | (none, table) => { h with table }

def run (calls : List Call) : History := calls.foldl take {}

structure Invariant (h : History) : Prop where
  sound : h.table.Sound
  size : h.table.size + h.removed = h.inserted
  nextId : h.table.nextId = h.inserted

/-- A call that is possible succeeds, and one that is not changes nothing. -/
theorem take_cases {h : History} (sound : h.table.Sound) (call : Call) :
    (h.table.Possible call ∧
        (h.take call).inserted + (h.take call).removed = h.inserted + h.removed + 1) ∨
      (¬ h.table.Possible call ∧ h.take call = h) := by
  cases call with
  | insert user =>
      rw [take]
      split
      · next table made =>
          obtain ⟨noName, noCredential, _⟩ := insert_ok made
          refine .inl ⟨?_, Nat.add_right_comm _ _ _⟩
          rintro other ⟨id, stored⟩
          constructor
          · intro same
            rw [← same, sound.named.reaches id other stored] at noName
            cases noName
          · intro same
            rw [← same, sound.credited.reaches id other stored] at noCredential
            cases noCredential
      · next refused =>
          refine .inr ⟨fun free => ?_, rfl⟩
          obtain ⟨table, made⟩ := sound.insert_of_free free
          rw [refused] at made
          cases made
  | remove name =>
      rcases sound.removeName name with ⟨absent, none⟩ | ⟨user, table, out, held, named, _⟩
      · rw [take, absent]
        exact .inr ⟨fun ⟨user, held, named⟩ => none user held named, rfl⟩
      · rw [take, out]
        exact .inl ⟨⟨user, held, named⟩, rfl⟩

theorem invariant_start : Invariant {} := ⟨sound_empty, rfl, rfl⟩

theorem invariant_take {h : History} (inv : h.Invariant) (call : Call) :
    (h.take call).Invariant := by
  cases call with
  | insert user =>
      rw [take]
      split
      · next table made =>
          obtain ⟨size, nextId⟩ := size_insert inv.sound made
          refine ⟨inv.sound.insert made, ?_, ?_⟩
          · change table.size + h.removed = h.inserted + 1
            rw [← inv.size, size, Nat.add_right_comm]
          · change table.nextId = h.inserted + 1
            rw [nextId, inv.nextId]
      · exact inv
  | remove name =>
      rcases inv.sound.removeName name with ⟨absent, _⟩ | ⟨user, table, out, _, _, sound, _⟩
      · rw [take, absent]
        exact inv
      · have size := size_removeName out
        have nextId := h.table.nextId_removeName name
        rw [out] at nextId
        rw [take, out]
        refine ⟨sound, ?_, nextId.trans inv.nextId⟩
        change table.size + (h.removed + 1) = h.inserted
        rw [← inv.size, ← size, Nat.add_right_comm, Nat.add_assoc]

theorem invariant_run (calls : List Call) : (run calls).Invariant := by
  refine List.foldlRecOn (motive := Invariant) calls _ invariant_start ?_
  exact fun h inv call _ => invariant_take inv call

end History

/-- Every user is found under the two keys that the user has, and nobody else is. -/
structure Coherent (t : UserTable) : Prop where
  consistent : t.isConsistent = true
  named : ∀ name user, t.findName? name = some user ↔ t.Holds user ∧ user.name = name
  credited : ∀ credential user,
    t.findCredential? credential = some user ↔ t.Holds user ∧ user.credential = credential
  crossed : ∀ name credential user,
    t.findName? name = some user ∧ user.credential = credential ↔
      t.findCredential? credential = some user ∧ user.name = name
  distinct : ∀ (id id' : Nat) (user user' : User), t.records[id]? = some user →
    t.records[id']? = some user' → user.name = user'.name ∨ user.credential = user'.credential →
      id = id'

theorem Sound.coherent {t : UserTable} (sound : t.Sound) : t.Coherent where
  consistent := t.isConsistent_eq_true_iff.mpr ⟨sound.named, sound.credited⟩
  named _ _ := sound.findName?_eq_some_iff
  credited _ _ := sound.findCredential?_eq_some_iff
  crossed name credential user := by
    rw [sound.findName?_eq_some_iff, sound.findCredential?_eq_some_iff, and_right_comm]
  distinct id id' user user' stored stored' same := by
    cases same with
    | inl name =>
        have led := sound.named.reaches id user stored
        rw [name, sound.named.reaches id' user' stored'] at led
        exact (Option.some.inj led).symm
    | inr credential =>
        have led := sound.credited.reaches id user stored
        rw [credential, sound.credited.reaches id' user' stored'] at led
        exact (Option.some.inj led).symm

/-- After any insertions and removals, failed ones included, both indices lead to exactly the users
there are, and these are as many as were inserted and not removed. What is possible succeeds, and a
call that fails changes nothing. The numbers of the users count the insertions, so fewer than 2 ^ 64
of these never need a number of more than 64 bits. The check accepts no table, reachable or not,
whose indices are not bijections onto the users. -/
theorem indices_never_drift (calls : List Call) :
    let h := History.run calls
    h.table.Coherent ∧
      (h.table.size + h.removed = h.inserted ∧ h.table.nextId = h.inserted) ∧
      (∀ call,
        (h.table.Possible call ∧
            (h.take call).inserted + (h.take call).removed = h.inserted + h.removed + 1) ∨
          (¬ h.table.Possible call ∧ h.take call = h)) ∧
      ∀ t : UserTable, t.isConsistent = true ↔
        Bijects t.records User.name t.byName ∧
          Bijects t.records User.credential t.byCredential := by
  intro h
  have inv : h.Invariant := History.invariant_run calls
  refine ⟨inv.sound.coherent, ⟨inv.size, inv.nextId⟩, History.take_cases inv.sound, fun t => ?_⟩
  rw [t.isConsistent_eq_true_iff, bijects_iff_indexes, bijects_iff_indexes]

end DoorAccess.UserTable
