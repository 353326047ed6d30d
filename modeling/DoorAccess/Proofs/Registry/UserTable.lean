import DoorAccess.Registry.UserTable

/-!
The user table through the users it holds. Both indices lead to exactly these, so the table is
known by them: they give every lookup, and in the order of their names the whole list.
-/
namespace DoorAccess.UserTable

/-- The index leads from each key to the number of the one user that has it. -/
def Indexes (records : Std.TreeMap Nat User) (key : User → String) (index : Std.TreeMap String Nat) :
    Prop :=
  ∀ (k : String) (id : Nat), index[k]? = some id ↔
    ∃ user : User, records[id]? = some user ∧ key user = k

namespace Indexes
variable {records : Std.TreeMap Nat User} {key : User → String} {index : Std.TreeMap String Nat}

theorem bind_eq_some_iff (indexes : Indexes records key index) {k : String} {user : User} :
    (index[k]?.bind fun id => records[id]?) = some user ↔
      (∃ id : Nat, records[id]? = some user) ∧ key user = k := by
  rw [Option.bind_eq_some_iff]
  constructor
  · intro found
    obtain ⟨id, led, found⟩ := found
    obtain ⟨other, stored, here⟩ := (indexes k id).mp led
    cases stored.symm.trans found
    exact ⟨⟨id, found⟩, here⟩
  · intro stored
    obtain ⟨⟨id, found⟩, here⟩ := stored
    exact ⟨id, (indexes k id).mpr ⟨user, found, here⟩, found⟩

theorem contains_iff (indexes : Indexes records key index) (k : String) :
    index.contains k ↔ ∃ user : User, (∃ id : Nat, records[id]? = some user) ∧ key user = k := by
  rw [Std.TreeMap.contains_eq_isSome_getElem?, Option.isSome_iff_exists]
  constructor
  · rintro ⟨id, led⟩
    obtain ⟨user, stored, here⟩ := (indexes k id).mp led
    exact ⟨user, ⟨id, stored⟩, here⟩
  · rintro ⟨user, ⟨id, stored⟩, here⟩
    exact ⟨id, (indexes k id).mpr ⟨user, stored, here⟩⟩

theorem insert (indexes : Indexes records key index) {id : Nat} {user : User}
    (unused : records[id]? = none) (free : index[key user]? = none) :
    Indexes (records.insert id user) key (index.insert (key user) id) := by
  intro k i
  simp only [Std.TreeMap.getElem?_insert, Std.LawfulEqCmp.compare_eq_iff_eq]
  have before := indexes k i
  by_cases here : id = i
  · subst here
    rw [unused] at before
    by_cases same : key user = k <;> simp_all
  · by_cases same : key user = k
    · subst same
      rw [free] at before
      simp_all
    · simp_all

theorem erase (indexes : Indexes records key index) {id : Nat} {user : User}
    (found : records[id]? = some user) :
    Indexes (records.erase id) key (index.erase (key user)) := by
  intro k i
  simp only [Std.TreeMap.getElem?_erase, Std.LawfulEqCmp.compare_eq_iff_eq]
  have led := (indexes (key user) id).mpr ⟨user, found, rfl⟩
  have before := indexes k i
  by_cases same : key user = k
  · subst same
    by_cases here : id = i
    · simp_all
    · rw [led] at before
      simp_all
  · by_cases here : id = i <;> simp_all

end Indexes

/-- Each index leads to the users that have the key, and no number is used twice. -/
structure Sound (t : UserTable) : Prop where
  fresh : ∀ (id : Nat) (user : User), t.records[id]? = some user → id < t.nextId
  named : Indexes t.records User.name t.byName
  credited : Indexes t.records User.credential t.byCredential

/-- The user is stored under some number. -/
def Holds (t : UserTable) (user : User) : Prop := ∃ id : Nat, t.records[id]? = some user

theorem sound_empty : Sound {} where
  fresh := by simp
  named := by simp [Indexes]
  credited := by simp [Indexes]

theorem not_holds_empty (user : User) : ¬ Holds {} user := by simp [Holds]

section Operations
variable {t t' : UserTable} {user : User}

theorem insert_error {failure : AccessError} (h : t.insert user = .error failure) :
    failure = .userExists ∨ failure = .credentialInUse := by
  rw [insert] at h
  split at h
  · cases h
    exact .inl rfl
  · split at h
    · cases h
      exact .inr rfl
    · cases h

theorem insert_ok (h : t.insert user = .ok t') :
    t.byName[user.name]? = none ∧ t.byCredential[user.credential]? = none ∧
      t' = ⟨t.records.insert t.nextId user, t.byName.insert user.name t.nextId,
        t.byCredential.insert user.credential t.nextId, t.nextId + 1⟩ := by
  rw [insert] at h
  split at h
  · cases h
  · next noName =>
      split at h
      · cases h
      · next noCredential =>
          cases h
          exact ⟨by simpa using noName, by simpa using noCredential, rfl⟩

namespace Sound

theorem findName?_eq_some_iff (sound : t.Sound) {name : String} :
    t.findName? name = some user ↔ t.Holds user ∧ user.name = name :=
  sound.named.bind_eq_some_iff

theorem findCredential?_eq_some_iff (sound : t.Sound) {credential : String} :
    t.findCredential? credential = some user ↔ t.Holds user ∧ user.credential = credential :=
  sound.credited.bind_eq_some_iff

theorem eq_of_name (sound : t.Sound) {other : User} (h : t.Holds user) (h' : t.Holds other)
    (same : user.name = other.name) : user = other := by
  have first := sound.findName?_eq_some_iff.mpr ⟨h, same⟩
  have second := sound.findName?_eq_some_iff.mpr ⟨h', rfl⟩
  exact Option.some.inj (first.symm.trans second)

theorem eq_of_credential (sound : t.Sound) {other : User} (h : t.Holds user) (h' : t.Holds other)
    (same : user.credential = other.credential) : user = other := by
  have first := sound.findCredential?_eq_some_iff.mpr ⟨h, same⟩
  have second := sound.findCredential?_eq_some_iff.mpr ⟨h', rfl⟩
  exact Option.some.inj (first.symm.trans second)

theorem unused (sound : t.Sound) : t.records[t.nextId]? = none := by
  cases found : t.records[t.nextId]? with
  | none => rfl
  | some other => exact absurd (sound.fresh _ other found) (Nat.lt_irrefl _)

theorem insert (sound : t.Sound) (h : t.insert user = .ok t') : t'.Sound := by
  obtain ⟨noName, noCredential, rfl⟩ := insert_ok h
  refine ⟨?_, sound.named.insert sound.unused noName,
    sound.credited.insert sound.unused noCredential⟩
  intro id other found
  simp only [Std.TreeMap.getElem?_insert, Std.LawfulEqCmp.compare_eq_iff_eq] at found
  split at found
  · next here => exact here ▸ Nat.lt_succ_self _
  · exact Nat.lt_succ_of_lt (sound.fresh id other found)

theorem holds_insert (sound : t.Sound) (h : t.insert user = .ok t') (other : User) :
    t'.Holds other ↔ t.Holds other ∨ other = user := by
  obtain ⟨_, _, rfl⟩ := insert_ok h
  simp only [Holds, Std.TreeMap.getElem?_insert, Std.LawfulEqCmp.compare_eq_iff_eq]
  constructor
  · intro held
    obtain ⟨id, found⟩ := held
    split at found
    · exact .inr (Option.some.inj found).symm
    · exact .inl ⟨id, found⟩
  · intro held
    cases held with
    | inl before =>
        obtain ⟨id, found⟩ := before
        have below := sound.fresh id other found
        exact ⟨id, by rw [if_neg (Nat.ne_of_gt below)]; exact found⟩
    | inr here =>
        subst here
        exact ⟨t.nextId, by simp⟩

/-- Nothing keeps out a user whose name and credential nobody has. -/
theorem insert_of_free (sound : t.Sound)
    (free : ∀ other, t.Holds other → other.name ≠ user.name ∧ other.credential ≠ user.credential) :
    ∃ t', t.insert user = .ok t' := by
  have noName : ¬ t.byName.contains user.name := by
    rw [sound.named.contains_iff]
    exact fun ⟨other, held, same⟩ => (free other held).1 same
  have noCredential : ¬ t.byCredential.contains user.credential := by
    rw [sound.credited.contains_iff]
    exact fun ⟨other, held, same⟩ => (free other held).2 same
  simp [UserTable.insert, noName, noCredential]

/-- Taking a user out by the name, in a table whose indices are right. -/
theorem removeName (sound : t.Sound) (name : String) :
    (t.removeName name = (none, t) ∧ ∀ user, t.Holds user → user.name ≠ name) ∨
      ∃ user t', t.removeName name = (some user, t') ∧ t.Holds user ∧ user.name = name ∧
        t'.Sound ∧ ∀ other, t'.Holds other ↔ t.Holds other ∧ other ≠ user := by
  cases led : t.byName[name]? with
  | none =>
      refine .inl ⟨by simp [UserTable.removeName, led], ?_⟩
      intro user held same
      obtain ⟨id, stored⟩ := held
      have index := (sound.named name id).mpr ⟨user, stored, same⟩
      rw [led] at index
      cases index
  | some id =>
      obtain ⟨user, stored, rfl⟩ := (sound.named name id).mp led
      refine .inr ⟨user, _, by simp only [UserTable.removeName, led, stored]; rfl, ⟨id, stored⟩,
        rfl, ⟨?_, sound.named.erase stored, sound.credited.erase stored⟩, ?_⟩
      · intro i other found
        rw [Std.TreeMap.getElem?_erase] at found
        split at found
        · cases found
        · exact sound.fresh i other found
      · intro other
        simp only [Holds, Std.TreeMap.getElem?_erase, Std.LawfulEqCmp.compare_eq_iff_eq]
        constructor
        · intro held
          obtain ⟨i, found⟩ := held
          split at found
          · cases found
          · next away =>
              refine ⟨⟨i, found⟩, fun same => away ?_⟩
              subst same
              have back := (sound.named other.name i).mpr ⟨other, found, rfl⟩
              exact Option.some.inj (led.symm.trans back)
        · intro kept
          obtain ⟨⟨i, found⟩, differs⟩ := kept
          refine ⟨i, ?_⟩
          rw [if_neg, found]
          intro same
          subst same
          exact differs (Option.some.inj (found.symm.trans stored))

end Sound

end Operations

/-! ### The list -/

namespace Sound
variable {t : UserTable}

theorem mem_toList (sound : t.Sound) (user : User) : user ∈ t.toList ↔ t.Holds user := by
  simp only [toList, List.mem_filterMap, Prod.exists, Std.TreeMap.mem_toList_iff_getElem?_eq_some,
    sound.named _ _]
  constructor
  · intro listed
    obtain ⟨_, id, _, found⟩ := listed
    exact ⟨id, found⟩
  · intro held
    obtain ⟨id, found⟩ := held
    exact ⟨user.name, id, ⟨user, found, rfl⟩, found⟩

/-- The users stand in the strict order of their names. -/
theorem ordered_toList (sound : t.Sound) :
    t.toList.Pairwise fun a b => compare a.name b.name = .lt := by
  have named : ∀ entry ∈ t.byName.toList, ∀ user, t.records[entry.2]? = some user →
      user.name = entry.1 := by
    rintro ⟨name, id⟩ listed user found
    rw [Std.TreeMap.mem_toList_iff_getElem?_eq_some] at listed
    obtain ⟨other, stored, same⟩ := (sound.named name id).mp listed
    cases stored.symm.trans found
    exact same
  refine List.pairwise_filterMap.mpr (Std.TreeMap.ordered_keys_toList.imp_of_mem ?_)
  intro entry later listed listedLater before user found laterUser foundLater
  rw [named entry listed user found, named later listedLater laterUser foundLater]
  exact before

end Sound

end DoorAccess.UserTable
