import DoorAccess.Proofs.Registry.Sound

/-!
A sound registry is built anew from its own document: no entry is refused, and what comes out holds
the same doors and users. Only the numbers of the users may differ, and nothing depends on these.
-/
namespace DoorAccess.Registry

/-- The registries hold the same doors and the same users. -/
structure Alike (r r' : Registry) : Prop where
  door : ∀ key : String, r'.doors[key]? = r.doors[key]?
  user : ∀ user, r'.users.Holds user ↔ r.users.Holds user

/-! ### Documents -/

/-- Records in the strict order of their names are listed in one way only. -/
theorem eq_of_ordered {α : Type} {name : α → String} {xs ys : List α}
    (ordered : xs.Pairwise fun a b => compare (name a) (name b) = .lt)
    (ordered' : ys.Pairwise fun a b => compare (name a) (name b) = .lt)
    (same : ∀ a, a ∈ xs ↔ a ∈ ys) : xs = ys := by
  have apart {a b : α} (before : compare (name a) (name b) = .lt) : a ≠ b := by
    rintro rfl
    exact Std.OrientedCmp.not_lt_of_lt before before
  have perm : xs.Perm ys := (List.perm_ext_iff_of_nodup (ordered.imp apart)
    (ordered'.imp apart)).mpr same
  refine perm.eq_of_pairwise (fun a b _ _ before after => ?_) ordered ordered'
  exact absurd after (Std.OrientedCmp.not_lt_of_lt before)

namespace Sound
variable {r r' : Registry}

theorem mem_doors (sound : r.Sound) (d : Door) :
    d ∈ r.toDocument.doors ↔ r.doors[d.name]? = some d := by
  simp only [toDocument, List.mem_map, Prod.exists, exists_eq_right,
    Std.TreeMap.mem_toList_iff_getElem?_eq_some]
  constructor
  · rintro ⟨key, found⟩
    rwa [(sound.door key d found).1]
  · exact fun found => ⟨d.name, found⟩

theorem ordered_doors (sound : r.Sound) :
    r.toDocument.doors.Pairwise fun a b => compare a.name b.name = .lt := by
  refine List.pairwise_map.mpr (Std.TreeMap.ordered_keys_toList.imp_of_mem ?_)
  rintro ⟨key, door⟩ ⟨key', door'⟩ listed listed' before
  rw [Std.TreeMap.mem_toList_iff_getElem?_eq_some] at listed listed'
  rwa [(sound.door key door listed).1, (sound.door key' door' listed').1]

theorem mem_users (sound : r.Sound) (user : User) :
    user ∈ r.toDocument.users ↔ r.users.Holds user :=
  sound.table.mem_toList user

theorem toDocument_eq (sound : r.Sound) (sound' : r'.Sound) (alike : r.Alike r') :
    r'.toDocument = r.toDocument := by
  have doors : r'.toDocument.doors = r.toDocument.doors :=
    eq_of_ordered sound'.ordered_doors sound.ordered_doors fun d => by
      rw [sound'.mem_doors, sound.mem_doors, alike.door]
  have users : r'.toDocument.users = r.toDocument.users :=
    eq_of_ordered sound'.table.ordered_toList sound.table.ordered_toList fun user => by
      rw [sound'.mem_users, sound.mem_users, alike.user]
  exact Document.mk.injEq _ _ _ _ ▸ ⟨doors, users⟩

/-! ### Lookups -/

theorem door?_eq (alike : r.Alike r') (name : String) : r'.door? name = r.door? name :=
  alike.door (Name.snakeCase name)

theorem user?_eq (sound : r.Sound) (sound' : r'.Sound) (alike : r.Alike r') (name : String) :
    r'.user? name = r.user? name := by
  refine Option.ext fun user => ?_
  rw [user?, user?, sound'.table.findName?_eq_some_iff, sound.table.findName?_eq_some_iff,
    alike.user]

theorem userOf?_eq (sound : r.Sound) (sound' : r'.Sound) (alike : r.Alike r')
    (credential : String) : r'.userOf? credential = r.userOf? credential := by
  refine Option.ext fun user => ?_
  rw [userOf?, userOf?, sound'.table.findCredential?_eq_some_iff,
    sound.table.findCredential?_eq_some_iff, alike.user]

end Sound

/-! ### Building -/

theorem addDoor_of_free {b : Building} {d : Door} (canonical : Name.canonical? d.name = some d.name)
    (free : b.registry.doors[d.name]? = none) :
    b.addDoor d = { b with registry :=
      { b.registry with doors := b.registry.doors.insert d.name d } } := by
  have absent : b.registry.doors.contains d.name = false := by
    simp [Std.TreeMap.contains_eq_isSome_getElem?, free]
  simp [Building.addDoor, insertDoor, canonical, absent]

theorem foldl_addDoor (ds : List Door) {b : Building}
    (canonical : ∀ d ∈ ds, Name.canonical? d.name = some d.name)
    (distinct : ds.Pairwise fun a b => a.name ≠ b.name)
    (free : ∀ d ∈ ds, b.registry.doors[d.name]? = none) :
    (ds.foldl Building.addDoor b).refused = b.refused ∧
      (ds.foldl Building.addDoor b).registry.users = b.registry.users ∧
      ∀ (key : String) (door : Door),
        (ds.foldl Building.addDoor b).registry.doors[key]? = some door ↔
          b.registry.doors[key]? = some door ∨ (door ∈ ds ∧ door.name = key) := by
  induction ds generalizing b with
  | nil => simp
  | cons d ds ih =>
      obtain ⟨others, distinct⟩ := List.pairwise_cons.mp distinct
      rw [List.foldl_cons, addDoor_of_free (canonical d (by simp)) (free d (by simp))]
      have rest := ih (b := { b with registry :=
          { b.registry with doors := b.registry.doors.insert d.name d } })
        (fun other member => canonical other (by simp [member])) distinct
        (fun other member => by
          rw [Std.TreeMap.getElem?_insert, if_neg]
          · exact free other (by simp [member])
          · rw [Std.LawfulEqCmp.compare_eq_iff_eq]
            exact others other member)
      refine ⟨rest.1, rest.2.1, fun key door => ?_⟩
      rw [rest.2.2]
      simp only [Std.TreeMap.getElem?_insert, Std.LawfulEqCmp.compare_eq_iff_eq, List.mem_cons]
      have unused := free d (by simp)
      by_cases here : d.name = key
      · subst here
        simp only [if_true, unused, Option.some.injEq]
        constructor
        · intro found
          cases found with
          | inl this => exact .inr ⟨.inl this.symm, this ▸ rfl⟩
          | inr later => exact .inr ⟨.inr later.1, later.2⟩
        · intro found
          obtain ⟨member, same⟩ := found.resolve_left nofun
          cases member with
          | inl this => exact .inl this.symm
          | inr later => exact .inr ⟨later, same⟩
      · simp only [here, if_false]
        constructor
        · intro found
          exact found.imp_right fun later => ⟨.inr later.1, later.2⟩
        · intro found
          refine found.imp_right fun listed => ⟨?_, listed.2⟩
          exact listed.1.resolve_left fun this => here (this ▸ listed.2)

theorem addUser_of_free {b : Building} {u : User} (sound : b.registry.users.Sound)
    (canonical : Name.canonical? u.name = some u.name) (credited : u.credential ≠ "")
    (free : ∀ other, b.registry.users.Holds other →
      other.name ≠ u.name ∧ other.credential ≠ u.credential) :
    ∃ users, b.registry.users.insert u = .ok users ∧
      b.addUser u = { b with registry := { b.registry with users } } := by
  obtain ⟨users, inserted⟩ := sound.insert_of_free free
  refine ⟨users, inserted, ?_⟩
  have named : (⟨u.name, u.credential, u.level⟩ : User) = u := rfl
  simp [Building.addUser, insertUser, canonical, credited, named, inserted]

theorem foldl_addUser (us : List User) {b : Building} (sound : b.registry.users.Sound)
    (storable : ∀ u ∈ us, Name.canonical? u.name = some u.name ∧ u.credential ≠ "")
    (distinct : us.Pairwise fun a b => a.name ≠ b.name ∧ a.credential ≠ b.credential)
    (free : ∀ u ∈ us, ∀ other, b.registry.users.Holds other →
      other.name ≠ u.name ∧ other.credential ≠ u.credential) :
    (us.foldl Building.addUser b).refused = b.refused ∧
      (us.foldl Building.addUser b).registry.doors = b.registry.doors ∧
      ∀ user, (us.foldl Building.addUser b).registry.users.Holds user ↔
        b.registry.users.Holds user ∨ user ∈ us := by
  induction us generalizing b with
  | nil => simp
  | cons u us ih =>
      obtain ⟨others, distinct⟩ := List.pairwise_cons.mp distinct
      obtain ⟨canonical, credited⟩ := storable u (by simp)
      obtain ⟨users, inserted, added⟩ := addUser_of_free sound canonical credited (free u (by simp))
      have holds := sound.holds_insert inserted
      rw [List.foldl_cons, added]
      have rest := ih (b := { b with registry := { b.registry with users } })
        (sound.insert inserted) (fun other member => storable other (by simp [member])) distinct
        (fun other member held present => by
          cases (holds held).mp present with
          | inl before => exact free other (by simp [member]) held before
          | inr this => exact this ▸ others other member)
      refine ⟨rest.1, rest.2.1, fun user => ?_⟩
      rw [rest.2.2, holds, List.mem_cons, or_assoc]

/-- A sound registry comes back from its own document whole. -/
theorem Sound.rebuild {r : Registry} (sound : r.Sound) :
    (ofDocument r.toDocument).refused = 0 ∧ r.Alike (ofDocument r.toDocument).registry := by
  have apart {a b : String} (before : compare a b = .lt) : a ≠ b := by
    rintro rfl
    exact Std.OrientedCmp.not_lt_of_lt before before
  obtain ⟨refused, users, doors⟩ := foldl_addDoor r.toDocument.doors (b := ⟨empty, 0⟩)
    (fun d member => (sound.door _ d ((sound.mem_doors d).mp member)).2)
    (sound.ordered_doors.imp apart) (by simp [empty])
  have unlike : r.toDocument.users.Pairwise fun a b =>
      a.name ≠ b.name ∧ a.credential ≠ b.credential := by
    refine sound.table.ordered_toList.imp_of_mem fun {a b} member member' before => ?_
    refine ⟨apart before, fun same => apart before ?_⟩
    rw [sound.table.eq_of_credential ((sound.mem_users a).mp member)
      ((sound.mem_users b).mp member') same]
  have none (user : User) : ¬ (r.toDocument.doors.foldl Building.addDoor
      ⟨empty, 0⟩).registry.users.Holds user := by
    rw [users]
    exact UserTable.not_holds_empty user
  obtain ⟨refused', doors', held⟩ := foldl_addUser r.toDocument.users
    (b := r.toDocument.doors.foldl Building.addDoor ⟨empty, 0⟩) (users ▸ UserTable.sound_empty)
    (fun u member => sound.user u ((sound.mem_users u).mp member)) unlike
    (fun _ _ other present => absurd present (none other))
  refine ⟨refused'.trans refused, ⟨fun key => ?_, fun user => ?_⟩⟩
  · rw [ofDocument, doors']
    refine Option.ext fun door => ?_
    rw [doors, sound.mem_doors]
    constructor
    · intro found
      cases found with
      | inl before => simp [empty] at before
      | inr listed => exact listed.2 ▸ listed.1
    · intro found
      have named := (sound.door key door found).1
      exact .inr ⟨named ▸ found, named⟩
  · rw [ofDocument, held, sound.mem_users]
    exact or_iff_right (none user)

end DoorAccess.Registry
