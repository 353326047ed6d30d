import DoorAccess.Proofs.Registry.Indices
import DoorAccess.Proofs.Registry.Rebuild
import Mathlib.Data.List.Nodup
import Mathlib.Data.String.Basic

/-!
The document of a registry is canonical: it lists what is stored, each record once and in the order
of the names, and neither the history of the registry nor the order in which its tables are gone
through shows in it. What is built from it answers every question as before.
-/
namespace DoorAccess

/-- The code points of a text. Lists of numbers are ordered as words are in a dictionary. -/
def codePoints (s : String) : List Nat := s.toList.map Char.toNat

theorem lt_of_compare {s t : String} (before : compare s t = .lt) : s < t :=
  compareOfLessAndEq_eq_lt.mp before

theorem codePoints_lt {s t : String} (before : s < t) : codePoints s < codePoints t :=
  List.map_lt (fun _ _ less => less) (String.lt_iff.mp before)

section Lists
variable {α : Type} {name : α → String} {xs ys : List α}

theorem nodup_map_of_ordered (ordered : ys.Pairwise fun a b => compare (name a) (name b) = .lt) :
    (ys.map name).Nodup :=
  List.pairwise_map.mpr (ordered.imp fun before => (lt_of_compare before).ne)

/-- Records of different names are sorted into one list, whatever their order was. -/
theorem mergeSort_eq_of_ordered
    (ordered : ys.Pairwise fun a b => compare (name a) (name b) = .lt) (once : xs.Nodup)
    (same : ∀ a, a ∈ xs ↔ a ∈ ys) : xs.mergeSort (fun a b => name a ≤ name b) = ys := by
  have names := nodup_map_of_ordered ordered
  have perm : (xs.mergeSort fun a b => name a ≤ name b).Perm ys :=
    (List.mergeSort_perm xs _).trans ((List.perm_ext_iff_of_nodup once names.of_map).mpr same)
  have sorted : (xs.mergeSort fun a b => name a ≤ name b).Pairwise
      fun a b => decide (name a ≤ name b) = true :=
    List.pairwise_mergeSort (fun a b c => by simpa using le_trans)
      (fun a b => by simpa using le_total _ _) xs
  refine perm.eq_of_pairwise (fun a b member member' before after => ?_)
    (sorted.imp of_decide_eq_true) (ordered.imp fun before => (lt_of_compare before).le)
  exact List.inj_on_of_nodup_map names (perm.mem_iff.mp member) member' (le_antisymm before after)

end Lists

namespace Document

/-- The same entries, sorted by their names. -/
def sorted (doc : Document) : Document where
  doors := doc.doors.mergeSort fun a b => a.name ≤ b.name
  users := doc.users.mergeSort fun a b => a.name ≤ b.name

/-- Each record stands behind those whose names come first. -/
structure InOrder (doc : Document) : Prop where
  doors : doc.doors.Pairwise fun a b => codePoints a.name < codePoints b.name
  users : doc.users.Pairwise fun a b => codePoints a.name < codePoints b.name

end Document

namespace Registry

/-- The registries that come about from nothing, or from any document, by any changes. -/
inductive IsReachable : Registry → Prop
  | empty : IsReachable .empty
  | built (doc : Document) : IsReachable (ofDocument doc).registry
  | changed {r : Registry} (before : IsReachable r) (change : Change) :
      IsReachable (r.apply change).2

theorem IsReachable.sound {r : Registry} (reachable : r.IsReachable) : r.Sound := by
  induction reachable with
  | empty => exact sound_empty
  | built doc => exact sound_ofDocument doc
  | changed _ change sound => exact sound.apply change

def Stores (r : Registry) : Record → Prop
  | .door door => ∃ key : String, r.doors[key]? = some door
  | .user user => r.users.Holds user

/-- All that is stored, once each, in whatever order. -/
structure Collects (r : Registry) (doc : Document) : Prop where
  doors : ∀ door, door ∈ doc.doors ↔ r.Stores (.door door)
  users : ∀ user, user ∈ doc.users ↔ r.Stores (.user user)
  doorsOnce : doc.doors.Nodup
  usersOnce : doc.users.Nodup

/-- Nothing that can be asked tells one registry from the other. -/
structure Equivalent (r r' : Registry) : Prop where
  doorCount : r'.doorCount = r.doorCount
  userCount : r'.userCount = r.userCount
  door : ∀ name, r'.door? name = r.door? name
  user : ∀ name, r'.user? name = r.user? name
  userOf : ∀ credential, r'.userOf? credential = r.userOf? credential
  authorize : ∀ door credential, r'.authorize door credential = r.authorize door credential

namespace Sound
variable {r r' : Registry}

theorem stores_door_iff (sound : r.Sound) (door : Door) :
    r.Stores (.door door) ↔ r.doors[door.name]? = some door := by
  constructor
  · rintro ⟨key, found⟩
    rwa [(sound.door key door found).1]
  · exact fun found => ⟨door.name, found⟩

theorem collects (sound : r.Sound) : r.Collects r.toDocument where
  doors door := (sound.mem_doors door).trans (sound.stores_door_iff door).symm
  users user := sound.mem_users user
  doorsOnce := (nodup_map_of_ordered sound.ordered_doors).of_map
  usersOnce := (nodup_map_of_ordered sound.table.ordered_toList).of_map

theorem inOrder (sound : r.Sound) : r.toDocument.InOrder where
  doors := sound.ordered_doors.imp fun before => codePoints_lt (lt_of_compare before)
  users := sound.table.ordered_toList.imp fun before => codePoints_lt (lt_of_compare before)

/-- The order in which the tables are gone through is lost when the entries are sorted. -/
theorem sorted_eq (sound : r.Sound) {doc : Document} (collects : r.Collects doc) :
    doc.sorted = r.toDocument := by
  have doors : doc.sorted.doors = r.toDocument.doors :=
    mergeSort_eq_of_ordered sound.ordered_doors collects.doorsOnce fun door =>
      (collects.doors door).trans (sound.collects.doors door).symm
  have users : doc.sorted.users = r.toDocument.users :=
    mergeSort_eq_of_ordered sound.table.ordered_toList collects.usersOnce fun user =>
      (collects.users user).trans (sound.collects.users user).symm
  exact Document.mk.injEq _ _ _ _ ▸ ⟨doors, users⟩

theorem length_doors (r : Registry) : r.toDocument.doors.length = r.doorCount := by
  rw [toDocument, List.length_map, Std.TreeMap.length_toList]
  rfl

theorem length_users (sound : r.Sound) : r.toDocument.users.length = r.userCount := by
  have names : (UserTable.keysOf r.users.records User.name).Nodup :=
    sound.table.named.reaches.nodup_keysOf
  have perm : (r.toDocument.users.map User.name).Perm
      (UserTable.keysOf r.users.records User.name) := by
    refine (List.perm_ext_iff_of_nodup
      (nodup_map_of_ordered sound.table.ordered_toList) names).mpr fun name => ?_
    rw [UserTable.mem_keysOf, List.mem_map]
    constructor
    · rintro ⟨user, listed, rfl⟩
      obtain ⟨id, stored⟩ := (sound.mem_users user).mp listed
      exact ⟨id, user, stored, rfl⟩
    · rintro ⟨id, user, stored, rfl⟩
      exact ⟨user, (sound.mem_users user).mpr ⟨id, stored⟩, rfl⟩
  rw [← List.length_map User.name, perm.length_eq, UserTable.length_keysOf]
  rfl

theorem toDocument_eq_of_stores (sound : r.Sound) (sound' : r'.Sound)
    (same : ∀ record, r'.Stores record ↔ r.Stores record) : r'.toDocument = r.toDocument := by
  have own := sound'.collects
  have collects : r.Collects r'.toDocument :=
    ⟨fun door => (own.doors door).trans (same (.door door)),
      fun user => (own.users user).trans (same (.user user)), own.doorsOnce, own.usersOnce⟩
  exact (sound'.sorted_eq own).symm.trans (sound.sorted_eq collects)

/-- What is stored decides every lookup. -/
theorem alike_of_stores (sound : r.Sound) (sound' : r'.Sound)
    (same : ∀ record, r'.Stores record ↔ r.Stores record) : r.Alike r' where
  door key := Option.ext fun d => by
    have here {r : Registry} (sound : r.Sound) :
        r.doors[key]? = some d ↔ r.Stores (.door d) ∧ d.name = key := by
      constructor
      · exact fun found => ⟨⟨key, found⟩, (sound.door key d found).1⟩
      · rintro ⟨stored, rfl⟩
        exact (sound.stores_door_iff d).mp stored
    rw [here sound', here sound, same]
  user u := same (.user u)

theorem equivalent (sound : r.Sound) (sound' : r'.Sound) (alike : r.Alike r') :
    r.Equivalent r' := by
  have doc := sound.toDocument_eq sound' alike
  have door := door?_eq alike
  have userOf := sound.userOf?_eq sound' alike
  refine ⟨?_, ?_, door, sound.user?_eq sound' alike, userOf, fun name credential => ?_⟩
  · rw [← length_doors, ← length_doors, doc]
  · rw [← sound.length_users, ← sound'.length_users, doc]
  · rw [authorize, authorize, door, userOf]

end Sound

/-- The document of a registry lists all that is stored, each record once and in the order of the
code points of its name, as many as are counted. It shows neither the history of the registry nor
the order in which its tables are gone through. Built from it without a refusal, a registry has the
same document and right indices, and answers as before. -/
theorem document_is_canonical {r : Registry} (reachable : r.IsReachable) :
    (r.Collects r.toDocument ∧ r.toDocument.InOrder ∧
      r.toDocument.doors.length = r.doorCount ∧ r.toDocument.users.length = r.userCount) ∧
    (∀ doc, r.Collects doc → doc.sorted = r.toDocument) ∧
    (∀ r' : Registry, r'.IsReachable → (∀ record, r'.Stores record ↔ r.Stores record) →
      r'.toDocument = r.toDocument) ∧
    let rebuilt := ofDocument r.toDocument
    rebuilt.refused = 0 ∧ rebuilt.registry.toDocument = r.toDocument ∧
      rebuilt.registry.users.isConsistent = true ∧ r.Equivalent rebuilt.registry := by
  have sound := reachable.sound
  have sound' := sound_ofDocument r.toDocument
  obtain ⟨refused, alike⟩ := sound.rebuild
  refine ⟨⟨sound.collects, sound.inOrder, Sound.length_doors r, sound.length_users⟩,
    fun _ => sound.sorted_eq, fun r' reachable' => sound.toDocument_eq_of_stores reachable'.sound,
    refused, sound.toDocument_eq sound' alike, sound'.table.coherent.consistent,
    sound.equivalent sound' alike⟩

/-- Untidy entries, and a change after them. -/
theorem document_of_untidy_entries :
    let doors : List Door := [⟨" MainHall ", 3⟩, ⟨"main_hall", 9⟩, ⟨"Annex", 1⟩]
    let users : List User := [⟨"Bob", "b:1", 5⟩, ⟨"Ann", "", 2⟩, ⟨"Ann", "b:1", 2⟩, ⟨"Cy", " c", 4⟩]
    let r := ((ofDocument ⟨doors, users⟩).registry.apply (.edit .user "bob" "Zoë" none)).2
    r.toDocument = ⟨[⟨"annex", 1⟩, ⟨"main_hall", 3⟩], [⟨"cy", " c", 4⟩, ⟨"zoë", "b:1", 5⟩]⟩ ∧
      (ofDocument r.toDocument).refused = 0 ∧
      r.Equivalent (ofDocument r.toDocument).registry := by
  intro doors users r
  have canonical := document_is_canonical (r := r) (.changed (.built _) _)
  exact ⟨by decide +kernel, canonical.2.2.2.1, canonical.2.2.2.2.2.2⟩

end Registry

end DoorAccess
