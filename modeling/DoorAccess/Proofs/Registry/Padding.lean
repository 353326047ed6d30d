import DoorAccess.Proofs.Registry.Outcomes

/-!
Names with blanks around them. An addition drops the blanks, a lookup or a removal does not, so the
two agree on which record a text names exactly if there are no blanks to drop. What was added under
any text is found under the same text without them.
-/
namespace DoorAccess.Registry

/-- The change, which adds a record of the kind, and all that is asked for under the text are about
one name: it is refused as taken if a record is found there; otherwise it is made, and the new
record is found there, known to readers if it is a door, and can be removed again. -/
structure FindsAdded (r : Registry) (kind : RecordKind) (change : Change) (asked : String) :
    Prop where
  taken : (r.apply change).1 = .error kind.taken ↔ (r.record? kind asked).isSome
  added : r.record? kind asked = none → ∃ record r', r.apply change = (.ok record, r') ∧
    r'.record? kind asked = some record ∧
    (kind = .door → ∀ credential, (r'.authorize asked credential).1 ≠ .unknownDoor) ∧
    (r'.apply (.remove kind asked)).1 = .ok record

theorem authorize_ne_unknownDoor {r : Registry} {asked : String} {d : Door}
    (found : r.door? asked = some d) (credential : String) :
    (r.authorize asked credential).1 ≠ .unknownDoor := by
  rw [authorize, found]
  cases r.userOf? credential with
  | none => simp
  | some user =>
      dsimp only
      split <;> simp

namespace Sound
variable {r : Registry} {name asked : String}

/-- Nothing is stored under a text with blanks around it. -/
theorem record?_of_padded (sound : r.Sound) (kind : RecordKind)
    (padded : Text.trimmed asked ≠ asked) : r.record? kind asked = none := by
  refine Option.eq_none_iff_forall_ne_some.mpr fun record found => padded ?_
  obtain ⟨stored, _, named⟩ := sound.record?_eq_some_iff.mp found
  rw [← Name.trimmed_snakeCase_iff, ← named]
  exact Name.trimmed_of_canonical? (sound.canonical stored)

theorem remove_of_found (sound : r.Sound) {kind : RecordKind} {record : Record}
    (found : r.record? kind asked = some record) :
    (r.apply (.remove kind asked)).1 = .ok record := by
  rcases sound.remove_cases kind asked with ⟨absent, _⟩ | ⟨other, left, found', removed, _⟩
  · rw [found] at absent
    cases absent
  · rw [removed, Option.some.inj (found.symm.trans found')]

theorem findsAdded_of_key (sound : r.Sound) {record : Record} (admits : r.Admits record)
    (canonical : Name.canonical? name = some (Name.snakeCase asked)) :
    r.FindsAdded record.kind (record.addition name none) asked := by
  have sound' := sound.apply (record.addition name none)
  rcases sound.addition_cases admits name none with
    ⟨nameless, _⟩ | ⟨key, canonical', ⟨taken, refused⟩ | ⟨free, r', made, gains⟩⟩
  · rw [canonical] at nameless
    cases nameless
  · cases canonical.symm.trans canonical'
    have found : r.record? record.kind asked ≠ none := fun absent =>
      sound.record?_eq_none_iff.mp absent taken
    exact ⟨by simp [refused, Option.isSome_iff_ne_none, found], fun absent => absurd absent found⟩
  · cases canonical.symm.trans canonical'
    have absent := sound.record?_eq_none_iff.mpr free
    rw [made] at sound'
    have found : r'.record? record.kind asked = some (record.renamed (Name.snakeCase asked) none) :=
      sound'.record?_eq_some_iff.mpr ⟨(gains.stored _).mpr (.inr rfl), by simp, by simp⟩
    have accepted : (r.apply (record.addition name none)).1 =
        .ok (record.renamed (Name.snakeCase asked) none) := congrArg Prod.fst made
    refine ⟨by rw [accepted, absent]; simp, fun _ =>
      ⟨_, r', made, found, fun door => ?_, sound'.remove_of_found found⟩⟩
    rw [door] at found
    obtain ⟨d, known, _⟩ := Option.map_eq_some_iff.mp found
    exact authorize_ne_unknownDoor known

theorem findsAdded_iff_trimmed (sound : r.Sound) (record : Record) (admits : r.Admits record)
    (named : Name.canonical? name ≠ none) :
    r.FindsAdded record.kind (record.addition name none) (Text.trimmed name) ∧
      (r.FindsAdded record.kind (record.addition name none) name ↔ Text.trimmed name = name) := by
  obtain ⟨key, canonical⟩ := Option.ne_none_iff_exists'.mp named
  have trimmed : r.FindsAdded record.kind (record.addition name none) (Text.trimmed name) :=
    sound.findsAdded_of_key admits
      (canonical.trans (congrArg some (Name.eq_of_canonical? canonical).symm))
  refine ⟨trimmed, fun finds => ?_, fun same => by rwa [same] at trimmed⟩
  by_contra padded
  -- Nothing is found under the name as it is, neither before the addition nor after it.
  have sound' := sound.apply (record.addition name none)
  obtain ⟨new, r', made, found, _⟩ := finds.added (sound.record?_of_padded _ padded)
  rw [made] at sound'
  rw [sound'.record?_of_padded _ padded] at found
  cases found

end Sound

/-- An addition under a text and what is asked under the text without the blanks around it are about
one name, whatever the registry is. They are about one name under the text itself only if there are
no blanks around it. A user without a credential is not added at all. -/
theorem lookup_finds_added_iff_trimmed {r : Registry} (reachable : r.IsReachable)
    (name : String) (named : Name.canonical? name ≠ none) (level : Level) :
    (r.FindsAdded .door (.addDoor name level) (Text.trimmed name) ∧
      (r.FindsAdded .door (.addDoor name level) name ↔ Text.trimmed name = name)) ∧
    r.apply (.addUser name level "") = (.error .badSyntax, r) ∧
    ∀ credential, credential ≠ "" → r.userOf? credential = none →
      r.FindsAdded .user (.addUser name level credential) (Text.trimmed name) ∧
        (r.FindsAdded .user (.addUser name level credential) name ↔ Text.trimmed name = name) := by
  have sound := reachable.sound
  obtain ⟨key, canonical⟩ := Option.ne_none_iff_exists'.mp named
  refine ⟨sound.findsAdded_iff_trimmed (.door ⟨key, level⟩) trivial named, ?_,
    fun credential present free =>
      sound.findsAdded_iff_trimmed (.user ⟨key, credential, level⟩) ⟨present, free⟩ named⟩
  simp [apply, apply.aUser, insertUser, canonical, Except.map]

/-- Two names in a registry with a door and a user, one as it is written and one with a blank. -/
theorem lookup_finds_added_annex :
    let r := (ofDocument ⟨[⟨"hall", 3⟩], [⟨"ann", "a1", 5⟩]⟩).registry
    r.FindsAdded .door (.addDoor "Annex" 2) "Annex" ∧
      ¬ r.FindsAdded .user (.addUser "\u2003Bob" 4 "b2") "\u2003Bob" := by
  intro r
  have plain := lookup_finds_added_iff_trimmed (r := r) (.built _) "Annex" (by decide) 2
  have padded := lookup_finds_added_iff_trimmed (r := r) (.built _) "\u2003Bob" (by decide) 4
  exact ⟨plain.1.2.mpr (by decide),
    fun finds => absurd ((padded.2.2 "b2" (by decide) (by decide +kernel)).2.mp finds) (by decide)⟩

/-- A door is stored without the blanks of its name: it is not found under the name, is unknown to
readers and cannot be removed, but the name is taken. -/
theorem padded_door_is_not_found :
    let r := (empty.apply (.addDoor " gate " 3)).2
    (empty.apply (.addDoor " gate " 3)).1 = .ok (.door ⟨"gate", 3⟩) ∧
      r.door? " gate " = none ∧ r.door? "gate" = some ⟨"gate", 3⟩ ∧
      (r.authorize " gate " "a1").1 = .unknownDoor ∧
      (r.apply (.remove .door " gate ")).1 = .error .doorNotFound ∧
      (r.apply (.addDoor " gate " 3)).1 = .error .doorExists := by
  decide +kernel

end DoorAccess.Registry
