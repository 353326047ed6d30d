import DoorAccess.Proofs.Registry.Outcomes

/-!
Editing takes one record out and puts it back under its new name. If that name is free, nothing but
the one record is different afterwards; the record's own name is always free.
-/
namespace DoorAccess

/-- The answers to an edit that is refused are told apart, for each kind of record. -/
theorem RecordKind.answers_apart (kind : RecordKind) :
    kind.taken ≠ kind.missing ∧ .badSyntax ≠ kind.missing ∧ .badSyntax ≠ kind.taken ∧
      .credentialInUse ≠ kind.missing ∧ .credentialInUse ≠ kind.taken := by
  cases kind <;> decide

namespace Registry

/-- Another record of the kind has this name. -/
def IsTakenBeside (r : Registry) (record : Record) (key : String) : Prop :=
  ∃ other, r.Stores other ∧ other.kind = record.kind ∧ other.name = key ∧ other ≠ record

/-- The second registry has the new record in the place of the old one, and nothing else is
different: there are as many records of each kind, every name that neither record has is answered as
before, and so is every credential that the old record does not hold, and every request in which
neither record has a say. -/
structure Replaces (r r' : Registry) (record record' : Record) : Prop where
  stored : ∀ other, r'.Stores other ↔ r.Stores other ∧ other ≠ record ∨ other = record'
  count : ∀ kind, r'.count kind = r.count kind
  found : r'.record? record.kind record'.name = some record'
  named : ∀ kind name, (record.kind = kind →
    record.name ≠ Name.snakeCase name ∧ record'.name ≠ Name.snakeCase name) →
      r'.record? kind name = r.record? kind name
  holder : ∀ credential, (∀ user, record = .user user → user.credential ≠ credential) →
    r'.userOf? credential = r.userOf? credential
  decision : ∀ door credential, ¬ record.Concerns door credential →
    ¬ record'.Concerns door credential →
      r'.authorize door credential = r.authorize door credential

theorem apply_edit (r : Registry) (kind : RecordKind) (old new : String) (level : Option Level) :
    r.apply (.edit kind old new level) =
      match r.apply (.remove kind old) with
      | (.error e, left) => (.error e, left)
      | (.ok record, left) => left.apply (record.addition new level) := by
  cases kind with
  | door =>
      rw [apply, apply, editDoor]
      rcases r.removeDoor old with ⟨_ | _, left⟩ <;> rfl
  | user =>
      rw [apply, apply, editUser]
      rcases r.removeUser old with ⟨_ | _, left⟩ <;> rfl

namespace Gains
variable {left r r' : Registry} {record : Record}

theorem stored_iff (gains : left.Gains r record) (other : Record) :
    left.Stores other ↔ r.Stores other ∧ other ≠ record := by
  rw [gains.stored]
  constructor
  · exact fun kept => ⟨.inl kept, fun same => gains.new (same ▸ kept)⟩
  · rintro ⟨kept | same, apart⟩
    · exact kept
    · exact absurd same apart

/-- What has been taken out can be put back, under any free name. -/
theorem admits (gains : left.Gains r record) (sound : r.Sound) (sound' : left.Sound) :
    left.Admits record := by
  cases record with
  | door d => trivial
  | user u =>
      have stored : r.Stores (.user u) := (gains.stored _).mpr (.inr rfl)
      refine ⟨(sound.user u stored).2, Option.eq_none_iff_forall_ne_some.mpr fun other found => ?_⟩
      obtain ⟨kept, held⟩ := sound'.userOf?_eq_some_iff.mp found
      have before := sound.userOf?_eq_some_iff.mpr ⟨(gains.stored _).mpr (.inl kept), held⟩
      have here := sound.userOf?_eq_some_iff.mpr ⟨stored, rfl⟩
      exact gains.new (Option.some.inj (before.symm.trans here) ▸ kept)

theorem isTaken_iff (gains : left.Gains r record) (key : String) :
    left.IsTaken record.kind key ↔ r.IsTakenBeside record key :=
  exists_congr fun other => by rw [gains.stored_iff]; tauto

theorem replaces {key : String} {level : Option Level} (gains : left.Gains r record)
    (gains' : left.Gains r' (record.renamed key level)) (soundLeft : left.Sound) (sound : r.Sound)
    (sound' : r'.Sound) : r.Replaces r' record (record.renamed key level) := by
  have new : r'.Stores (record.renamed key level) := (gains'.stored _).mpr (.inr rfl)
  refine ⟨fun other => ?_, fun kind => ?_, ?_, fun kind name away => ?_, fun credential away => ?_,
    fun door credential away away' => ?_⟩
  · rw [gains'.stored, gains.stored_iff]
  · rw [gains'.count soundLeft sound', gains.count soundLeft sound, Record.kind_renamed]
  · exact sound'.record?_eq_some_iff.mpr ⟨new, Record.kind_renamed ..,
      (Name.snakeCase_of_canonical? (sound'.canonical new)).symm⟩
  · exact (gains'.record?_eq soundLeft sound' kind name fun here =>
      (away ((Record.kind_renamed ..).symm.trans here)).2).trans
        (gains.record?_eq soundLeft sound kind name fun here => (away here).1).symm
  · have away' (user : User) (here : record.renamed key level = .user user) :
        user.credential ≠ credential := by
      cases record with
      | door d => cases here
      | user u =>
          cases here
          exact away u rfl
    exact (gains'.userOf?_eq soundLeft sound' away').trans
      (gains.userOf?_eq soundLeft sound away).symm
  · exact (gains'.authorize_eq soundLeft sound' away').trans
      (gains.authorize_eq soundLeft sound away).symm

end Gains

namespace Sound
variable {r : Registry} {record : Record}

/-- A record that is found under a text has the text for a name. -/
theorem canonical?_of_found (sound : r.Sound) {kind : RecordKind} {name : String}
    (found : r.record? kind name = some record) : Name.canonical? name = some record.name := by
  obtain ⟨stored, _, named⟩ := sound.record?_eq_some_iff.mp found
  exact Name.canonical?_of_snakeCase (sound.canonical stored) named.symm

theorem not_isTakenBeside_name (sound : r.Sound) (stored : r.Stores record) :
    ¬ r.IsTakenBeside record record.name :=
  fun ⟨_, stored', kind, name, apart⟩ => apart (sound.eq_of_name stored' stored kind name)

theorem edit_cases (sound : r.Sound) (kind : RecordKind) (old new : String) (level : Option Level) :
    let outcome := r.apply (.edit kind old new level)
    (r.record? kind old = none ∧ outcome = (.error kind.missing, r)) ∨
      ∃ record left, r.record? kind old = some record ∧ left.Gains r record ∧
        ((Name.canonical? new = none ∧ outcome = (.error .badSyntax, left)) ∨
          ∃ key, Name.canonical? new = some key ∧
            ((r.IsTakenBeside record key ∧ outcome = (.error kind.taken, left)) ∨
              ¬ r.IsTakenBeside record key ∧ ∃ r',
                outcome = (.ok (record.renamed key level), r') ∧
                  r.Replaces r' record (record.renamed key level))) := by
  have soundLeft := sound.apply (.remove kind old)
  have edited := r.apply_edit kind old new level
  rcases sound.remove_cases kind old with ⟨absent, refused⟩ | ⟨record, left, found, removed, gains⟩
  · rw [refused] at edited
    exact .inl ⟨absent, edited⟩
  · obtain rfl := (sound.record?_eq_some_iff.mp found).2.1
    rw [removed] at soundLeft edited
    have sound' := soundLeft.apply (record.addition new level)
    refine .inr ⟨record, left, found, gains, ?_⟩
    -- The credential of a user left with the user, so only the new name can stand in the way.
    rcases soundLeft.addition_cases (gains.admits sound soundLeft) new level with
      ⟨nameless, refused⟩ | ⟨key, canonical, ⟨taken, refused⟩ | ⟨free, r', made, gains'⟩⟩
    · exact .inl ⟨nameless, edited.trans refused⟩
    · exact .inr ⟨key, canonical, .inl ⟨(gains.isTaken_iff key).mp taken, edited.trans refused⟩⟩
    · rw [made] at sound'
      exact .inr ⟨key, canonical, .inr ⟨(gains.isTaken_iff key).not.mp free, r',
        edited.trans made, gains.replaces gains' soundLeft sound sound'⟩⟩

end Sound

/-- Editing is refused if no record has the old name, else if nothing remains of the new name, else
if another record of the kind has it, and never for the credential. Otherwise the record is replaced,
alone, by one with the new name, the level if one is given, and all else that it had. Its own name
is always free; under it and without a level nothing changes. -/
theorem edit_replaces_one_record {r : Registry} (reachable : r.IsReachable) (kind : RecordKind)
    (old new : String) (level : Option Level) :
    let outcome := r.apply (.edit kind old new level)
    (outcome.1 = .error kind.missing ↔ r.record? kind old = none) ∧
      outcome.1 ≠ .error .credentialInUse ∧
      ∀ record, r.record? kind old = some record →
        (outcome.1 = .error .badSyntax ↔ Name.canonical? new = none) ∧
        Name.canonical? old = some record.name ∧
        ∀ key, Name.canonical? new = some key →
          (outcome.1 = .error kind.taken ↔ r.IsTakenBeside record key) ∧
          (¬ r.IsTakenBeside record key → outcome.1 = .ok (record.renamed key level) ∧
            r.Replaces outcome.2 record (record.renamed key level)) ∧
          (key = record.name → ¬ r.IsTakenBeside record key ∧
            (level = none → outcome.2.toDocument = r.toDocument)) := by
  have sound := reachable.sound
  have sound' := sound.apply (.edit kind old new level)
  have cases := sound.edit_cases kind old new level
  dsimp only at cases ⊢
  generalize r.apply (.edit kind old new level) = outcome at sound' cases ⊢
  obtain ⟨taken_ne_missing, syntax_ne_missing, syntax_ne_taken, used_ne_missing, used_ne_taken⟩ :=
    kind.answers_apart
  rcases cases with ⟨absent, rfl⟩ | ⟨record, left, found, gains, cases⟩
  · simp [absent, used_ne_missing.symm]
  · have stored := (sound.record?_eq_some_iff.mp found).1
    have own := sound.canonical?_of_found found
    have free := sound.not_isTakenBeside_name stored
    rw [found]
    rcases cases with
      ⟨nameless, rfl⟩ | ⟨key, canonical, ⟨taken, rfl⟩ | ⟨untaken, r', rfl, replaces⟩⟩
    · simp [nameless, syntax_ne_missing, own]
    · have away : key ≠ record.name := by
        rintro rfl
        exact free taken
      simp [canonical, taken, own, taken_ne_missing, syntax_ne_taken.symm, used_ne_taken.symm, away]
    · have settled (named : key = record.name) (kept : level = none) :
          r'.toDocument = r.toDocument := by
        refine sound.toDocument_eq_of_stores sound' fun other => ?_
        rw [replaces.stored, named, kept, record.renamed_name]
        by_cases here : other = record
        · simp [here, stored]
        · simp [here]
      simpa [canonical, untaken, own, replaces] using settled

/-- A user takes a new name while another has one like it. -/
theorem edit_replaces_ann :
    let r := (ofDocument ⟨[⟨"hall", 3⟩], [⟨"ann", "a1", 5⟩, ⟨"ann_lea", "b2", 1⟩]⟩).registry
    let edited := r.apply (.edit .user "Ann" " AnnLee" (some 9))
    edited.1 = .ok (.user ⟨"ann_lee", "a1", 9⟩) ∧
      r.Replaces edited.2 (.user ⟨"ann", "a1", 5⟩) (.user ⟨"ann_lee", "a1", 9⟩) := by
  intro r edited
  have outcome := edit_replaces_one_record (r := r) (.built _) .user "Ann" " AnnLee" (some 9)
  have found : r.record? .user "Ann" = some (.user ⟨"ann", "a1", 5⟩) := by decide +kernel
  have named := (outcome.2.2 _ found).2.2 "ann_lee" (by decide)
  exact named.2.1 (named.1.not.mp (by decide +kernel))

end Registry

end DoorAccess
