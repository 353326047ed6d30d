import DoorAccess.Proofs.Engine.Mirror
import DoorAccess.Proofs.Registry.Readings

/-!
What opening does to the file. Opened again, a file is left alone, whatever it held at first; a
failed opening leaves it as it was. What an opened file holds is the document of the registry, but
not always nothing else: a file that mirrors the registry in what is read of it is not written anew,
and keeps what the reading leaves out.
-/
namespace DoorAccess

namespace Store

/-- The text of the file, if it holds one. -/
def text? (s : Store) (d : Disk) : Option String :=
  (s.place.read d).toOption.bind fun bytes => (Text.Utf8.decode? bytes).map String.ofList

/-- What the strict reading makes of the file. -/
def strict? (s : Store) (d : Disk) : Option Document := (s.text? d).bind Document.Strict.parse?

theorem strict?_of_content {s : Store} {d : Disk} {doc : Document}
    (h : s.place.read d = .ok (content doc ++ [10])) : s.strict? d = some doc := by
  have text : s.text? d = some (doc.render ++ "\n") := by
    simp only [text?, h, Except.toOption, Option.bind_some, decode?_content, Option.map_some,
      String.ofList_toList]
  rw [strict?, text, Option.bind_some, Document.Strict.parse?_render]

theorem text?_of_loaded {s : Store} {d : Disk} {doc : Document} (h : s.load d = (doc, .loaded)) :
    ∃ text skipped, s.text? d = some text ∧ Document.Lenient.parse text = .ok (doc, skipped) := by
  unfold load at h
  split at h
  · cases h
  · cases h
  · next bytes read =>
      split at h
      · cases h
      · next cs decoded =>
          dsimp only at h
          split at h
          · cases h
          · split at h
            · next parsed =>
                cases h
                refine ⟨_, _, ?_, parsed⟩
                simp only [text?, read, Except.toOption, Option.bind_some, decoded, Option.map_some]
            · cases h

/-- The strict reading takes a loaded file for what was loaded, or refuses it. -/
theorem eq_of_strict? {s : Store} {d : Disk} {doc doc' : Document}
    (loaded : s.load d = (doc, .loaded)) (accepted : s.strict? d = some doc') : doc' = doc := by
  obtain ⟨text, skipped, found, lenient⟩ := text?_of_loaded loaded
  rw [strict?, found, Option.bind_some] at accepted
  exact (Document.Lenient.eq_of_strict lenient accepted).1

end Store

namespace Engine

/-- The file mirrors a registry in what is read of it, and holds something besides. -/
structure HasLeavings (store : Store) (d : Disk) : Prop where
  settled : Settled store d
  refused : store.strict? d = none

section Opening
variable {store : Store} {number : UInt32} {d d' : Disk} {faults : Disk.Faults}

theorem open_error {failure : AccessError}
    (h : Engine.open store number d faults = (.error failure, d')) :
    (∃ reason, failure = .persistence reason) ∧ store.Spared number d d' := by
  by_cases settled : Settled store d
  · rw [open_of_settled settled] at h
    cases h
  · rw [open_of_not_settled settled] at h
    cases written : store.writeAtomic
        (Registry.ofDocument (store.load d).1).registry.toDocument number d faults with
    | mk outcome d₁ =>
        rw [written] at h
        cases outcome with
        | error reason =>
            cases h
            exact Store.writeAtomic_error written
        | ok _ => cases h

/-- A file that is written anew holds the document of the registry and nothing else. -/
theorem strict?_of_not_settled {e : Engine} (unsettled : ¬ Settled store d)
    (h : Engine.open store number d faults = (.ok e, d')) :
    store.strict? d' = some e.registry.toDocument := by
  rw [open_of_not_settled unsettled] at h
  cases written : store.writeAtomic
      (Registry.ofDocument (store.load d).1).registry.toDocument number d faults with
  | mk outcome d₁ =>
      rw [written] at h
      cases outcome with
      | error failure => cases h
      | ok _ =>
          cases h
          exact Store.strict?_of_content (Store.writeAtomic_ok written).content

end Opening

/-- Whatever stands where the file should be: an opening that fails does so because the file could
not be written, and spares what was there; after one that succeeds every further one succeeds too,
touches nothing, also when no write would, and gives a registry with the same document and the same
answers. -/
theorem opening_again_changes_nothing (store : Store) (number : UInt32) (d : Disk)
    (faults : Disk.Faults) :
    match Engine.open store number d faults with
    | (.error failure, d') => (∃ reason, failure = .persistence reason) ∧ store.Spared number d d'
    | (.ok e, d') => ∀ number' faults', ∃ e',
        Engine.open store number' d' faults' = (.ok e', d') ∧
          e'.registry.toDocument = e.registry.toDocument ∧ e.Agrees e' := by
  split
  · next failure d' failed => exact open_error failed
  · next e d' opened =>
      intro number' faults'
      obtain ⟨rfl, mirrored⟩ := open_ok opened
      have sound := Registry.sound_ofDocument (store.load d).1
      obtain ⟨e', again, agrees⟩ := open_of_mirrored (e := ofBuilding store _) sound mirrored
        number' faults'
      have document := mirrored.symm.trans (open_ok again).2
      exact ⟨e', again, (congrArg Prod.fst document).symm, agrees⟩

/-- After an opening the strict reading takes the file for the document of the registry, unless the
file mirrored a registry before in what is read of it and held something besides. Such a file stays
as it was, and the strict reading refuses it. A skipped entry is something besides. -/
theorem opened_file_is_strict_iff {store : Store} {number : UInt32} {d d' : Disk}
    {faults : Disk.Faults} {e : Engine}
    (opened : Engine.open store number d faults = (.ok e, d')) :
    (store.strict? d' = some e.registry.toDocument ↔ ¬ HasLeavings store d) ∧
      (HasLeavings store d → d' = d ∧ store.strict? d' = none) ∧
      ∀ text doc skipped, Settled store d → store.text? d = some text →
        Document.Lenient.parse text = .ok (doc, skipped) → 0 < skipped → HasLeavings store d := by
  have left (leavings : HasLeavings store d) : d' = d ∧ store.strict? d' = none := by
    rw [open_of_settled leavings.settled] at opened
    cases opened
    exact ⟨rfl, leavings.refused⟩
  refine ⟨⟨fun strict leavings => ?_, fun clean => ?_⟩, left, ?_⟩
  · rw [(left leavings).2] at strict
    cases strict
  · by_cases settled : Settled store d
    · have loaded := (open_ok opened).2
      rw [open_of_settled settled] at opened
      cases opened
      cases strict : store.strict? d with
      | none => exact absurd ⟨settled, strict⟩ clean
      | some doc => rw [Store.eq_of_strict? loaded strict]
    · exact strict?_of_not_settled settled opened
  · intro text doc skipped settled found parsed positive
    refine ⟨settled, ?_⟩
    cases strict : store.strict? d with
    | none => rfl
    | some doc' =>
        rw [Store.strict?, found, Option.bind_some] at strict
        have nothing := (Document.Lenient.eq_of_strict parsed strict).2
        omega

/-- A disk with one file, which holds the text. -/
def diskOf (text : String) : Disk := Disk.empty.set ["config.json"] (.file (bytesOf text))

/-- The name of the hall has the file written anew, and the entry without a level goes with it. -/
theorem opened_file_is_strict_of_untidy_name :
    let store : Store := ⟨⟨{}, some "config.json"⟩⟩
    let d := diskOf ("\x7b\"doors\": [\x7b\"name\": \"Hall\", \"lvl\": 3\x7d, " ++
      "\x7b\"name\": \"vault\"\x7d]\x7d")
    ∃ e d', Engine.open store 7 d [] = (.ok e, d') ∧
      e.registry.toDocument = ⟨[⟨"hall", 3⟩], []⟩ ∧
      store.strict? d' = some ⟨[⟨"hall", 3⟩], []⟩ := by
  intro store d
  have loaded : store.load d = (⟨[⟨"Hall", 3⟩], []⟩, .loaded) := by decide +kernel
  have tidied : (Registry.ofDocument ⟨[⟨"Hall", 3⟩], []⟩).registry.toDocument =
      ⟨[⟨"hall", 3⟩], []⟩ := by decide +kernel
  have unsettled : ¬ Settled store d := fun settled => by
    have kept := settled.document
    rw [loaded, tidied] at kept
    exact absurd kept (by decide)
  have succeeds : (Engine.open store 7 d []).1.isOk = true := by decide +kernel
  cases opened : Engine.open store 7 d [] with
  | mk outcome d' =>
      rw [opened] at succeeds
      cases outcome with
      | error failure => cases succeeds
      | ok e =>
          have strict := (opened_file_is_strict_iff opened).1.mpr fun leavings =>
            unsettled leavings.settled
          have document : e.registry.toDocument = ⟨[⟨"hall", 3⟩], []⟩ := by
            rw [(open_ok opened).1, loaded]
            exact tidied
          exact ⟨e, d', rfl, document, document ▸ strict⟩

/-- With a tidy name the entry without a level stays in the file, as do a list that a later one
replaces and what is no list at all. -/
theorem skipped_entry_stays :
    let store : Store := ⟨⟨{}, some "config.json"⟩⟩
    let d := diskOf ("\x7b\"doors\": [], \"doors\": [\x7b\"name\": \"hall\", \"lvl\": 3\x7d, " ++
      "\x7b\"name\": \"vault\"\x7d], \"users\": 7\x7d")
    ∃ e, Engine.open store 7 d [] = (.ok e, d) ∧
      e.registry.toDocument = ⟨[⟨"hall", 3⟩], []⟩ ∧ store.strict? d = none := by
  intro store d
  have loaded : store.load d = (⟨[⟨"hall", 3⟩], []⟩, .loaded) := by decide +kernel
  have tidy : (Registry.ofDocument ⟨[⟨"hall", 3⟩], []⟩).refused = 0 ∧
      (Registry.ofDocument ⟨[⟨"hall", 3⟩], []⟩).registry.toDocument = ⟨[⟨"hall", 3⟩], []⟩ := by
    decide +kernel
  have settled : Settled store d := by
    constructor <;> rw [loaded]
    · exact tidy.1
    · exact tidy.2
  refine ⟨_, open_of_settled settled 7 [], ?_, by decide +kernel⟩
  rw [loaded]
  exact tidy.2

end Engine

end DoorAccess
