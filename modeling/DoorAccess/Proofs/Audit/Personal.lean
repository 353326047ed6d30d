import DoorAccess.Proofs.Audit.Finding
import DoorAccess.Proofs.Console.Naming
import DoorAccess.Proofs.Engine.Opening

/-!
Whether personal logs are mixed. The logs of two users, or of two doors, are one file just if a key
does not show what their names differ in. Names of commands are shown in full, so one of the two was
in the file when the server was started.
-/
namespace DoorAccess

theorem Controller.sound_open {config : Config} {number : UInt32} {d : Disk} {c : Controller}
    (opened : Controller.open config number d = .ok c) : c.engine.registry.Sound := by
  rw [Controller.open] at opened
  split at opened
  · cases opened
  · next engine d' opens =>
      cases opened
      obtain ⟨rfl, _⟩ := Engine.open_ok opens
      exact Registry.sound_ofDocument _

/-- A server that is started on the file of a registry has this registry. -/
theorem Controller.open_of_tidy (doc : Document) (refused : (Registry.ofDocument doc).refused = 0)
    (document : (Registry.ofDocument doc).registry.toDocument = doc) (number : UInt32) :
    let store : Store := ⟨⟨{}, some "config.json"⟩⟩
    let d := Engine.diskOf (doc.render ++ "\n")
    Controller.open {} number d =
      .ok ⟨.ofBuilding store (Registry.ofDocument doc), ⟨some "logs"⟩, ⟨"adminReader", none⟩, d, [],
        false⟩ := by
  intro store d
  have place : Store.ofText "config.json" = store := by decide
  have read : store.place.read d = .ok (Store.content doc ++ [10]) := by
    have text : bytesOf (doc.render ++ "\n") = Store.content doc ++ [10] := by
      rw [bytesOf, String.toList_append, Audit.Posting.encode_append]
      rfl
    rw [← text]
    rfl
  have loaded := Store.load_of_content read
  have settled : Engine.Settled store d := by
    constructor <;> rw [loaded]
    · exact refused
    · exact document
  have opened := Engine.open_of_settled settled number []
  rw [loaded, ← place] at opened
  simp only [Controller.open, opened]
  rfl

namespace Audit

def LogKind.ofRecord : Record → LogKind
  | .door _ => .door
  | .user _ => .user

/-- The personal log of a record. -/
def LogFile.ofRecord (record : Record) : LogFile := ⟨.ofRecord record, safeKey record.name⟩

/-- The record is the user of the event, or the door if the event has it as a registered one. -/
def Event.IsAbout (e : Event) (record : Record) : Prop :=
  e.subject? (.ofRecord record) = some record.name

theorem LogKind.ofRecord_eq {record other : Record} (kind : record.kind = other.kind) :
    ofRecord record = ofRecord other := by
  cases record <;> cases other <;> first | rfl | cases kind

theorem LogFile.ofRecord_mem_targets_iff (now : Moment) {e : Event} {record other : Record}
    (kind : record.kind = other.kind) (about : e.IsAbout record) :
    ofRecord other ∈ targets now e ↔ Confusable record.name other.name := by
  have personal : LogKind.ofRecord other ≠ .system := by cases other <;> exact nofun
  rw [Event.IsAbout, LogKind.ofRecord_eq kind] at about
  rw [ofRecord, mem_targets_iff_subject? personal, about, ← safeKey_eq_iff]
  simp [eq_comm]

/-- A log that is not concerned holds what it held. -/
theorem contentAt_record (root : String) {now : Moment} {e : Event} {f : LogFile}
    (other : f ∉ targets now e) (d : Disk) :
    contentAt (Trail.record ⟨some root⟩ now e d) (f.location root) =
      contentAt d (f.location root) := by
  have off (g : LogFile) (target : g ∈ targets now e) : f.location root ≠ g.location root :=
    fun same => other (LogFile.location_injective root same ▸ target)
  rcases Trail.untouched_record root now e d _ off with same | ⟨absent, made, _⟩
  · rw [contentAt, same, contentAt]
  · rw [contentAt, made, contentAt, absent]

/-- Names that a key shows in full are told apart by it. -/
theorem eq_of_confusable {name name' : String} (confusable : Confusable name name')
    (safe : ∀ c ∈ name.toList, isSafe c = true) (safe' : ∀ c ∈ name'.toList, isSafe c = true) :
    name = name' := by
  have keys := (safeKey_eq_iff name name').mpr confusable
  rwa [safeKey_eq_self safe, safeKey_eq_self safe'] at keys

end Audit

namespace Premises
open Audit

/-- A record with a name that a key does not show in full was there from the start. -/
theorem Vetted.safe_or_first {first : Registry} {p : Premises} (vetted : p.Vetted first)
    {record : Record} (stored : p.controller.engine.registry.Stores record) :
    (∀ c ∈ record.name.toList, isSafe c = true) ∨
      first.Stores record ∧ ∃ c ∈ record.name.toList, isSafe c = false := by
  by_cases safe : ∀ c ∈ record.name.toList, isSafe c = true
  · exact .inl safe
  · have unnamed : ¬ Console.Command.IsName record.name := fun named =>
      safe fun c member => Console.Command.isSafe_of_isNameChar (named.2 c member)
    exact .inr ⟨(vetted.named record stored).resolve_right unnamed, by simpa using safe⟩

/-- Whatever happens on a server after its start, and for any two users or two doors that are then
registered: an event about the one gets into the log of the other just if their names differ in
nothing that a key shows, and otherwise the log of the other holds what it held. Two names are so
much alike only if one of the records was read from the file at the start, under a name with a
character that no key shows. -/
theorem logs_mix_only_by_loaded_names {config : Config} {number : UInt32} {d : Disk}
    {c : Controller} (opened : Controller.open config number d = .ok c)
    (happenings : List Happening) :
    let r := ((start c).run happenings).controller.engine.registry
    ∀ record other, r.Stores record → r.Stores other → record.kind = other.kind → record ≠ other →
      (∀ now e, e.IsAbout record →
        (LogFile.ofRecord other ∈ targets now e ↔ Confusable record.name other.name) ∧
        (¬ Confusable record.name other.name → ∀ root d,
          contentAt (Trail.record ⟨some root⟩ now e d) ((LogFile.ofRecord other).location root) =
            contentAt d ((LogFile.ofRecord other).location root))) ∧
      (Confusable record.name other.name → ∃ loaded, (loaded = record ∨ loaded = other) ∧
        c.engine.registry.Stores loaded ∧ ∃ char ∈ loaded.name.toList, isSafe char = false) := by
  intro r record other stored stored' kind apart
  have vetted := vetted_run (Controller.sound_open opened) happenings
  refine ⟨fun now e about => ?_, fun confusable => ?_⟩
  · have concerned := LogFile.ofRecord_mem_targets_iff now kind about
    exact ⟨concerned, fun distinct root d => contentAt_record root (concerned.not.mpr distinct) d⟩
  · rcases vetted.safe_or_first stored with safe | ⟨loaded, char⟩
    · rcases vetted.safe_or_first stored' with safe' | ⟨loaded, char⟩
      · have name := eq_of_confusable confusable safe safe'
        exact absurd (vetted.sound.eq_of_name stored stored' kind name) apart
      · exact ⟨other, .inr rfl, loaded, char⟩
    · exact ⟨record, .inl rfl, loaded, char⟩

/-- A user is added beside one from the file. -/
theorem logs_mix_of_loaded_dot :
    let doc : Document := ⟨[], [⟨"a.b", "u1", 5⟩]⟩
    let a : Record := .user ⟨"a.b", "u1", 5⟩
    let b : Record := .user ⟨"a_b", "u2", 3⟩
    let now : Moment := ⟨2024, 1, 2, 3, 4⟩
    let happenings : List Happening := [.connect 1, .command 1 "adminReader" ⟨now, 1⟩,
      .command 1 "newUser a_b 3" ⟨now, 2⟩, .command 1 "u2" ⟨now, 3⟩, .command 1 "approved" ⟨now, 4⟩]
    ∃ c, Controller.open {} 7 (Engine.diskOf (doc.render ++ "\n")) = .ok c ∧
      let r := ((start c).run happenings).controller.engine.registry
      r.Stores a ∧ r.Stores b ∧ (∀ now e, e.IsAbout a → LogFile.ofRecord b ∈ targets now e) ∧
        ∃ loaded, (loaded = a ∨ loaded = b) ∧ c.engine.registry.Stores loaded ∧
          ∃ char ∈ loaded.name.toList, isSafe char = false := by
  intro doc a b now happenings
  have opened := Controller.open_of_tidy doc (by decide +kernel) (by decide +kernel) 7
  refine ⟨_, opened, ?_⟩
  intro r
  have sound : r.Sound := (vetted_run (Controller.sound_open opened) happenings).sound
  have foundA : r.record? .user "a.b" = some a := by decide +kernel
  have foundB : r.record? .user "a_b" = some b := by decide +kernel
  have first := (sound.record?_eq_some_iff.mp foundA).1
  have second := (sound.record?_eq_some_iff.mp foundB).1
  have confusable : Confusable "a.b" "a_b" := by decide
  have mixed := logs_mix_only_by_loaded_names opened happenings a b first second rfl (by decide)
  exact ⟨first, second, fun now e about => (mixed.1 now e about).1.mpr confusable,
    mixed.2 confusable⟩

/-- What one user from the file did stands in the log of another. -/
theorem loaded_names_share_log :
    let doc : Document := ⟨[⟨"hall", 3⟩], [⟨"a.b", "u1", 5⟩, ⟨"a_b", "u2", 3⟩]⟩
    let a : Record := .user ⟨"a.b", "u1", 5⟩
    let b : Record := .user ⟨"a_b", "u2", 3⟩
    let now : Moment := ⟨2024, 1, 2, 3, 4⟩
    let e : Event := ⟨some "hall", true, some "a.b", "u1", "approved"⟩
    ∃ c, Controller.open {} 7 (Engine.diskOf (doc.render ++ "\n")) = .ok c ∧
      c.engine.registry.Stores a ∧ c.engine.registry.Stores b ∧
      let step := Reader.receive "hall:u1" now c
      step.events = [e] ∧ e.IsAbout a ∧
      ((LogFile.ofRecord b).place "logs").read step.controller.disk =
        .ok (bytesOf ("Date;Time;Door;Name;UserID;Access\n" ++
          "02/01/2024;03:04;hall;a.b;u1;approved\n")) := by
  intro doc a b now e
  have opened := Controller.open_of_tidy doc (by decide +kernel) (by decide +kernel) 7
  let r := (Registry.ofDocument doc).registry
  have sound : r.Sound := Controller.sound_open opened
  refine ⟨_, opened, ?_, ?_, by decide +kernel, rfl, by decide +kernel⟩
  · have found : r.record? .user "a.b" = some a := by decide +kernel
    exact (sound.record?_eq_some_iff.mp found).1
  · have found : r.record? .user "a_b" = some b := by decide +kernel
    exact (sound.record?_eq_some_iff.mp found).1

end Premises

end DoorAccess
