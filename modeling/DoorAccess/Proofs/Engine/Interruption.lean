import DoorAccess.Proofs.Engine.Mirror
import Mathlib.Control.Monad.Basic
import Mathlib.Logic.Relation

/-!
A change step by step, as readers and the disk see it. The registry is changed on a copy, the copy
is written to a new file piece by piece, the new file gets the name of the old one, and the copy
becomes the registry. Wherever this stops, both the registry in use and the file are as before the
change or as after it, and an engine that is opened then starts with one of the two.
-/
namespace DoorAccess

/-! ### An edit by halves -/

namespace Registry

/-- The record that an edit has taken out, and the registry without it. -/
inductive TakesOut (r : Registry) : Change → Record → Registry → Prop
  | door (old new : String) (level : Option Level) (door : Door) (left : Registry)
      (removed : r.removeDoor old = (.ok door, left)) :
      TakesOut r (.edit .door old new level) (.door door) left
  | user (old new : String) (level : Option Level) (user : User) (left : Registry)
      (removed : r.removeUser old = (.ok user, left)) :
      TakesOut r (.edit .user old new level) (.user user) left

/-- The record is put back as the edit wants it. -/
inductive PutsBack (left : Registry) : Change → Record → Record → Registry → Prop
  | door (old new : String) (level : Option Level) (before after : Door) (staged : Registry)
      (inserted : left.insertDoor new (level.getD before.level) = (.ok after, staged)) :
      PutsBack left (.edit .door old new level) (.door before) (.door after) staged
  | user (old new : String) (level : Option Level) (before after : User) (staged : Registry)
      (inserted : left.insertUser new (level.getD before.level) before.credential =
        (.ok after, staged)) :
      PutsBack left (.edit .user old new level) (.user before) (.user after) staged

variable {r left staged : Registry} {change : Change} {before after : Record}

theorem apply_of_halves (taken : r.TakesOut change before left)
    (put : left.PutsBack change before after staged) :
    r.apply change = (.ok after, staged) := by
  cases taken with
  | door old new level door left removed =>
      cases put with
      | door _ _ _ _ after staged inserted =>
          simp only [apply, editDoor, removed, inserted, apply.aDoor]
          rfl
  | user old new level user left removed =>
      cases put with
      | user _ _ _ _ after staged inserted =>
          simp only [apply, editUser, removed, inserted, apply.aUser]
          rfl

theorem halves_of_apply {kind : RecordKind} {old new : String} {level : Option Level}
    (applied : r.apply (.edit kind old new level) = (.ok after, staged)) :
    ∃ before left, r.TakesOut (.edit kind old new level) before left ∧
      left.PutsBack (.edit kind old new level) before after staged := by
  cases kind with
  | door =>
      obtain ⟨stored, edited, rfl⟩ := aDoor_eq_ok applied
      rw [editDoor] at edited
      split at edited
      · cases edited
      · next door left removed =>
          exact ⟨.door door, left, .door old new level door left removed,
            .door old new level door stored staged edited⟩
  | user =>
      obtain ⟨stored, edited, rfl⟩ := aUser_eq_ok applied
      rw [editUser] at edited
      split at edited
      · cases edited
      · next user left removed =>
          exact ⟨.user user, left, .user old new level user left removed,
            .user old new level user stored staged edited⟩

end Registry

namespace Store

/-- The new file is there with these bytes, and the disk is otherwise as it was. -/
structure Drafted (s : Store) (name : String) (number : UInt32) (d d' : Disk) (bytes : Bytes) :
    Prop where
  named : s.place.name = some name
  reachable : s.place.directory.isReachable d = true
  same : Disk.SameOff (s.place.directory.path ++ [tempName name number]) d d'
  body : d'.node? (s.place.directory.path ++ [tempName name number]) = some (.file bytes)

end Store

namespace Engine

/-! ### The steps -/

/-- How far a change has come. The copy that it works on is seen by nobody else. -/
inductive Phase
  | begun
  | copied (copy : Registry)
  /-- The copy while an edit has taken a record out and not put it back. -/
  | halved (record : Record) (copy : Registry)
  | applied (copy : Registry)
  | compared (copy : Registry)
  | writing (copy : Registry) (landed : Bytes)
  | ended (copy : Registry)
  | renamed (copy : Registry)
  | swapped (copy : Registry)

/-- A point in the course of a change: what readers consult, and what is on the disk. -/
structure Point where
  phase : Phase
  engine : Engine
  disk : Disk

/-- The engine once it uses the copy. -/
def adopt (e : Engine) (copy : Registry) : Engine := { e with writes := e.writes + 1 }.install copy

/-- The next step of a change. The bytes of the file may be written in any pieces. -/
inductive Advances (change : Change) (number : UInt32) : Point → Point → Prop
  | copy (e : Engine) (d : Disk) : Advances change number ⟨.begun, e, d⟩ ⟨.copied e.registry, e, d⟩
  | apply (e : Engine) (d : Disk) (copy staged : Registry) (record : Record)
      (applied : copy.apply change = (.ok record, staged)) :
      Advances change number ⟨.copied copy, e, d⟩ ⟨.applied staged, e, d⟩
  | takeOut (e : Engine) (d : Disk) (copy left : Registry) (record : Record)
      (taken : copy.TakesOut change record left) :
      Advances change number ⟨.copied copy, e, d⟩ ⟨.halved record left, e, d⟩
  | putBack (e : Engine) (d : Disk) (left staged : Registry) (before after : Record)
      (put : left.PutsBack change before after staged) :
      Advances change number ⟨.halved before left, e, d⟩ ⟨.applied staged, e, d⟩
  | compare (e : Engine) (d : Disk) (copy : Registry) :
      Advances change number ⟨.applied copy, e, d⟩ ⟨.compared copy, e, d⟩
  | create (e : Engine) (d d' : Disk) (copy : Registry) (name : String)
      (named : e.store.place.name = some name)
      (reachable : e.store.place.directory.isReachable d = true)
      (created : d.create (e.store.place.directory.path ++ [Store.tempName name number]) = .ok d') :
      Advances change number ⟨.compared copy, e, d⟩ ⟨.writing copy [], e, d'⟩
  | write (e : Engine) (d d' : Disk) (copy : Registry) (name : String)
      (named : e.store.place.name = some name) (landed piece rest : Bytes)
      (next : Store.content copy.toDocument = landed ++ piece ++ rest)
      (written : d.append (e.store.place.directory.path ++ [Store.tempName name number]) piece =
        .ok d') :
      Advances change number ⟨.writing copy landed, e, d⟩ ⟨.writing copy (landed ++ piece), e, d'⟩
  | endLine (e : Engine) (d d' : Disk) (copy : Registry) (name : String)
      (named : e.store.place.name = some name)
      (written : d.append (e.store.place.directory.path ++ [Store.tempName name number]) [10] =
        .ok d') :
      Advances change number ⟨.writing copy (Store.content copy.toDocument), e, d⟩
        ⟨.ended copy, e, d'⟩
  | rename (e : Engine) (d d' : Disk) (copy : Registry) (name : String)
      (named : e.store.place.name = some name)
      (renamed : d.rename (e.store.place.directory.path ++ [Store.tempName name number])
        (e.store.place.directory.path ++ [name]) = .ok d') :
      Advances change number ⟨.ended copy, e, d⟩ ⟨.renamed copy, e, d'⟩
  | swap (e : Engine) (d : Disk) (copy : Registry) :
      Advances change number ⟨.renamed copy, e, d⟩ ⟨.swapped copy, e.adopt copy, d⟩

/-- The points that a change of this engine can come to. -/
def Passes (e : Engine) (d : Disk) (change : Change) (number : UInt32) : Point → Prop :=
  Relation.ReflTransGen (Advances change number) ⟨.begun, e, d⟩

/-- What holds at a point of a change that began with this engine and this disk. -/
def Holds (e : Engine) (d : Disk) (change : Change) (number : UInt32) (p : Point) : Prop :=
  match p.phase with
  | .begun => p.engine = e ∧ p.disk = d
  | .copied copy => p.engine = e ∧ p.disk = d ∧ copy = e.registry
  | .halved record copy => p.engine = e ∧ p.disk = d ∧ e.registry.TakesOut change record copy
  | .applied copy | .compared copy =>
    p.engine = e ∧ p.disk = d ∧ ∃ record, e.registry.apply change = (.ok record, copy)
  | .writing copy landed =>
    p.engine = e ∧ (∃ record, e.registry.apply change = (.ok record, copy)) ∧
      ∃ name, e.store.Drafted name number d p.disk landed
  | .ended copy =>
    p.engine = e ∧ (∃ record, e.registry.apply change = (.ok record, copy)) ∧
      ∃ name, e.store.Drafted name number d p.disk (Store.content copy.toDocument ++ [10])
  | .renamed copy =>
    p.engine = e ∧ (∃ record, e.registry.apply change = (.ok record, copy)) ∧
      e.store.Replaced copy.toDocument number d p.disk
  | .swapped copy =>
    p.engine = e.adopt copy ∧ (∃ record, e.registry.apply change = (.ok record, copy)) ∧
      e.store.Replaced copy.toDocument number d p.disk

end Engine

namespace Store.Drafted
variable {s : Store} {name : String} {number : UInt32} {d d' d'' : Disk} {bytes : Bytes}

theorem create (named : s.place.name = some name)
    (reachable : s.place.directory.isReachable d = true)
    (created : d.create (s.place.directory.path ++ [tempName name number]) = .ok d') :
    s.Drafted name number d d' [] := by
  obtain ⟨rfl, _, free⟩ := Disk.create_eq_ok created
  refine ⟨named, reachable, Disk.sameOff_set (by simp) free [], ?_⟩
  rw [Disk.node?_set _ (by simp), if_pos rfl]

theorem append (drafted : s.Drafted name number d d' bytes) (piece : Bytes)
    (written : d'.append (s.place.directory.path ++ [tempName name number]) piece = .ok d'') :
    s.Drafted name number d d'' (bytes ++ piece) := by
  have same := Disk.append_sameOff (by simp) written
  obtain ⟨before, found, rfl⟩ := Disk.append_eq_ok written
  rw [drafted.body] at found
  cases found
  refine ⟨drafted.named, drafted.reachable, drafted.same.trans same, ?_⟩
  rw [Disk.node?_set _ (by simp), if_pos rfl]

theorem rename {doc : Document} (drafted : s.Drafted name number d d' (content doc ++ [10]))
    (renamed : d'.rename (s.place.directory.path ++ [tempName name number])
      (s.place.directory.path ++ [name]) = .ok d'') : s.Replaced doc number d d'' := by
  obtain ⟨read, absent, others, directories⟩ :=
    rename_draft (tempName_ne name number) drafted.same drafted.body renamed
  exact replaced_of_rename drafted.named drafted.reachable read absent others directories

end Store.Drafted

namespace Engine

variable {e : Engine} {d : Disk} {change : Change} {number : UInt32}

theorem holds_advance {p q : Point} (holds : e.Holds d change number p)
    (step : Advances change number p q) : e.Holds d change number q := by
  cases step with
  | copy =>
      obtain ⟨rfl, rfl⟩ := holds
      exact ⟨rfl, rfl, rfl⟩
  | apply _ _ copy staged record applied =>
      obtain ⟨rfl, rfl, same⟩ := holds
      exact ⟨rfl, rfl, record, same ▸ applied⟩
  | takeOut _ _ copy left record taken =>
      obtain ⟨rfl, rfl, same⟩ := holds
      exact ⟨rfl, rfl, same ▸ taken⟩
  | putBack _ _ left staged before after put =>
      obtain ⟨rfl, rfl, taken⟩ := holds
      exact ⟨rfl, rfl, after, Registry.apply_of_halves taken put⟩
  | compare => exact holds
  | create _ _ d' copy name named reachable created =>
      obtain ⟨rfl, rfl, applied⟩ := holds
      exact ⟨rfl, applied, name, .create named reachable created⟩
  | write _ d₁ d₂ copy name named landed piece rest next written =>
      obtain ⟨rfl, applied, _, drafted⟩ := holds
      cases named.symm.trans drafted.named
      exact ⟨rfl, applied, name, drafted.append piece written⟩
  | endLine _ d₁ d₂ copy name named written =>
      obtain ⟨rfl, applied, _, drafted⟩ := holds
      cases named.symm.trans drafted.named
      exact ⟨rfl, applied, name, drafted.append [10] written⟩
  | rename _ d₁ d₂ copy name named renamed =>
      obtain ⟨rfl, applied, _, drafted⟩ := holds
      cases named.symm.trans drafted.named
      exact ⟨rfl, applied, drafted.rename renamed⟩
  | swap _ _ copy =>
      obtain ⟨rfl, applied, replaced⟩ := holds
      exact ⟨rfl, applied, replaced⟩

theorem holds_of_passes {p : Point} (passes : e.Passes d change number p) :
    e.Holds d change number p := by
  induction passes with
  | refl => exact ⟨rfl, rfl⟩
  | tail _ step ih => exact holds_advance ih step

/-! ### What is found at a point -/

/-- An engine that is opened on this disk, by whatever fault it may be struck, starts with the
registry of this one and leaves the disk alone. -/
def Restores (e : Engine) (d : Disk) : Prop :=
  ∀ number faults, ∃ e', Engine.open e.store number d faults = (.ok e', d) ∧ e.Agrees e' ∧
    e'.registry.toDocument = e.registry.toDocument

theorem restores_of_loaded (sound : e.registry.Sound)
    (loaded : e.store.load d = (e.registry.toDocument, .loaded)) : e.Restores d := by
  intro number faults
  obtain ⟨e', opened, agrees⟩ := open_of_mirrored sound loaded number faults
  obtain ⟨_, mirrored⟩ := open_ok opened
  rw [loaded] at mirrored
  exact ⟨e', opened, agrees, (congrArg Prod.fst mirrored).symm⟩

/-- A point at which all is as before the change or as after it. The registry is never ahead of the
file. -/
inductive Whole (e : Engine) (d : Disk) (change : Change) (p : Point) : Prop
  | before (engine : p.engine = e) (file : e.store.place.read p.disk = e.store.place.read d)
      (restores : e.Restores p.disk)
  | stored (record : Record) (copy : Registry)
      (applied : e.registry.apply change = (.ok record, copy)) (engine : p.engine = e)
      (file : e.store.place.read p.disk = .ok (Store.content copy.toDocument ++ [10]))
      (restores : (e.adopt copy).Restores p.disk)
  | after (record : Record) (copy : Registry)
      (applied : e.registry.apply change = (.ok record, copy)) (engine : p.engine = e.adopt copy)
      (file : e.store.place.read p.disk = .ok (Store.content copy.toDocument ++ [10]))
      (restores : (e.adopt copy).Restores p.disk)

section Whole
variable {p : Point}

theorem whole_of_unchanged (sound : e.registry.Sound)
    (loaded : e.store.load d = (e.registry.toDocument, .loaded)) (engine : p.engine = e)
    (file : e.store.place.read p.disk = e.store.place.read d) : e.Whole d change p := by
  refine .before engine file (restores_of_loaded sound ?_)
  rw [Store.load_congr file, loaded]

theorem restores_of_replaced {copy : Registry} {record : Record} {d' : Disk}
    (sound : e.registry.Sound) (applied : e.registry.apply change = (.ok record, copy))
    (replaced : e.store.Replaced copy.toDocument number d d') : (e.adopt copy).Restores d' := by
  have sound' := sound.apply change
  rw [applied] at sound'
  exact restores_of_loaded sound' (Store.load_of_content replaced.content)

theorem whole_of_holds (sound : e.registry.Sound)
    (loaded : e.store.load d = (e.registry.toDocument, .loaded))
    (holds : e.Holds d change number p) : e.Whole d change p := by
  obtain ⟨phase, engine, disk⟩ := p
  cases phase with
  | begun =>
      obtain ⟨rfl, rfl⟩ := holds
      exact whole_of_unchanged sound loaded rfl rfl
  | copied | halved | applied | compared =>
      obtain ⟨rfl, rfl, _⟩ := holds
      exact whole_of_unchanged sound loaded rfl rfl
  | writing | ended =>
      obtain ⟨rfl, _, _, drafted⟩ := holds
      exact whole_of_unchanged sound loaded rfl (Store.read_of_sameOff drafted.named drafted.same)
  | renamed copy =>
      obtain ⟨rfl, ⟨record, applied⟩, replaced⟩ := holds
      exact .stored record copy applied rfl replaced.content
        (restores_of_replaced sound applied replaced)
  | swapped copy =>
      obtain ⟨rfl, ⟨record, applied⟩, replaced⟩ := holds
      exact .after record copy applied rfl replaced.content
        (restores_of_replaced sound applied replaced)

end Whole

/-! ### The steps are those of a change that is made -/

/-- The points of a change that is made: its last one, those at which the bytes of the file have
landed in part, and those of an edit that has taken its record out. -/
structure Course (e : Engine) (d : Disk) (change : Change) (number : UInt32) (record : Record)
    (c : Committed) : Prop where
  finish : ∃ copy, e.Passes d change number ⟨.swapped copy, c.engine, c.disk⟩
  partly : ∀ copy landed, e.registry.apply change = (.ok record, copy) →
    landed <+: Store.content copy.toDocument →
      ∃ d', e.Passes d change number ⟨.writing copy landed, e, d'⟩
  halfway : ∀ kind old new level, change = .edit kind old new level →
    ∃ before left, e.Passes d change number ⟨.halved before left, e, d⟩

theorem course_of_made {faults : Disk.Faults} {record : Record}
    (made : (e.commit change number d faults).result = .ok record) :
    e.Course d change number record (e.commit change number d faults) := by
  obtain ⟨staged, d', applied, written⟩ := commit_eq_ok made
  obtain ⟨name, named, reachable, done⟩ := Store.writeAtomic_eq_ok written
  obtain ⟨d₁, created, done⟩ := Disk.performUnder_cons_ok done
  obtain ⟨d₂, appended, done⟩ := Disk.performUnder_cons_ok done
  obtain ⟨d₃, ended, done⟩ := Disk.performUnder_cons_ok done
  obtain ⟨d₄, renamed, done⟩ := Disk.performUnder_cons_ok done
  cases done
  have copied : e.Passes d change number ⟨.copied e.registry, e, d⟩ := .single (.copy e d)
  have compared : e.Passes d change number ⟨.compared staged, e, d⟩ :=
    (copied.tail (.apply e d _ staged record applied)).tail (.compare e d staged)
  have begun : e.Passes d change number ⟨.writing staged [], e, d₁⟩ :=
    compared.tail (.create e d d₁ staged name named reachable created)
  have grown (landed rest : Bytes) (whole : Store.content staged.toDocument = landed ++ rest)
      (d₂ : Disk) (appended : d₁.append _ landed = .ok d₂) :
      e.Passes d change number ⟨.writing staged landed, e, d₂⟩ :=
    begun.tail (.write e d₁ d₂ staged name named [] landed rest whole appended)
  refine ⟨⟨staged, ?_⟩, ?_, ?_⟩
  · have ready : e.Passes d change number ⟨.ended staged, e, d₃⟩ :=
      (grown _ [] (by simp) d₂ appended).tail (.endLine e d₂ d₃ staged name named ended)
    rw [commit_of_written applied written]
    exact (ready.tail (.rename e d₃ _ staged name named renamed)).tail (.swap e _ staged)
  · rintro copy landed again ⟨rest, whole⟩
    cases applied.symm.trans again
    obtain ⟨d', part⟩ := Disk.append_any appended landed
    exact ⟨d', grown landed rest whole.symm d' part⟩
  · rintro kind old new level rfl
    obtain ⟨before, left, taken, _⟩ := Registry.halves_of_apply applied
    exact ⟨before, left, copied.tail (.takeOut e d _ left before taken)⟩

/-! ### Wherever it stops -/

namespace Lifetime

/-- An engine was opened, and with what was asked of it and done to the disk since it has come to
this. -/
def IsReachable (l : Lifetime) : Prop :=
  ∃ store number d faults e d' acts, Engine.open store number d faults = (.ok e, d') ∧
    l = Lifetime.run ⟨e, d', true⟩ acts

theorem IsReachable.sound {l : Lifetime} (reachable : l.IsReachable) : l.engine.registry.Sound := by
  obtain ⟨store, number, d, faults, e, d', acts, opened, rfl⟩ := reachable
  exact (invariant_run (invariant_open opened) acts).sound

end Lifetime

/-- Wherever a change stops, in whatever pieces its bytes are written, the registry that readers
consult and the file are both whole: both as before the change, or the file first and then both as
after it. Whoever opens the file then has the registry that it was written for. Every change that is
made takes these steps. -/
theorem change_never_half_done (l : Lifetime) (reachable : l.IsReachable) (mirrored : l.Mirrored)
    (change : Change) (number : UInt32) :
    (∀ p, l.engine.Passes l.disk change number p → l.engine.Whole l.disk change p) ∧
    ∀ faults record, (l.engine.commit change number l.disk faults).result = .ok record →
      l.engine.Course l.disk change number record (l.engine.commit change number l.disk faults) :=
  ⟨fun _ passes => whole_of_holds reachable.sound mirrored (holds_of_passes passes),
    fun _ _ made => course_of_made made⟩

/-- The one door is renamed, and a few bytes of the new file have landed. -/
theorem change_never_half_done_in_rename :
    let store : Store := ⟨⟨{}, some "doors.json"⟩⟩
    let e := ofBuilding store ⟨.empty, 0⟩
    let first := Engine.open store 7 Disk.empty []
    let l := Lifetime.run ⟨e, first.2, true⟩ [.commit (.addDoor "hall" 3) 8 []]
    let change : Change := .edit .door "hall" "lobby" none
    l.IsReachable ∧ l.Mirrored ∧
      (l.engine.commit change 9 l.disk []).result = .ok (.door ⟨"lobby", 3⟩) ∧
      ∃ copy d,
        let p : Point := ⟨.writing copy ((Store.content copy.toDocument).take 5), l.engine, d⟩
        l.engine.Passes l.disk change 9 p ∧ l.engine.Whole l.disk change p := by
  intro store e first l change
  have opened : first = (.ok e, first.2) := rfl
  have reachable : l.IsReachable :=
    ⟨store, 7, Disk.empty, [], e, first.2, [.commit (.addDoor "hall" 3) 8 []], opened, rfl⟩
  have mirrored : l.Mirrored :=
    (Lifetime.invariant_run (Lifetime.invariant_open opened) _).mirrored (by decide +kernel)
  have made : (l.engine.commit change 9 l.disk []).result = .ok (.door ⟨"lobby", 3⟩) := by
    decide +kernel
  obtain ⟨whole, course⟩ := change_never_half_done l reachable mirrored change 9
  obtain ⟨copy, _, applied, _⟩ := commit_eq_ok made
  obtain ⟨d, passes⟩ := (course [] _ made).partly copy _ applied (List.take_prefix 5 _)
  exact ⟨reachable, mirrored, made, copy, d, passes, whole _ passes⟩

end Engine

end DoorAccess
