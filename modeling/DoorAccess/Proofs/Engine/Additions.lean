import DoorAccess.Proofs.Engine.Interruption
import DoorAccess.Proofs.Registry.Additions
import DoorAccess.Proofs.Registry.Canonical
import DoorAccess.Proofs.Store.Working

/-!
Additions that do not stand in each other's way. Served one after the other, every one is made, and
the order shows neither in what is registered nor in the file; the numbers under which the users are
stored are all that depends on it.
-/
namespace DoorAccess

namespace Registry

/-- Each request comes to a record, and neither what is stored nor another request stands in its
way. -/
structure Independent (r : Registry) (entries : List Record) : Prop where
  free : ∀ entry ∈ entries, ∃ record, entry.canonical? = some record ∧ r.IsFreeFor record
  apart : entries.Pairwise fun entry other => ∀ record record',
    entry.canonical? = some record → other.canonical? = some record' → ¬ record.Clashes record'

namespace Independent
variable {r r' : Registry} {entry record : Record} {entries entries' : List Record}

theorem perm (independent : r.Independent entries) (perm : entries'.Perm entries) :
    r.Independent entries' where
  free entry listed := independent.free entry (perm.mem_iff.mp listed)
  apart := (perm.pairwise_iff fun apart record record' canonical canonical' clash =>
    apart record' record canonical' canonical clash.symm).mpr independent.apart

/-- It is enough to look at the records that the requests come to. -/
theorem of_records {records : List Record}
    (canonical : entries.map Record.canonical? = records.map some)
    (free : ∀ record ∈ records, r.IsFreeFor record)
    (apart : records.Pairwise fun record record' => ¬ record.Clashes record') :
    r.Independent entries where
  free entry listed := by
    have mem : entry.canonical? ∈ records.map some := canonical ▸ List.mem_map_of_mem listed
    obtain ⟨record, mem, here⟩ := List.mem_map.mp mem
    exact ⟨record, here.symm, free record mem⟩
  apart := by
    have split : (entries.map Record.canonical?).Pairwise fun a b => ∀ record record',
        a = some record → b = some record' → ¬ record.Clashes record' := by
      rw [canonical, List.pairwise_map]
      refine apart.imp fun apart record record' first second => ?_
      cases first
      cases second
      exact apart
    exact List.pairwise_map.mp split

/-- Once the first record is stored, the others are still free. -/
theorem tail (independent : r.Independent (entry :: entries))
    (canonical : entry.canonical? = some record) (gains : r.Gains r' record) :
    r'.Independent entries := by
  obtain ⟨first, apart⟩ := List.pairwise_cons.mp independent.apart
  refine ⟨fun other listed => ?_, apart⟩
  obtain ⟨record', canonical', free⟩ := independent.free other (List.mem_cons_of_mem _ listed)
  refine ⟨record', canonical', fun stood stored clash => ?_⟩
  rcases (gains.stored stood).mp stored with stored | rfl
  · exact free stood stored clash
  · exact first other listed _ record' canonical canonical' clash.symm

end Independent

end Registry

theorem Record.kind_of_canonical? {entry record : Record}
    (canonical : entry.canonical? = some record) : record.kind = entry.kind := by
  obtain ⟨_, key, _, rfl⟩ := Record.canonical?_eq_some_iff.mp canonical
  exact Record.kind_renamed ..

namespace Engine

def gauge (e : Engine) : RecordKind → Nat
  | .door => e.doorGauge
  | .user => e.userGauge

namespace Lifetime

/-- The request to add the record, with the number that is drawn for the draft of the file. -/
def addition (request : Record × UInt32) : Act := .commit request.1.request request.2 []

/-- The requests are served one after the other. -/
def serve (l : Lifetime) (requests : List (Record × UInt32)) : Lifetime :=
  l.run (requests.map addition)

/-- What is answered to them. -/
def answers (l : Lifetime) : List (Record × UInt32) → List (Except AccessError Record)
  | [] => []
  | request :: requests =>
    (l.engine.commit request.1.request request.2 l.disk []).result ::
      (l.take (addition request)).answers requests

/-- The answer says that the record is stored. -/
def Grants (request : Record × UInt32) (answer : Except AccessError Record) : Prop :=
  ∃ record, request.1.canonical? = some record ∧ answer = .ok record

/-- All that was registered is still there, with the new records, and nothing else is: in the
registry, in the gauges and in the file. -/
structure Gathers (l l' : Lifetime) (entries : List Record) : Prop where
  stored : ∀ record, l'.engine.registry.Stores record ↔
    l.engine.registry.Stores record ∨ ∃ entry ∈ entries, entry.canonical? = some record
  gauge : ∀ kind, l'.engine.gauge kind =
    l.engine.gauge kind + entries.countP fun entry => entry.kind = kind
  store : l'.engine.store = l.engine.store
  file : if entries = [] then l' = l else
    l.engine.store.place.read l'.disk =
      .ok (Store.content l'.engine.registry.toDocument ++ [10])

/-- Nothing that is asked of the engines, read off them or found in their files tells which is
which. -/
structure Matches (l l' : Lifetime) : Prop where
  document : l'.engine.registry.toDocument = l.engine.registry.toDocument
  file : l'.engine.store.place.read l'.disk = l.engine.store.place.read l.disk
  gauge : ∀ kind, l'.engine.gauge kind = l.engine.gauge kind
  answers : l.engine.Agrees l'.engine

theorem IsReachable.invariant {l : Lifetime} (reachable : l.IsReachable) :
    l.Invariant l.engine.store := by
  obtain ⟨store, number, d, faults, e, d', acts, opened, rfl⟩ := reachable
  have invariant := invariant_run (invariant_open opened) acts
  exact invariant.store.symm ▸ invariant

theorem Invariant.gauge_eq {l : Lifetime} {store : Store} (invariant : l.Invariant store)
    (kind : RecordKind) : l.engine.gauge kind = l.engine.registry.count kind := by
  cases kind with
  | door => exact invariant.doorGauge
  | user => exact invariant.userGauge

variable {l l' : Lifetime} {store : Store}

theorem take_addition {entry record : Record} (invariant : l.Invariant store)
    (working : store.IsWorking l.disk) (canonical : entry.canonical? = some record)
    (free : l.engine.registry.IsFreeFor record) (number : UInt32) :
    let next := l.take (addition (entry, number))
    (l.engine.commit entry.request number l.disk []).result = .ok record ∧
      l.engine.registry.Gains next.engine.registry record ∧ store.IsWorking next.disk ∧
      store.place.read next.disk =
        .ok (Store.content next.engine.registry.toDocument ++ [10]) := by
  obtain ⟨staged, applied, gains⟩ := invariant.sound.request_of_free canonical free
  obtain ⟨d', written⟩ : ∃ d', l.engine.store.writeAtomic staged.toDocument number l.disk =
      (.ok (), d') := ⟨_, Prod.ext (invariant.store ▸ working staged.toDocument number) rfl⟩
  simp only [take, addition, commit_of_written applied written, true_and]
  rw [invariant.store] at written
  exact ⟨gains, working.written written, (Store.writeAtomic_ok written).content⟩

theorem gathers_cons {entry record : Record} {entries : List Record} {next : Lifetime}
    (invariant : l.Invariant store) (after : next.Invariant store)
    (canonical : entry.canonical? = some record)
    (gains : l.engine.registry.Gains next.engine.registry record)
    (read : store.place.read next.disk =
      .ok (Store.content next.engine.registry.toDocument ++ [10]))
    (rest : next.Gathers l' entries) : l.Gathers l' (entry :: entries) where
  stored other := by
    rw [rest.stored, gains.stored, or_assoc]
    simp only [List.mem_cons, exists_eq_or_imp, canonical, Option.some.injEq, eq_comm (a := record)]
  gauge kind := by
    rw [rest.gauge, after.gauge_eq, gains.count invariant.sound after.sound, ← invariant.gauge_eq,
      List.countP_cons, Record.kind_of_canonical? canonical]
    simp only [decide_eq_true_eq]
    omega
  store := rest.store.trans (after.store.trans invariant.store.symm)
  file := by
    have file := rest.file
    rw [after.store] at file
    rw [if_neg (List.cons_ne_nil _ _), invariant.store]
    split at file
    · next none =>
        rw [file]
        exact read
    · exact file

theorem serve_independent {requests : List (Record × UInt32)} (invariant : l.Invariant store)
    (working : store.IsWorking l.disk)
    (independent : l.engine.registry.Independent (requests.map (·.1))) :
    List.Forall₂ Grants requests (l.answers requests) ∧
      l.Gathers (l.serve requests) (requests.map (·.1)) := by
  induction requests generalizing l with
  | nil => exact ⟨.nil, by simp [serve, run], fun _ => rfl, rfl, rfl⟩
  | cons request requests ih =>
      obtain ⟨record, canonical, free⟩ := independent.free request.1 (by simp)
      obtain ⟨granted, gains, working', read⟩ :=
        take_addition invariant working canonical free request.2
      have after := invariant_take invariant (addition request)
      obtain ⟨answers, gathers⟩ := ih after working' (independent.tail canonical gains)
      exact ⟨.cons ⟨record, canonical, granted⟩ answers,
        gathers_cons invariant after canonical gains read gathers⟩

/-- The same additions, gathered in whatever order. -/
theorem Gathers.matches {last last' : Lifetime} {entries entries' : List Record}
    (gathers : l.Gathers last entries) (gathers' : l.Gathers last' entries')
    (sound : last.engine.registry.Sound) (sound' : last'.engine.registry.Sound)
    (perm : entries'.Perm entries) : last.Matches last' := by
  have same (record : Record) :
      last'.engine.registry.Stores record ↔ last.engine.registry.Stores record := by
    simp only [gathers.stored, gathers'.stored, perm.mem_iff]
  have alike := sound.alike_of_stores sound' same
  have equivalent := sound.equivalent sound' alike
  have document := sound.toDocument_eq sound' alike
  refine ⟨document, ?_, fun kind => ?_,
    agrees_of_lookups equivalent.door equivalent.user equivalent.userOf⟩
  · have none_iff : entries' = [] ↔ entries = [] := by
      rw [← List.length_eq_zero_iff, perm.length_eq, List.length_eq_zero_iff]
    have file := gathers.file
    have file' := gathers'.file
    rw [if_congr none_iff rfl rfl] at file'
    rw [gathers.store, gathers'.store]
    split at file
    · next none =>
        rw [if_pos none] at file'
        rw [file, file']
    · next some =>
        rw [if_neg some] at file'
        rw [file, file', document]
  · rw [gathers.gauge, gathers'.gauge, perm.countP_eq]

end Lifetime

/-- Requests to add records that are free and do not clash are all granted, whatever order they are
served in, as long as the store works. Nothing is lost: all that was registered is still there with
every new record, and the gauges and the file say so. Served in another order, with other numbers,
they leave the same snapshot, the same bytes in the file, the same gauges and the same answers. -/
theorem independent_additions_in_any_order (l : Lifetime) (reachable : l.IsReachable)
    (working : l.engine.store.IsWorking l.disk) (requests : List (Record × UInt32))
    (independent : l.engine.registry.Independent (requests.map (·.1))) :
    (List.Forall₂ Lifetime.Grants requests (l.answers requests) ∧
      l.Gathers (l.serve requests) (requests.map (·.1))) ∧
    ∀ requests', (requests'.map (·.1)).Perm (requests.map (·.1)) →
      List.Forall₂ Lifetime.Grants requests' (l.answers requests') ∧
        (l.serve requests).Matches (l.serve requests') := by
  have invariant := reachable.invariant
  have sound (requests : List (Record × UInt32)) : (l.serve requests).engine.registry.Sound :=
    (Lifetime.invariant_run invariant _).sound
  have served := Lifetime.serve_independent invariant working independent
  refine ⟨served, fun requests' perm => ?_⟩
  obtain ⟨granted, gathers⟩ :=
    Lifetime.serve_independent invariant working (independent.perm perm)
  exact ⟨granted, served.2.matches gathers (sound requests) (sound requests') perm⟩

/-- One order and another on a new store. -/
theorem independent_additions_on_new_store :
    let store : Store := ⟨⟨{}, some "doors.json"⟩⟩
    let opened := Engine.open store 7 Disk.empty []
    let l : Lifetime := ⟨ofBuilding store ⟨.empty, 0⟩, opened.2, true⟩
    let hall : Record := .door ⟨"MainHall ", 3⟩
    let ann : Record := .user ⟨"Ann", "a1", 5⟩
    let bob : Record := .user ⟨"Bob", "b2", 1⟩
    l.IsReachable ∧ l.engine.store.IsWorking l.disk ∧
      l.engine.registry.Independent [hall, ann, bob] ∧
      (l.serve [(hall, 8), (ann, 9), (bob, 10)]).engine.registry.toDocument =
        ⟨[⟨"main_hall", 3⟩], [⟨"ann", "a1", 5⟩, ⟨"bob", "b2", 1⟩]⟩ ∧
      (l.serve [(hall, 8), (ann, 9), (bob, 10)]).Matches
        (l.serve [(bob, 4), (hall, 5), (ann, 6)]) := by
  intro store opened l hall ann bob
  have reachable : l.IsReachable := ⟨store, 7, Disk.empty, [], _, opened.2, [], rfl, rfl⟩
  have written : store.writeAtomic {} 7 Disk.empty = (.ok (), opened.2) := rfl
  have working : store.IsWorking opened.2 := (Store.isWorking_empty (by decide)).written written
  have canonical : [hall, ann, bob].map Record.canonical? =
      [.door ⟨"main_hall", 3⟩, .user ⟨"ann", "a1", 5⟩, .user ⟨"bob", "b2", 1⟩].map some := by
    decide +kernel
  have independent : l.engine.registry.Independent [hall, ann, bob] :=
    .of_records canonical (fun _ _ other stored => absurd stored (Registry.not_stores_empty other))
      (by decide)
  refine ⟨reachable, working, independent, by decide +kernel, ?_⟩
  exact ((independent_additions_in_any_order l reachable working
    [(hall, 8), (ann, 9), (bob, 10)] independent).2 [(bob, 4), (hall, 5), (ann, 6)]
      (by decide)).2

end Engine

end DoorAccess
