import DoorAccess.AcceptLoop
import Std.Data.TreeMap.Lemmas
import Std.Data.TreeSet.Lemmas

/-!
Connections come and go, are closed by anybody and any number of times, and their ends are reported
late, twice or not at all: each is announced to have left exactly once, when it is taken out of the
registry, and the counts agree with that throughout.
-/
namespace DoorAccess

namespace Outbox

/-- The end is announced once, and only when the work has ended. -/
def IsSound (b : Outbox) : Prop := b.notices ≤ 1 ∧ (b.isRunning = true → b.notices = 0)

theorem isSound_finish {b : Outbox} (sound : b.IsSound) (running : b.isRunning = true) :
    b.finish.IsSound := by
  simp [IsSound, finish, sound.2 running]

theorem isSound_advance {b : Outbox} (sound : b.IsSound) (sender : Outgoing → Sent) :
    (b.advance sender).IsSound := by
  rw [advance]
  split
  · next running =>
      split
      · exact sound
      · exact isSound_finish sound running
      · dsimp only
        split
        · exact isSound_finish sound running
        · exact sound
  · exact sound

end Outbox

namespace Member

/-- What the registry sees of a connection. -/
def stub (m : Member) : ConnectionId × Nat := (m.id, m.farewells)

/-- A change that the registry does not see. -/
structure IsInner (f : Member → Member) : Prop where
  stub : ∀ m, (f m).stub = m.stub
  sound : ∀ m : Member, m.outbox.IsSound → (f m).outbox.IsSound

theorem isInner_close : IsInner close where
  stub _ := rfl
  sound m sound := by
    simp only [close, Outbox.close]
    split <;> exact sound

theorem isInner_write (item : Outgoing) : IsInner (·.write item) where
  stub m := by
    simp only [write]
    split <;> rfl
  sound m sound := by
    simp only [write, Outbox.write]
    split
    · next written =>
        split at written
        · cases written
          exact sound
        · cases written
    · exact sound

theorem isInner_work (sender : Outgoing → Sent) : IsInner (·.work sender) where
  stub _ := rfl
  sound _ sound := Outbox.isSound_advance sound sender

theorem isInner_abort : IsInner abort where
  stub _ := rfl
  sound _ sound := ⟨sound.1, fun running => by cases running⟩

theorem isSound_leave {m : Member} (sound : m.outbox.IsSound) : m.leave.outbox.IsSound :=
  isInner_close.sound m sound

end Member

namespace Listener
variable {l : Listener}

/-- The counts agree with the registry and with what was announced. -/
structure IsCounted (l : Listener) : Prop where
  live : l.live = l.registered.size
  balance : (l.accepted : Int) = l.live + l.left.length

theorem remove_of_registered {id : ConnectionId} (registered : l.isRegistered id = true) :
    l.remove id =
      { l with registered := l.registered.erase id, live := l.live - 1, left := id :: l.left } :=
  if_pos registered

theorem remove_of_unregistered {id : ConnectionId} (absent : l.isRegistered id = false) :
    l.remove id = l :=
  if_neg (Bool.eq_false_iff.mp absent)

theorem isCounted_accept (h : l.IsCounted) (free : l.isRegistered (l.lastId + 1) = false) :
    l.accept.2.IsCounted where
  live := by
    have absent : l.registered.contains (l.lastId + 1) = false := free
    simp only [accept, Std.TreeSet.size_insert, absent, h.live]
    simp
  balance := by
    have balance := h.balance
    simp only [accept]
    omega

theorem isCounted_remove (h : l.IsCounted) (id : ConnectionId) : (l.remove id).IsCounted := by
  cases registered : l.isRegistered id with
  | false =>
      rw [remove_of_unregistered registered]
      exact h
  | true =>
      have present : l.registered.contains id = true := registered
      have size : l.registered.size ≠ 0 := by
        intro zero
        have occupied := Std.TreeSet.isEmpty_eq_false_of_contains present
        rw [Std.TreeSet.isEmpty_eq_size_eq_zero, zero] at occupied
        cases occupied
      have live := h.live
      have balance := h.balance
      rw [remove_of_registered registered]
      constructor
      · simp only [Std.TreeSet.size_erase, present, if_true]
        omega
      · simp only [List.length_cons]
        omega

end Listener

namespace AcceptLoop

/-- The loop before anything has happened. -/
def start (serves : Bool) : AcceptLoop := { serves }

/-- Whether the number that would be given next is still registered. -/
def reissues (l : AcceptLoop) : Bool := l.listener.isRegistered (l.listener.lastId + 1)

/-- Whenever a connection is accepted, its number is free. -/
def isFresh (l : AcceptLoop) : List Event → Bool
  | [] => true
  | .accept :: events => (l.phase ≠ .accepting || !l.reissues) && (l.take .accept).isFresh events
  | e :: events => (l.take e).isFresh events

/-- How often connections with a number have been announced to have left. -/
def departures (id : ConnectionId) : List Member → Nat
  | [] => 0
  | m :: members => (if m.id = id then m.farewells else 0) + departures id members

/-- What the registry, the counts and the announcements have to do with each other. -/
structure Balanced (l : AcceptLoop) : Prop where
  registered : ∀ id, l.listener.isRegistered id = l.handles.contains id
  owner : ∀ id n, l.handles[id]? = some n → ∃ m : Member, l.members[n]? = some m ∧ m.id = id
  farewells : ∀ n m, l.members[n]? = some m → m.farewells = if l.isRegistered n m then 0 else 1
  counted : l.listener.IsCounted
  accepted : l.listener.accepted = l.members.length
  announced : ∀ id, l.listener.left.count id = departures id l.members

theorem departures_of_stubs (id : ConnectionId) {members members' : List Member}
    (stubs : members'.map Member.stub = members.map Member.stub) :
    departures id members' = departures id members := by
  induction members generalizing members' with
  | nil => rw [List.map_eq_nil_iff.mp stubs]
  | cons m members ih =>
      obtain ⟨m', later, rfl, stub, rest⟩ := List.map_eq_cons_iff.mp stubs
      simp only [Member.stub, Prod.mk.injEq] at stub
      simp only [departures, stub, ih rest]

/-- What the registry does not see keeps the balance. -/
theorem Balanced.of_stubs {l l' : AcceptLoop} (h : l.Balanced) (listener : l'.listener = l.listener)
    (handles : l'.handles = l.handles)
    (stubs : l'.members.map Member.stub = l.members.map Member.stub) : l'.Balanced := by
  have same (n : Nat) : l'.members[n]?.map Member.stub = l.members[n]?.map Member.stub := by
    rw [← List.getElem?_map, stubs, List.getElem?_map]
  refine ⟨by rw [listener, handles]; exact h.registered, fun id n found => ?_, fun n m found => ?_,
    by rw [listener]; exact h.counted, ?_, fun id => ?_⟩
  · rw [handles] at found
    obtain ⟨m, here, rfl⟩ := h.owner id n found
    have stub := same n
    rw [here, Option.map_some, Option.map_eq_some_iff] at stub
    obtain ⟨m', found', eq⟩ := stub
    exact ⟨m', found', congrArg Prod.fst eq⟩
  · have stub := (same n).symm
    rw [found, Option.map_some, Option.map_eq_some_iff] at stub
    obtain ⟨m', found', eq⟩ := stub
    simp only [Member.stub, Prod.mk.injEq] at eq
    have known : l'.isRegistered n m = l.isRegistered n m' := by
      rw [isRegistered, isRegistered, handles, eq.1]
    rw [known, ← eq.2]
    exact h.farewells n m' found'
  · have length := congrArg List.length stubs
    rw [List.length_map, List.length_map] at length
    rw [listener, length, h.accepted]
  · rw [listener, departures_of_stubs id stubs]
    exact h.announced id

theorem balanced_start (serves : Bool) : (start serves).Balanced where
  registered _ := rfl
  owner _ _ found := by cases found
  farewells _ _ found := by cases found
  counted := ⟨rfl, rfl⟩
  accepted := rfl
  announced _ := rfl

theorem departures_concat (id : ConnectionId) (members : List Member) {m : Member}
    (none : m.farewells = 0) : departures id (members ++ [m]) = departures id members := by
  induction members with
  | nil => simp [departures, none]
  | cons first members ih => simp only [List.cons_append, departures, ih]

/-- One more departure under the number of the connection that leaves. -/
theorem departures_leave (id : ConnectionId) {members : List Member} {n : Nat} {m : Member}
    (here : members[n]? = some m) :
    departures id (members.modify n Member.leave) =
      departures id members + if m.id = id then 1 else 0 := by
  induction members generalizing n with
  | nil => cases here
  | cons first members ih =>
      cases n with
      | zero =>
          cases here
          simp only [List.modify_zero_cons, departures, Member.leave, Member.close]
          split <;> omega
      | succ n =>
          have later := ih (n := n) (by simpa using here)
          simp only [List.modify_succ_cons, departures, later]
          omega

section
variable {l : AcceptLoop}

theorem handles_accept (l : AcceptLoop) (id : ConnectionId) :
    l.accept.handles[id]? =
      if l.listener.lastId + 1 = id then some l.members.length else l.handles[id]? := by
  simp only [accept, Listener.accept, Std.TreeMap.getElem?_insert,
    Std.LawfulEqCmp.compare_eq_iff_eq]

/-- A number that is free takes no other connection's handle. -/
theorem isRegistered_accept (unheld : l.handles[l.listener.lastId + 1]? = none)
    {n : Nat} (m : Member) (earlier : n < l.members.length) :
    l.accept.isRegistered n m = l.isRegistered n m := by
  rw [isRegistered, isRegistered, handles_accept]
  split
  · next here => simp [← here, unheld, (Nat.ne_of_lt earlier).symm]
  · rfl

theorem balanced_accept (h : l.Balanced) (free : l.reissues = false) : l.accept.Balanced := by
  have unheld : l.handles[l.listener.lastId + 1]? = none := by
    rw [reissues, h.registered] at free
    exact Std.TreeMap.getElem?_eq_none_of_contains_eq_false free
  refine ⟨fun id => ?_, fun id n held => ?_, fun n m found => ?_,
    Listener.isCounted_accept h.counted free, by simp [accept, Listener.accept, h.accepted],
    fun id => ?_⟩
  · have same := h.registered id
    simp only [Listener.isRegistered] at same
    simp only [accept, Listener.accept, Listener.isRegistered, Std.TreeSet.contains_insert,
      Std.TreeMap.contains_insert, same]
  · rw [handles_accept] at held
    split at held
    · next here =>
        cases held
        exact ⟨_, List.getElem?_concat_length, by rw [← here]; split <;> rfl⟩
    · obtain ⟨m, here, rfl⟩ := h.owner id n held
      have earlier := (List.getElem?_eq_some_iff.mp here).1
      exact ⟨m, by rw [accept, List.getElem?_append_left earlier, here], rfl⟩
  · simp only [accept, List.getElem?_append, List.getElem?_singleton] at found
    split at found
    · next earlier =>
        rw [isRegistered_accept unheld m earlier]
        exact h.farewells n m found
    · split at found
      · next last =>
          have place : n = l.members.length := by omega
          cases found
          cases l.serves <;> simp [isRegistered, accept, Listener.accept, Member.close, place]
      · cases found
  · rw [accept, departures_concat id l.members (by split <;> rfl)]
    exact h.announced id

theorem remove_of_held {id : ConnectionId} {n : Nat} (held : l.handles[id]? = some n) :
    l.remove id = { l with
      listener := l.listener.remove id
      members := l.members.modify n Member.leave
      handles := l.handles.erase id } := by
  rw [remove, held]

/-- Giving up the handle of a connection leaves the other connections registered as they were. -/
theorem isRegistered_erase {id : ConnectionId} {n k : Nat} (held : l.handles[id]? = some n)
    (other : n ≠ k) (m : Member) :
    ({ l with handles := l.handles.erase id } : AcceptLoop).isRegistered k m =
      l.isRegistered k m := by
  simp only [isRegistered, Std.TreeMap.getElem?_erase, Std.LawfulEqCmp.compare_eq_iff_eq]
  split
  · next shared => simp [← shared, held, other]
  · rfl

theorem farewells_remove (h : l.Balanced) {id : ConnectionId} {n : Nat}
    (held : l.handles[id]? = some n) (k : Nat) (m : Member)
    (found : (l.remove id).members[k]? = some m) :
    m.farewells = if (l.remove id).isRegistered k m then 0 else 1 := by
  obtain ⟨owner, here, rfl⟩ := h.owner id n held
  rw [remove_of_held held] at found ⊢
  rw [List.getElem?_modify, Option.map_eq_map, Option.map_eq_some_iff] at found
  obtain ⟨before, there, rfl⟩ := found
  have law := h.farewells k before there
  by_cases same : n = k
  · subst same
    rw [here] at there
    cases there
    simp only [isRegistered, held, decide_true, if_true] at law
    simp [isRegistered, Member.leave, Member.close, law]
  · rw [if_neg same, law]
    exact congrArg (fun b : Bool => if b then 0 else 1) (isRegistered_erase held same before).symm

theorem balanced_remove (h : l.Balanced) (id : ConnectionId) : (l.remove id).Balanced := by
  cases held : l.handles[id]? with
  | none =>
      rw [remove, held]
      exact h
  | some n =>
      obtain ⟨m, here, rfl⟩ := h.owner id n held
      have registered : l.listener.isRegistered m.id = true := by
        rw [h.registered, Std.TreeMap.contains_eq_isSome_getElem?, held]
        rfl
      have farewells := farewells_remove h held
      rw [remove_of_held held] at farewells ⊢
      have counted := Listener.isCounted_remove h.counted m.id
      refine ⟨fun id => ?_, fun id k held => ?_, farewells, counted, ?_, fun id => ?_⟩ <;>
        simp only [Listener.remove_of_registered registered]
      · have same := h.registered id
        simp only [Listener.isRegistered] at same
        simp only [Listener.isRegistered, Std.TreeSet.contains_erase, Std.TreeMap.contains_erase,
          same]
      · simp only [Std.TreeMap.getElem?_erase, Std.LawfulEqCmp.compare_eq_iff_eq] at held
        split at held
        · cases held
        · obtain ⟨m', there, rfl⟩ := h.owner id k held
          refine ⟨if n = k then m'.leave else m', ?_, by split <;> rfl⟩
          rw [List.getElem?_modify, there]
          rfl
      · simp [h.accepted]
      · simp only [departures_leave id here, List.count_cons, h.announced id]
        simp

theorem balanced_modify (h : l.Balanced) (n : Nat) {f : Member → Member}
    (inner : Member.IsInner f) : (l.modify n f).Balanced := by
  refine h.of_stubs rfl rfl (List.ext_getElem? fun k => ?_)
  simp only [modify, List.getElem?_map, List.getElem?_modify]
  cases l.members[k]? with
  | none => rfl
  | some m =>
      simp only [Option.map_eq_map, Option.map_some]
      split
      · rw [inner.stub]
      · rfl

theorem balanced_closeAll (h : l.Balanced) : l.closeAll.Balanced := by
  refine h.of_stubs rfl rfl (List.ext_getElem? fun k => ?_)
  simp only [closeAll, List.getElem?_map, List.getElem?_mapIdx]
  cases l.members[k]? with
  | none => rfl
  | some m =>
      simp only [Option.map_some]
      split
      · rw [Member.isInner_close.stub]
      · rfl

theorem listener_isRegistered (h : l.Balanced) {n : Nat} {m : Member}
    (held : l.isRegistered n m = true) : l.listener.isRegistered m.id = true := by
  rw [isRegistered, decide_eq_true_eq] at held
  rw [h.registered, Std.TreeMap.contains_eq_isSome_getElem?, held]
  rfl

theorem isRegistered_of_remove (h : l.Balanced) {id other : ConnectionId}
    (still : (l.remove id).listener.isRegistered other = true) :
    l.listener.isRegistered other = true ∧ other ≠ id := by
  have lost := (balanced_remove h id).registered other
  rw [h.registered]
  rw [still, remove] at lost
  split at lost
  · next absent =>
      refine ⟨lost.symm, ?_⟩
      rintro rfl
      rw [Std.TreeMap.contains_eq_isSome_getElem?, absent] at lost
      cases lost
  · simp only [Std.TreeMap.contains_erase, eq_comm (a := true), Bool.and_eq_true, bne_iff_ne, ne_eq,
      Std.LawfulEqCmp.compare_eq_iff_eq] at lost
    exact ⟨lost.2, fun same => lost.1 same.symm⟩

theorem remove_phase (l : AcceptLoop) (id : ConnectionId) : (l.remove id).phase = l.phase := by
  rw [remove]
  split <;> rfl

end

/-! ### Steps -/

/-- All that a step can do. -/
inductive Takes (l : AcceptLoop) : AcceptLoop → Prop
  | idle : Takes l l
  | accepted (phase : l.phase = .accepting) (free : l.reissues = false) : Takes l l.accept
  | modified (n : Nat) (f : Member → Member) (inner : Member.IsInner f)
      (reports : List ConnectionId) : Takes l { l.modify n f with reports }
  | reported (reports : List ConnectionId) : Takes l { l with reports }
  | received (id : ConnectionId) (reports : List ConnectionId)
      (pending : l.reports = id :: reports) (phase : l.phase = .accepting ∨ l.phase = .draining) :
      Takes l (({ l with reports } : AcceptLoop).remove id)
  | closed (phase : l.phase = .accepting) : Takes l { l.closeAll with phase := .closing }
  | drained (phase : l.phase = .closing) : Takes l { l with phase := .draining }
  | left (phase : l.phase = .draining) :
      Takes l { l with phase := .sweeping l.listener.registered.toList }
  | swept (id : ConnectionId) (leftover : List ConnectionId)
      (phase : l.phase = .sweeping (id :: leftover)) :
      Takes l { l.remove id with phase := .sweeping leftover }
  | stopped (phase : l.phase = .sweeping []) : Takes l { l with phase := .stopped }

theorem take_takes (l : AcceptLoop) (e : Event) (fresh : l.isFresh [e] = true) :
    Takes l (l.take e) := by
  cases e with
  | accept =>
      simp only [take]
      split
      · next accepting =>
          simp only [isFresh, accepting, ne_eq, not_true_eq_false, decide_false, Bool.false_or,
            Bool.and_true, Bool.not_eq_true'] at fresh
          exact .accepted accepting fresh
      · exact .idle
  | write n item => exact .modified n _ (Member.isInner_write item) l.reports
  | close n => exact .modified n _ Member.isInner_close l.reports
  | work n sender =>
      simp only [take, work]
      split
      · exact .idle
      · exact .modified n _ (Member.isInner_work sender) _
  | report id => exact .reported _
  | receive =>
      simp only [take]
      split
      · next phase =>
          cases pending : l.reports with
          | nil =>
              rw [receive, pending]
              exact .idle
          | cons id reports =>
              rw [receive, pending]
              exact .received id reports pending phase
      · exact .idle
  | stop =>
      simp only [take]
      split
      · next phase => exact .closed phase
      · exact .idle
  | abort n =>
      simp only [take]
      split
      · exact .modified n _ Member.isInner_abort l.reports
      · exact .idle
  | drain =>
      simp only [take]
      split
      · next phase => exact .drained phase
      · exact .idle
  | sweep =>
      simp only [take]
      split
      · next phase _ => exact .left phase
      · next _ phase => exact .stopped phase
      · next phase => exact .swept _ _ phase
      · exact .idle

/-- What the phase says about the registry: it is emptied at the end. -/
def Swept (l : AcceptLoop) : Prop :=
  match l.phase with
  | .sweeping leftover => ∀ id, l.listener.isRegistered id = true → id ∈ leftover
  | .stopped => ∀ id, l.listener.isRegistered id = false
  | _ => True

/-- What holds throughout. -/
structure Invariant (l : AcceptLoop) : Prop where
  balanced : l.Balanced
  swept : l.Swept
  sound : ∀ m ∈ l.members, m.outbox.IsSound

theorem invariant_start (serves : Bool) : (start serves).Invariant where
  balanced := balanced_start serves
  swept := trivial
  sound := List.forall_mem_nil _

section
variable {l l' : AcceptLoop}

theorem balanced_takes (h : l.Balanced) (takes : Takes l l') : l'.Balanced := by
  cases takes with
  | idle => exact h
  | accepted phase free => exact balanced_accept h free
  | modified n f inner => exact (balanced_modify h n inner).of_stubs rfl rfl rfl
  | received id reports =>
      have rest : ({ l with reports } : AcceptLoop).Balanced := h.of_stubs rfl rfl rfl
      exact balanced_remove rest id
  | closed => exact (balanced_closeAll h).of_stubs rfl rfl rfl
  | swept id => exact (balanced_remove h id).of_stubs rfl rfl rfl
  | reported | drained | left | stopped => exact h.of_stubs rfl rfl rfl

theorem swept_takes (h : l.Balanced) (swept : l.Swept) (takes : Takes l l') : l'.Swept := by
  cases takes with
  | idle | modified | reported => exact swept
  | accepted phase => simp only [Swept, accept, phase]
  | received id reports _ phase =>
      rw [Swept, remove_phase]
      rcases phase with phase | phase <;> simp only [phase]
  | closed | drained => trivial
  | left => exact fun id registered => Std.TreeSet.mem_toList.mpr registered
  | swept id leftover phase =>
      simp only [Swept, phase] at swept ⊢
      intro other still
      obtain ⟨before, apart⟩ := isRegistered_of_remove h still
      exact (List.mem_cons.mp (swept other before)).resolve_left apart
  | stopped phase =>
      simp only [Swept, phase] at swept ⊢
      exact fun id => Bool.eq_false_iff.mpr fun registered => List.not_mem_nil (swept id registered)

theorem forall_mem_modify {P : Member → Prop} {members : List Member} (h : ∀ m ∈ members, P m)
    {f : Member → Member} (keeps : ∀ m, P m → P (f m)) (n : Nat) :
    ∀ m ∈ members.modify n f, P m := by
  intro m mem
  obtain ⟨k, found⟩ := List.mem_iff_getElem?.mp mem
  rw [List.getElem?_modify, Option.map_eq_map, Option.map_eq_some_iff] at found
  obtain ⟨before, there, rfl⟩ := found
  have held := h before (List.mem_of_getElem? there)
  split
  · exact keeps before held
  · exact held

theorem sound_remove (h : ∀ m ∈ l.members, m.outbox.IsSound) (id : ConnectionId) :
    ∀ m ∈ (l.remove id).members, m.outbox.IsSound := by
  rw [remove]
  split
  · exact h
  · exact forall_mem_modify h (fun m => Member.isSound_leave) _

theorem sound_takes (h : ∀ m ∈ l.members, m.outbox.IsSound) (takes : Takes l l') :
    ∀ m ∈ l'.members, m.outbox.IsSound := by
  cases takes with
  | idle | reported | drained | left | stopped => exact h
  | accepted =>
      simp only [accept, List.forall_mem_append, List.forall_mem_singleton]
      refine ⟨h, ?_⟩
      split <;> simp [Outbox.IsSound, Member.close, Outbox.close]
  | modified n f inner => exact forall_mem_modify h inner.sound n
  | received id reports => exact sound_remove (l := { l with reports }) h id
  | swept id => exact sound_remove h id
  | closed =>
      intro m mem
      obtain ⟨k, bound, rfl⟩ := List.mem_mapIdx.mp mem
      split
      · exact Member.isInner_close.sound _ (h _ (List.getElem_mem bound))
      · exact h _ (List.getElem_mem bound)

theorem invariant_take (inv : l.Invariant) (e : Event) (fresh : l.isFresh [e] = true) :
    (l.take e).Invariant :=
  have takes := take_takes l e fresh
  ⟨balanced_takes inv.balanced takes, swept_takes inv.balanced inv.swept takes,
    sound_takes inv.sound takes⟩

theorem isFresh_cons (e : Event) (events : List Event) :
    l.isFresh (e :: events) = (l.isFresh [e] && (l.take e).isFresh events) := by
  cases e <;> simp [isFresh]

theorem invariant_run (inv : l.Invariant) (events : List Event) (fresh : l.isFresh events = true) :
    (l.run events).Invariant := by
  induction events generalizing l with
  | nil => exact inv
  | cons e events ih =>
      rw [isFresh_cons, Bool.and_eq_true] at fresh
      exact ih (invariant_take inv e fresh.1) fresh.2

end

/-! ### Stopping -/

section
variable {l : AcceptLoop}

/-- Taking a connection out of the loop takes it out of its listener. -/
theorem remove_listener (h : l.Balanced) (id : ConnectionId) :
    (l.remove id).listener = l.listener.remove id := by
  rw [remove]
  split
  · next absent =>
      have unregistered := h.registered id
      rw [Std.TreeMap.contains_eq_isSome_getElem?, absent] at unregistered
      rw [Listener.remove_of_unregistered unregistered]
  · rfl

/-- What is left over is taken out one after the other, and then the loop has stopped. -/
theorem run_sweeping (h : l.Balanced) (leftover : List ConnectionId)
    (phase : l.phase = .sweeping leftover) :
    (l.run (List.replicate (leftover.length + 1) .sweep)).phase = .stopped ∧
      (l.run (List.replicate (leftover.length + 1) .sweep)).listener =
        leftover.foldl Listener.remove l.listener := by
  induction leftover generalizing l with
  | nil => simp [run, take, phase]
  | cons id leftover ih =>
      have step : l.take .sweep = { l.remove id with phase := .sweeping leftover } := by
        simp only [take, phase]
      have next := ih (l := l.take .sweep) (by
        rw [step]
        exact (balanced_remove h id).of_stubs rfl rfl rfl) (by rw [step])
      rw [List.length_cons, List.replicate_succ, run, List.foldl_cons, List.foldl_cons, ← run,
        ← remove_listener h id]
      rw [step] at next ⊢
      exact next

/-- A loop that has taken note of all reports ends by emptying its registry. -/
theorem run_draining (h : l.Balanced) (phase : l.phase = .draining) (reports : l.reports = []) :
    ∃ sweeps, (l.run (List.replicate sweeps .sweep)).phase = .stopped ∧
      (l.run (List.replicate sweeps .sweep)).listener = l.listener.stop := by
  have step : l.take .sweep = { l with phase := .sweeping l.listener.registered.toList } := by
    simp only [take, phase, reports]
  have balanced : (l.take .sweep).Balanced := by
    rw [step]
    exact h.of_stubs rfl rfl rfl
  have ends := run_sweeping balanced l.listener.registered.toList (by rw [step])
  refine ⟨l.listener.registered.toList.length + 1 + 1, ?_⟩
  rw [List.replicate_succ, run, List.foldl_cons, ← run]
  rw [step] at ends ⊢
  exact ends

/-- The loop can go on so that it stops, and gives no number that is registered on the way. -/
def CanStop (l : AcceptLoop) : Prop :=
  ∃ rest, l.isFresh rest = true ∧ (l.run rest).phase = .stopped

theorem canStop_of_take (e : Event) (fresh : l.isFresh [e] = true) (h : (l.take e).CanStop) :
    l.CanStop := by
  obtain ⟨rest, later, stopped⟩ := h
  exact ⟨e :: rest, by rw [isFresh_cons, fresh, later]; rfl, stopped⟩

theorem isFresh_replicate (l : AcceptLoop) (sweeps : Nat) :
    l.isFresh (List.replicate sweeps .sweep) = true := by
  induction sweeps generalizing l with
  | zero => rfl
  | succ sweeps ih => exact ih (l.take .sweep)

theorem remove_reports (l : AcceptLoop) (id : ConnectionId) :
    (l.remove id).reports = l.reports := by
  rw [remove]
  split <;> rfl

theorem canStop_of_draining (h : l.Balanced) (phase : l.phase = .draining) : l.CanStop := by
  generalize reports : l.reports = ids
  induction ids generalizing l with
  | nil =>
      obtain ⟨sweeps, stopped, _⟩ := run_draining h phase reports
      exact ⟨_, isFresh_replicate l sweeps, stopped⟩
  | cons id ids ih =>
      have step : l.take .receive = ({ l with reports := ids } : AcceptLoop).remove id := by
        simp only [take, phase, or_true, if_true, receive, reports]
      refine canStop_of_take .receive rfl (ih (balanced_takes h (take_takes l .receive rfl)) ?_ ?_)
      · rw [step, remove_phase, phase]
      · rw [step, remove_reports]

/-- Whatever has happened, a loop can be stopped. -/
theorem canStop (h : l.Balanced) : l.CanStop := by
  have closing {l : AcceptLoop} (h : l.Balanced) (phase : l.phase = .closing) : l.CanStop := by
    have balanced := balanced_takes h (take_takes _ .drain rfl)
    refine canStop_of_take .drain rfl (canStop_of_draining balanced ?_)
    simp only [take, phase, if_true]
  cases phase : l.phase with
  | accepting =>
      refine canStop_of_take .stop rfl (closing (balanced_takes h (take_takes l .stop rfl)) ?_)
      simp only [take, phase, if_true]
  | closing => exact closing h phase
  | draining => exact canStop_of_draining h phase
  | sweeping leftover =>
      exact ⟨_, isFresh_replicate l _, (run_sweeping h leftover phase).1⟩
  | stopped => exact ⟨[], rfl, phase⟩

end

/-- However connections come, are written to, closed and reported, and whether or not the loop is
stopped: as long as no number is given that is still registered, a connection has been announced to
have left once if it is no longer registered, and not at all if it is. As many are live as are
registered, as many were accepted as are live or were announced, and when the loop has stopped, as
it always can, all have been. -/
theorem each_leaves_once (serves : Bool) (events : List Event)
    (fresh : (start serves).isFresh events = true) :
    let l := (start serves).run events
    (∀ n m, l.members[n]? = some m → m.farewells = if l.isRegistered n m then 0 else 1) ∧
    (∀ id, l.listener.isRegistered id = true ↔ ∃ n m, l.members[n]? = some m ∧ m.id = id ∧
      l.isRegistered n m = true) ∧
    (∀ id, l.listener.left.count id = departures id l.members) ∧
    l.listener.live = l.listener.registered.size ∧
    l.listener.accepted = l.members.length ∧
    (l.listener.accepted : Int) = l.listener.live + l.listener.left.length ∧
    (∀ m ∈ l.members, m.outbox.notices ≤ 1) ∧
    (l.phase = .stopped → l.listener.registered.isEmpty = true ∧ ∀ m ∈ l.members, m.farewells = 1) ∧
    l.CanStop := by
  intro l
  have inv : l.Invariant := invariant_run (invariant_start serves) events fresh
  have balanced := inv.balanced
  have empty (stopped : l.phase = .stopped) : ∀ id, l.listener.isRegistered id = false := by
    simpa only [Swept, stopped] using inv.swept
  refine ⟨balanced.farewells, fun id => ⟨fun registered => ?_, ?_⟩, balanced.announced,
    balanced.counted.live, balanced.accepted, balanced.counted.balance,
    fun m mem => (inv.sound m mem).1, fun stopped => ⟨?_, ?_⟩, canStop balanced⟩
  · rw [balanced.registered, Std.TreeMap.contains_eq_isSome_getElem?, Option.isSome_iff_exists]
      at registered
    obtain ⟨n, held⟩ := registered
    obtain ⟨m, found, rfl⟩ := balanced.owner id n held
    exact ⟨n, m, found, rfl, by simp [isRegistered, held]⟩
  · rintro ⟨n, m, _, rfl, held⟩
    exact listener_isRegistered balanced held
  · exact Std.TreeSet.isEmpty_iff_forall_contains.mpr (empty stopped)
  · intro m mem
    obtain ⟨n, found⟩ := List.mem_iff_getElem?.mp mem
    rw [balanced.farewells n m found, if_neg]
    intro held
    have registered := listener_isRegistered balanced held
    rw [empty stopped] at registered
    cases registered

/-- Of four connections the first is closed twice and its end reported twice, a file cannot be sent
to the second, the end of the third is reported as the loop stops, and the work on the fourth is
aborted. -/
def visits : List Event :=
  [.accept, .accept, .close 0, .close 0, .work 0 fun _ => ⟨[], none⟩, .report 1, .receive, .receive,
    .accept, .accept, .write 1 (.file "a"), .work 1 fun _ => ⟨[], some .connectionClosed⟩, .close 1,
    .receive, .stop, .work 2 fun _ => ⟨[], none⟩, .abort 3, .work 3 fun _ => ⟨[], none⟩, .drain,
    .receive, .sweep, .close 3, .sweep, .sweep]

theorem each_leaves_once_of_visits :
    (start true).isFresh visits = true ∧ ((start true).run visits).phase = .stopped ∧
      ((start true).run visits).listener.left = [4, 3, 2, 1] ∧
      ∀ m ∈ ((start true).run visits).members, m.farewells = 1 := by
  have fresh : (start true).isFresh visits = true := by decide +kernel
  have stopped : ((start true).run visits).phase = .stopped := by decide +kernel
  obtain ⟨_, _, _, _, _, _, _, ends, _⟩ := each_leaves_once true visits fresh
  exact ⟨fresh, stopped, by decide +kernel, (ends stopped).2⟩

end AcceptLoop

end DoorAccess
