import DoorAccess.Console.Binding
import DoorAccess.Proofs.Connection.Departures
import Mathlib.Data.List.Basic

/-!
The numbers of connections. They are given in turn and start over after the largest one, whether or
not a connection still has the number that comes next, and a number stands for the last connection
it was given to. So a connection keeps its number to itself until as many others have been accepted
as there are numbers, and no longer.
-/
namespace DoorAccess.AcceptLoop

/-- The number of the connection that was accepted as the one at this place. -/
def number (n : Nat) : ConnectionId := UInt32.ofNat (n + 1)

theorem number_succ (n : Nat) : number (n + 1) = number n + 1 := UInt32.ofNat_add (n + 1) 1

theorem number_eq_iff {n k : Nat} (before : n ≤ k) :
    number n = number k ↔ UInt32.size ∣ k - n := by
  rw [number, number, ← UInt32.toNat_inj, UInt32.toNat_ofNat', UInt32.toNat_ofNat', UInt32.size]
  omega

/-- Which numbers the connections have, and which connections the numbers stand for. -/
structure Numbered (l : AcceptLoop) : Prop where
  ids : l.members.map Member.id = (List.range l.members.length).map number
  last : l.listener.lastId + 1 = number l.members.length
  registered : ∀ id, l.listener.isRegistered id = l.handles.contains id
  owner : ∀ id n, l.handles[id]? = some n → n < l.members.length ∧ number n = id
  latest : ∀ id n, l.handles[id]? = some n →
    ∀ k < l.members.length, number k = id → k ≤ n

theorem numbered_start (serves : Bool) : (start serves).Numbered where
  ids := rfl
  last := rfl
  registered _ := rfl
  owner _ _ held := by cases held
  latest _ _ held := by cases held

/-- A step accepts a connection, whoever has its number, or it is listed among the others. -/
theorem take_cases (l : AcceptLoop) (e : Event) : l.take e = l.accept ∨ Takes l (l.take e) := by
  by_cases fresh : l.isFresh [e] = true
  · exact .inr (take_takes l e fresh)
  · cases e with
    | accept =>
        rw [take]
        split
        · exact .inl rfl
        · exact .inr .idle
    | _ => exact absurd rfl fresh

theorem ids_modify {f : Member → Member} (same : ∀ m, (f m).id = m.id) (members : List Member)
    (n : Nat) : (members.modify n f).map Member.id = members.map Member.id := by
  refine List.ext_getElem? fun k => ?_
  rw [List.getElem?_map, List.getElem?_modify, List.getElem?_map]
  cases members[k]? with
  | none => rfl
  | some m =>
      by_cases here : n = k
      · simp [here, same]
      · simp [here]

theorem ids_closeAll (l : AcceptLoop) :
    l.closeAll.members.map Member.id = l.members.map Member.id := by
  refine List.ext_getElem? fun k => ?_
  simp only [closeAll, List.getElem?_map, List.getElem?_mapIdx, Option.map_map]
  refine congrArg (Option.map · l.members[k]?) (funext fun m => ?_)
  dsimp only [Function.comp_apply]
  split <;> rfl

namespace Numbered
variable {l l' : AcceptLoop}

/-- Nothing else than the numbers matters. -/
theorem of_ids (h : l.Numbered) (listener : l'.listener = l.listener)
    (handles : l'.handles = l.handles)
    (ids : l'.members.map Member.id = l.members.map Member.id) : l'.Numbered := by
  have length : l'.members.length = l.members.length := by
    simpa using congrArg List.length ids
  refine ⟨?_, ?_, ?_, ?_, ?_⟩
  · rw [ids, length, h.ids]
  · rw [listener, length, h.last]
  · rw [listener, handles]
    exact h.registered
  · rw [handles, length]
    exact h.owner
  · rw [handles, length]
    exact h.latest

theorem id_eq (h : l.Numbered) {n : Nat} {m : Member} (here : l.members[n]? = some m) :
    m.id = number n := by
  have place := congrArg (·[n]?) h.ids
  obtain ⟨bound, rfl⟩ := List.getElem?_eq_some_iff.mp here
  simpa [bound] using place

theorem accept (h : l.Numbered) : l.accept.Numbered := by
  have length : l.accept.members.length = l.members.length + 1 := by
    simp [AcceptLoop.accept]
  refine ⟨?_, ?_, fun id => ?_, fun id n held => ?_, fun id n held k bound same => ?_⟩
  · rw [length, List.range_succ, List.map_append, ← h.ids]
    simp only [AcceptLoop.accept, Listener.accept, List.map_append, List.map_cons, List.map_nil,
      ← h.last]
    split <;> rfl
  · rw [length, number_succ, ← h.last]
    rfl
  · have same := h.registered id
    simp only [Listener.isRegistered] at same
    simp only [AcceptLoop.accept, Listener.accept, Listener.isRegistered,
      Std.TreeSet.contains_insert, Std.TreeMap.contains_insert, same]
  · rw [handles_accept] at held
    rw [length]
    split at held
    · next here =>
        cases held
        exact ⟨Nat.lt_succ_self _, by rw [← here, h.last]⟩
    · obtain ⟨bound, same⟩ := h.owner id n held
      exact ⟨Nat.lt_succ_of_lt bound, same⟩
  · rw [handles_accept] at held
    rw [length] at bound
    split at held
    · cases held
      exact Nat.le_of_lt_succ bound
    · next other =>
        have earlier : k ≠ l.members.length := by
          rintro rfl
          exact other (h.last.trans same)
        exact h.latest id n held k (by omega) same

theorem remove (h : l.Numbered) (id : ConnectionId) : (l.remove id).Numbered := by
  cases held : l.handles[id]? with
  | none =>
      rw [AcceptLoop.remove, held]
      exact h
  | some n =>
      have registered : l.listener.isRegistered id = true := by
        rw [h.registered, Std.TreeMap.contains_eq_isSome_getElem?, held]
        rfl
      have ids := ids_modify (f := Member.leave) (fun _ => rfl) l.members n
      have fewer {other : ConnectionId} {k : Nat}
          (still : (l.handles.erase id)[other]? = some k) : l.handles[other]? = some k := by
        rw [Std.TreeMap.getElem?_erase] at still
        split at still
        · cases still
        · exact still
      rw [remove_of_held held, Listener.remove_of_registered registered]
      refine ⟨?_, ?_, fun other => ?_, fun other k still => ?_, fun other k still => ?_⟩
      · simpa only [ids, List.length_modify] using h.ids
      · simpa only [List.length_modify] using h.last
      · have same := h.registered other
        simp only [Listener.isRegistered] at same
        simp only [Listener.isRegistered, Std.TreeSet.contains_erase, Std.TreeMap.contains_erase,
          same]
      · simpa only [List.length_modify] using h.owner other k (fewer still)
      · simpa only [List.length_modify] using h.latest other k (fewer still)

theorem take (h : l.Numbered) (e : Event) : (l.take e).Numbered := by
  rcases take_cases l e with accepts | takes
  · rw [accepts]
    exact h.accept
  · generalize l.take e = l' at takes
    cases takes with
    | idle => exact h
    | accepted => exact h.accept
    | modified n f inner =>
        exact h.of_ids rfl rfl (ids_modify (fun m => congrArg Prod.fst (inner.stub m)) l.members n)
    | received id reports =>
        have rest : ({ l with reports } : AcceptLoop).Numbered := h.of_ids rfl rfl rfl
        exact rest.remove id
    | closed => exact h.of_ids rfl rfl l.ids_closeAll
    | swept id => exact (h.remove id).of_ids rfl rfl rfl
    | reported | drained | left | stopped => exact h.of_ids rfl rfl rfl

theorem run (h : l.Numbered) (events : List Event) : (l.run events).Numbered := by
  induction events generalizing l with
  | nil => exact h
  | cons e events ih => exact ih (h.take e)

end Numbered

section
variable {l : AcceptLoop} {n : Nat} {m : Member}

/-- The next number is that of an earlier connection when a whole round of them has been given. -/
theorem id_eq_next_iff (h : l.Numbered) (here : l.members[n]? = some m) :
    m.id = l.listener.lastId + 1 ↔ UInt32.size ∣ l.members.length - n := by
  rw [h.id_eq here, h.last,
    number_eq_iff (Nat.le_of_lt (List.getElem?_eq_some_iff.mp here).1)]

theorem reissues_iff (h : l.Numbered) :
    l.reissues = true ↔ ∃ n m, l.members[n]? = some m ∧ l.isRegistered n m = true ∧
      UInt32.size ∣ l.members.length - n := by
  rw [reissues, h.registered, Std.TreeMap.contains_eq_isSome_getElem?, Option.isSome_iff_exists]
  constructor
  · rintro ⟨n, held⟩
    obtain ⟨bound, same⟩ := h.owner _ n held
    have here := List.getElem?_eq_getElem bound
    have next := (h.id_eq here).trans same
    exact ⟨n, _, here, by simp [isRegistered, next, held], (id_eq_next_iff h here).mp next⟩
  · rintro ⟨n, m, here, held, round⟩
    rw [isRegistered, decide_eq_true_eq, (id_eq_next_iff h here).mpr round] at held
    exact ⟨n, held⟩

/-- Who comes takes the handle of the one that had the number, and of nobody else. -/
theorem isRegistered_accept_iff (here : l.members[n]? = some m) :
    l.accept.isRegistered n m = true ↔
      l.isRegistered n m = true ∧ m.id ≠ l.listener.lastId + 1 := by
  have earlier := (List.getElem?_eq_some_iff.mp here).1
  simp only [isRegistered, decide_eq_true_eq, handles_accept]
  split
  · next same => simp [same, (Nat.ne_of_lt earlier).symm]
  · next other => simp [Ne.symm other]

theorem isRegistered_accepted (l : AcceptLoop) :
    ∃ m, l.accept.members[l.members.length]? = some m ∧ m.id = l.listener.lastId + 1 ∧
      l.accept.isRegistered l.members.length m = true := by
  have same : (if l.serves then ({ id := l.listener.lastId + 1 } : Member)
      else Member.close { id := l.listener.lastId + 1 }).id = l.listener.lastId + 1 := by
    split <;> rfl
  refine ⟨_, List.getElem?_concat_length, same, ?_⟩
  rw [isRegistered, decide_eq_true_eq, handles_accept]
  exact if_pos same.symm

/-- The end that a connection reports is its own, unless its number stands for one that was accepted
whole rounds of numbers later. -/
theorem remove_of_report (h : l.Numbered) (here : l.members[n]? = some m) :
    if l.isRegistered n m then
      (l.remove m.id).members = l.members.modify n Member.leave
    else l.remove m.id = l ∨ ∃ k, n < k ∧ UInt32.size ∣ k - n ∧
      (l.remove m.id).members = l.members.modify k Member.leave := by
  split
  · next held =>
      rw [isRegistered, decide_eq_true_eq] at held
      rw [remove_of_held held]
  · next lost =>
      cases held : l.handles[m.id]? with
      | none =>
          rw [remove, held]
          exact .inl rfl
      | some k =>
          have bound := (List.getElem?_eq_some_iff.mp here).1
          have other : n ≠ k := by
            rintro rfl
            exact lost (by simp [isRegistered, held])
          have later := h.latest _ k held n bound (h.id_eq here).symm
          obtain ⟨_, same⟩ := h.owner _ k held
          refine .inr ⟨k, by omega, (number_eq_iff later).mp ?_, by rw [remove_of_held held]⟩
          rw [same, h.id_eq here]

theorem length_remove (l : AcceptLoop) (id : ConnectionId) :
    (l.remove id).members.length = l.members.length := by
  rw [remove]
  split
  · rfl
  · exact List.length_modify Member.leave l.members _

theorem length_le_take (l : AcceptLoop) (e : Event) :
    l.members.length ≤ (l.take e).members.length := by
  rcases take_cases l e with accepts | takes
  · rw [accepts]
    simp [accept]
  · generalize l.take e = l' at takes
    cases takes with
    | idle | reported | drained | left | stopped => exact Nat.le_refl _
    | accepted => simp [accept]
    | modified => simp [modify]
    | received id reports => exact Nat.le_of_eq (length_remove { l with reports } id).symm
    | closed => simp [closeAll]
    | swept id => exact Nat.le_of_eq (length_remove l id).symm

theorem length_le_run (l : AcceptLoop) (events : List Event) :
    l.members.length ≤ (l.run events).members.length := by
  induction events generalizing l with
  | nil => exact Nat.le_refl _
  | cons e events ih => exact Nat.le_trans (l.length_le_take e) (ih (l.take e))

theorem not_reissues_of_few (h : l.Numbered) (few : l.members.length < UInt32.size) :
    l.reissues = false := by
  rw [← Bool.not_eq_true, reissues_iff h]
  rintro ⟨n, m, here, -, round⟩
  have earlier := (List.getElem?_eq_some_iff.mp here).1
  have full := Nat.le_of_dvd (by omega) round
  omega

/-- As long as no more connections are accepted than there are numbers, every number is free. -/
theorem isFresh_of_few (h : l.Numbered) (events : List Event)
    (few : (l.run events).members.length ≤ UInt32.size) : l.isFresh events = true := by
  induction events generalizing l with
  | nil => rfl
  | cons e events ih =>
      rw [isFresh_cons, ih (h.take e) few, Bool.and_true]
      have short := Nat.le_trans (length_le_run (l.take e) events) few
      cases e with
      | accept =>
          by_cases accepting : l.phase = .accepting
          · rw [take, if_pos accepting] at short
            simp only [accept, List.length_append, List.length_singleton] at short
            simp [isFresh, not_reissues_of_few h short]
          · simp [isFresh, accepting]
      | _ => rfl

end

/-- Whatever happens to an accept loop, and however many connections it accepts: the number it gives
next is that of an earlier connection exactly if whole rounds of all numbers have been given since.
So it is registered exactly if a connection has stayed for that long, and never in a run that
accepts no more connections than there are numbers. Who gets it takes the handle of that connection
and of no other, and passes for it where the admin's place is concerned. The end that a registered
connection reports takes out this connection alone; what is reported of one that is no longer
registered takes out nobody, or one that was given the number later. -/
theorem number_is_free_iff_no_round (serves : Bool) (events : List Event) :
    let l := (start serves).run events
    let next := l.listener.lastId + 1
    (l.reissues = true ↔ ∃ n m, l.members[n]? = some m ∧ l.isRegistered n m = true ∧
      UInt32.size ∣ l.members.length - n) ∧
    (l.members.length ≤ UInt32.size → (start serves).isFresh events = true) ∧
    (∃ m, l.accept.members[l.members.length]? = some m ∧ m.id = next ∧
      l.accept.isRegistered l.members.length m = true) ∧
    ∀ n m, l.members[n]? = some m →
      (m.id = next ↔ UInt32.size ∣ l.members.length - n) ∧
      (l.accept.isRegistered n m = true ↔
        l.isRegistered n m = true ∧ ¬ UInt32.size ∣ l.members.length - n) ∧
      (∀ b : Console.Binding, b.holder = some m.id →
        ((b.isHeldByOther next = false ∧ (b.release next).holder = none) ↔
          UInt32.size ∣ l.members.length - n)) ∧
      if l.isRegistered n m then
        (l.remove m.id).members = l.members.modify n Member.leave
      else l.remove m.id = l ∨ ∃ k, n < k ∧ UInt32.size ∣ k - n ∧
        (l.remove m.id).members = l.members.modify k Member.leave := by
  intro l next
  have numbered : l.Numbered := (numbered_start serves).run events
  refine ⟨reissues_iff numbered, isFresh_of_few (numbered_start serves) events,
    isRegistered_accepted l, fun n m here => ?_⟩
  have round : m.id = next ↔ UInt32.size ∣ l.members.length - n := id_eq_next_iff numbered here
  refine ⟨round, ?_, fun b held => ?_, remove_of_report numbered here⟩
  · rw [isRegistered_accept_iff here, ne_eq, round]
  · rw [← round]
    by_cases same : m.id = next <;>
      simp [Console.Binding.isHeldByOther, Console.Binding.release, held, same]

/-! ### A number given twice -/

/-- Nothing goes wrong in sending. -/
def quiet : Outgoing → Sent := fun _ => ⟨[], none⟩

/-- The connection at this place comes, is closed, and leaves. -/
def visit (n : Nat) : List Event := [.accept, .close n, .work n quiet, .receive]

theorem modify_concat (members : List Member) (m : Member) (f : Member → Member) :
    (members ++ [m]).modify members.length f = members ++ [f m] := by
  induction members with
  | nil => rfl
  | cons first members ih => exact congrArg (first :: ·) ih

/-- The first connection has stayed, and all others have left. -/
structure FirstStays (l : AcceptLoop) : Prop where
  numbered : l.Numbered
  serves : l.serves = true
  phase : l.phase = .accepting
  reports : l.reports = []
  first : ∃ others, l.members = { id := 1 } :: others
  held : l.handles[(1 : ConnectionId)]? = some 0

theorem run_visit {l : AcceptLoop} (serves : l.serves = true) (phase : l.phase = .accepting)
    (reports : l.reports = []) :
    ∃ gone, l.run (visit l.members.length) = { l with
      listener := l.listener.accept.2.remove (l.listener.lastId + 1)
      members := l.members ++ [gone]
      handles := (l.handles.insert (l.listener.lastId + 1) l.members.length).erase
        (l.listener.lastId + 1) } := by
  simp [visit, run, take, phase, accept, serves, modify, modify_concat, work, receive, reports,
    Member.work, Member.close, Outbox.close, Outbox.advance, Outbox.finish, Listener.accept, remove]

theorem FirstStays.visit {l : AcceptLoop} (h : l.FirstStays)
    (few : l.members.length < UInt32.size) :
    (l.run (visit l.members.length)).FirstStays ∧
      (l.run (visit l.members.length)).members.length = l.members.length + 1 := by
  have numbered := h.numbered.run (AcceptLoop.visit l.members.length)
  obtain ⟨others, members⟩ := h.first
  have nonempty : l.members.length ≠ 0 := by simp [members]
  have other : l.listener.lastId + 1 ≠ 1 := by
    intro same
    have round := (number_eq_iff (Nat.zero_le _)).mp (same.symm.trans h.numbered.last)
    exact absurd (Nat.le_of_dvd (by omega) round) (by omega)
  obtain ⟨gone, ran⟩ := run_visit h.serves h.phase h.reports
  rw [ran] at numbered ⊢
  refine ⟨⟨numbered, h.serves, h.phase, h.reports, ⟨others ++ [gone], ?_⟩, ?_⟩, by simp⟩
  · simp [members]
  · simp [Std.TreeMap.getElem?_erase, Std.TreeMap.getElem?_insert, other, h.held]

/-- One connection comes and stays, and then so many others come and leave one after the other. -/
def passing (others : Nat) : List Event :=
  .accept :: (List.range others).flatMap fun n => visit (n + 1)

theorem firstStays_passing (others : Nat) (few : others < UInt32.size) :
    ((start true).run (passing others)).FirstStays ∧
      ((start true).run (passing others)).members.length = others + 1 := by
  induction others with
  | zero => exact ⟨⟨(numbered_start true).run _, rfl, rfl, rfl, ⟨[], rfl⟩, rfl⟩, rfl⟩
  | succ others ih =>
      obtain ⟨stays, length⟩ := ih (by omega)
      have ran : (start true).run (passing (others + 1)) =
          ((start true).run (passing others)).run (visit (others + 1)) := by
        simp [passing, run, List.range_succ]
      rw [ran, ← length]
      exact stays.visit (by omega)

/-- The first connection ends after its number was given again. -/
theorem FirstStays.run_end {l : AcceptLoop} (h : l.FirstStays)
    (again : l.listener.lastId + 1 = 1) :
    let l' := l.run [.accept, .close 0, .work 0 quiet, .receive]
    (∃ m, l'.members[0]? = some m ∧ m.outbox.notices = 1 ∧ m.farewells = 0) ∧
      ∃ m, l'.members[l.members.length]? = some m ∧ m.outbox.notices = 0 ∧
        m.outbox.isAlive = false ∧ m.farewells = 1 := by
  obtain ⟨others, members⟩ := h.first
  simp [run, take, h.phase, accept, h.serves, modify, members, work, receive, h.reports,
    Member.work, Member.close, Outbox.close, Outbox.advance, Outbox.finish, Listener.accept, remove,
    again, Member.leave]

/-- One connection has stayed while all numbers were given, and so the next one gets its number. -/
theorem FirstStays.end_for_another {l : AcceptLoop} (h : l.FirstStays)
    (full : l.members.length = UInt32.size) :
    let l' := l.run [.accept, .close 0, .work 0 quiet, .receive]
    l.reissues = true ∧
      (∃ m, l.members[0]? = some m ∧ m.outbox.isAlive = true ∧ l.isRegistered 0 m = true) ∧
      (∃ m, l'.members[0]? = some m ∧ m.outbox.notices = 1 ∧ m.farewells = 0) ∧
      ∃ m, l'.members[UInt32.size]? = some m ∧ m.outbox.notices = 0 ∧ m.outbox.isAlive = false ∧
        m.farewells = 1 := by
  obtain ⟨others, members⟩ := h.first
  have here : l.members[0]? = some { id := 1 } := by rw [members, List.getElem?_cons_zero]
  have held : l.isRegistered 0 { id := 1 } = true := by
    rw [isRegistered, h.held, decide_eq_true rfl]
  have round : UInt32.size ∣ l.members.length - 0 := by simp [full]
  have again : l.listener.lastId + 1 = 1 := ((id_eq_next_iff h.numbered here).mpr round).symm
  obtain ⟨first, second⟩ := h.run_end again
  rw [full] at second
  exact ⟨(reissues_iff h.numbered).mpr ⟨0, _, here, held, round⟩, ⟨_, here, rfl, held⟩, first,
    second⟩

/-- When the first of 2³² + 1 connections ends, all between having left, the last one is closed and
announced to have left, and the first one is not. -/
theorem end_is_taken_for_that_of_another :
    let l := (start true).run (passing (UInt32.size - 1))
    let l' := l.run [.accept, .close 0, .work 0 quiet, .receive]
    l.reissues = true ∧
      (∃ m, l.members[0]? = some m ∧ m.outbox.isAlive = true ∧ l.isRegistered 0 m = true) ∧
      (∃ m, l'.members[0]? = some m ∧ m.outbox.notices = 1 ∧ m.farewells = 0) ∧
      ∃ m, l'.members[UInt32.size]? = some m ∧ m.outbox.notices = 0 ∧ m.outbox.isAlive = false ∧
        m.farewells = 1 := by
  obtain ⟨stays, length⟩ := firstStays_passing (UInt32.size - 1) (Nat.sub_one_lt (by decide))
  exact stays.end_for_another (length.trans (Nat.sub_one_add_one (by decide)))

end DoorAccess.AcceptLoop
