import DoorAccess.Proofs.Connection.Delivery
import Mathlib.Data.Prod.Lex

/-!
How a connection ends. Once it is closed, calls change nothing, the writer has finitely many steps
to make, and with the last of them the end is posted.
-/
namespace DoorAccess.Channel

variable {accepted new : List Outgoing} {read got : Bytes} {c c' : Channel} {e : Event}

/-! ### What a closed connection refuses -/

theorem isKept_isClosed : IsKept IsClosed := by
  intro e c new got c' closed takes
  cases takes with
  | handles b h h' t held => exact .inr (closed.resolve_left held)
  | write b h t item held alive => exact closed
  | close | stopped | reported => exact .inr rfl
  | _ => exact closed

theorem isAlive_close (b : Outbox) : b.close.isAlive = false := by
  rw [Outbox.close]
  split
  · rfl
  · next dead => exact Bool.eq_false_iff.mpr dead

theorem isClosed_take (closing : e.isClosing = true) : (c.take e).IsClosed := by
  cases e with
  | step step => cases closing
  | call call =>
      by_cases none : c.handles = 0
      · have same : c.take (.call call) = c := if_pos none
        rw [same]
        exact .inl none
      · cases call with
        | close | dropGuard =>
            rw [take, serve, if_neg none]
            exact .inr (isAlive_close c.outbox)
        | clone | drop | write _ => cases closing

theorem isClosed_of_any {events : List Event} (closing : events.any Event.isClosing = true) :
    (c.run events).IsClosed := by
  induction events generalizing c with
  | nil => cases closing
  | cons e events ih =>
      rw [List.any_cons, Bool.or_eq_true] at closing
      rcases closing with here | later
      · exact isKept_isClosed.run (isClosed_take here) events
      · exact ih later

theorem isClosed_of_hasStopped (accounted : IsAccounted accepted read c)
    (stopped : c.task.hasStopped = true) : c.IsClosed := by
  obtain ⟨b, h, t⟩ := c
  obtain ⟨_, _, _, left, account⟩ := accounted
  cases t with
  | stopped lost | ended lost => exact .inr account.standing.2
  | _ => cases stopped

theorem write_of_isClosed (closed : c.IsClosed) (held : c.handles ≠ 0) (item : Outgoing) :
    c.write item = .error .connectionClosed := by
  simp [write, Outbox.write, closed.resolve_left held, Except.map]

theorem serve_write_of_isClosed (closed : c.IsClosed) (item : Outgoing) :
    c.serve (.write item) = c := by
  rw [serve]
  split
  · rfl
  · next held => rw [write_of_isClosed closed held]

theorem serve_close_of_isClosed (closed : c.IsClosed) : c.serve .close = c := by
  rw [serve]
  split
  · rfl
  · next held => simp [close, Outbox.close, closed.resolve_left held]

theorem serve_dropGuard_of_isClosed (closed : c.IsClosed) :
    c.serve .dropGuard = c.serve .drop := by
  rw [serve, serve]
  split
  · rfl
  · next held => simp [close, Outbox.close, closed.resolve_left held]

theorem write_of_mem_answer? {a : Outgoing × Except AccessError Unit} (asked : a ∈ c.answer? e) :
    c.handles ≠ 0 ∧ a.2 = (c.write a.1).map fun _ => () := by
  cases e with
  | step step => cases asked
  | call call =>
      cases call with
      | write item =>
          rw [answer?] at asked
          split at asked
          · cases asked
          · next held =>
              cases asked
              exact ⟨held, rfl⟩
      | _ => cases asked

theorem answers_of_isClosed (closed : c.IsClosed) (events : List Event) :
    ∀ a ∈ c.answers events, a.2 = .error .connectionClosed := by
  induction events generalizing c with
  | nil => simp [answers]
  | cons e events ih =>
      intro a mem
      rcases List.mem_append.mp mem with here | later
      · obtain ⟨held, answer⟩ := write_of_mem_answer? (Option.mem_toList.mp here)
        rw [answer, write_of_isClosed closed held]
        rfl
      · exact ih (isKept_isClosed closed (c.take_takes e)) a later

/-! ### Until then -/

theorem isAlive_takes (takes : Takes e c new got c') (unclosed : e.isClosing = false)
    (going : c'.task.hasStopped = false) : c'.outbox.isAlive = c.outbox.isAlive := by
  cases takes with
  | close b h h' t held alive closing => cases unclosed.symm.trans closing
  | stopped | reported => cases going
  | _ => rfl

theorem isKept_hasStopped : IsKept fun c => c.task.hasStopped = true := by
  intro e c new got c' stopped takes
  cases takes with
  | failed b h t item failure here =>
      cases (Task.hasStopped_of_isBusy (Task.isBusy_of_item? here)).symm.trans stopped
  | handles | write | close | idle => exact stopped
  | stopped | reported => rfl
  | _ => cases stopped

/-- As long as nobody has closed and the writer has not stopped, every item is taken. -/
theorem answers_of_open (alive : c.outbox.isAlive = true) {events : List Event}
    (unclosed : events.any Event.isClosing = false)
    (going : (c.run events).task.hasStopped = false) :
    ∀ a ∈ c.answers events, a.2 = .ok () := by
  induction events generalizing c with
  | nil => simp [answers]
  | cons e events ih =>
      rw [List.any_cons, Bool.or_eq_false_iff] at unclosed
      have first : (c.take e).task.hasStopped = false := by
        rw [Bool.eq_false_iff]
        intro stopped
        exact absurd (isKept_hasStopped.run stopped events) (Bool.eq_false_iff.mp going)
      have still := (isAlive_takes (c.take_takes e) unclosed.1 first).trans alive
      intro a mem
      rcases List.mem_append.mp mem with here | later
      · rw [(write_of_mem_answer? (Option.mem_toList.mp here)).2]
        simp [write, Outbox.write, alive, Except.map]
      · exact ih still unclosed.2 going a later

/-! ### After the queue was left -/

theorem isKept_sent (sent : Bytes) :
    IsKept fun c => c.task.isBusy = false ∧ c.outbox.sent = sent := by
  rintro e c new got c' ⟨gone, same⟩ takes
  cases takes with
  | failed b h t item failure here => cases (Task.isBusy_of_item? here).symm.trans gone
  | handles | write | close | idle => exact ⟨gone, same⟩
  | stopped | reported => exact ⟨rfl, same⟩
  | _ => cases gone

/-- The end is posted when the writer has come to it. -/
def IsPosted (c : Channel) : Prop := c.outbox.notices = if c.task.hasEnded then 1 else 0

theorem isKept_isPosted : IsKept IsPosted := by
  intro e c new got c' posted takes
  cases takes with
  | failed b h t item failure here =>
      have going := Task.hasEnded_of_isBusy (Task.isBusy_of_item? here)
      have unposted : b.notices = if t.hasEnded then 1 else 0 := posted
      rwa [going] at unposted
  | reported b h lost =>
      have unposted : b.notices = 0 := posted
      simp [IsPosted, Outbox.finish, Task.hasEnded, unposted]
  | _ => exact posted

/-! ### The steps that are left -/

/-- How much is left to do: the entries of the queue and how far the writer is, and then the bytes
that are owed and those at hand. Opening a file decides how many are owed. -/
def rank (c : Channel) : Nat ×ₗ Nat :=
  let entries := 3 * c.outbox.queue.length
  match c.task with
  | .waiting => toLex (entries + 3, 0)
  | .opening _ => toLex (entries + 5, 0)
  | .writing _ pending => toLex (entries + 4, pending.length)
  | .sending _ pending owed => toLex (entries + 4, 2 * owed + pending.length)
  | .leaving _ => toLex (entries + 2, 0)
  | .stopped _ => toLex (entries + 1, 0)
  | .ended _ => toLex (entries, 0)

/-- On a closed connection an event brings the end nearer, or changes at most who has a handle. -/
theorem rank_takes (closed : c.IsClosed) (takes : Takes e c new got c') :
    c'.rank < c.rank ∨ c'.outbox = c.outbox ∧ c'.task = c.task := by
  cases takes with
  | idle | handles => exact .inr ⟨rfl, rfl⟩
  | write b h t item held alive => exact absurd closed (not_isClosed held alive)
  | close b h h' t held alive => exact absurd closed (not_isClosed held alive)
  | putText b h payload bytes pending | putFile b h path bytes pending owed =>
      cases bytes with
      | nil => exact .inr ⟨by simp, rfl⟩
      | cons x xs =>
          refine .inl (Prod.Lex.right _ ?_)
          simp only [List.cons_append, List.length_cons, List.length_append]
          omega
  | read b h path got owed some =>
      have positive := List.length_pos_iff.mpr some
      refine .inl (Prod.Lex.right _ ?_)
      simp only [List.length_nil]
      omega
  | closed b h queue head | text b h payload queue head | file b h path queue head =>
      refine .inl (Prod.Lex.left _ _ ?_)
      simp only [head, List.length_cons]
      omega
  | abandoned b empty => exact .inl (Prod.Lex.left _ _ (by simp))
  | opened | settledText | settledFile | stopped => exact .inl (Prod.Lex.left _ _ (by simp))
  | failed b h t item failure here =>
      cases t with
      | opening _ | writing _ _ | sending _ _ _ => exact .inl (Prod.Lex.left _ _ (by simp))
      | waiting | leaving _ | stopped _ | ended _ => cases here
  | reported b h lost =>
      refine .inl (Prod.Lex.left _ _ ?_)
      simp only [Outbox.finish, List.length_nil]
      omega

theorem advance_handles (c : Channel) (step : Step) : (c.advance step).handles = c.handles := by
  have takes := c.advance_takes step
  generalize c.advance step = c', c.reading (.step step) = got at takes
  cases takes with
  | handles b h h' t held call called => cases called
  | close b h h' t held alive closing => cases closing
  | _ => rfl

/-- The writer has a step to make that changes something. -/
def CanAdvance (c : Channel) : Prop := ∃ step, c.advance step ≠ c

/-- Until the end was posted, the writer of a closed connection is not stuck. -/
theorem canAdvance (accounted : IsAccounted accepted read c) (closed : c.IsClosed)
    (going : c.task.hasEnded = false) : c.CanAdvance := by
  obtain ⟨b, h, t⟩ := c
  obtain ⟨_, _, _, left, account⟩ := accounted
  cases t with
  | waiting =>
      refine ⟨.next, fun same => ?_⟩
      cases head : b.queue with
      | nil =>
          have alive := (left_of_empty account.standing head).2
          have none : h = 0 := closed.resolve_right (by simp [alive])
          simp [advance, next, head, none, withTask] at same
      | cons entry queue =>
          have shorter := congrArg (·.outbox.queue.length) same
          simp [advance, next, head] at shorter
  | opening path => exact ⟨.opened 0, fun same => by cases congrArg task same⟩
  | writing payload pending =>
      cases pending with
      | nil => exact ⟨.settle, fun same => by cases congrArg task same⟩
      | cons x xs => exact ⟨.put 1, fun same => by simpa [advance, put] using congrArg task same⟩
  | sending path pending owed =>
      cases pending with
      | nil =>
          cases owed with
          | zero => exact ⟨.settle, fun same => by cases congrArg task same⟩
          | succ owed =>
              refine ⟨.read [], fun same => ?_⟩
              have lost := congrArg (·.task.lost?.isSome) same
              simp [advance, Channel.read, chunk, withTask, Task.lost?] at lost
      | cons x xs => exact ⟨.put 1, fun same => by simpa [advance, put] using congrArg task same⟩
  | leaving lost => exact ⟨.stop, fun same => by cases congrArg task same⟩
  | stopped lost => exact ⟨.report, fun same => by cases congrArg task same⟩
  | ended lost => cases going

/-- Until the end was posted, the writer makes another step that changes something sooner or later,
whatever happens in between. -/
def KeepsWorking (c : Channel) (events : Nat → Event) : Prop :=
  ∀ n, (c.course events n).task.hasEnded = false →
    ∃ m, n ≤ m ∧ ∃ step, events m = .step step ∧
      (c.course events m).advance step ≠ c.course events m

theorem rank_course_le (closed : c.IsClosed) (events : Nat → Event) {n m : Nat} (le : n ≤ m) :
    (c.course events m).rank ≤ (c.course events n).rank := by
  induction m, le using Nat.le_induction with
  | base => exact le_rfl
  | succ m _ ih =>
      refine le_trans ?_ ih
      rcases rank_takes (isKept_isClosed.course closed events m) (take_takes _ (events m)) with
        less | ⟨outbox, task⟩
      · exact le_of_lt less
      · rw [course, rank, rank, outbox, task]

theorem rank_advance (closed : c.IsClosed) {step : Step} (moves : c.advance step ≠ c) :
    (c.advance step).rank < c.rank := by
  rcases rank_takes closed (c.advance_takes step) with less | ⟨outbox, task⟩
  · exact less
  · have handles := c.advance_handles step
    generalize c.advance step = c' at *
    obtain ⟨b, h, t⟩ := c
    obtain ⟨b', h', t'⟩ := c'
    cases outbox
    cases task
    cases handles
    exact absurd rfl moves

/-- A closed connection comes to its end as long as its writer works. -/
theorem course_ends (closed : c.IsClosed) {events : Nat → Event}
    (works : c.KeepsWorking events) : ∃ n, (c.course events n).task.hasEnded = true := by
  suffices ends : ∀ r n, (c.course events n).rank = r →
      ∃ n, (c.course events n).task.hasEnded = true from ends _ 0 rfl
  intro r
  -- Calls in between do not raise the rank, and the next step that changes something lowers it.
  induction r using WellFoundedLT.induction with
  | ind r ih =>
      rintro n rfl
      cases ended : (c.course events n).task.hasEnded with
      | true => exact ⟨n, ended⟩
      | false =>
          obtain ⟨m, le, step, made, moves⟩ := works n ended
          have less := rank_advance (isKept_isClosed.course closed events m) moves
          have next : c.course events (m + 1) = (c.course events m).advance step := by
            rw [course, made, take]
          exact ih _ (next ▸ less.trans_le (rank_course_le closed events le)) (m + 1) rfl

/-! ### The outbound queue -/

/-- Whatever is called on the handles of a connection and however the steps of its writer fall in
between, what was sent are the complete encodings of items that were taken, in the order of the
calls and from the first, with the bytes that were read for them, and then a part of the one that
is being sent or that failed. If the writer has ended and none has failed, it is all of them. After
a failure nothing more is sent. Until somebody closes or the writer stops every item is taken, from
then on every one is refused and no further close has an effect. The end is posted once, and it is
posted when the writer of a closed connection keeps working, which it always can. -/
theorem delivers_in_order (events : List Event) :
    let c := start.run events
    (∃ (done : List Delivery) (part body : Bytes),
      c.outbox.sent = done.flatMap Delivery.bytes ++ part ∧
      start.readings events = done.flatMap Delivery.body ++ body ∧
      done.map Delivery.item ++ c.task.current?.toList <+: start.accepted events ∧
      Outgoing.Begun c.task.current? part body ∧
      (c.task = .ended none → done.map Delivery.item = start.accepted events ∧ part = [])) ∧
    (c.task.lost? ≠ none → ∀ later, (c.run later).outbox.sent = c.outbox.sent) ∧
    (events.any Event.isClosing = false → c.task.hasStopped = false →
      ∀ a ∈ start.answers events, a.2 = .ok ()) ∧
    (events.any Event.isClosing = true ∨ c.task.hasStopped = true →
      (∀ later, (∀ a ∈ c.answers later, a.2 = .error .connectionClosed) ∧
        (∀ item, (c.run later).serve (.write item) = c.run later) ∧
        (c.run later).serve .close = c.run later ∧
        (c.run later).serve .dropGuard = (c.run later).serve .drop) ∧
      (c.task.hasEnded = false → c.CanAdvance) ∧
      ∀ course, c.KeepsWorking course → ∃ n, (c.course course n).outbox.notices = 1) ∧
    c.outbox.notices = if c.task.hasEnded then 1 else 0 := by
  intro c
  have accounted : IsAccounted (start.accepted events) (start.readings events) c :=
    isAccounted_start events
  have posted : c.IsPosted := isKept_isPosted.run (c := start) rfl events
  have closed (closing : events.any Event.isClosing = true ∨ c.task.hasStopped = true) :
      c.IsClosed :=
    closing.elim isClosed_of_any (isClosed_of_hasStopped accounted)
  refine ⟨?_, fun lost later => ?_, answers_of_open rfl, fun closing =>
    ⟨fun later => ?_, canAdvance accounted (closed closing), fun course works => ?_⟩, posted⟩
  · obtain ⟨done, part, body, left, account⟩ := accounted
    refine ⟨done, part, body, account.sent, account.read, ?_,
      Task.begun_of_underway account.underway, fun ended => ?_⟩
    · exact account.accepted ▸ ⟨left, List.append_assoc ..⟩
    · clear_value c
      obtain ⟨b, h, t⟩ := c
      cases ended
      exact account.complete
  · exact ((isKept_sent c.outbox.sent).run ⟨Task.isBusy_of_lost? lost, rfl⟩ later).2
  · have still := isKept_isClosed.run (closed closing) later
    exact ⟨answers_of_isClosed (closed closing) later, serve_write_of_isClosed still,
      serve_close_of_isClosed still, serve_dropGuard_of_isClosed still⟩
  · obtain ⟨n, ended⟩ := course_ends (closed closing) works
    have once := isKept_isPosted.course posted course n
    rw [IsPosted, ended] at once
    exact ⟨n, once⟩

/-- A text is written on one handle and the connection closed on another while it is being sent. The
file that was written in between ends too early. -/
def race : List Event :=
  [.call .clone, .call (.write (.text "a")), .step .next, .call (.write (.file "f")),
    .step (.put 3), .call .close, .call (.write (.text "b")), .step (.put 100), .step .settle,
    .step .next, .step (.opened 3), .step (.put 100), .step (.read [1, 2]), .step (.put 2),
    .step (.read []), .step .stop, .step .report]

theorem delivers_in_order_of_race :
    (start.run race).outbox.sent = (Delivery.text "a").bytes ++ (header "f" 3 ++ [1, 2]) ∧
      (∀ later, ((start.run race).run later).outbox.sent = (start.run race).outbox.sent) ∧
      start.answers race =
        [(.text "a", .ok ()), (.file "f", .ok ()), (.text "b", .error .connectionClosed)] ∧
      ∀ later, ∀ a ∈ (start.run race).answers later, a.2 = .error .connectionClosed := by
  obtain ⟨_, nothing, _, refused, _⟩ := delivers_in_order race
  have lost : (start.run race).task = .ended (some (.file "f", Transfer.truncated "f")) := by
    decide +kernel
  have closing : race.any Event.isClosing = true := by decide
  exact ⟨by decide +kernel, nothing (by simp [lost, Task.lost?]), by decide +kernel,
    fun later => ((refused (.inl closing)).1 later).1⟩

end DoorAccess.Channel
