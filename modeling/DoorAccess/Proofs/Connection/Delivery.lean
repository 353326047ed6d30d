import DoorAccess.Connection.Channel

/-!
What a connection puts out, however calls on its handles and the steps of its writer come in turn:
the items that were taken, whole and in their order, up to the first that fails. Once somebody has
closed, or the writer has stopped, nothing more is taken, and the end is posted once.
-/
namespace DoorAccess

/-- An item that was put out as a whole, a file with the bytes that were read of it. -/
inductive Delivery
  | text (payload : String)
  | file (path : String) (body : Bytes)

namespace Delivery

def item : Delivery → Outgoing
  | text payload => .text payload
  | file path _ => .file path

def body : Delivery → Bytes
  | text _ => []
  | file _ body => body

/-- The complete encoding. A file is announced with as many bytes as then follow. -/
def bytes : Delivery → Bytes
  | text payload => (Wire.Reply.text payload).encode
  | file path body => Channel.header path body.length ++ body

end Delivery

/-- Of the item, if there is one, this part was put out, and these bytes were read for it. -/
def Outgoing.Begun (item : Option Outgoing) (part body : Bytes) : Prop :=
  match item with
  | none => part = [] ∧ body = []
  | some item => ∃ whole : Delivery, whole.item = item ∧ part <+: whole.bytes ∧ body <+: whole.body

namespace Channel

namespace Task

/-- The item that is being put out, or the one that failed. -/
def current? (t : Task) : Option Outgoing := t.item?.or (t.lost?.map Prod.fst)

/-- Whether the queue is still worked on. -/
def isBusy : Task → Bool
  | waiting | opening _ | writing _ _ | sending _ _ _ => true
  | leaving _ | stopped _ | ended _ => false

def hasStopped : Task → Bool
  | stopped _ | ended _ => true
  | _ => false

def hasEnded : Task → Bool
  | ended _ => true
  | _ => false

theorem isBusy_of_item? {t : Task} {item : Outgoing} (here : t.item? = some item) :
    t.isBusy = true := by
  cases t with
  | opening _ | writing _ _ | sending _ _ _ => rfl
  | waiting | leaving _ | stopped _ | ended _ => cases here

theorem isBusy_of_lost? {t : Task} (lost : t.lost? ≠ none) : t.isBusy = false := by
  cases t with
  | leaving _ | stopped _ | ended _ => rfl
  | waiting | opening _ | writing _ _ | sending _ _ _ => exact absurd rfl lost

theorem hasStopped_of_isBusy {t : Task} (busy : t.isBusy = true) : t.hasStopped = false := by
  cases t with
  | stopped _ | ended _ => cases busy
  | _ => rfl

theorem hasEnded_of_isBusy {t : Task} (busy : t.isBusy = true) : t.hasEnded = false := by
  cases t with
  | ended _ => cases busy
  | _ => rfl

/-- How the part that was put out, the bytes at hand and those still owed make up the item. -/
def Underway (t : Task) (part body : Bytes) : Prop :=
  match t with
  | waiting | opening _ => part = [] ∧ body = []
  | writing payload pending =>
    part ++ pending = (Wire.Reply.text payload).encode ∧ body = []
  | sending path pending owed =>
    part ++ pending = Channel.header path (body.length + owed) ++ body
  | leaving lost | stopped lost | ended lost => Outgoing.Begun (lost.map Prod.fst) part body

theorem begun_of_underway {t : Task} {part body : Bytes} (underway : t.Underway part body) :
    Outgoing.Begun t.current? part body := by
  cases t with
  | waiting => exact underway
  | opening path =>
      obtain ⟨rfl, rfl⟩ := underway
      exact ⟨.file path [], rfl, List.nil_prefix, List.nil_prefix⟩
  | writing payload pending =>
      obtain ⟨whole, rfl⟩ := underway
      exact ⟨.text payload, rfl, ⟨pending, whole⟩, List.nil_prefix⟩
  | sending path pending owed =>
      -- The bytes that are owed may become anything.
      refine ⟨.file path (body ++ List.replicate owed 0), rfl, ?_, List.prefix_append ..⟩
      refine ⟨pending ++ List.replicate owed 0, ?_⟩
      rw [← List.append_assoc, show part ++ pending = _ from underway, Delivery.bytes,
        List.length_append, List.length_replicate, List.append_assoc]
  | leaving lost | stopped lost | ended lost => exact underway

end Task

/-! ### Runs -/

/-- The connection after so many events of a course that need not end. -/
def course (c : Channel) (events : Nat → Event) : Nat → Channel
  | 0 => c
  | n + 1 => (c.course events n).take (events n)

/-- What was read of a file in this step. -/
def reading (c : Channel) : Event → Bytes
  | .step (.read got) =>
    match c.task with
    | .sending _ [] owed => chunk owed got
    | _ => []
  | _ => []

/-- All that was read of files, in this order. -/
def readings (c : Channel) : List Event → Bytes
  | [] => []
  | e :: events => c.reading e ++ (c.take e).readings events

/-- The items whose writing was answered with success. -/
def accepted (c : Channel) (events : List Event) : List Outgoing :=
  (c.answers events).filterMap fun (item, answer) => if answer.isOk then some item else none

theorem accepted_cons (c : Channel) (e : Event) (events : List Event) :
    c.accepted (e :: events) = c.accepted [e] ++ (c.take e).accepted events := by
  simp only [accepted, answers, List.filterMap_append, List.append_nil]

/-! ### Steps -/

/-- No call can change the outbox any more. -/
def IsClosed (c : Channel) : Prop := c.handles = 0 ∨ c.outbox.isAlive = false

theorem not_isClosed {b : Outbox} {h : Nat} {t : Task} (held : h ≠ 0) (alive : b.isAlive = true) :
    ¬(⟨b, h, t⟩ : Channel).IsClosed := by
  rintro (none | dead)
  · exact held none
  · cases alive.symm.trans dead

def Event.isClosing : Event → Bool
  | .call .close | .call .dropGuard => true
  | _ => false

/-- All that an event can do, with the items that it adds and the bytes that are read in it. -/
inductive Takes (e : Event) : Channel → List Outgoing → Bytes → Channel → Prop
  | idle (c : Channel) : Takes e c [] [] c
  | handles (b : Outbox) (h h' : Nat) (t : Task) (held : h ≠ 0) (call : Call)
      (called : e = .call call) :
      Takes e ⟨b, h, t⟩ [] [] ⟨b, h', t⟩
  | write (b : Outbox) (h : Nat) (t : Task) (item : Outgoing) (held : h ≠ 0)
      (alive : b.isAlive = true) :
      Takes e ⟨b, h, t⟩ [item] [] ⟨{ b with queue := b.queue ++ [.item item] }, h, t⟩
  | close (b : Outbox) (h h' : Nat) (t : Task) (held : h ≠ 0) (alive : b.isAlive = true)
      (closing : e.isClosing = true) :
      Takes e ⟨b, h, t⟩ [] [] ⟨{ b with isAlive := false, queue := b.queue ++ [.close] }, h', t⟩
  | abandoned (b : Outbox) (empty : b.queue = []) :
      Takes e ⟨b, 0, .waiting⟩ [] [] ⟨b, 0, .leaving none⟩
  | closed (b : Outbox) (h : Nat) (queue : List Entry) (head : b.queue = .close :: queue) :
      Takes e ⟨b, h, .waiting⟩ [] [] ⟨{ b with queue }, h, .leaving none⟩
  | text (b : Outbox) (h : Nat) (payload : String) (queue : List Entry)
      (head : b.queue = .item (.text payload) :: queue) :
      Takes e ⟨b, h, .waiting⟩ [] []
        ⟨{ b with queue }, h, .writing payload (Wire.Reply.text payload).encode⟩
  | file (b : Outbox) (h : Nat) (path : String) (queue : List Entry)
      (head : b.queue = .item (.file path) :: queue) :
      Takes e ⟨b, h, .waiting⟩ [] [] ⟨{ b with queue }, h, .opening path⟩
  | opened (b : Outbox) (h : Nat) (path : String) (size : Nat) :
      Takes e ⟨b, h, .opening path⟩ [] [] ⟨b, h, .sending path (header path size) size⟩
  | putText (b : Outbox) (h : Nat) (payload : String) (bytes pending : Bytes) :
      Takes e ⟨b, h, .writing payload (bytes ++ pending)⟩ [] []
        ⟨{ b with sent := b.sent ++ bytes }, h, .writing payload pending⟩
  | putFile (b : Outbox) (h : Nat) (path : String) (bytes pending : Bytes) (owed : Nat) :
      Takes e ⟨b, h, .sending path (bytes ++ pending) owed⟩ [] []
        ⟨{ b with sent := b.sent ++ bytes }, h, .sending path pending owed⟩
  | read (b : Outbox) (h : Nat) (path : String) (got : Bytes) (owed : Nat) (some : got ≠ []) :
      Takes e ⟨b, h, .sending path [] (got.length + owed)⟩ [] got ⟨b, h, .sending path got owed⟩
  | settledText (b : Outbox) (h : Nat) (payload : String) :
      Takes e ⟨b, h, .writing payload []⟩ [] [] ⟨b, h, .waiting⟩
  | settledFile (b : Outbox) (h : Nat) (path : String) :
      Takes e ⟨b, h, .sending path [] 0⟩ [] [] ⟨b, h, .waiting⟩
  | failed (b : Outbox) (h : Nat) (t : Task) (item : Outgoing) (failure : AccessError)
      (here : t.item? = some item) :
      Takes e ⟨b, h, t⟩ [] [] ⟨b, h, .leaving (some (item, failure))⟩
  | stopped (b : Outbox) (h : Nat) (lost : Option Loss) :
      Takes e ⟨b, h, .leaving lost⟩ [] [] ⟨{ b with isAlive := false }, h, .stopped lost⟩
  | reported (b : Outbox) (h : Nat) (lost : Option Loss) :
      Takes e ⟨b, h, .stopped lost⟩ [] [] ⟨b.finish, h, .ended lost⟩

theorem close_takes (b : Outbox) (h h' : Nat) (t : Task) (held : h ≠ 0) (call : Call)
    (closing : (Event.call call).isClosing = true) :
    Takes (.call call) ⟨b, h, t⟩ [] [] ⟨b.close, h', t⟩ := by
  rw [Outbox.close]
  split
  · next alive => exact .close b h h' t held alive closing
  · exact .handles b h h' t held call rfl

theorem write_takes (b : Outbox) (h : Nat) (t : Task) (item : Outgoing) (held : h ≠ 0) :
    Takes (.call (.write item)) ⟨b, h, t⟩ ((⟨b, h, t⟩ : Channel).accepted [.call (.write item)]) []
      ((⟨b, h, t⟩ : Channel).serve (.write item)) := by
  simp only [accepted, answers, answer?, serve, held, if_false, write, Outbox.write]
  by_cases alive : b.isAlive = true
  · simp only [alive, if_true]
    have step := Takes.write (e := .call (.write item)) b h t item held alive
    rwa [alive] at step
  · simp only [alive]
    exact .idle _

theorem serve_takes (c : Channel) (call : Call) :
    Takes (.call call) c (c.accepted [.call call]) [] (c.serve call) := by
  obtain ⟨b, h, t⟩ := c
  by_cases held : h = 0
  · subst held
    cases call <;> exact .idle _
  · cases call with
    | write item => exact write_takes b h t item held
    | clone =>
        rw [serve, if_neg held]
        exact .handles b h (h + 1) t held .clone rfl
    | drop =>
        rw [serve, if_neg held]
        exact .handles b h (h - 1) t held .drop rfl
    | dropGuard =>
        rw [serve, if_neg held]
        exact close_takes b h (h - 1) t held .dropGuard rfl
    | close =>
        rw [serve, if_neg held]
        exact close_takes b h h t held .close rfl

theorem next_takes (b : Outbox) (h : Nat) :
    Takes (.step .next) ⟨b, h, .waiting⟩ [] [] (⟨b, h, .waiting⟩ : Channel).next := by
  rw [next]
  cases head : b.queue with
  | nil =>
      dsimp only
      split
      · next none =>
          cases none
          exact .abandoned b head
      · exact .idle _
  | cons entry queue =>
      cases entry with
      | close => exact .closed b h queue head
      | item item =>
          cases item with
          | text payload => exact .text b h payload queue head
          | file path => exact .file b h path queue head

theorem length_chunk_le (owed : Nat) (got : Bytes) : (chunk owed got).length ≤ owed :=
  Nat.le_trans (List.length_take_le ..) (Nat.min_le_left ..)

theorem read_takes (b : Outbox) (h : Nat) (path : String) (owed : Nat) (got : Bytes) :
    Takes (.step (.read got)) ⟨b, h, .sending path [] owed⟩ [] (chunk owed got)
      ((⟨b, h, .sending path [] owed⟩ : Channel).read path owed got) := by
  have within := length_chunk_le owed got
  rw [read]
  cases piece : chunk owed got with
  | nil => exact .failed b h _ (.file path) _ rfl
  | cons x xs =>
      rw [piece, List.length_cons] at within
      obtain ⟨left, rfl⟩ := Nat.exists_eq_add_of_le within
      dsimp only [withTask]
      rw [Nat.add_sub_cancel_left]
      exact .read b h path (x :: xs) left (List.cons_ne_nil x xs)

theorem advance_takes (c : Channel) (step : Step) :
    Takes (.step step) c [] (c.reading (.step step)) (c.advance step) := by
  obtain ⟨b, h, t⟩ := c
  cases step with
  | next =>
      rw [advance]
      split
      · next here =>
          cases here
          exact next_takes b h
      · exact .idle _
  | opened size =>
      cases t with
      | opening path => exact .opened b h path size
      | _ => exact .idle _
  | put n =>
      cases t with
      | writing payload pending =>
          have step := Takes.putText (e := .step (.put n)) b h payload (pending.take n)
            (pending.drop n)
          rwa [List.take_append_drop] at step
      | sending path pending owed =>
          have step := Takes.putFile (e := .step (.put n)) b h path (pending.take n)
            (pending.drop n) owed
          rwa [List.take_append_drop] at step
      | _ => exact .idle _
  | read got =>
      cases t with
      | sending path pending owed =>
          cases pending with
          | cons _ _ => exact .idle _
          | nil =>
              simp only [advance, reading]
              split
              · next none =>
                  cases none
                  simpa [chunk] using
                    Takes.idle (e := .step (.read got)) ⟨b, h, .sending path [] 0⟩
              · exact read_takes b h path owed got
      | _ => exact .idle _
  | settle =>
      rw [advance]
      split
      · next here =>
          cases here
          exact .settledText b h _
      · next here =>
          cases here
          exact .settledFile b h _
      · exact .idle _
  | fail failure =>
      rw [advance]
      split
      · next item here => exact .failed b h t item failure here
      · exact .idle _
  | stop =>
      cases t with
      | leaving lost => exact .stopped b h lost
      | _ => exact .idle _
  | report =>
      cases t with
      | stopped lost => exact .reported b h lost
      | _ => exact .idle _

theorem take_takes (c : Channel) (e : Event) :
    Takes e c (c.accepted [e]) (c.reading e) (c.take e) := by
  cases e with
  | call call => exact c.serve_takes call
  | step step => exact c.advance_takes step

/-- What every event keeps. -/
def IsKept (P : Channel → Prop) : Prop :=
  ∀ ⦃e : Event⦄ ⦃c : Channel⦄ ⦃new : List Outgoing⦄ ⦃got : Bytes⦄ ⦃c' : Channel⦄,
    P c → Takes e c new got c' → P c'

theorem IsKept.run {P : Channel → Prop} (kept : IsKept P) {c : Channel} (h : P c)
    (events : List Event) : P (c.run events) := by
  induction events generalizing c with
  | nil => exact h
  | cons e events ih => exact ih (kept h (c.take_takes e))

theorem IsKept.course {P : Channel → Prop} (kept : IsKept P) {c : Channel} (h : P c)
    (events : Nat → Event) (n : Nat) : P (c.course events n) := by
  induction n with
  | zero => exact h
  | succ n ih => exact kept ih (take_takes _ (events n))

/-! ### The account -/

variable {accepted new left : List Outgoing} {read got part body : Bytes} {done : List Delivery}
  {c c' : Channel} {e : Event}

/-- Where the items are that were taken and not yet begun. Nothing stands behind the close. -/
def Standing (c : Channel) (left : List Outgoing) : Prop :=
  match c.task with
  | .waiting | .opening _ | .writing _ _ | .sending _ _ _ =>
    c.outbox.queue = left.map .item ++ if c.outbox.isAlive then [] else [.close]
  | .leaving none => left = [] ∧ c.IsClosed
  | .leaving (some _) => True
  | .stopped lost | .ended lost => (lost = none → left = []) ∧ c.outbox.isAlive = false

/-- What has become of the items that were taken and of the bytes that were read. -/
structure Account (accepted : List Outgoing) (read : Bytes) (c : Channel) (done : List Delivery)
    (part body : Bytes) (left : List Outgoing) : Prop where
  sent : c.outbox.sent = done.flatMap Delivery.bytes ++ part
  read : read = done.flatMap Delivery.body ++ body
  accepted : accepted = done.map Delivery.item ++ (c.task.current?.toList ++ left)
  underway : c.task.Underway part body
  standing : c.Standing left

/-- Everything is accounted for. -/
def IsAccounted (accepted : List Outgoing) (read : Bytes) (c : Channel) : Prop :=
  ∃ done part body left, Account accepted read c done part body left

section
variable {b : Outbox} {h : Nat} {t : Task}

theorem standing_handles (standing : (⟨b, h, t⟩ : Channel).Standing left) (held : h ≠ 0)
    (h' : Nat) : (⟨b, h', t⟩ : Channel).Standing left := by
  cases t with
  | leaving lost =>
      cases lost with
      | none => exact ⟨standing.1, .inr (standing.2.resolve_left held)⟩
      | some lost => trivial
  | _ => exact standing

theorem standing_write (standing : (⟨b, h, t⟩ : Channel).Standing left) (held : h ≠ 0)
    (alive : b.isAlive = true) (item : Outgoing) :
    (⟨{ b with queue := b.queue ++ [.item item] }, h, t⟩ : Channel).Standing (left ++ [item]) := by
  cases t with
  | waiting | opening _ | writing _ _ | sending _ _ _ =>
      have queue : b.queue = left.map .item ++ if b.isAlive then [] else [.close] := standing
      simp [Standing, queue, alive]
  | leaving lost =>
      cases lost with
      | none => exact absurd standing.2 (not_isClosed held alive)
      | some lost => trivial
  | stopped lost | ended lost => exact absurd (alive.symm.trans standing.2) (by decide)

theorem standing_close (standing : (⟨b, h, t⟩ : Channel).Standing left)
    (alive : b.isAlive = true) (h' : Nat) :
    (⟨{ b with isAlive := false, queue := b.queue ++ [.close] }, h', t⟩ : Channel).Standing
      left := by
  cases t with
  | waiting | opening _ | writing _ _ | sending _ _ _ =>
      have queue : b.queue = left.map .item ++ if b.isAlive then [] else [.close] := standing
      simp [Standing, queue, alive]
  | leaving lost =>
      cases lost with
      | none => exact ⟨standing.1, .inr rfl⟩
      | some lost => trivial
  | stopped lost | ended lost => exact ⟨standing.1, rfl⟩

theorem queue_of_busy (standing : (⟨b, h, t⟩ : Channel).Standing left) (busy : t.isBusy = true) :
    b.queue = left.map .item ++ if b.isAlive then [] else [.close] := by
  cases t with
  | waiting | opening _ | writing _ _ | sending _ _ _ => exact standing
  | leaving _ | stopped _ | ended _ => cases busy

theorem left_of_empty (standing : (⟨b, h, .waiting⟩ : Channel).Standing left)
    (empty : b.queue = []) : left = [] ∧ b.isAlive = true := by
  have whole := empty.symm.trans (queue_of_busy standing rfl)
  cases left with
  | nil =>
      cases alive : b.isAlive with
      | true => exact ⟨rfl, rfl⟩
      | false => simp [alive] at whole
  | cons item left => cases whole

theorem left_of_close {queue : List Entry}
    (standing : (⟨b, h, .waiting⟩ : Channel).Standing left) (head : b.queue = .close :: queue) :
    left = [] ∧ b.isAlive = false := by
  have whole := head.symm.trans (queue_of_busy standing rfl)
  cases left with
  | nil =>
      cases alive : b.isAlive with
      | true => simp [alive] at whole
      | false => exact ⟨rfl, rfl⟩
  | cons item left => cases whole

theorem left_of_item {queue : List Entry} {item : Outgoing}
    (standing : (⟨b, h, .waiting⟩ : Channel).Standing left)
    (head : b.queue = .item item :: queue) :
    ∃ rest, left = item :: rest ∧
      queue = rest.map .item ++ if b.isAlive then [] else [.close] := by
  have whole := head.symm.trans (queue_of_busy standing rfl)
  cases left with
  | nil => cases alive : b.isAlive <;> simp [alive] at whole
  | cons first rest =>
      injection whole with same queue
      cases same
      exact ⟨rest, rfl, queue⟩

end

namespace Account
variable {b b' : Outbox} {h h' : Nat} {t t' : Task} {pending : Bytes}

/-- Nothing is put out, and the same item is at hand. -/
theorem move (account : Account accepted read ⟨b, h, t⟩ done part body left)
    (sent : b'.sent = b.sent) (same : t'.current? = t.current?)
    (underway : t'.Underway part body) (standing : (⟨b', h', t'⟩ : Channel).Standing left) :
    Account accepted read ⟨b', h', t'⟩ done part body left where
  sent := sent.trans account.sent
  read := account.read
  accepted := by
    rw [same]
    exact account.accepted
  underway := underway
  standing := standing

/-- The first of the items that are left is begun. -/
theorem begin {item : Outgoing}
    (account : Account accepted read ⟨b, h, .waiting⟩ done part body (item :: left))
    (sent : b'.sent = b.sent) (current : t.current? = some item)
    (underway : t.Underway [] []) (standing : (⟨b', h, t⟩ : Channel).Standing left) :
    Account accepted read ⟨b', h, t⟩ done [] [] left := by
  obtain ⟨sent', read', accepted', ⟨rfl, rfl⟩, _⟩ := account
  refine ⟨sent.trans sent', read', ?_, underway, standing⟩
  rw [current]
  exact accepted'

/-- Some bytes are put out. -/
theorem put (account : Account accepted read ⟨b, h, t⟩ done part body left) (bytes : Bytes)
    (same : t'.current? = t.current?) (underway : t'.Underway (part ++ bytes) body)
    (standing : (⟨{ b with sent := b.sent ++ bytes }, h, t'⟩ : Channel).Standing left) :
    Account accepted read ⟨{ b with sent := b.sent ++ bytes }, h, t'⟩ done (part ++ bytes) body
      left := by
  obtain ⟨sent, read', accepted', _, _⟩ := account
  refine ⟨?_, read', ?_, underway, standing⟩
  · rw [← List.append_assoc, ← show b.sent = _ from sent]
  · rw [same]
    exact accepted'

/-- The item at hand has been put out. -/
theorem deliver (whole : Delivery)
    (account : Account accepted read ⟨b, h, t⟩ done whole.bytes whole.body left)
    (current : t.current? = some whole.item)
    (standing : (⟨b, h, .waiting⟩ : Channel).Standing left) :
    Account accepted read ⟨b, h, .waiting⟩ (done ++ [whole]) [] [] left := by
  obtain ⟨sent, rfl, rfl, _, _⟩ := account
  refine ⟨?_, ?_, ?_, ⟨rfl, rfl⟩, standing⟩
  · simpa using sent
  · simp
  · rw [current, List.map_append, List.append_assoc]
    rfl

/-- The writer has ended and no item has failed: all that were taken have been put out. -/
theorem complete (account : Account accepted read ⟨b, h, .ended none⟩ done part body left) :
    done.map Delivery.item = accepted ∧ part = [] := by
  obtain ⟨_, _, rfl, ⟨rfl, _⟩, standing⟩ := account
  rw [standing.1 rfl]
  exact ⟨(List.append_nil _).symm, rfl⟩

/-- The event adds no item, and nothing is read in it. -/
theorem quiet (account : Account accepted read c done part body left) :
    IsAccounted (accepted ++ []) (read ++ []) c := by
  rw [List.append_nil, List.append_nil]
  exact ⟨done, part, body, left, account⟩

end Account

theorem isAccounted_takes (accounted : IsAccounted accepted read c) (takes : Takes e c new got c') :
    IsAccounted (accepted ++ new) (read ++ got) c' := by
  obtain ⟨done, part, body, left, account⟩ := accounted
  have underway := account.underway
  have standing := account.standing
  -- Only a write adds an item, and only a read adds bytes; the account moves on in all other cases.
  cases takes with
  | write b h t item held alive =>
      obtain ⟨sent, rfl, rfl, _, _⟩ := account
      exact ⟨done, part, body, left ++ [item], sent, by simp, by simp, underway,
        standing_write standing held alive item⟩
  | read b h path got owed some =>
      obtain ⟨sent, rfl, rfl, _, _⟩ := account
      have size : (body ++ got).length + owed = body.length + (got.length + owed) := by
        rw [List.length_append, Nat.add_assoc]
      refine ⟨done, part, body ++ got, left, sent, by simp, by simp [Task.current?, Task.item?], ?_,
        standing⟩
      rw [Task.Underway, size, ← List.append_assoc, ← show part ++ [] = _ from underway,
        List.append_nil]
  | idle => exact account.quiet
  | handles b h h' t held call called =>
      exact Account.quiet <| account.move rfl rfl underway (standing_handles standing held h')
  | close b h h' t held alive closing =>
      exact Account.quiet <| account.move rfl rfl underway (standing_close standing alive h')
  | abandoned b empty =>
      exact Account.quiet <| account.move rfl rfl underway
        ⟨(left_of_empty standing empty).1, .inl rfl⟩
  | closed b h queue head =>
      obtain ⟨none, dead⟩ := left_of_close standing head
      exact Account.quiet <| account.move rfl rfl underway ⟨none, .inr dead⟩
  | text b h payload queue head =>
      obtain ⟨rest, rfl, queue'⟩ := left_of_item standing head
      exact Account.quiet <| account.begin rfl rfl ⟨rfl, rfl⟩ queue'
  | file b h path queue head =>
      obtain ⟨rest, rfl, queue'⟩ := left_of_item standing head
      exact Account.quiet <| account.begin rfl rfl ⟨rfl, rfl⟩ queue'
  | opened b h path size =>
      obtain ⟨rfl, rfl⟩ := underway
      exact Account.quiet <| account.move rfl rfl (by simp [Task.Underway]) standing
  | putText b h payload bytes pending =>
      obtain ⟨whole, rfl⟩ := underway
      exact Account.quiet <| account.put bytes rfl ⟨List.append_assoc .. ▸ whole, rfl⟩ standing
  | putFile b h path bytes pending owed =>
      have whole : part ++ bytes ++ pending = header path (body.length + owed) ++ body :=
        (List.append_assoc ..).trans underway
      exact Account.quiet <| account.put bytes rfl whole standing
  | settledText b h payload =>
      obtain ⟨whole, rfl⟩ := underway
      rw [List.append_nil] at whole
      subst whole
      exact Account.quiet <| account.deliver (.text payload) rfl standing
  | settledFile b h path =>
      have whole : part = header path body.length ++ body :=
        (List.append_nil part).symm.trans underway
      subst whole
      exact Account.quiet <| account.deliver (.file path body) rfl standing
  | failed b h t item failure here =>
      have same : t.current? = some item := by rw [Task.current?, here, Option.some_or]
      have begun := Task.begun_of_underway underway
      rw [same] at begun
      exact Account.quiet <| account.move rfl same.symm begun trivial
  | stopped b h lost =>
      refine Account.quiet <| account.move rfl rfl underway ⟨?_, rfl⟩
      rintro rfl
      exact standing.1
  | reported b h lost => exact Account.quiet <| account.move rfl rfl underway ⟨standing.1, rfl⟩

theorem isAccounted_run (accounted : IsAccounted accepted read c) (events : List Event) :
    IsAccounted (accepted ++ c.accepted events) (read ++ c.readings events) (c.run events) := by
  induction events generalizing accepted read c with
  | nil => simpa [Channel.accepted, answers, readings, run] using accounted
  | cons e events ih =>
      have first := isAccounted_takes accounted (c.take_takes e)
      have rest := ih first
      rwa [List.append_assoc, List.append_assoc, ← accepted_cons] at rest

theorem isAccounted_start (events : List Event) :
    IsAccounted (start.accepted events) (start.readings events) (start.run events) := by
  have none : IsAccounted [] [] start := ⟨[], [], [], [], rfl, rfl, rfl, ⟨rfl, rfl⟩, rfl⟩
  exact isAccounted_run none events

end Channel

end DoorAccess
