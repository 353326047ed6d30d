import DoorAccess.Proofs.Reader.Request
import DoorAccess.Proofs.Wire.Framing
import DoorAccess.Reader.Connection

/-!
The connection of one reader, one frame at a time, with all that was ever sent and handled on it.
Its frames are the complete lines of its own bytes up to the first that is malformed or too long,
and each of them has its answer.
-/
namespace DoorAccess.Reader

/-- A frame that was handled, the engine as it was then, and what came of it. -/
structure Handled where
  frame : String
  engine : Engine
  reply : String
  events : List Audit.Event

structure Line where
  connection : Connection
  /-- All bytes that the reader has sent. -/
  received : Bytes := []
  /-- The reader sends no more. -/
  ended : Bool := false
  handled : List Handled := []
  output : Bytes := []
  events : List Audit.Event := []

namespace Line

def new (maxLength : Nat) : Line := { connection := .new maxLength }

def frames (l : Line) : List String := l.handled.map (·.frame)

/-- Bytes arrive. Behind the end there are none. -/
def arrive (l : Line) (chunk : Bytes) : Line :=
  if l.ended then l
  else { l with
    received := l.received ++ chunk
    connection.inbox.buffer := l.connection.inbox.buffer ++ chunk }

def hangUp (l : Line) : Line := { l with ended := true }

def keep (l : Line) (inbox : Wire.Inbox) : Line := { l with connection.inbox := inbox }

def close (l : Line) : Line := { l with connection.isOpen := false }

/-- Handles a frame with what all connections share as it is now. -/
def handle (l : Line) (frame : String) (now : Audit.Moment) (c : Controller) : Line :=
  let step := receive frame now c
  { l with
    connection.isOpen := step.flow = .stay
    handled := l.handled ++ [⟨frame, c.engine, step.reply, step.events⟩]
    output := l.output ++ (Wire.Reply.text step.reply).encode
    events := l.events ++ step.events }

/-- Looks for a frame once, and handles it if there is one. -/
def turn (l : Line) (now : Audit.Moment) (c : Controller) : Line × Controller :=
  if l.connection.isOpen then
    let a := l.connection.inbox.decoder.attempt l.ended l.connection.inbox.buffer
    let l := l.keep ⟨a.decoder, a.buffer⟩
    match a.outcome with
    | .error _ => (l.close, c)
    | .ok none => (if l.ended then l.close else l, c)
    | .ok (some frame) => (l.handle frame now c, (receive frame now c).controller)
  else (l, c)

/-- There is nothing to do before more bytes come, if they can come at all. -/
def Settled (l : Line) : Prop :=
  l.connection.isOpen = false ∨ (l.ended = false ∧ l.connection.inbox.found = .ok none)

/-! ### What has become of the bytes -/

/-- Where a line stands: it goes on, or it was closed behind a malformed frame, at a line that is
too long, or at the end of what was sent. -/
inductive Stands (maxLength : Nat) (l : Line) : Prop
  | going (isOpen : l.connection.isOpen = true) (sound : l.connection.inbox.Sound maxLength)
      (proper : ∀ h ∈ l.handled, ¬ IsMalformed h.frame)
      (same : ∀ more, Wire.Lines.read maxLength (l.received ++ more) =
        (Wire.Lines.read maxLength (l.connection.inbox.buffer ++ more)).behind l.frames)
  | dismissed (closed : l.connection.isOpen = false) (earlier : List Handled) (last : Handled)
      (handled : l.handled = earlier ++ [last]) (proper : ∀ h ∈ earlier, ¬ IsMalformed h.frame)
      (malformed : IsMalformed last.frame)
      (same : ∀ more,
        ∃ rest : Wire.Lines.Reading,
          Wire.Lines.read maxLength (l.received ++ more) = rest.behind l.frames)
  | lost (closed : l.connection.isOpen = false) (proper : ∀ h ∈ l.handled, ¬ IsMalformed h.frame)
      (e : AccessError)
      (same : ∀ more, Wire.Lines.read maxLength (l.received ++ more) = ⟨l.frames, some e⟩)
  | left (closed : l.connection.isOpen = false) (proper : ∀ h ∈ l.handled, ¬ IsMalformed h.frame)
      (ended : l.ended = true) (same : Wire.Lines.read maxLength l.received = ⟨l.frames, none⟩)

/-- What was put out and recorded are the answers to the frames that were handled. -/
structure Answered (l : Line) : Prop where
  answers : ∀ h ∈ l.handled, Answer h.engine h.frame h.reply h.events
  output : l.output = l.handled.flatMap fun h => (Wire.Reply.text h.reply).encode
  events : l.events = l.handled.flatMap (·.events)

section Steps
variable {maxLength : Nat} {l : Line} {now : Audit.Moment} {c : Controller}

theorem stands_new (maxLength : Nat) : (new maxLength).Stands maxLength :=
  .going rfl (Wire.Inbox.waiting_new maxLength).toSound nofun fun _ => rfl

theorem Stands.arrive (stands : l.Stands maxLength) (chunk : Bytes) :
    (l.arrive chunk).Stands maxLength := by
  cases ended : l.ended with
  | true => simpa only [Line.arrive, ended, if_true] using stands
  | false =>
      rw [Line.arrive, if_neg (by simp [ended])]
      cases stands with
      | going isOpen sound proper same =>
          refine .going isOpen (sound.feed chunk) proper fun more => ?_
          simp only [List.append_assoc]
          exact same (chunk ++ more)
      | dismissed closed earlier last handled proper malformed same =>
          refine .dismissed closed earlier last handled proper malformed fun more => ?_
          simp only [List.append_assoc]
          exact same (chunk ++ more)
      | lost closed proper e same =>
          refine .lost closed proper e fun more => ?_
          simp only [List.append_assoc]
          exact same (chunk ++ more)
      | left closed proper past same => exact absurd (ended.symm.trans past) nofun

theorem Stands.hangUp (stands : l.Stands maxLength) : l.hangUp.Stands maxLength := by
  cases stands with
  | going isOpen sound proper same => exact .going isOpen sound proper same
  | dismissed closed earlier last handled proper malformed same =>
      exact .dismissed closed earlier last handled proper malformed same
  | lost closed proper e same => exact .lost closed proper e same
  | left closed proper ended same => exact .left closed proper rfl same

section Turn
variable {d : Wire.Decoder} {rest : Bytes}

theorem turn_of_closed (closed : l.connection.isOpen = false) : l.turn now c = (l, c) := by
  rw [turn, if_neg (by simp [closed])]

theorem turn_error {e : AccessError} (isOpen : l.connection.isOpen = true)
    (h : l.connection.inbox.decoder.decode l.connection.inbox.buffer = ⟨.error e, d, rest⟩) :
    l.turn now c = ((l.keep ⟨d, rest⟩).close, c) := by
  rw [turn, if_pos isOpen, Wire.Decoder.attempt_of_outcome l.ended (by simp [h]), h]

theorem turn_frame {frame : String} (isOpen : l.connection.isOpen = true)
    (h : l.connection.inbox.decoder.decode l.connection.inbox.buffer =
      ⟨.ok (some frame), d, rest⟩) :
    l.turn now c = ((l.keep ⟨d, rest⟩).handle frame now c, (receive frame now c).controller) := by
  rw [turn, if_pos isOpen, Wire.Decoder.attempt_of_outcome l.ended (by simp [h]), h]

theorem turn_nothing (isOpen : l.connection.isOpen = true) (going : l.ended = false)
    (h : l.connection.inbox.decoder.decode l.connection.inbox.buffer = ⟨.ok none, d, rest⟩) :
    l.turn now c = (l.keep ⟨d, rest⟩, c) := by
  simp [turn, isOpen, going, Wire.Decoder.attempt, h, keep]

theorem turn_end (isOpen : l.connection.isOpen = true) (ended : l.ended = true)
    (h : l.connection.inbox.decoder.decode l.connection.inbox.buffer = ⟨.ok none, d, rest⟩) :
    l.turn now c = ((l.keep ⟨{ d with searched := 0 }, []⟩).close, c) := by
  simp [turn, isOpen, ended, Wire.Decoder.attempt, Wire.Decoder.decodeEnd, h, keep]

end Turn

theorem frames_handle (l : Line) (frame : String) (now : Audit.Moment) (c : Controller) :
    (l.handle frame now c).frames = l.frames ++ [frame] := by
  simp [frames, handle]

theorem read_of_nothing (clean : Wire.newline ∉ l.connection.inbox.buffer)
    (short : l.connection.inbox.buffer.length ≤ maxLength)
    (same : ∀ more, Wire.Lines.read maxLength (l.received ++ more) =
      (Wire.Lines.read maxLength (l.connection.inbox.buffer ++ more)).behind l.frames) :
    Wire.Lines.read maxLength l.received = ⟨l.frames, none⟩ := by
  have all := same []
  rw [List.append_nil, List.append_nil, Wire.Lines.read_of_clean clean,
    if_neg (Nat.not_lt.mpr short)] at all
  exact all.trans (congrArg (Wire.Lines.Reading.mk · none) (List.append_nil _))

theorem Stands.of_open (stands : l.Stands maxLength) (isOpen : l.connection.isOpen = true) :
    l.connection.inbox.Sound maxLength ∧ (∀ h ∈ l.handled, ¬ IsMalformed h.frame) ∧
      ∀ more, Wire.Lines.read maxLength (l.received ++ more) =
        (Wire.Lines.read maxLength (l.connection.inbox.buffer ++ more)).behind l.frames := by
  cases stands with
  | going _ sound proper same => exact ⟨sound, proper, same⟩
  | dismissed closed | lost closed | left closed => exact absurd (closed.symm.trans isOpen) nofun

theorem Stands.turn (stands : l.Stands maxLength) (now : Audit.Moment) (c : Controller) :
    (l.turn now c).1.Stands maxLength := by
  cases isOpen : l.connection.isOpen with
  | false =>
      rw [turn_of_closed isOpen]
      exact stands
  | true =>
      obtain ⟨sound, proper, same⟩ := stands.of_open isOpen
      have step := sound.searched.decodes
      have limit := sound.limit
      generalize decoded : l.connection.inbox.decoder.decode l.connection.inbox.buffer = a at step
      have left := sound.decoded step
      cases step with
      | tooLong front rest searched whole clean long =>
          rw [turn_error isOpen decoded]
          refine .lost rfl proper (.frameTooLong maxLength) fun more => ?_
          refine (same more).trans ?_
          rw [whole, List.append_assoc, Wire.Lines.read_tooLong clean (limit ▸ long)]
          exact congrArg (Wire.Lines.Reading.mk · _) (List.append_nil _)
      | frame line rest whole clean short =>
          have serves := receive_serves (Wire.frameOf line) now c
          have first (more : Bytes) : Wire.Lines.read maxLength (l.received ++ more) =
              (Wire.Lines.read maxLength (rest ++ more)).behind
                (l.frames ++ [Wire.frameOf line]) := by
            refine (same more).trans ?_
            rw [whole, List.append_assoc, List.cons_append, Wire.Lines.read_line clean,
              if_neg (Nat.not_lt.mpr (limit ▸ short))]
            simp [Wire.Lines.Reading.behind]
          rw [turn_frame isOpen decoded]
          by_cases malformed : IsMalformed (Wire.frameOf line)
          · refine .dismissed ?_ l.handled _ rfl proper malformed fun more => ?_
            · simp [handle, serves.flow.mpr malformed]
            · rw [frames_handle]
              exact ⟨_, first more⟩
          · have stays : (receive (Wire.frameOf line) now c).flow = .stay := by
              cases flow : (receive (Wire.frameOf line) now c).flow with
              | stay => rfl
              | close => exact absurd (serves.flow.mp flow) malformed
            refine .going (by simp [handle, stays]) left ?_ fun more => ?_
            · intro h handled
              cases List.mem_append.mp handled with
              | inl earlier => exact proper h earlier
              | inr here =>
                  rw [List.mem_singleton.mp here]
                  exact malformed
            · rw [frames_handle]
              exact first more
      | nothing clean short =>
          cases ended : l.ended with
          | false =>
              rw [turn_nothing isOpen ended decoded]
              exact .going isOpen left proper same
          | true =>
              have all := read_of_nothing clean (limit ▸ short) same
              rw [turn_end isOpen ended decoded]
              exact .left rfl proper ended all

theorem answered_new (maxLength : Nat) : (new maxLength).Answered := ⟨nofun, rfl, rfl⟩

theorem Answered.handle (answered : l.Answered) (frame : String) (now : Audit.Moment)
    (c : Controller) : (l.handle frame now c).Answered where
  answers h handled := by
    cases List.mem_append.mp handled with
    | inl earlier => exact answered.answers h earlier
    | inr here =>
        rw [List.mem_singleton.mp here]
        exact (receive_serves frame now c).answer
  output := by simp [Line.handle, answered.output]
  events := by simp [Line.handle, answered.events]

theorem Answered.turn (answered : l.Answered) (now : Audit.Moment) (c : Controller) :
    (l.turn now c).1.Answered := by
  have kept (inbox : Wire.Inbox) : (l.keep inbox).Answered :=
    ⟨answered.answers, answered.output, answered.events⟩
  rw [Line.turn]
  split
  · dsimp only
    split
    · exact ⟨answered.answers, answered.output, answered.events⟩
    · split <;> exact ⟨answered.answers, answered.output, answered.events⟩
    · exact (kept _).handle _ now c
  · exact answered

theorem Answered.arrive (answered : l.Answered) (chunk : Bytes) : (l.arrive chunk).Answered := by
  rw [Line.arrive]
  split <;> exact ⟨answered.answers, answered.output, answered.events⟩

theorem Answered.hangUp (answered : l.Answered) : l.hangUp.Answered :=
  ⟨answered.answers, answered.output, answered.events⟩

theorem handle_congr {c' : Controller} (same : c'.engine = c.engine) (l : Line) (frame : String)
    (now : Audit.Moment) : l.handle frame now c' = l.handle frame now c := by
  obtain ⟨reply, flow, events⟩ := receive_congr same frame now
  simp only [handle, reply, flow, events, same]

/-- Of what is shared, only the engine matters to a line. -/
theorem turn_congr {c' : Controller} (same : c'.engine = c.engine) (l : Line) (now : Audit.Moment) :
    (l.turn now c').1 = (l.turn now c).1 := by
  rw [turn, turn]
  split
  · dsimp only
    split
    · rfl
    · rfl
    · exact handle_congr same _ _ now
  · rfl

theorem turn_engine (l : Line) (now : Audit.Moment) (c : Controller) :
    (l.turn now c).2.engine = c.engine := by
  rw [turn]
  split
  · dsimp only
    split
    · rfl
    · rfl
    · exact receive_engine _ now c
  · rfl

/-- The frames that were handled are the first ones of the reader's lines. -/
theorem Stands.frames_first (stands : l.Stands maxLength) :
    l.frames <+: (Wire.Lines.read maxLength l.received).frames := by
  have whole {r : Wire.Lines.Reading}
      (same : Wire.Lines.read maxLength (l.received ++ []) = r.behind l.frames) :
      l.frames <+: (Wire.Lines.read maxLength l.received).frames := by
    rw [← List.append_nil l.received, same]
    exact List.prefix_append _ _
  cases stands with
  | going _ _ _ same => exact whole (same [])
  | dismissed _ _ _ _ _ _ same =>
      obtain ⟨rest, same⟩ := same []
      exact whole same
  | lost _ _ e same =>
      have all := same []
      rw [List.append_nil] at all
      exact all ▸ List.prefix_rfl
  | left _ _ _ same => exact same ▸ List.prefix_rfl

/-- Only the last frame that was handled may be malformed. -/
theorem Stands.proper (stands : l.Stands maxLength) :
    ∀ h ∈ l.handled.dropLast, ¬ IsMalformed h.frame := by
  intro h earlier
  cases stands with
  | going _ _ proper | lost _ proper | left _ proper =>
      exact proper h ((List.dropLast_sublist _).subset earlier)
  | dismissed _ before last handled proper =>
      rw [handled, List.dropLast_concat] at earlier
      exact proper h earlier

/-- A line that is settled has handled all it had to, and is open only as long as its reader may
send more. -/
structure Complete (maxLength : Nat) (l : Line) : Prop where
  frames : l.frames = (Wire.Lines.read maxLength l.received).frames ∨
    ∃ last, l.handled.getLast? = some last ∧ IsMalformed last.frame
  isOpen : l.connection.isOpen = true ↔ (∀ h ∈ l.handled, ¬ IsMalformed h.frame) ∧
    (Wire.Lines.read maxLength l.received).failure = none ∧ l.ended = false

theorem Stands.complete (stands : l.Stands maxLength) (settled : l.Settled) :
    l.Complete maxLength := by
  cases stands with
  | going isOpen sound proper same =>
      obtain closed | ⟨going, nothing⟩ := settled
      · exact absurd isOpen (ne_true_of_eq_false closed)
      · have step := sound.searched.decodes
        rw [Wire.Inbox.found] at nothing
        have limit := sound.limit
        generalize l.connection.inbox.decoder.decode l.connection.inbox.buffer = a at step nothing
        cases step with
        | tooLong | frame => cases nothing
        | nothing clean short =>
            have all := read_of_nothing clean (limit ▸ short) same
            exact ⟨.inl (by rw [all]), fun _ => ⟨proper, by rw [all], going⟩, fun _ => isOpen⟩
  | dismissed closed earlier last handled proper malformed same =>
      refine ⟨.inr ⟨last, by simp [handled], malformed⟩, ?_⟩
      refine ⟨fun isOpen => absurd isOpen (ne_true_of_eq_false closed), fun sound => ?_⟩
      exact absurd malformed (sound.1 last (by simp [handled]))
  | lost closed proper e same =>
      have all := same []
      rw [List.append_nil] at all
      refine ⟨.inl (by rw [all]), fun isOpen => absurd isOpen (ne_true_of_eq_false closed), ?_⟩
      intro sound
      rw [all] at sound
      cases sound.2.1
  | left closed proper ended same =>
      refine ⟨.inl (by rw [same]), fun isOpen => absurd isOpen (ne_true_of_eq_false closed), ?_⟩
      exact fun sound => absurd ended (ne_true_of_eq_false sound.2.2)

/-- A line that is closed is answered nothing more, and nothing more is recorded of it. -/
structure Silent (l l' : Line) : Prop where
  closed : l'.connection.isOpen = false
  handled : l'.handled = l.handled
  output : l'.output = l.output
  events : l'.events = l.events

theorem silent_arrive (closed : l.connection.isOpen = false) (chunk : Bytes) :
    l.Silent (l.arrive chunk) := by
  rw [arrive]
  split <;> exact ⟨closed, rfl, rfl, rfl⟩

/-! ### Coming to rest -/

theorem settled_of_nothing {d : Wire.Decoder} {rest : Bytes} (going : l.ended = false)
    (h : l.connection.inbox.decoder.decode l.connection.inbox.buffer = ⟨.ok none, d, rest⟩) :
    (l.keep ⟨d, rest⟩).Settled :=
  .inr ⟨going, congrArg Wire.Attempt.outcome (Wire.Decoder.decode_again h)⟩

theorem Settled.turn (settled : l.Settled) (now : Audit.Moment) (c : Controller) :
    (l.turn now c).1.Settled := by
  cases isOpen : l.connection.isOpen with
  | false =>
      rw [turn_of_closed isOpen]
      exact .inl isOpen
  | true =>
      obtain closed | ⟨going, nothing⟩ := settled
      · exact absurd (isOpen.symm.trans closed) nofun
      · rw [Wire.Inbox.found] at nothing
        cases decoded : l.connection.inbox.decoder.decode l.connection.inbox.buffer with
        | mk outcome d rest =>
            obtain rfl : outcome = .ok none := by rw [← nothing, decoded]
            rw [turn_nothing isOpen going decoded]
            exact settled_of_nothing going decoded

/-- A turn either settles a line or takes a frame from its bytes. -/
theorem settled_or_shorter (l : Line) (now : Audit.Moment) (c : Controller) :
    (l.turn now c).1.Settled ∨ (l.turn now c).1.connection.inbox.buffer.length <
      l.connection.inbox.buffer.length := by
  cases isOpen : l.connection.isOpen with
  | false =>
      rw [turn_of_closed isOpen]
      exact .inl (.inl isOpen)
  | true =>
      cases decoded : l.connection.inbox.decoder.decode l.connection.inbox.buffer with
      | mk outcome d rest =>
          rcases outcome with e | _ | frame
          · rw [turn_error isOpen decoded]
            exact .inl (.inl rfl)
          · cases ended : l.ended with
            | false =>
                rw [turn_nothing isOpen ended decoded]
                exact .inl (settled_of_nothing ended decoded)
            | true =>
                rw [turn_end isOpen ended decoded]
                exact .inl (.inl rfl)
          · have shorter := Wire.Decoder.length_decode_lt (congrArg Wire.Attempt.outcome decoded)
            rw [decoded] at shorter
            rw [turn_frame isOpen decoded]
            exact .inr shorter

end Steps

end Line

end DoorAccess.Reader
