import DoorAccess.Proofs.Reader.Line

/-!
The connection of a reader as the server runs it. All frames of a chunk are taken from its bytes
before the first of them is served; what comes of it are so many turns, one frame at a time.
-/
namespace DoorAccess.Reader.Line

/-- So many turns, each at the moment of its frame. -/
def work (clock : Nat → Occasion) : Nat → Line × Controller → Line × Controller
  | 0, w => w
  | n + 1, (l, c) => work clock n (l.turn (clock l.handled.length).now c)

/-- What a connection has served since the line stood as it did. -/
structure Shows (before : Line) (s : Served) (w : Line × Controller) : Prop where
  controller : w.2 = s.controller
  output : w.1.output = before.output ++ s.output
  events : w.1.events = before.events ++ s.events
  frames : w.1.handled.length = before.handled.length + s.frames
  isOpen : w.1.connection.isOpen = s.connection.isOpen

/-- The end of a reading. -/
def conclude (s : Served) (r : Wire.Reading) (ended : Bool) : Served :=
  if r.failure.isSome || ended then Connection.close s else s

section Work
variable {before l : Line} {s : Served} {c : Controller} {clock : Nat → Occasion}

theorem work_of_still (clock : Nat → Occasion) (still : ∀ now, l.turn now c = (l, c)) (n : Nat) :
    work clock n (l, c) = (l, c) := by
  induction n with
  | zero => rfl
  | succ n ih => rw [work, still, ih]

theorem serve_of_closed (closed : s.connection.isOpen = false) (frames : List String) :
    Connection.serve clock s frames = s := by
  cases frames with
  | nil => rfl
  | cons frame frames => rw [Connection.serve, if_neg (by simp [closed])]

theorem Shows.conclude (shows : Shows before s (l, c)) (closed : l.connection.isOpen = false)
    (r : Wire.Reading) (ended : Bool) : Shows before (conclude s r ended) (l, c) := by
  rw [Line.conclude]
  split
  · exact ⟨shows.controller, shows.output, shows.events, shows.frames, closed⟩
  · exact shows

/-- One frame more. -/
def serveOne (s : Served) (frame : String) (now : Audit.Moment) : Served :=
  let step := receive frame now s.controller
  { connection := { s.connection with isOpen := step.flow = .stay }
    controller := step.controller
    output := s.output ++ (Wire.Reply.text step.reply).encode
    events := s.events ++ step.events
    frames := s.frames + 1 }

theorem serve_cons (clock : Nat → Occasion) (serving : s.connection.isOpen = true) (frame : String)
    (frames : List String) :
    Connection.serve clock s (frame :: frames) =
      Connection.serve clock (serveOne s frame (clock s.frames).now) frames := by
  rw [Connection.serve, if_pos serving]
  rfl

theorem Shows.serveOne (shows : Shows before s (l, s.controller)) (inbox : Wire.Inbox)
    (frame : String) (now : Audit.Moment) :
    Shows before (serveOne s frame now)
      ((l.keep inbox).handle frame now s.controller, (receive frame now s.controller).controller)
    where
  controller := rfl
  output := by
    have output : l.output = before.output ++ s.output := shows.output
    simp [Line.serveOne, handle, keep, output]
  events := by
    have events : l.events = before.events ++ s.events := shows.events
    simp [Line.serveOne, handle, keep, events]
  frames := by
    have frames : l.handled.length = before.handled.length + s.frames := shows.frames
    simp [Line.serveOne, handle, keep, frames, Nat.add_assoc]
  isOpen := rfl

/-- The frames that a reading has found, served one after the other, are as many turns. -/
theorem shows_work (clock : Nat → Occasion) (before : Line) (n : Nat)
    (shows : Shows before s (l, c)) (isOpen : l.connection.isOpen = true)
    (enough : l.connection.inbox.buffer.length < n) :
    let r := Wire.Inbox.drain l.ended l.connection.inbox.decoder l.connection.inbox.buffer
    s.connection.inbox = r.inbox →
      let s' := conclude (Connection.serve (fun i => clock (before.handled.length + i)) s r.frames)
        r l.ended
      let w := work clock n (l, c)
      Shows before s' w ∧
        (s'.connection.isOpen = true → w.1.connection.inbox = s'.connection.inbox) := by
  induction n generalizing l c s with
  | zero => exact absurd enough (Nat.not_lt_zero _)
  | succ n ih =>
      cases decoded : l.connection.inbox.decoder.decode l.connection.inbox.buffer with
      | mk outcome d rest =>
          rcases outcome with e | _ | frame
          · rw [Wire.Inbox.drain_error l.ended decoded, work, turn_error isOpen decoded,
              work_of_still clock fun _ => turn_of_closed rfl]
            intro r inbox
            refine ⟨⟨shows.controller, shows.output, shows.events, shows.frames, rfl⟩, nofun⟩
          · obtain ⟨more, none⟩ := Wire.Inbox.drain_nothing decoded
            cases ended : l.ended with
            | false =>
                have still (now : Audit.Moment) :
                    (l.keep ⟨d, rest⟩).turn now c = (l.keep ⟨d, rest⟩, c) :=
                  turn_nothing isOpen ended (Wire.Decoder.decode_again decoded)
                rw [more, work, turn_nothing isOpen ended decoded, work_of_still clock still]
                intro r inbox
                exact ⟨⟨shows.controller, shows.output, shows.events, shows.frames, shows.isOpen⟩,
                  fun _ => inbox.symm⟩
            | true =>
                rw [none, work, turn_end isOpen ended decoded,
                  work_of_still clock fun _ => turn_of_closed rfl]
                intro r inbox
                exact ⟨⟨shows.controller, shows.output, shows.events, shows.frames, rfl⟩, nofun⟩
          · obtain rfl : c = s.controller := shows.controller
            have serving : s.connection.isOpen = true := shows.isOpen.symm.trans isOpen
            have moment : l.handled.length = before.handled.length + s.frames := shows.frames
            have shorter := Wire.Decoder.length_decode_lt (congrArg Wire.Attempt.outcome decoded)
            rw [decoded] at shorter
            rw [Wire.Inbox.drain_frame l.ended decoded, work, turn_frame isOpen decoded, moment]
            intro r inbox
            have next := shows.serveOne ⟨d, rest⟩ frame
              (clock (before.handled.length + s.frames)).now
            rw [serve_cons _ serving]
            generalize (clock (before.handled.length + s.frames)).now = now at next ⊢
            cases closed : (serveOne s frame now).connection.isOpen with
            | true =>
                refine ih next (next.isOpen.trans closed) ?_ inbox
                exact Nat.lt_of_lt_of_le shorter (Nat.le_of_lt_succ enough)
            | false =>
                have shut := next.isOpen.trans closed
                rw [serve_of_closed closed, work_of_still clock fun _ => turn_of_closed shut]
                have last := next.conclude shut r l.ended
                refine ⟨last, fun isOpen => ?_⟩
                exact absurd (shut.symm.trans (last.isOpen.trans isOpen)) nofun

theorem shows_of_closed {k : Connection} (clock : Nat → Occasion) (n : Nat) (c : Controller)
    (same : l.connection.isOpen = k.isOpen ∧ l.handled = before.handled ∧
      l.output = before.output ∧ l.events = before.events) (closed : k.isOpen = false) :
    Shows before { connection := k, controller := c } (work clock n (l, c)) := by
  obtain ⟨isOpen, handled, output, events⟩ := same
  rw [work_of_still clock fun _ => turn_of_closed (isOpen.trans closed)]
  exact ⟨rfl, by simp [output], by simp [events], by simp [handled], isOpen⟩

theorem feed_eq {k : Connection} (isOpen : k.isOpen = true) (clock : Nat → Occasion) (chunk : Bytes)
    (c : Controller) :
    let r := k.inbox.receive chunk
    k.feed clock chunk c =
      conclude (Connection.serve clock ⟨⟨r.inbox, true⟩, c, [], [], 0⟩ r.frames) r false := by
  simp only [Connection.feed, isOpen, if_true, Connection.serveReading, conclude, Bool.or_false]

theorem finish_eq {k : Connection} (isOpen : k.isOpen = true) (clock : Nat → Occasion)
    (c : Controller) :
    let r := k.inbox.finish
    k.finish clock c =
      conclude (Connection.serve clock ⟨⟨r.inbox, true⟩, c, [], [], 0⟩ r.frames) r true := by
  simp only [Connection.finish, isOpen, if_true, Connection.serveReading, conclude, Bool.or_true]
  split <;> rfl

theorem feed_shows (l : Line) (clock : Nat → Occasion) (chunk : Bytes) (c : Controller)
    (going : l.ended = false) :
    let s := l.connection.feed (fun i => clock (l.handled.length + i)) chunk c
    let w := work clock ((l.arrive chunk).connection.inbox.buffer.length + 1) (l.arrive chunk, c)
    Shows l s w ∧ (l.connection.isOpen = true → s.connection.isOpen = true →
      w.1.connection.inbox = s.connection.inbox) := by
  have arrived : l.arrive chunk = { l with
      received := l.received ++ chunk
      connection.inbox.buffer := l.connection.inbox.buffer ++ chunk } := by
    rw [arrive, if_neg (by simp [going])]
  cases isOpen : l.connection.isOpen with
  | false =>
      rw [Connection.feed, if_neg (by simp [isOpen])]
      refine ⟨shows_of_closed clock _ c (by simp [arrived]) isOpen, fun isOpen => ?_⟩
      exact absurd isOpen Bool.false_ne_true
  | true =>
      have shows : Shows l ⟨⟨(l.connection.inbox.receive chunk).inbox, true⟩, c, [], [], 0⟩
          (l.arrive chunk, c) :=
        ⟨rfl, by simp [arrived], by simp [arrived], by simp [arrived], by simp [arrived, isOpen]⟩
      have reading : Wire.Inbox.drain (l.arrive chunk).ended
          (l.arrive chunk).connection.inbox.decoder (l.arrive chunk).connection.inbox.buffer =
          l.connection.inbox.receive chunk := by
        rw [arrived, going]
        rfl
      have goesOn : (l.arrive chunk).ended = false := by rw [arrived, going]
      have worked := shows_work clock l _ shows shows.isOpen (Nat.lt_succ_self _)
      rw [reading, goesOn] at worked
      rw [feed_eq isOpen]
      exact (worked rfl).imp_right fun same _ => same

theorem finish_shows (l : Line) (clock : Nat → Occasion) (c : Controller) :
    Shows l (l.connection.finish (fun i => clock (l.handled.length + i)) c)
      (work clock (l.connection.inbox.buffer.length + 1) (l.hangUp, c)) := by
  cases isOpen : l.connection.isOpen with
  | false =>
      rw [Connection.finish, if_neg (by simp [isOpen])]
      exact shows_of_closed clock _ c ⟨rfl, rfl, rfl, rfl⟩ isOpen
  | true =>
      have shows : Shows l ⟨⟨l.connection.inbox.finish.inbox, true⟩, c, [], [], 0⟩ (l.hangUp, c) :=
        ⟨rfl, (List.append_nil _).symm, (List.append_nil _).symm, rfl, isOpen⟩
      rw [finish_eq isOpen]
      exact (shows_work clock l _ shows isOpen (Nat.lt_succ_self _) rfl).1

/-- What the server does for a connection, in turns. To feed it a chunk is to let the chunk arrive
and then to take turns until nothing is left to take, and to finish it is to hang up and do the
same. Behind a malformed frame the server has taken more frames from the bytes, but it serves
none. -/
structure IsServed (l : Line) (c : Controller) : Prop where
  feed (clock : Nat → Occasion) (chunk : Bytes) (going : l.ended = false) :
    let s := l.connection.feed (fun i => clock (l.handled.length + i)) chunk c
    let w := work clock ((l.arrive chunk).connection.inbox.buffer.length + 1) (l.arrive chunk, c)
    Shows l s w ∧ (l.connection.isOpen = true → s.connection.isOpen = true →
      w.1.connection.inbox = s.connection.inbox)
  finish (clock : Nat → Occasion) :
    Shows l (l.connection.finish (fun i => clock (l.handled.length + i)) c)
      (work clock (l.connection.inbox.buffer.length + 1) (l.hangUp, c))

theorem isServed (l : Line) (c : Controller) : l.IsServed c :=
  ⟨fun clock chunk => l.feed_shows clock chunk c, fun clock => l.finish_shows clock c⟩

end Work

end DoorAccess.Reader.Line
