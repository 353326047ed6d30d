import DoorAccess.Console.Connection
import DoorAccess.Proofs.Console.Place
import DoorAccess.Proofs.Wire.Framing
import Mathlib.Data.List.Induction

/-!
An admin's connection and the course of its session. The session is greeted and then given the
complete lines of the whole stream one after the other; the connection has the same replies, the
same events and the same changes to show, in whatever chunks the stream arrives and whatever others
do in between. Behind the step that closes it, a line that is too long or the end of the stream
there is only its place to give up.
-/
namespace DoorAccess.Console

/-! ### Steps of a session -/

/-- Something was asked for and has not been approved yet. -/
def Stage.IsPending : Stage → Prop
  | .unidentified | .ready => False
  | .awaitingCredential _ _ | .awaitingConfirmation _ => True

/-- What every step of a session keeps to. -/
structure Step.Regular (s : Session) (c : Controller) (step : Step) : Prop where
  id : step.session.id = s.id
  /-- To ask for something, or to go on asking, leaves no trace. -/
  pending : step.session.stage.IsPending →
    step.flow = .stay ∧ step.controller = c ∧ step.events = []

namespace Session
variable {s : Session} {o : Occasion} {c : Controller} {step : Step}

/-- A step that only answers. -/
theorem regular_of_answer (id : step.session.id = s.id) (flow : step.flow = .stay)
    (controller : step.controller = c) (events : step.events = []) : step.Regular s c :=
  ⟨id, fun _ => ⟨flow, controller, events⟩⟩

/-- A step behind which nothing is asked for. -/
theorem regular_of_settled (id : step.session.id = s.id)
    (settled : ¬ step.session.stage.IsPending) : step.Regular s c :=
  ⟨id, fun waits => absurd waits settled⟩

theorem runs_regular {command : Command} (runs : Runs s o c command step) : step.Regular s c := by
  cases runs with
  | door name level => exact regular_of_settled (by simp) (by simp [Stage.IsPending])
  | scan | prompt => exact regular_of_answer rfl rfl rfl rfl
  | refusal | log | help | exit | shutdown => exact regular_of_settled rfl not_false

theorem receives_regular {frame : String} (receives : Receives s frame o c step) :
    step.Regular s c := by
  cases receives with
  | stranger | unreadable | held | credential => exact regular_of_answer rfl rfl rfl rfl
  | turnedAway stage =>
      refine regular_of_settled rfl ?_
      simp [sayAndClose, say, answer, stage, Stage.IsPending]
  | identified | denied => exact regular_of_settled rfl not_false
  | command _ _ _ step runs | left _ _ _ _ step runs =>
      have regular := runs_regular runs
      exact ⟨regular.id, regular.pending⟩
  | approved => exact regular_of_settled (by simp) (by simp [Stage.IsPending])

theorem receive_regular (s : Session) (frame : String) (o : Occasion) (c : Controller) :
    (s.receive frame o c).Regular s c :=
  receives_regular (s.receive_receives frame o c)

theorem connect_session (s : Session) (c : Controller) : (s.connect c).session = s := by
  rw [connect]
  split <;> rfl

theorem connect_controller (s : Session) (c : Controller) : (s.connect c).controller = c := by
  rw [connect]
  split <;> rfl

end Session

/-! ### The course of a session -/

/-- What others do from one frame on, before each of so many frames. -/
def Others.between (others : Others) (n : Nat) : Nat → Controller → Controller
  | 0, c => c
  | m + 1, c => others (n + m) (others.between n m c)

/-- What a session has come to, and all that its steps have brought about. -/
structure Course where
  session : Session
  controller : Controller
  flow : Flow := .stay
  replies : List Outgoing := []
  events : List Audit.Event := []
  commands : List Command := []
  /-- How many frames the session was given. -/
  frames : Nat := 0

namespace Course

def add (k : Course) (step : Step) : Course where
  session := step.session
  controller := step.controller
  flow := step.flow
  replies := k.replies ++ step.replies
  events := k.events ++ step.events
  commands := k.commands ++ step.command.toList
  frames := k.frames

/-- The greeting. -/
def start (id : ConnectionId) (c : Controller) : Course :=
  add { session := { id }, controller := c } (Session.connect { id } c)

/-- Gives a frame to the session, at its moment and after what others have done, unless a step has
closed it. -/
def next (clock : Nat → Occasion) (others : Others) (k : Course) (frame : String) : Course :=
  match k.flow with
  | .close => k
  | .stay =>
    let step := k.session.receive frame (clock k.frames) (others k.frames k.controller)
    { k.add step with frames := k.frames + 1 }

def run (clock : Nat → Occasion) (others : Others) (k : Course) (frames : List String) : Course :=
  frames.foldl (next clock others) k

/-- The course when the connection is over. -/
def ended (k : Course) : Course := { k with flow := .close }

/-- The course when these frames were read, and the connection is lost if the reading has failed. -/
def read (clock : Nat → Occasion) (others : Others) (k : Course) (frames : List String)
    (failure : Option AccessError) : Course :=
  if failure.isSome then (k.run clock others frames).ended else k.run clock others frames

section Run
variable (clock : Nat → Occasion) (others : Others) {k : Course}

theorem next_of_close (closed : k.flow = .close) (frame : String) :
    k.next clock others frame = k := by
  simp only [next, closed]

theorem next_of_stay (stays : k.flow = .stay) (frame : String) :
    k.next clock others frame =
      { k.add (k.session.receive frame (clock k.frames) (others k.frames k.controller)) with
        frames := k.frames + 1 } := by
  simp only [next, stays]

theorem run_of_close (closed : k.flow = .close) (frames : List String) :
    k.run clock others frames = k := by
  induction frames with
  | nil => rfl
  | cons frame frames ih =>
      rw [run, List.foldl_cons, next_of_close clock others closed]
      exact ih

theorem ended_of_close (closed : k.flow = .close) : k.ended = k := by
  rw [ended, ← closed]

theorem read_of_close (closed : k.flow = .close) (frames : List String)
    (failure : Option AccessError) : k.read clock others frames failure = k := by
  rw [read, run_of_close clock others closed, ended_of_close closed, ite_self]

theorem run_append (k : Course) (frames more : List String) :
    k.run clock others (frames ++ more) = (k.run clock others frames).run clock others more :=
  List.foldl_append

theorem read_append (k : Course) (frames more : List String) (failure : Option AccessError) :
    (k.read clock others frames none).read clock others more failure =
      k.read clock others (frames ++ more) failure := by
  simp only [read, run_append, Option.isSome_none, Bool.false_eq_true, if_false]

theorem run_concat (k : Course) (frames : List String) (frame : String) :
    k.run clock others (frames ++ [frame]) =
      (k.run clock others frames).next clock others frame := by
  rw [run_append]
  rfl

theorem next_id (k : Course) (frame : String) :
    (k.next clock others frame).session.id = k.session.id := by
  rw [next]
  split
  · rfl
  · exact (k.session.receive_regular frame _ _).id

theorem run_id (k : Course) (frames : List String) :
    (k.run clock others frames).session.id = k.session.id := by
  induction frames generalizing k with
  | nil => rfl
  | cons frame frames ih =>
      exact (ih (k.next clock others frame)).trans (next_id clock others k frame)

/-- As long as something is asked for, no step has closed the session. -/
theorem stays_of_pending (settled : ¬ k.session.stage.IsPending) (frames : List String)
    (pending : (k.run clock others frames).session.stage.IsPending) :
    (k.run clock others frames).flow = .stay := by
  induction frames using List.reverseRecOn with
  | nil => exact absurd pending settled
  | append_singleton frames frame ih =>
      rw [run_concat] at pending ⊢
      cases flow : (k.run clock others frames).flow with
      | close =>
          rw [next_of_close clock others flow] at pending
          cases flow.symm.trans (ih pending)
      | stay =>
          rw [next_of_stay clock others flow] at pending ⊢
          exact ((Session.receive_regular _ frame _ _).pending pending).1

end Run

/-- Between these the session was given so many frames and has only asked for something: nothing was
recorded, and what is shared has changed by what others have done alone. -/
structure Idles (others : Others) (before k : Course) (count : Nat) : Prop where
  frames : k.frames = before.frames + count
  controller : k.controller = others.between before.frames count before.controller
  events : k.events = before.events

theorem Idles.next {others : Others} {before k : Course} {count : Nat}
    (idles : Idles others before k count) {clock : Nat → Occasion} {frame : String}
    (stays : k.flow = .stay) (pending : (k.next clock others frame).session.stage.IsPending) :
    Idles others before (k.next clock others frame) (count + 1) := by
  rw [next_of_stay clock others stays] at pending ⊢
  obtain ⟨_, controller, none⟩ := (Session.receive_regular _ frame _ _).pending pending
  refine ⟨?_, ?_, ?_⟩
  · exact congrArg (· + 1) idles.frames
  · refine controller.trans ?_
    rw [idles.frames, idles.controller]
    rfl
  · simp only [add, none, List.append_nil, idles.events]

/-- Since the session was last ready, nothing has happened but that something was asked for. -/
theorem ready_before_pending (clock : Nat → Occasion) (others : Others) {k : Course}
    (settled : ¬ k.session.stage.IsPending) (frames : List String)
    (pending : (k.run clock others frames).session.stage.IsPending) :
    ∃ earlier later, frames = earlier ++ later ∧ let before := k.run clock others earlier
      ¬ before.session.stage.IsPending ∧
        Idles others before (k.run clock others frames) later.length := by
  induction frames using List.reverseRecOn with
  | nil => exact absurd pending settled
  | append_singleton frames frame ih =>
      have goes := stays_of_pending clock others settled (frames ++ [frame]) pending
      rw [run_concat] at goes pending ⊢
      have stays : (k.run clock others frames).flow = .stay := by
        cases flow : (k.run clock others frames).flow with
        | stay => rfl
        | close =>
            rw [next_of_close clock others flow] at goes
            exact flow.symm.trans goes
      by_cases already : (k.run clock others frames).session.stage.IsPending
      · obtain ⟨earlier, later, rfl, ready, idles⟩ := ih already
        refine ⟨earlier, later ++ [frame], by simp, ready, ?_⟩
        rw [List.length_append]
        exact idles.next stays pending
      · have nothing : Idles others (k.run clock others frames) (k.run clock others frames) 0 :=
          ⟨rfl, rfl, rfl⟩
        exact ⟨frames, [frame], rfl, already, nothing.next stays pending⟩

/-- A connection whose session has come this far. -/
def served (k : Course) (others : Others) (inbox : Wire.Inbox) : Served where
  connection := ⟨k.session, inbox, k.flow = .stay⟩
  controller :=
    match k.flow with
    | .stay => k.controller
    | .close => (others k.frames k.controller).release k.session.id
  replies := k.replies
  events := k.events
  commands := k.commands
  frames := k.frames

theorem served_of_stay {k : Course} (others : Others) (inbox : Wire.Inbox)
    (stays : k.flow = .stay) :
    (k.served others inbox).connection.isOpen = true ∧
      (k.served others inbox).controller = k.controller := by
  simp [served, stays]

end Course

/-! ### A connection from its beginning -/

namespace Served

/-- What was served before, and then this. -/
def andThen (s t : Served) : Served :=
  { t with
    replies := s.replies ++ t.replies
    events := s.events ++ t.events
    commands := s.commands ++ t.commands
    frames := s.frames + t.frames }

/-- What depends on how many frames were served, for what is served from now on. -/
def later (s : Served) (f : Nat → α) : Nat → α := fun n => f (s.frames + n)

def feed (clock : Nat → Occasion) (others : Others) (s : Served) (chunk : Bytes) : Served :=
  s.andThen (s.connection.feed (s.later clock) (s.later others) chunk s.controller)

def finish (clock : Nat → Occasion) (others : Others) (s : Served) : Served :=
  s.andThen (s.connection.finish (s.later clock) (s.later others) s.controller)

end Served

namespace Connection

/-- A connection that is accepted and sends these chunks, and may then end. -/
def attend (id : ConnectionId) (maxLength : Nat) (c : Controller) (clock : Nat → Occasion)
    (others : Others) (chunks : List Bytes) (ended : Bool) : Served :=
  let s := chunks.foldl (Served.feed clock others) (accept others id maxLength c)
  if ended then s.finish clock others else s

variable (clock : Nat → Occasion) (others : Others)

theorem close_served (k : Course) (inbox : Wire.Inbox) :
    close others (k.served others inbox) = k.ended.served others inbox := by
  cases flow : k.flow with
  | stay => simp [close, Course.served, Course.ended, flow]
  | close => simp [close, Course.served, Course.ended, flow]

/-- A step is followed as the session takes it, once it is counted. -/
theorem follow_served {k : Course} (inbox : Wire.Inbox) (frames : Nat) (stays : k.flow = .stay)
    (step : Step) :
    let s := k.served others inbox
    let k' := k.add step
    follow others { s with frames } step = { k' with frames }.served others inbox := by
  cases flow : step.flow with
  | stay => simp [follow, Course.served, Course.add, stays, flow]
  | close => simp [follow, close, Course.served, Course.add, stays, flow]

theorem accept_eq (id : ConnectionId) (maxLength : Nat) (c : Controller) :
    accept others id maxLength c = (Course.start id c).served others (.new maxLength) :=
  follow_served others (k := { session := { id }, controller := c }) (.new maxLength) 0 rfl _

theorem serve_served (k : Course) (inbox : Wire.Inbox) (frames : List String) :
    serve clock others (k.served others inbox) frames =
      (k.run clock others frames).served others inbox := by
  induction frames generalizing k with
  | nil => rfl
  | cons frame frames ih =>
      cases flow : k.flow with
      | close =>
          rw [serve, Course.run_of_close clock others flow, if_neg (by simp [Course.served, flow])]
      | stay =>
          obtain ⟨isOpen, controller⟩ := Course.served_of_stay others inbox flow
          have followed := follow_served others inbox (k.frames + 1) flow
            (k.session.receive frame (clock k.frames) (others k.frames k.controller))
          rw [serve, if_pos isOpen, controller, Course.run, List.foldl_cons,
            Course.next_of_stay clock others flow]
          exact (congrArg (serve clock others · frames) followed).trans (ih _)

theorem close_andThen (s t : Served) :
    s.andThen (close (s.later others) t) = close others (s.andThen t) := by
  by_cases isOpen : t.connection.isOpen = true <;>
    simp [close, Served.andThen, Served.later, isOpen]

theorem follow_andThen (s t : Served) (step : Step) :
    s.andThen (follow (s.later others) t step) = follow others (s.andThen t) step := by
  simp only [follow]
  split
  · rw [close_andThen]
    simp only [Served.andThen, List.append_assoc]
  · simp only [Served.andThen, List.append_assoc]

/-- Serving more frames at later moments. -/
theorem serve_andThen (s t : Served) (frames : List String) :
    s.andThen (serve (s.later clock) (s.later others) t frames) =
      serve clock others (s.andThen t) frames := by
  induction frames generalizing t with
  | nil => rfl
  | cons frame frames ih =>
      have same : (s.andThen t).connection = t.connection := rfl
      rw [serve, serve, same]
      split
      · refine (ih _).trans (congrArg (serve clock others · frames) ?_)
        exact follow_andThen others s { t with frames := t.frames + 1 } _
      · rfl

theorem serveReading_served (k : Course) (inbox : Wire.Inbox) (r : Wire.Reading) :
    let s := k.served others inbox
    s.andThen (s.connection.serveReading (s.later clock) (s.later others) s.controller r) =
      (k.read clock others r.frames r.failure).served others r.inbox := by
  intro s
  have before : s.andThen ⟨{ s.connection with inbox := r.inbox }, s.controller, [], [], [], 0⟩ =
      k.served others r.inbox := by
    simp [s, Served.andThen, Course.served]
  rw [serveReading, Course.read]
  split
  · rw [close_andThen, serve_andThen, before, serve_served, close_served]
  · rw [serve_andThen, before, serve_served]

section Closed
variable {s : Served}

theorem feed_of_closed (closed : s.connection.isOpen = false) (chunk : Bytes) :
    s.feed clock others chunk = s := by
  simp [Served.feed, feed, closed, Served.andThen]

theorem finish_of_closed (closed : s.connection.isOpen = false) :
    s.finish clock others = s := by
  simp [Served.finish, finish, closed, Served.andThen]

theorem foldl_feed_of_closed (closed : s.connection.isOpen = false) (chunks : List Bytes) :
    chunks.foldl (Served.feed clock others) s = s := by
  induction chunks with
  | nil => rfl
  | cons chunk chunks ih => rw [List.foldl_cons, feed_of_closed clock others closed, ih]

end Closed

theorem feed_served {k : Course} (inbox : Wire.Inbox) (stays : k.flow = .stay) (chunk : Bytes) :
    let r := inbox.receive chunk
    (k.served others inbox).feed clock others chunk =
      (k.read clock others r.frames r.failure).served others r.inbox := by
  obtain ⟨isOpen, _⟩ := Course.served_of_stay others inbox stays
  rw [Served.feed, feed, if_pos isOpen, serveReading_served]
  rfl

/-- Whoever waits for more finds nothing in what has no end. -/
theorem finish_served (k : Course) {inbox : Wire.Inbox} {maxLength : Nat}
    (waiting : k.flow = .stay → inbox.Waiting maxLength) :
    ∃ left, (k.served others inbox).finish clock others = k.ended.served others left := by
  cases flow : k.flow with
  | close =>
      have closed : (k.served others inbox).connection.isOpen = false := by
        simp [Course.served, flow]
      refine ⟨inbox, ?_⟩
      rw [finish_of_closed clock others closed, Course.ended_of_close flow]
  | stay =>
      obtain ⟨isOpen, _⟩ := Course.served_of_stay others inbox flow
      have nothing : k.read clock others inbox.finish.frames inbox.finish.failure = k := by
        rw [Wire.Inbox.finish, (Wire.Inbox.drain_nothing (waiting flow).decode_eq).2]
        rfl
      refine ⟨inbox.finish.inbox, ?_⟩
      rw [Served.finish, finish, if_pos isOpen, close_andThen, serveReading_served, close_served]
      exact congrArg (fun k : Course => k.ended.served others inbox.finish.inbox) nothing

/-- However the rest of a stream is cut into chunks, the session is given the lines of the whole. -/
theorem foldl_feed_served {maxLength : Nat} (k : Course) {inbox : Wire.Inbox}
    (waiting : inbox.Waiting maxLength) (chunks : List Bytes) :
    let read := Wire.Lines.read maxLength (inbox.buffer ++ chunks.flatten)
    let k' := k.read clock others read.frames read.failure
    ∃ left, chunks.foldl (Served.feed clock others) (k.served others inbox) =
        k'.served others left ∧
      (k'.flow = .stay → left.Waiting maxLength) := by
  induction chunks generalizing k inbox with
  | nil =>
      rw [List.flatten_nil, List.append_nil, Wire.Lines.read_of_clean waiting.unended,
        if_neg (Nat.not_lt.mpr waiting.short)]
      exact ⟨inbox, rfl, fun _ => waiting⟩
  | cons chunk chunks ih =>
      cases flow : k.flow with
      | close =>
          have closed : (k.served others inbox).connection.isOpen = false := by
            simp [Course.served, flow]
          dsimp only
          rw [foldl_feed_of_closed clock others closed, Course.read_of_close clock others flow]
          refine ⟨inbox, rfl, fun stays => ?_⟩
          cases flow.symm.trans stays
      | stay =>
          have reads := Wire.Inbox.reads_drain (waiting.feed chunk)
          rw [← Wire.Inbox.receive] at reads
          rw [List.foldl_cons, feed_served clock others inbox flow, List.flatten_cons,
            ← List.append_assoc]
          generalize inbox.receive chunk = r at reads
          cases reads with
          | @failed frames e left same =>
              have closed : ((k.read clock others frames (some e)).served others
                  left).connection.isOpen = false := by
                simp [Course.served, Course.read, Course.ended]
              rw [same, foldl_feed_of_closed clock others closed]
              refine ⟨left, rfl, fun stays => ?_⟩
              cases stays
          | @going frames left waiting same =>
              rw [same]
              dsimp only [Wire.Lines.Reading.behind]
              rw [← Course.read_append]
              exact ih _ waiting

/-- The connection of a session that came this far is over: a step has closed it, a line was too
long, or the peer has ended the stream. -/
def Over (k : Course) (read : Wire.Lines.Reading) (ended : Bool) : Prop :=
  k.flow = .close ∨ read.failure.isSome = true ∨ ended = true

instance (k : Course) (read : Wire.Lines.Reading) (ended : Bool) : Decidable (Over k read ended) :=
  inferInstanceAs (Decidable (_ ∨ _ ∨ _))

theorem attend_served (id : ConnectionId) (maxLength : Nat) (c : Controller) (chunks : List Bytes)
    (ended : Bool) :
    let read := Wire.Lines.read maxLength chunks.flatten
    let k := (Course.start id c).run clock others read.frames
    ∃ inbox, attend id maxLength c clock others chunks ended =
      (if Over k read ended then k.ended else k).served others inbox := by
  intro read k
  obtain ⟨inbox, fed, waiting⟩ :
      let k := (Course.start id c).read clock others read.frames read.failure
      ∃ inbox, chunks.foldl (Served.feed clock others)
          ((Course.start id c).served others (.new maxLength)) = k.served others inbox ∧
        (k.flow = .stay → inbox.Waiting maxLength) :=
    foldl_feed_served clock others (Course.start id c) (Wire.Inbox.waiting_new maxLength) chunks
  rw [attend, accept_eq, fed]
  cases ended with
  | true =>
      obtain ⟨left, finished⟩ := finish_served clock others _ waiting
      refine ⟨left, ?_⟩
      rw [if_pos rfl, finished, if_pos (.inr (.inr rfl))]
      rw [Course.read]
      split <;> rfl
  | false =>
      refine ⟨inbox, ?_⟩
      by_cases failed : read.failure.isSome = true
      · rw [if_neg (by decide), if_pos (.inr (.inl failed)), Course.read, if_pos failed]
      · rw [if_neg (by decide), Course.read, if_neg failed]
        split
        · next past =>
            obtain closed | failed' | ended := past
            · rw [Course.ended_of_close closed]
            · exact absurd failed' failed
            · cases ended
        · rfl

/-- What a connection has replied and brought about is what its session has come to. -/
structure Shows (s : Served) (k : Course) : Prop where
  replies : s.replies = k.replies
  events : s.events = k.events
  commands : s.commands = k.commands
  frames : s.frames = k.frames
  session : s.connection.session = k.session

/-- After what others have done, the place of the admin is given up and nothing else happens.
Whatever others do then, nothing can happen any more. -/
structure Left (s : Served) (k : Course) : Prop where
  isOpen : s.connection.isOpen = false
  controller : s.controller = (others k.frames k.controller).release k.session.id
  holder : s.controller.binding.holder ≠ some k.session.id
  silent : ∀ (c : Controller) (chunks : List Bytes), let s' := { s with controller := c }
    chunks.foldl (Served.feed clock others) s' = s' ∧ s'.finish clock others = s'

theorem left_ended (k : Course) (inbox : Wire.Inbox) :
    Left clock others (k.ended.served others inbox) k := by
  have isOpen : (k.ended.served others inbox).connection.isOpen = false := by
    simp [Course.served, Course.ended]
  refine ⟨isOpen, rfl, ?_, fun c chunks => ?_⟩
  · change ((others k.frames k.controller).binding.release k.session.id).holder ≠ _
    rw [Binding.release_holder]
    split
    · nofun
    · assumption
  · intro s'
    have closed : s'.connection.isOpen = false := isOpen
    exact ⟨foldl_feed_of_closed clock others closed chunks, finish_of_closed clock others closed⟩

/-- Whatever an admin sends, in whatever chunks, whether or not the stream ends, and whatever others
do between the frames: all that comes of it is what comes of the greeting and of the complete lines
of the stream, one after the other, up to the step that closes the session or the line that is too
long. When the connection is over, then or at the end of the stream, its place is given up and
nothing that follows is looked at. What was asked for and never approved has changed nothing and was
not recorded. -/
theorem attend_is_course_of_session (id : ConnectionId) (maxLength : Nat) (c : Controller)
    (chunks : List Bytes) (ended : Bool) :
    let read := Wire.Lines.read maxLength chunks.flatten
    let k := (Course.start id c).run clock others read.frames
    let s := attend id maxLength c clock others chunks ended
    Shows s k ∧ k.session.id = id ∧ (Over k read ended → Left clock others s k) ∧
      (¬ Over k read ended → s.connection.isOpen = true ∧ s.controller = k.controller) ∧
      (k.session.stage.IsPending →
        ∃ earlier later, read.frames = earlier ++ later ∧
          let before := (Course.start id c).run clock others earlier
          ¬ before.session.stage.IsPending ∧ Course.Idles others before k later.length) := by
  intro read k s
  obtain ⟨inbox, attended⟩ :
      ∃ inbox, s = (if Over k read ended then k.ended else k).served others inbox :=
    attend_served clock others id maxLength c chunks ended
  have same : k.session.id = id := by
    refine (Course.run_id clock others _ _).trans ?_
    rw [Course.start, Course.add, Session.connect_session]
  have settled : ¬ (Course.start id c).session.stage.IsPending := by
    rw [Course.start, Course.add, Session.connect_session]
    exact not_false
  refine ⟨?_, same, ?_, ?_, Course.ready_before_pending clock others settled _⟩
  · rw [attended]
    split <;> exact ⟨rfl, rfl, rfl, rfl, rfl⟩
  · intro past
    rw [attended, if_pos past]
    exact left_ended clock others k inbox
  · intro going
    have stays : k.flow = .stay := by
      cases flow : k.flow with
      | stay => rfl
      | close => exact absurd (.inl flow) going
    rw [attended, if_neg going]
    exact Course.served_of_stay others inbox stays

/-- Another connection takes the place while the name is on its way: the sender of the name is
turned away, and what it has sent behind it is not looked at. -/
example :
    let c : Controller :=
      ⟨⟨.empty, ⟨⟨{}, none⟩⟩, 0, 0, 0, 0⟩, ⟨none⟩, ⟨"admin", none⟩, Disk.empty, [], false⟩
    let taken : Others := fun _ c => { c with binding := { c.binding with holder := some 2 } }
    let s := attend 1 64 c (fun n => ⟨⟨2024, 1, 2, 3, 4⟩, .ofNat n⟩) taken
      [bytesOf "adm", bytesOf "in\nnewDoor hall 3\n"] false
    s.replies = [.text awaitingIdentification, .text AccessError.adminAlreadyBound.message] ∧
      s.frames = 1 ∧ s.connection.isOpen = false ∧ s.controller.binding.holder = some 2 := by
  decide +kernel

end Connection

end DoorAccess.Console
