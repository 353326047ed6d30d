import DoorAccess.Console.Session
import DoorAccess.Wire.Inbox

/-!
The connection of an admin: it is greeted, and the frames that arrive are given to its session
until a step closes it, a line is too long, or no more bytes come. When it ends it gives up the
admin's place. Its replies are handed to its writer in order; what a file holds is of no concern
before the writer comes to it.
-/
namespace DoorAccess.Console

structure Connection where
  session : Session
  inbox : Wire.Inbox
  isOpen : Bool := true
deriving DecidableEq, Repr

/-- The connection after some frames, and what serving them has brought about. -/
structure Served where
  connection : Connection
  controller : Controller
  /-- The replies that the writer was given. -/
  replies : List Outgoing := []
  events : List Audit.Event := []
  /-- The commands that were carried out. -/
  commands : List Command := []
  /-- How many frames were served. -/
  frames : Nat := 0

/-- What all others do to what they share with a connection, before it has its turn after so many
frames. -/
abbrev Others := Nat → Controller → Controller

/-- The turns of a connection follow one another and nothing happens in between. -/
def alone : Others := fun _ c => c

namespace Connection

def close (others : Others) (s : Served) : Served :=
  if s.connection.isOpen then
    { s with
      connection := { s.connection with isOpen := false }
      controller := (others s.frames s.controller).release s.connection.session.id }
  else s

def follow (others : Others) (s : Served) (step : Step) : Served :=
  let s := { s with
    connection := { s.connection with session := step.session }
    controller := step.controller
    replies := s.replies ++ step.replies
    events := s.events ++ step.events
    commands := s.commands ++ step.command.toList }
  if step.flow = .close then close others s else s

def accept (others : Others) (id : ConnectionId) (maxLength : Nat) (c : Controller) : Served :=
  let session : Session := { id }
  follow others { connection := { session, inbox := .new maxLength }, controller := c }
    (session.connect c)

/-- Gives frames to the session in order, each at its own moment. -/
def serve (clock : Nat → Occasion) (others : Others) (s : Served) : List String → Served
  | [] => s
  | frame :: frames =>
    if s.connection.isOpen then
      let step := s.connection.session.receive frame (clock s.frames)
        (others s.frames s.controller)
      serve clock others (follow others { s with frames := s.frames + 1 } step) frames
    else s

/-- Serves what was read. A failure of the reading ends the connection. -/
def serveReading (k : Connection) (clock : Nat → Occasion) (others : Others) (c : Controller)
    (r : Wire.Reading) : Served :=
  let served :=
    serve clock others { connection := { k with inbox := r.inbox }, controller := c } r.frames
  if r.failure.isSome then close others served else served

def feed (k : Connection) (clock : Nat → Occasion) (others : Others) (chunk : Bytes)
    (c : Controller) : Served :=
  if k.isOpen then k.serveReading clock others c (k.inbox.receive chunk)
  else { connection := k, controller := c }

def finish (k : Connection) (clock : Nat → Occasion) (others : Others) (c : Controller) : Served :=
  if k.isOpen then close others (k.serveReading clock others c k.inbox.finish)
  else { connection := k, controller := c }

end Connection

end DoorAccess.Console
