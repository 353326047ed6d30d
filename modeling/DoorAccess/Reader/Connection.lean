import DoorAccess.Reader.Service
import DoorAccess.Wire.Inbox
import DoorAccess.Wire.Reply

/-!
The connection of a reader: the frames that arrive are served in order until one of them ends the
connection, a line is too long, or no more bytes come.
-/
namespace DoorAccess.Reader

structure Connection where
  inbox : Wire.Inbox
  isOpen : Bool := true
deriving DecidableEq, Repr

/-- The connection after some frames, and what serving them has brought about. -/
structure Served where
  connection : Connection
  controller : Controller
  /-- The bytes put out. -/
  output : Bytes := []
  events : List Audit.Event := []
  /-- How many frames were served. -/
  frames : Nat := 0

namespace Connection

def new (maxLength : Nat) : Connection := { inbox := .new maxLength }

def close (s : Served) : Served := { s with connection := { s.connection with isOpen := false } }

def serve (clock : Nat → Occasion) (s : Served) : List String → Served
  | [] => s
  | frame :: frames =>
    if s.connection.isOpen then
      let step := receive frame (clock s.frames).now s.controller
      serve clock
        { connection := { s.connection with isOpen := step.flow = .stay }
          controller := step.controller
          output := s.output ++ (Wire.Reply.text step.reply).encode
          events := s.events ++ step.events
          frames := s.frames + 1 } frames
    else s

/-- Serves what was read. A failure of the reading ends the connection. -/
def serveReading (k : Connection) (clock : Nat → Occasion) (c : Controller) (r : Wire.Reading) :
    Served :=
  let served := serve clock { connection := { k with inbox := r.inbox }, controller := c } r.frames
  if r.failure.isSome then close served else served

def feed (k : Connection) (clock : Nat → Occasion) (chunk : Bytes) (c : Controller) : Served :=
  if k.isOpen then k.serveReading clock c (k.inbox.receive chunk)
  else { connection := k, controller := c }

def finish (k : Connection) (clock : Nat → Occasion) (c : Controller) : Served :=
  if k.isOpen then close (k.serveReading clock c k.inbox.finish)
  else { connection := k, controller := c }

end Connection

end DoorAccess.Reader
