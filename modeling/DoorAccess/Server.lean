import DoorAccess.Console.Connection
import DoorAccess.Listener
import DoorAccess.Reader.Connection

/-!
The server: the connections on its two ports and what they share. A connection that has ended
leaves its port at once.
-/
namespace DoorAccess

inductive Port
  | reader
  | admin
deriving DecidableEq, Repr

/-- How often each of some words was counted. -/
abbrev Tally := Std.TreeMap String Nat

def Tally.count (t : Tally) (word : String) : Tally := t.insert word (t.getD word 0 + 1)

structure Server where
  config : Config
  controller : Controller
  readerPort : Listener := {}
  adminPort : Listener := {}
  readers : Std.TreeMap ConnectionId Reader.Connection := ∅
  consoles : Std.TreeMap ConnectionId Console.Connection := ∅
  /-- Frames served since the start. -/
  frames : Nat := 0
  /-- Decisions on requests since the start, by their words. -/
  decisions : Tally := ∅
  /-- Commands carried out since the start, by their verbs. -/
  commands : Tally := ∅

namespace Server

/-- A step of the server, which concerns one connection: the bytes that it puts out on that of a
reader and the replies that it gives to the writer of an admin's, the events it has recorded, the
commands it has carried out, and the server after it. -/
structure Step where
  output : Bytes := []
  replies : List Outgoing := []
  events : List Audit.Event := []
  commands : List Console.Command := []
  server : Server

def prepareStore (storePath : String) (d : Disk) : Except Failure Unit × Disk :=
  match Place.parentText? storePath with
  | none => (.ok (), d)
  | some parent =>
    let place := Place.ofText parent
    if parent = "" ∨ place.exists? d then (.ok (), d)
    else
      match place.make d with
      | (.ok (), d) => (.ok (), d)
      | (.error e, d) =>
        (.error ⟨"Failed to create store directory '" ++ parent ++ "': " ++ e.message, []⟩, d)

/-- Starts with the store that the settings name. A failure leaves a disk behind all the same. -/
def start (config : Config) (number : UInt32) (d : Disk) : Except (Failure × Disk) Server :=
  match prepareStore config.storePath d with
  | (.error f, d) => .error (f, d)
  | (.ok (), d) => (Controller.open config number d).map fun controller => { config, controller }

def accepted (s : Server) : Nat := s.readerPort.accepted + s.adminPort.accepted

def isConnected (s : Server) (port : Port) (id : ConnectionId) : Bool :=
  match port with
  | .reader => s.readers.contains id
  | .admin => s.consoles.contains id

def keepReader (s : Server) (id : ConnectionId) (k : Reader.Connection) : Server :=
  if k.isOpen then { s with readers := s.readers.insert id k }
  else { s with readers := s.readers.erase id, readerPort := s.readerPort.remove id }

/-- Keeps an admin's connection while it is open. One that has ended gives up the admin's place. -/
def keepConsole (s : Server) (id : ConnectionId) (k : Console.Connection) : Server :=
  if k.isOpen then { s with consoles := s.consoles.insert id k }
  else { s with
    consoles := s.consoles.erase id
    adminPort := s.adminPort.remove id
    controller := s.controller.release id }

def followReader (s : Server) (id : ConnectionId) (served : Reader.Served) : Step where
  output := served.output
  events := served.events
  server := { s with
    controller := served.controller
    frames := s.frames + served.frames
    decisions := served.events.foldl (fun t (e : Audit.Event) => t.count e.access) s.decisions
  }.keepReader id served.connection

def followConsole (s : Server) (id : ConnectionId) (served : Console.Served) : Step where
  replies := served.replies
  events := served.events
  commands := served.commands
  server := { s with
    controller := served.controller
    frames := s.frames + served.frames
    commands := served.commands.foldl (fun t (c : Console.Command) => t.count c.verb.text)
      s.commands
  }.keepConsole id served.connection

def accept (s : Server) : Port → ConnectionId × Step
  | .reader =>
    let (id, readerPort) := s.readerPort.accept
    (id, { server := { s with readerPort }.keepReader id (.new s.config.maxFrameLength) })
  | .admin =>
    let (id, adminPort) := s.adminPort.accept
    (id, { s with adminPort }.followConsole id
      (Console.Connection.accept Console.alone id s.config.maxFrameLength s.controller))

def later (s : Server) (clock : Nat → Occasion) : Nat → Occasion := fun n => clock (s.frames + n)

/-- Bytes arrive on a connection. What arrives on one that has ended is not read. -/
def feed (s : Server) (clock : Nat → Occasion) (port : Port) (id : ConnectionId) (chunk : Bytes) :
    Step :=
  match port with
  | .reader =>
    match s.readers[id]? with
    | none => { server := s }
    | some k => s.followReader id (k.feed (s.later clock) chunk s.controller)
  | .admin =>
    match s.consoles[id]? with
    | none => { server := s }
    | some k => s.followConsole id (k.feed (s.later clock) Console.alone chunk s.controller)

def finish (s : Server) (clock : Nat → Occasion) (port : Port) (id : ConnectionId) : Step :=
  match port with
  | .reader =>
    match s.readers[id]? with
    | none => { server := s }
    | some k => s.followReader id (k.finish (s.later clock) s.controller)
  | .admin =>
    match s.consoles[id]? with
    | none => { server := s }
    | some k => s.followConsole id (k.finish (s.later clock) Console.alone s.controller)

def stop (s : Server) : Server :=
  { s with
    readerPort := s.readerPort.stop
    adminPort := s.adminPort.stop
    readers := ∅
    consoles := ∅
    controller := s.consoles.toList.foldl (fun c (id, _) => c.release id) s.controller }

end Server

end DoorAccess
