import DoorAccess.Connection.Outbox
import DoorAccess.Listener
import Std.Data.TreeMap

/-!
The accept loop of one port. It alone adds connections to the registry and takes them out. A
connection is taken out when its end is reported, by whoever closed it and however often, and what
is still registered when the loop has stopped is taken out then.
-/
namespace DoorAccess

/-- A connection that was accepted: its number, the outbox that all its handles share, and how often
it was announced that it has left. -/
structure Member where
  id : ConnectionId
  outbox : Outbox := {}
  farewells : Nat := 0

namespace Member

/-- Writes on a connection that is closed are refused. -/
def write (m : Member) (item : Outgoing) : Member :=
  match m.outbox.write item with
  | .ok outbox => { m with outbox }
  | .error _ => m

def close (m : Member) : Member := { m with outbox := m.outbox.close }

/-- Stops the work on the outbox, and nothing is reported. -/
def abort (m : Member) : Member := { m with outbox := { m.outbox with isRunning := false } }

def work (m : Member) (sender : Outgoing → Sent) : Member :=
  { m with outbox := m.outbox.advance sender }

def leave (m : Member) : Member := { m.close with farewells := m.farewells + 1 }

end Member

/-- How far the loop is. Once it has stopped accepting, all connections are closed; then the ends
that were reported are taken note of, and then what is left over. -/
inductive Phase
  | accepting
  | closing
  | draining
  | sweeping (leftover : List ConnectionId)
  | stopped
deriving DecidableEq, Repr

structure AcceptLoop where
  /-- Whether accepted connections are served. Otherwise they are closed at once. -/
  serves : Bool
  listener : Listener := {}
  /-- All connections ever accepted, in their order. -/
  members : List Member := []
  /-- Which of them each registered number stands for. -/
  handles : Std.TreeMap ConnectionId Nat := ∅
  /-- The ends that were reported and are not yet taken note of. -/
  reports : List ConnectionId := []
  phase : Phase := .accepting

namespace AcceptLoop

/-- What happens to the loop and its connections, which are named by their place in the order of
acceptance. -/
inductive Event
  | accept
  | write (n : Nat) (item : Outgoing)
  | close (n : Nat)
  /-- The next entry of an outbox is worked on. -/
  | work (n : Nat) (sender : Outgoing → Sent)
  /-- An end is reported once more, or for a number that has long been given to another. -/
  | report (id : ConnectionId)
  | receive
  | stop
  | abort (n : Nat)
  | drain
  | sweep

def accept (l : AcceptLoop) : AcceptLoop :=
  let (id, listener) := l.listener.accept
  let m : Member := { id }
  { l with
    listener
    members := l.members ++ [if l.serves then m else m.close]
    handles := l.handles.insert id l.members.length }

/-- Takes a connection out of the registry, if its number is registered. -/
def remove (l : AcceptLoop) (id : ConnectionId) : AcceptLoop :=
  match l.handles[id]? with
  | none => l
  | some n =>
    { l with
      listener := l.listener.remove id
      members := l.members.modify n Member.leave
      handles := l.handles.erase id }

def modify (l : AcceptLoop) (n : Nat) (f : Member → Member) : AcceptLoop :=
  { l with members := l.members.modify n f }

/-- The end of the work on an outbox is reported. -/
def work (l : AcceptLoop) (n : Nat) (sender : Outgoing → Sent) : AcceptLoop :=
  match l.members[n]? with
  | none => l
  | some m =>
    let ended := m.outbox.notices < (m.work sender).outbox.notices
    { l.modify n (·.work sender) with
      reports := if ended then l.reports ++ [m.id] else l.reports }

def receive (l : AcceptLoop) : AcceptLoop :=
  match l.reports with
  | [] => l
  | id :: reports => { l with reports }.remove id

/-- Whether the connection at that place is the one its number stands for. -/
def isRegistered (l : AcceptLoop) (n : Nat) (m : Member) : Bool := l.handles[m.id]? = some n

/-- Closes all registered connections. -/
def closeAll (l : AcceptLoop) : AcceptLoop :=
  { l with members := l.members.mapIdx fun n m => if l.isRegistered n m then m.close else m }

def take (l : AcceptLoop) : Event → AcceptLoop
  | .accept => if l.phase = .accepting then l.accept else l
  | .write n item => l.modify n (·.write item)
  | .close n => l.modify n Member.close
  | .work n sender => l.work n sender
  | .report id => { l with reports := l.reports ++ [id] }
  | .receive => if l.phase = .accepting ∨ l.phase = .draining then l.receive else l
  | .stop => if l.phase = .accepting then { l.closeAll with phase := .closing } else l
  | .abort n => if l.phase = .closing then l.modify n Member.abort else l
  | .drain => if l.phase = .closing then { l with phase := .draining } else l
  | .sweep =>
    match l.phase, l.reports with
    | .draining, [] => { l with phase := .sweeping l.listener.registered.toList }
    | .sweeping [], _ => { l with phase := .stopped }
    | .sweeping (id :: leftover), _ => { l.remove id with phase := .sweeping leftover }
    | _, _ => l

def run (l : AcceptLoop) (events : List Event) : AcceptLoop := events.foldl take l

end AcceptLoop

end DoorAccess
