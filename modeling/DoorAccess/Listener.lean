import DoorAccess.Connection.Id
import Std.Data.TreeSet

/-!
The connections of one port. A connection is registered when it is accepted and leaves when its end
is reported; a report about a connection that is not registered changes nothing.
-/
namespace DoorAccess

structure Listener where
  /-- The number given last. Numbers start over after the largest one. -/
  lastId : ConnectionId := 0
  registered : Std.TreeSet ConnectionId := ∅
  accepted : Nat := 0
  live : Int := 0
  /-- The connections that have left, the last one first. -/
  left : List ConnectionId := []

namespace Listener

def accept (l : Listener) : ConnectionId × Listener :=
  let id := l.lastId + 1
  (id, { l with
    lastId := id
    registered := l.registered.insert id
    accepted := l.accepted + 1
    live := l.live + 1 })

def remove (l : Listener) (id : ConnectionId) : Listener :=
  if l.registered.contains id then
    { l with registered := l.registered.erase id, live := l.live - 1, left := id :: l.left }
  else l

def stop (l : Listener) : Listener := l.registered.toList.foldl remove l

def isRegistered (l : Listener) (id : ConnectionId) : Bool := l.registered.contains id

end Listener

end DoorAccess
