import DoorAccess.Connection.Transfer

/-!
What a connection still has to put out, in the order in which it was given. The first close ends
the queue: what was given before it is still put out, what comes after it is refused. An item that
fails ends the connection at once.
-/
namespace DoorAccess

inductive Entry
  | item (outgoing : Outgoing)
  | close
deriving DecidableEq, Repr

structure Outbox where
  queue : List Entry := []
  /-- Whether items are still taken. -/
  isAlive : Bool := true
  /-- Whether the queue is still worked on. -/
  isRunning : Bool := true
  sent : Bytes := []
  /-- How often the end of the connection was announced. -/
  notices : Nat := 0
deriving DecidableEq, Repr

namespace Outbox

def write (b : Outbox) (item : Outgoing) : Except AccessError Outbox :=
  if b.isAlive then .ok { b with queue := b.queue ++ [.item item] } else .error .connectionClosed

def close (b : Outbox) : Outbox :=
  if b.isAlive then { b with isAlive := false, queue := b.queue ++ [.close] } else b

def finish (b : Outbox) : Outbox :=
  { b with queue := [], isAlive := false, isRunning := false, notices := b.notices + 1 }

/-- Takes the next entry of the queue. What is put out for an item is given by the sender. -/
def advance (sender : Outgoing → Sent) (b : Outbox) : Outbox :=
  if b.isRunning then
    match b.queue with
    | [] => b
    | .close :: _ => b.finish
    | .item item :: queue =>
      let out := sender item
      let b := { b with queue, sent := b.sent ++ out.bytes }
      if out.failure.isSome then b.finish else b
  else b

end Outbox

end DoorAccess
