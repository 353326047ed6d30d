import DoorAccess.Connection.Outbox

/-!
The handles of a connection and its writer, each step by itself. All handles share one outbox. The
writer takes the next entry when it is done with the last: it puts out the bytes of a text in as
many pieces as the peer takes, and of a file it reads a piece whenever it has put out all it has.
After the first failure nothing more is put out. What the peer and the disk do comes with the step.
-/
namespace DoorAccess

/-- An item that could not be put out, and why. -/
abbrev Loss := Outgoing × AccessError

namespace Channel

/-- What the writer is at. -/
inductive Task
  | waiting
  | opening (path : String)
  | writing (payload : String) (pending : Bytes)
  /-- So many bytes of the file are still to be read. -/
  | sending (path : String) (pending : Bytes) (owed : Nat)
  /-- The queue is left for good, with the item that failed if one did. -/
  | leaving (lost : Option Loss)
  /-- From now on nothing is taken. -/
  | stopped (lost : Option Loss)
  | ended (lost : Option Loss)
deriving DecidableEq, Repr

namespace Task

/-- The item that is being put out. -/
def item? : Task → Option Outgoing
  | opening path | sending path _ _ => some (.file path)
  | writing payload _ => some (.text payload)
  | waiting | leaving _ | stopped _ | ended _ => none

def lost? : Task → Option Loss
  | leaving lost | stopped lost | ended lost => lost
  | waiting | opening _ | writing _ _ | sending _ _ _ => none

end Task

end Channel

structure Channel where
  outbox : Outbox := {}
  /-- How many handles there are. Once there is none there can never be one again. -/
  handles : Nat := 1
  task : Channel.Task := .waiting
deriving DecidableEq, Repr

namespace Channel

/-- A new connection, with one handle. -/
def start : Channel := {}

/-- What can be done by whoever has a handle. -/
inductive Call
  | clone
  | drop
  /-- A guard closes when it is dropped. -/
  | dropGuard
  | write (item : Outgoing)
  | close
deriving DecidableEq, Repr

/-- What the writer does. -/
inductive Step
  | next
  | opened (size : Nat)
  /-- The peer takes so many bytes. -/
  | put (n : Nat)
  /-- The file gives some bytes, or none at its end. -/
  | read (got : Bytes)
  | settle
  | fail (failure : AccessError)
  | stop
  | report
deriving DecidableEq, Repr

inductive Event
  | call (c : Call)
  | step (s : Step)
deriving DecidableEq, Repr

def write (c : Channel) (item : Outgoing) : Except AccessError Channel :=
  (c.outbox.write item).map fun outbox => { c with outbox }

def close (c : Channel) : Channel := { c with outbox := c.outbox.close }

def drop (c : Channel) : Channel := { c with handles := c.handles - 1 }

/-- A call on one of the handles. Without a handle there is no call. -/
def serve (c : Channel) (call : Call) : Channel :=
  if c.handles = 0 then c
  else
    match call with
    | .clone => { c with handles := c.handles + 1 }
    | .drop => c.drop
    | .dropGuard => c.close.drop
    | .write item =>
      match c.write item with
      | .ok c => c
      | .error _ => c
    | .close => c.close

def withTask (c : Channel) (task : Task) : Channel := { c with task }

/-- The name that a file is announced with. Separators and dots at the end of a path do not count,
even where only a directory can be meant. -/
def fileName (path : String) : String :=
  match (Place.partsOf path).reverse.find? fun part => part ≠ "" ∧ part ≠ "." with
  | none | some ".." => ""
  | some name => name

/-- What announces a file of some size. -/
def header (path : String) (size : Nat) : Bytes := (Wire.Reply.file (fileName path) size).encode

/-- Takes the next entry. None will come once the queue is empty and no handle is left. -/
def next (c : Channel) : Channel :=
  match c.outbox.queue with
  | [] => if c.handles = 0 then c.withTask (.leaving none) else c
  | entry :: queue =>
    { c with
      outbox := { c.outbox with queue }
      task :=
        match entry with
        | .close => .leaving none
        | .item (.text payload) => .writing payload (Wire.Reply.text payload).encode
        | .item (.file path) => .opening path }

/-- Puts out some bytes, and goes on with the rest. -/
def put (c : Channel) (bytes : Bytes) (task : Task) : Channel :=
  { c with outbox := { c.outbox with sent := c.outbox.sent ++ bytes }, task }

/-- What is taken of the bytes that a file gives: never more than was asked for. -/
def chunk (owed : Nat) (got : Bytes) : Bytes := got.take (min owed Transfer.chunkSize)

def read (c : Channel) (path : String) (owed : Nat) (got : Bytes) : Channel :=
  match chunk owed got with
  | [] => c.withTask (.leaving (some (.file path, Transfer.truncated path)))
  | b :: bs => c.withTask (.sending path (b :: bs) (owed - (bs.length + 1)))

/-- A step of the writer. Steps that are not its next ones are not made. -/
def advance (c : Channel) : Step → Channel
  | .next => if c.task = .waiting then c.next else c
  | .opened size =>
    match c.task with
    | .opening path => c.withTask (.sending path (header path size) size)
    | _ => c
  | .put n =>
    match c.task with
    | .writing payload pending => c.put (pending.take n) (.writing payload (pending.drop n))
    | .sending path pending owed => c.put (pending.take n) (.sending path (pending.drop n) owed)
    | _ => c
  | .read got =>
    match c.task with
    | .sending path [] owed => if owed = 0 then c else c.read path owed got
    | _ => c
  | .settle =>
    match c.task with
    | .writing _ [] | .sending _ [] 0 => c.withTask .waiting
    | _ => c
  | .fail failure =>
    match c.task.item? with
    | some item => c.withTask (.leaving (some (item, failure)))
    | none => c
  | .stop =>
    match c.task with
    | .leaving lost =>
      { c with outbox := { c.outbox with isAlive := false }, task := .stopped lost }
    | _ => c
  | .report =>
    match c.task with
    | .stopped lost => { c with outbox := c.outbox.finish, task := .ended lost }
    | _ => c

def take (c : Channel) : Event → Channel
  | .call call => c.serve call
  | .step step => c.advance step

def run (c : Channel) (events : List Event) : Channel := events.foldl take c

/-- A call to write, and what it returns. -/
def answer? (c : Channel) : Event → Option (Outgoing × Except AccessError Unit)
  | .call (.write item) =>
    if c.handles = 0 then none else some (item, (c.write item).map fun _ => ())
  | _ => none

/-- The calls to write in the order in which they are made, and what each returns. -/
def answers (c : Channel) : List Event → List (Outgoing × Except AccessError Unit)
  | [] => []
  | e :: events => (c.answer? e).toList ++ (c.take e).answers events

end Channel

end DoorAccess
