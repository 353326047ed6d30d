import DoorAccess.Connection.Outgoing
import DoorAccess.Store.Place
import DoorAccess.Wire.Reply
import DoorAccess.Error

/-!
Sending one item on a connection. A file is announced with its size and then sent in chunks. As
many bytes are sent as were announced, however the file is read and whatever becomes of it
meanwhile; if it ends before that, the transfer fails.
-/
namespace DoorAccess

/-- What was put out for an item, and the failure that stopped it if there was one. -/
structure Sent where
  bytes : Bytes
  failure : Option AccessError := none
deriving DecidableEq, Repr

namespace Transfer

def chunkSize : Nat := 16384

/-- Something that can be read from: asked for a number of bytes it gives some of them, or none at
its end. -/
abbrev Source (σ : Type) := σ → Nat → Except AccessError Bytes × σ

def truncated (path : String) : AccessError :=
  .io .unexpectedEof (path ++ " was truncated during transfer")

/-- Sends the bytes of a source until none are owed any more. -/
def pump (path : String) (read : Source σ) (s : σ) (owed : Nat) : Sent :=
  if owed = 0 then ⟨[], none⟩
  else
    let want := min owed chunkSize
    match read s want with
    | (.error e, _) => ⟨[], some e⟩
    | (.ok got, s) =>
      match got.take want with
      | [] => ⟨[], some (truncated path)⟩
      | b :: bs =>
        let rest := pump path read s (owed - (bs.length + 1))
        { rest with bytes := (b :: bs) ++ rest.bytes }
termination_by owed

def ofContent : Source Bytes := fun s want => (.ok (s.take want), s.drop want)

/-- Announces a file and sends as many bytes as it had then. -/
def send (path name : String) (size : Nat) (read : Source σ) (s : σ) : Sent :=
  let body := pump path read s size
  { body with bytes := (Wire.Reply.file name size).encode ++ body.bytes }

end Transfer

def DiskError.failure (e : DiskError) : AccessError :=
  .io (.other (match e with
    | notFound => "NotFound"
    | notADirectory => "NotADirectory"
    | isADirectory => "IsADirectory"
    | nameTooLong => "InvalidFilename"
    | alreadyExists => "AlreadyExists"
    | device name _ => name)) e.message

def Outgoing.send (d : Disk) : Outgoing → Sent
  | .text payload => ⟨(Wire.Reply.text payload).encode, none⟩
  | .file path =>
    let file := FilePlace.ofText path
    match file.read d with
    | .error e => ⟨[], some e.failure⟩
    | .ok content =>
      Transfer.send path (file.name.getD "") content.length Transfer.ofContent content

end DoorAccess
