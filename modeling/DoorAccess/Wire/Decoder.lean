import DoorAccess.Error
import DoorAccess.Text.Utf8

/-!
Frames read from a byte stream: lines of at most a given length, each ended by a line feed, with
one carriage return before it left out. The decoder remembers how far it has searched a buffer
that holds no complete line yet, so that no byte is searched twice.
-/
namespace DoorAccess.Wire

def newline : UInt8 := 10
def carriageReturn : UInt8 := 13

/-- A line without its line feed, one carriage return at its end left out, as text. -/
def frameOf (line : Bytes) : String :=
  textOf (if line.getLast? = some carriageReturn then line.dropLast else line)

structure Decoder where
  maxLength : Nat
  /-- How many bytes at the front of the buffer are known to hold no line feed. -/
  searched : Nat
deriving DecidableEq, Repr

/-- What one attempt to decode gives: a frame or the reason why there is none, the decoder after
it, and the bytes that are left. -/
structure Attempt where
  outcome : Except AccessError (Option String)
  decoder : Decoder
  buffer : Bytes

namespace Decoder

def new (maxLength : Nat) : Decoder := ⟨maxLength, 0⟩

/-- The place of the first line feed at or behind the given place. -/
def newlineAt? (from_ : Nat) (buffer : Bytes) : Option Nat :=
  ((buffer.drop from_).idxOf? newline).map (from_ + ·)

/-- One frame, if the buffer holds a complete line. A line that is too long stays in the buffer. -/
def decode (d : Decoder) (buffer : Bytes) : Attempt :=
  match newlineAt? (min d.searched buffer.length) buffer with
  | some place =>
    if d.maxLength < place then
      ⟨.error (.frameTooLong d.maxLength), { d with searched := 0 }, buffer⟩
    else
      ⟨.ok (some (frameOf (buffer.take place))), { d with searched := 0 },
        buffer.drop (place + 1)⟩
  | none =>
    if d.maxLength < buffer.length then ⟨.error (.frameTooLong d.maxLength), d, buffer⟩
    else ⟨.ok none, { d with searched := buffer.length }, buffer⟩

/-- As `decode` when no more bytes will come: what is left behind the last line is dropped. -/
def decodeEnd (d : Decoder) (buffer : Bytes) : Attempt :=
  let a := d.decode buffer
  match a.outcome with
  | .ok none => { a with decoder := { a.decoder with searched := 0 }, buffer := [] }
  | _ => a

/-- One attempt while more bytes may come, or one when the stream has ended. -/
def attempt (ended : Bool) (d : Decoder) (buffer : Bytes) : Attempt :=
  if ended then d.decodeEnd buffer else d.decode buffer

end Decoder

end DoorAccess.Wire
