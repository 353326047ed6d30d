import DoorAccess.Wire.Decoder
import DoorAccess.Wire.Reply

/-!
Replies with all that belongs to them, one behind the other in the stream of a connection, and how
a peer reads them back: line by line, and behind the line of a file as many raw bytes as it says.
-/
namespace DoorAccess.Wire

/-- A reply as it is given to a connection. The name of a file is one line, and its size a 64-bit
number. -/
inductive Parcel
  | text (payload : String)
  | file (name : String) (body : Bytes) (oneLine : '\n' ∉ name.toList)
      (fits : body.length ≤ Reply.maxSize)
deriving DecidableEq

/-- A reply as a peer has it in the end. -/
inductive Received
  | text (payload : String)
  | file (name : String) (body : Bytes)
deriving DecidableEq, Repr

namespace Parcel

def encode : Parcel → Bytes
  | text payload => (Reply.text payload).encode
  | file name body _ _ => (Reply.file name body.length).encode ++ body

def stream (parcels : List Parcel) : Bytes := parcels.flatMap encode

/-- What has to arrive of a reply: all of it, but line breaks in a text are blanks. -/
def expected : Parcel → Received
  | text payload =>
    .text (String.ofList (payload.toList.map fun c => if c = '\r' ∨ c = '\n' then ' ' else c))
  | file name body _ _ => .file name body

end Parcel

namespace Received

/-- Cuts a stream at its first line feed. -/
def cutLine? : Bytes → Option (Bytes × Bytes)
  | [] => none
  | b :: bs =>
    if b = newline then some ([], bs) else (cutLine? bs).map fun (line, rest) => (b :: line, rest)

/-- Takes the bytes that a line has announced. -/
def ofReply? (rest : Bytes) : Reply → Option (Received × Bytes)
  | .text payload => some (.text payload, rest)
  | .file name size =>
    if size ≤ rest.length then some (.file name (rest.take size), rest.drop size) else none

/-- Reads one reply off a stream. -/
def next? (stream : Bytes) : Option (Received × Bytes) := do
  let (line, rest) ← cutLine? stream
  let reply ← Reply.parse? (← Text.Utf8.decode? line)
  ofReply? rest reply

theorem length_cutLine?_lt {stream line rest : Bytes} (h : cutLine? stream = some (line, rest)) :
    rest.length < stream.length := by
  induction stream generalizing line with
  | nil => cases h
  | cons b bs ih =>
      rw [cutLine?] at h
      split at h
      · cases h
        exact Nat.lt_succ_self _
      · simp only [Option.map_eq_some_iff, Prod.exists, Prod.mk.injEq] at h
        obtain ⟨_, _, cut, _, rfl⟩ := h
        exact Nat.lt_succ_of_lt (ih cut)

theorem length_ofReply?_le {behind rest : Bytes} {reply : Reply} {received : Received}
    (h : ofReply? behind reply = some (received, rest)) : rest.length ≤ behind.length := by
  cases reply with
  | text payload =>
      cases h
      exact Nat.le_refl _
  | file name size =>
      simp only [ofReply?, Option.ite_none_right_eq_some, Option.some.injEq, Prod.mk.injEq] at h
      rw [← h.2.2, List.length_drop]
      exact Nat.sub_le _ _

theorem length_next?_lt {stream rest : Bytes} {received : Received}
    (h : next? stream = some (received, rest)) : rest.length < stream.length := by
  simp only [next?, Option.bind_eq_bind, Option.bind_eq_some_iff, Prod.exists] at h
  obtain ⟨line, behind, cut, _, _, reply, _, taken⟩ := h
  exact Nat.lt_of_le_of_lt (length_ofReply?_le taken) (length_cutLine?_lt cut)

/-- Reads replies until the stream is used up. None if it ends within a reply or has a line that
is none. -/
def readAll? (stream : Bytes) : Option (List Received) :=
  if stream = [] then some []
  else
    match h : next? stream with
    | none => none
    | some (received, rest) =>
      have := length_next?_lt h
      (readAll? rest).map (received :: ·)
termination_by stream.length

end Received

end DoorAccess.Wire
