import DoorAccess.Wire.Lines

/-!
The bytes that have arrived on a connection and the frames in them. Frames are taken as soon as
they are complete; after a line that is too long nothing is taken any more.
-/
namespace DoorAccess.Wire

namespace Decoder

theorem attempt_of_outcome {d : Decoder} {buffer : Bytes} (ended : Bool)
    (h : (d.decode buffer).outcome ≠ .ok none) : d.attempt ended buffer = d.decode buffer := by
  cases ended with
  | false => rfl
  | true => simp only [attempt, if_true, decodeEnd]

theorem length_decode_lt {d : Decoder} {buffer : Bytes} {frame : String}
    (h : (d.decode buffer).outcome = .ok (some frame)) :
    (d.decode buffer).buffer.length < buffer.length := by
  cases buffer with
  | nil => simp [decode, newlineAt?] at h
  | cons b bs =>
    revert h
    rw [decode]
    split
    · split
      · intro h; cases h
      · intro _; simp only [List.length_drop, List.length_cons]; omega
    · split <;> intro h <;> cases h

theorem length_attempt_lt {d : Decoder} {buffer : Bytes} {ended : Bool} {frame : String}
    (h : (d.attempt ended buffer).outcome = .ok (some frame)) :
    (d.attempt ended buffer).buffer.length < buffer.length := by
  by_cases nothing : (d.decode buffer).outcome = .ok none
  · cases ended with
    | false => rw [attempt, if_neg (by decide), nothing] at h; cases h
    | true => simp [attempt, decodeEnd, nothing] at h
  · rw [attempt_of_outcome ended nothing] at h ⊢
    exact length_decode_lt h

end Decoder

structure Inbox where
  decoder : Decoder
  buffer : Bytes := []
deriving DecidableEq, Repr

/-- The frames that were complete, the failure that ended the reading if there was one, and what is
left. -/
structure Reading where
  frames : List String
  failure : Option AccessError
  inbox : Inbox

namespace Inbox

def new (maxLength : Nat) : Inbox := ⟨.new maxLength, []⟩

/-- Takes frames until there is no complete one or a line is too long. At the end of the stream
what is not ended is dropped. -/
def drain (ended : Bool) (d : Decoder) (buffer : Bytes) : Reading :=
  let a := d.attempt ended buffer
  match h : a.outcome with
  | .error e => ⟨[], some e, ⟨a.decoder, a.buffer⟩⟩
  | .ok none => ⟨[], none, ⟨a.decoder, a.buffer⟩⟩
  | .ok (some frame) =>
    have := Decoder.length_attempt_lt h
    let rest := drain ended a.decoder a.buffer
    { rest with frames := frame :: rest.frames }
termination_by buffer.length

def receive (i : Inbox) (chunk : Bytes) : Reading := drain false i.decoder (i.buffer ++ chunk)

/-- Takes the last frames when no more bytes will come. -/
def finish (i : Inbox) : Reading := drain true i.decoder i.buffer

/-- The frames of a stream that arrives in chunks and then ends. -/
def readChunks (i : Inbox) : List Bytes → Lines.Reading
  | [] => ⟨i.finish.frames, i.finish.failure⟩
  | chunk :: chunks =>
    let r := i.receive chunk
    match r.failure with
    | some e => ⟨r.frames, some e⟩
    | none =>
      let rest := readChunks r.inbox chunks
      ⟨r.frames ++ rest.frames, rest.failure⟩

end Inbox

end DoorAccess.Wire
