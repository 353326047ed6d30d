import DoorAccess.Wire.Decoder

/-!
The frames of a whole byte stream, found by cutting it at each line feed. This is what a decoder
has to find in the stream however it arrives.
-/
namespace DoorAccess.Wire.Lines

def split : Bytes → List Bytes × Bytes
  | [] => ([], [])
  | b :: bs =>
    match b == newline, split bs with
    | true, (lines, tail) => ([] :: lines, tail)
    | false, ([], tail) => ([], b :: tail)
    | false, (line :: lines, tail) => ((b :: line) :: lines, tail)

/-- The frames up to the first line that is too long, and the failure if there is such a line. -/
structure Reading where
  frames : List String
  failure : Option AccessError

def readFrom (maxLength : Nat) (tail : Bytes) : List Bytes → Reading
  | [] => ⟨[], if maxLength < tail.length then some (.frameTooLong maxLength) else none⟩
  | line :: lines =>
    if maxLength < line.length then ⟨[], some (.frameTooLong maxLength)⟩
    else
      let rest := readFrom maxLength tail lines
      ⟨frameOf line :: rest.frames, rest.failure⟩

def read (maxLength : Nat) (stream : Bytes) : Reading :=
  let (lines, tail) := split stream
  readFrom maxLength tail lines

end DoorAccess.Wire.Lines
