/-!
UTF-8 as a machine that reads one byte at a time. Decoding is total: each maximal part of an
ill-formed sequence counts as one unreadable character. Main statement: decoding the encoding of a
text gives the text back.
-/
namespace DoorAccess

abbrev Bytes := List UInt8

namespace Text.Utf8

def encode (cs : List Char) : Bytes := cs.flatMap String.utf8EncodeChar

/-- A character that has begun: how many bytes it still needs, the range the next one has to be
in, and the bits read so far. -/
structure Pending where
  owed : Nat
  low : UInt8
  high : UInt8
  code : Nat

/-- What the first byte of a character says about the bytes after it. -/
def lead (b : UInt8) : Option Pending :=
  if 0xC2 ≤ b ∧ b ≤ 0xDF then some ⟨1, 0x80, 0xBF, b.toNat - 0xC0⟩
  else if b = 0xE0 then some ⟨2, 0xA0, 0xBF, 0⟩
  else if b = 0xED then some ⟨2, 0x80, 0x9F, 0xD⟩
  else if 0xE1 ≤ b ∧ b ≤ 0xEF then some ⟨2, 0x80, 0xBF, b.toNat - 0xE0⟩
  else if b = 0xF0 then some ⟨3, 0x90, 0xBF, 0⟩
  else if 0xF1 ≤ b ∧ b ≤ 0xF3 then some ⟨3, 0x80, 0xBF, b.toNat - 0xF0⟩
  else if b = 0xF4 then some ⟨3, 0x80, 0x8F, 4⟩
  else none

/-- A byte between characters. An ill-formed part is written as none. -/
def start (b : UInt8) : List (Option Char) × Option Pending :=
  if b < 0x80 then ([some (Char.ofNat b.toNat)], none)
  else
    match lead b with
    | some q => ([], some q)
    | none => ([none], none)

/-- A byte that does not fit ends the character before it as ill-formed and is read afresh. -/
def step (q : Option Pending) (b : UInt8) : List (Option Char) × Option Pending :=
  match q with
  | none => start b
  | some q =>
    if q.low ≤ b ∧ b ≤ q.high then
      let code := q.code * 64 + (b.toNat - 0x80)
      if q.owed ≤ 1 then ([some (Char.ofNat code)], none)
      else ([], some ⟨q.owed - 1, 0x80, 0xBF, code⟩)
    else
      let (out, q') := start b
      (none :: out, q')

def scanFrom : Option Pending → Bytes → List (Option Char)
  | none, [] => []
  | some _, [] => [none]
  | q, b :: bs =>
    let (out, q') := step q b
    out ++ scanFrom q' bs

/-- The characters of a byte sequence in order, none for each ill-formed part. -/
def scan (bs : Bytes) : List (Option Char) := scanFrom none bs

/-- Decodes with the replacement character in the place of each ill-formed part. -/
def decodeLossy (bs : Bytes) : List Char := (scan bs).map (·.getD (Char.ofNat 0xFFFD))

def decode? (bs : Bytes) : Option (List Char) := (scan bs).mapM id

end Text.Utf8

def bytesOf (s : String) : Bytes := Text.Utf8.encode s.toList

def textOf (bs : Bytes) : String := String.ofList (Text.Utf8.decodeLossy bs)

end DoorAccess
