import DoorAccess.Text.Cut
import DoorAccess.Text.Decimal
import DoorAccess.Text.Utf8

/-!
Replies as they are sent: one tagged line each, and after the line of a file its raw bytes.

A text reply is `type:string%%%text`, a file is announced by `type:file%%%name%%%size`. A line
break inside a text is sent as a blank, so that a reply is always one line.
-/
namespace DoorAccess.Wire

inductive Reply
  | text (payload : String)
  | file (name : String) (size : Nat)
deriving DecidableEq, Repr

namespace Reply

def tag : List Char := "type:".toList
def separator : List Char := "%%%".toList

/-- Sizes are 64-bit numbers. -/
def maxSize : Nat := Nat.pow 2 64 - 1

def flatten (cs : List Char) : List Char :=
  cs.map fun c => if c = '\n' ∨ c = '\r' then ' ' else c

/-- The characters of a reply, with the line break that ends it. -/
def line : Reply → List Char
  | text payload => tag ++ "string".toList ++ separator ++ flatten payload.toList ++ ['\n']
  | file name size =>
    tag ++ "file".toList ++ separator ++ name.toList ++ separator ++ Text.Decimal.digits size ++
      ['\n']

def encode (reply : Reply) : Bytes := Text.Utf8.encode reply.line

/-- Reads a line back, given without its line break. The size of a file stands behind the last
separator, so a name may hold separators. -/
def parse? (cs : List Char) : Option Reply := do
  let rest ← tag.isPrefixOf? cs
  let (kind, payload) ← Text.cutFirst separator rest
  if kind = "string".toList then
    return .text (String.ofList payload)
  else if kind = "file".toList then
    let (name, size) ← Text.cutLast separator payload
    return .file (String.ofList name) (← Text.Decimal.signed? maxSize size)
  else
    none

end Reply

end DoorAccess.Wire
