import DoorAccess.Json.Value

/-!
Writing JSON text: each item and each member on a line of its own, two blanks deeper than what
holds it. What is empty is written on one line.
-/
namespace DoorAccess.Json

def hexChar (n : Nat) : Char := "0123456789abcdef".toList.getD n '0'

def hexEscape (code : Nat) : List Char :=
  ['\\', 'u', hexChar (code / 4096 % 16), hexChar (code / 256 % 16), hexChar (code / 16 % 16),
    hexChar (code % 16)]

/-- Quotes, backslashes and control characters are escaped, nothing else is. -/
def writeChar (c : Char) : List Char :=
  if c = '"' then ['\\', '"']
  else if c = '\\' then ['\\', '\\']
  else if c = '\n' then ['\\', 'n']
  else if c = '\r' then ['\\', 'r']
  else if c = '\t' then ['\\', 't']
  else if c.toNat = 8 then ['\\', 'b']
  else if c.toNat = 12 then ['\\', 'f']
  else if c.toNat < 0x20 then hexEscape c.toNat
  else [c]

def writeUnit : Unit16 → List Char
  | .char c => writeChar c
  | .surrogate code => hexEscape code

def writeString (units : List Unit16) : List Char := '"' :: units.flatMap writeUnit ++ ['"']

def lineBreak (indent : Nat) : List Char := '\n' :: List.replicate (2 * indent) ' '

mutual

def writeValue (indent : Nat) : Value → List Char
  | .null => "null".toList
  | .bool true => "true".toList
  | .bool false => "false".toList
  | .number n => n.text
  | .string units => writeString units
  | .array [] => ['[', ']']
  | .array (v :: vs) =>
    '[' :: lineBreak (indent + 1) ++ writeValue (indent + 1) v ++ writeItems (indent + 1) vs ++
      lineBreak indent ++ [']']
  | .object [] => ['{', '}']
  | .object ((key, v) :: ms) =>
    '{' :: lineBreak (indent + 1) ++ writeString key ++ [':', ' '] ++ writeValue (indent + 1) v ++
      writeMembers (indent + 1) ms ++ lineBreak indent ++ ['}']

def writeItems (indent : Nat) : List Value → List Char
  | [] => []
  | v :: vs => ',' :: lineBreak indent ++ writeValue indent v ++ writeItems indent vs

def writeMembers (indent : Nat) : List (List Unit16 × Value) → List Char
  | [] => []
  | (key, v) :: ms =>
    ',' :: lineBreak indent ++ writeString key ++ [':', ' '] ++ writeValue indent v ++
      writeMembers indent ms

end

end DoorAccess.Json
