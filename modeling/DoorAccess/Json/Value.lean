import DoorAccess.Json.Number

/-!
JSON values as they are written. Strings keep the halves of surrogate pairs that were written as
escapes, objects keep their members in order with all duplicates. A reader decides what of this it
accepts.
-/
namespace DoorAccess.Json

/-- One unit of a string: a character, or half of a surrogate pair. -/
inductive Unit16
  | char (c : Char)
  | surrogate (code : Nat)
deriving DecidableEq, Repr

inductive Value
  | null
  | bool (b : Bool)
  | number (n : Number)
  | string (units : List Unit16)
  | array (items : List Value)
  | object (members : List (List Unit16 × Value))
deriving Repr

namespace Unit16

def isHigh (code : Nat) : Bool := 0xD800 ≤ code && code < 0xDC00

def isLow (code : Nat) : Bool := 0xDC00 ≤ code && code < 0xE000

def combine (high low : Nat) : Char :=
  Char.ofNat (0x10000 + (high - 0xD800) * 0x400 + (low - 0xDC00))

/-- The characters of a string. None if half of a pair stands alone. -/
def decode? : List Unit16 → Option (List Char)
  | [] => some []
  | .char c :: us => (decode? us).map (c :: ·)
  | .surrogate a :: .surrogate b :: us =>
    if isHigh a && isLow b then (decode? us).map (combine a b :: ·) else none
  | .surrogate _ :: _ => none

theorem decode?_map_char (cs : List Char) : decode? (cs.map .char) = some cs := by
  induction cs with
  | nil => rfl
  | cons c cs ih => simp [decode?, ih]

end Unit16

namespace Value

def ofString (s : String) : Value := .string (s.toList.map .char)

def string? : Value → Option String
  | .string us => (Unit16.decode? us).map String.ofList
  | _ => none

def natural? (limit : Nat) : Value → Option Nat
  | .number n => n.natural?.filter (· ≤ limit)
  | _ => none

mutual

def depth : Value → Nat
  | .array items => depthOfItems items + 1
  | .object members => depthOfMembers members + 1
  | _ => 0

def depthOfItems : List Value → Nat
  | [] => 0
  | v :: vs => max v.depth (depthOfItems vs)

def depthOfMembers : List (List Unit16 × Value) → Nat
  | [] => 0
  | (_, v) :: ms => max v.depth (depthOfMembers ms)

end

mutual

def isSound : Value → Bool
  | .null | .bool _ => true
  | .number n => n.isFinite
  | .string us => (Unit16.decode? us).isSome
  | .array items => areSound items
  | .object members => membersAreSound members

def areSound : List Value → Bool
  | [] => true
  | v :: vs => v.isSound && areSound vs

def membersAreSound : List (List Unit16 × Value) → Bool
  | [] => true
  | (key, v) :: ms => (Unit16.decode? key).isSome && v.isSound && membersAreSound ms

end

/-- The deepest nesting of a value that is held in memory as a whole. -/
def maxDepth : Nat := 127

def isAdmissible (v : Value) : Bool := v.depth ≤ maxDepth && v.isSound

end Value

abbrev Fields := List (String × Value)

namespace Fields

def ofMembers? (members : List (List Unit16 × Value)) : Option Fields :=
  members.mapM fun (key, v) => (Unit16.decode? key).map fun cs => (String.ofList cs, v)

/-- Of several members with one key only the last stays. -/
def lastWins : Fields → Fields
  | [] => []
  | (key, v) :: fields =>
    if fields.any (·.1 = key) then lastWins fields else (key, v) :: lastWins fields

def under (fields : Fields) (names : List String) : Fields := fields.filter (·.1 ∈ names)

/-- The one member that has one of the names. None if there is none or more than one. -/
def only? (fields : Fields) (names : List String) : Option Value :=
  match fields.under names with
  | [(_, v)] => some v
  | _ => none

end Fields

end DoorAccess.Json
