import DoorAccess.Text.Decimal

/-!
Numbers as JSON writes them, kept digit by digit, and whether a number is small enough to be held
in binary floating point.
-/
namespace DoorAccess.Json

/-- A number literal. The fraction has no digits when there is no point. -/
structure Number where
  negative : Bool := false
  whole : List Char
  fraction : List Char := []
  /-- Whether the exponent is negative, and its digits. -/
  exponent : Option (Bool × List Char) := none
deriving DecidableEq, Repr

namespace Number

def ofNat (n : Nat) : Number := { whole := Text.Decimal.digits n }

def isInteger (n : Number) : Bool := n.fraction.isEmpty && n.exponent.isNone

/-- The value of a literal that is written as a natural number without sign. -/
def natural? (n : Number) : Option Nat :=
  if n.isInteger && !n.negative then Text.Decimal.value? n.whole else none

/-- Rounds to 53 significant bits, a tie to the even neighbour. -/
def roundToDouble (n : Nat) : Nat :=
  if n.log2 < 53 then n
  else
    let unit := Nat.pow 2 (n.log2 - 52)
    let (whole, part) := (n / unit, n % unit)
    if 2 * part < unit ∨ (2 * part = unit ∧ whole % 2 = 0) then whole * unit
    else (whole + 1) * unit

/-- What rounds to a value above the largest finite double. -/
def overflowBound : Nat := Nat.pow 2 1024 - Nat.pow 2 970

/-- Reads digits into an accumulator while it fits 64 bits, and gives the digits left over. -/
def accumulate : Nat → List Char → Nat × List Char
  | n, [] => (n, [])
  | n, c :: cs =>
    let n' := 10 * n + (c.toNat - '0'.toNat)
    if n' < Nat.pow 2 64 then accumulate n' cs else (n, c :: cs)

/-- The digits that are kept and the power of ten they are scaled by. -/
def scaled (n : Number) : Nat × Int :=
  let (kept, cutWhole) := accumulate 0 n.whole
  let (kept, cutFraction) := accumulate kept n.fraction
  let shift : Int := cutWhole.length - (n.fraction.length - cutFraction.length : Nat)
  match n.exponent with
  | none => (kept, shift)
  | some (true, ds) => (kept, shift - Nat.ofDigitChars 10 ds 0)
  | some (false, ds) => (kept, shift + Nat.ofDigitChars 10 ds 0)

/-- Whether the number is finite as a double: its kept digits and the power of ten are rounded
before they are multiplied. -/
def isFinite (n : Number) : Bool :=
  match n.scaled with
  | (0, _) => true
  | (kept, .ofNat power) =>
    power ≤ 308 && roundToDouble kept * roundToDouble (Nat.pow 10 power) < overflowBound
  | (_, .negSucc _) => true

def text (n : Number) : List Char :=
  (if n.negative then ['-'] else []) ++ n.whole ++
    (if n.fraction.isEmpty then [] else '.' :: n.fraction) ++
    match n.exponent with
    | none => []
    | some (true, ds) => 'e' :: '-' :: ds
    | some (false, ds) => 'e' :: ds

end Number

end DoorAccess.Json
