import DoorAccess.Json.Number
import DoorAccess.Toml.Value

/-!
Values that are written in one word: truth values, numbers and points in time. A number may have
single underscores between its digits.
-/
namespace DoorAccess.Toml

/-- Digits of one class with single underscores between them, the underscores left out. -/
def separated? (isMember : Char → Bool) : List Char → Option (List Char)
  | [] => none
  | [c] => if isMember c then some [c] else none
  | c :: '_' :: cs => if isMember c then (separated? isMember cs).map (c :: ·) else none
  | c :: cs => if isMember c then (separated? isMember cs).map (c :: ·) else none

def digitValue (c : Char) : Nat :=
  if c.isDigit then c.toNat - '0'.toNat
  else if c.isUpper then c.toNat - 'A'.toNat + 10
  else c.toNat - 'a'.toNat + 10

def isHexDigit (c : Char) : Bool :=
  c.isDigit || ('a' ≤ c && c ≤ 'f') || ('A' ≤ c && c ≤ 'F')

def isOctalDigit (c : Char) : Bool := '0' ≤ c && c ≤ '7'

def isBinaryDigit (c : Char) : Bool := c == '0' || c == '1'

def valueOf (base : Nat) (digits : List Char) : Nat :=
  digits.foldl (fun n c => base * n + digitValue c) 0

/-- Integers have at most 128 bits. -/
def integerIsHeld (n : Int) : Bool := -(Int.pow 2 127) ≤ n && n < Int.pow 2 128

def based? (base : Nat) (isMember : Char → Bool) (cs : List Char) : Option Int :=
  (separated? isMember cs).map fun digits => (valueOf base digits : Nat)

/-- The digits of a whole part: zero, or digits that do not begin with zero. -/
def whole? (cs : List Char) : Option (List Char) :=
  match separated? Char.isDigit cs with
  | some ['0'] => some ['0']
  | some ('0' :: _) => none
  | digits => digits

def splitSign : List Char → Bool × List Char
  | '-' :: cs => (true, cs)
  | '+' :: cs => (false, cs)
  | cs => (false, cs)

def integer? (cs : List Char) : Option Int :=
  let read :=
    match cs with
    | '0' :: 'x' :: cs => based? 16 isHexDigit cs
    | '0' :: 'o' :: cs => based? 8 isOctalDigit cs
    | '0' :: 'b' :: cs => based? 2 isBinaryDigit cs
    | cs =>
      let (negative, cs) := splitSign cs
      (whole? cs).map fun digits =>
        if negative then -(valueOf 10 digits : Int) else (valueOf 10 digits : Int)
  read.filter integerIsHeld

/-- Whether digits, scaled by a power of ten, round to a finite double. -/
def isFinite (digits : List Char) (power : Int) : Bool :=
  let n := valueOf 10 digits
  let magnitude := (Text.Decimal.digits n).length + power
  if n = 0 ∨ magnitude ≤ 308 then true
  else if 309 < magnitude then false
  else if 0 ≤ power then n * Nat.pow 10 power.toNat < Json.Number.overflowBound
  else n < Json.Number.overflowBound * Nat.pow 10 (-power).toNat

/-- Whether a word behind its sign is a float: a whole part with a fraction, an exponent or
both. -/
def isFloat (cs : List Char) : Bool :=
  let isMark (c : Char) : Bool := c == 'e' || c == 'E'
  let mantissa := cs.takeWhile fun c => !isMark c
  let exponent := (cs.dropWhile fun c => !isMark c).drop 1
  let hasExponent := cs.any isMark
  let whole := mantissa.takeWhile (· ≠ '.')
  let fraction := (mantissa.dropWhile (· ≠ '.')).drop 1
  let hasFraction := mantissa.contains '.'
  let (down, exponentDigits) := splitSign exponent
  match whole? whole, separated? Char.isDigit fraction, separated? Char.isDigit exponentDigits with
  | some w, some f, some e =>
    hasFraction && hasExponent && isFinite (w ++ f) (power down e - f.length)
  | some w, some f, none => hasFraction && !hasExponent && isFinite (w ++ f) (-f.length)
  | some w, none, some e => !hasFraction && hasExponent && isFinite w (power down e)
  | _, _, _ => false
where
  power (down : Bool) (digits : List Char) : Int :=
    if down then -(valueOf 10 digits : Int) else (valueOf 10 digits : Int)

def isSpecialFloat (cs : List Char) : Bool := cs = "inf".toList || cs = "nan".toList

def twoDigits? (low high : Nat) : List Char → Option (Nat × List Char)
  | a :: b :: cs =>
    if a.isDigit ∧ b.isDigit then
      let n := digitValue a * 10 + digitValue b
      if low ≤ n ∧ n ≤ high then some (n, cs) else none
    else none
  | _ => none

def daysIn (year month : Nat) : Nat :=
  if month = 2 then
    if (year % 4 = 0 ∧ year % 100 ≠ 0) ∨ year % 400 = 0 then 29 else 28
  else if month ∈ [4, 6, 9, 11] then 30
  else 31

def afterDate? (cs : List Char) : Option (List Char) := do
  let (century, cs) ← twoDigits? 0 99 cs
  let (year, cs) ← twoDigits? 0 99 cs
  let '-' :: cs := cs | none
  let (month, cs) ← twoDigits? 1 12 cs
  let '-' :: cs := cs | none
  let (_, cs) ← twoDigits? 1 (daysIn (century * 100 + year) month) cs
  return cs

def afterFraction? : List Char → Option (List Char)
  | '.' :: cs => if cs.head?.any Char.isDigit then some (cs.dropWhile Char.isDigit) else none
  | cs => some cs

/-- What follows a time of day. The seconds may be left out. -/
def afterTime? (cs : List Char) : Option (List Char) := do
  let (_, cs) ← twoDigits? 0 23 cs
  let ':' :: cs := cs | none
  let (_, cs) ← twoDigits? 0 59 cs
  match cs with
  | ':' :: cs =>
    let (_, cs) ← twoDigits? 0 60 cs
    afterFraction? cs
  | cs => return cs

def isOffset (cs : List Char) : Bool :=
  match cs with
  | [] | ['Z'] | ['z'] => true
  | sign :: cs =>
    (sign == '+' || sign == '-') &&
      match twoDigits? 0 23 cs with
      | some (_, ':' :: cs) => (twoDigits? 0 59 cs).any (·.2 = [])
      | _ => false

/-- Whether a word is a date, a time of day, or a date with a time of day behind it. -/
def isDatetime (cs : List Char) : Bool :=
  match afterDate? cs with
  | some [] => true
  | some (mark :: cs) =>
    (mark == 'T' || mark == 't' || mark == ' ') && (afterTime? cs).any isOffset
  | none => afterTime? cs = some []

def scalar? (cs : List Char) : Option Value :=
  if cs = "true".toList then some (.boolean true)
  else if cs = "false".toList then some (.boolean false)
  else
    match integer? cs with
    | some n => some (.integer n)
    | none =>
      let unsigned := (splitSign cs).2
      if isFloat unsigned || isSpecialFloat unsigned then some (.float (String.ofList cs))
      else if isDatetime cs then some (.datetime (String.ofList cs))
      else none

end DoorAccess.Toml
