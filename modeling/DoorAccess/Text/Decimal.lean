/-!
Natural numbers in decimal. Reading allows leading zeros, and one plus sign where a sign is
allowed; writing uses neither. Main statement: a written number reads back as itself.
-/
namespace DoorAccess.Text.Decimal

def digits (n : Nat) : List Char := Nat.toDigits 10 n

/-- The value of a text made of one or more ASCII digits. -/
def value? (cs : List Char) : Option Nat :=
  if cs ≠ [] ∧ cs.all Char.isDigit then some (Nat.ofDigitChars 10 cs 0) else none

def unsigned? (limit : Nat) (cs : List Char) : Option Nat :=
  (value? cs).filter (· ≤ limit)

/-- A number of at most the limit; one plus sign may stand in front of it. -/
def signed? (limit : Nat) : List Char → Option Nat
  | '+' :: cs => unsigned? limit cs
  | cs => unsigned? limit cs

theorem value?_digits (n : Nat) : value? (digits n) = some n := by
  have all : (digits n).all Char.isDigit := by
    rw [List.all_eq_true]
    intro c hc
    exact Nat.isDigit_of_mem_toDigits (by decide) (by decide) hc
  rw [value?, if_pos ⟨Nat.toDigits_ne_nil, all⟩, digits, Nat.ofDigitChars_ten_toDigits]

end DoorAccess.Text.Decimal
