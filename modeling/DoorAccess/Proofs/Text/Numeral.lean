import DoorAccess.Text.Decimal
import Mathlib.Data.List.Induction

/-!
Which texts stand for a number: its decimal digits with any number of zeros in front of them. These
are the texts that are read as the number, and where a sign is allowed also those with a plus sign.
-/
namespace DoorAccess.Text.Decimal

def IsNumeral (n : Nat) (cs : List Char) : Prop :=
  ∃ zeros, cs = List.replicate zeros '0' ++ digits n

theorem isDigit_of_isNumeral {n : Nat} {cs : List Char} (h : IsNumeral n cs) :
    ∀ c ∈ cs, c.isDigit = true := by
  obtain ⟨zeros, rfl⟩ := h
  intro c member
  cases List.mem_append.mp member with
  | inl zero =>
      rw [List.eq_of_mem_replicate zero]
      decide
  | inr digit => exact Nat.isDigit_of_mem_toDigits (by decide) (by decide) digit

theorem ne_nil_of_isNumeral {n : Nat} {cs : List Char} (h : IsNumeral n cs) : cs ≠ [] := by
  obtain ⟨zeros, rfl⟩ := h
  exact List.append_ne_nil_of_right_ne_nil _ Nat.toDigits_ne_nil

theorem ofDigitChars_of_isNumeral {n : Nat} {cs : List Char} (h : IsNumeral n cs) :
    Nat.ofDigitChars 10 cs 0 = n := by
  obtain ⟨zeros, rfl⟩ := h
  rw [Nat.ofDigitChars_append, Nat.ofDigitChars_replicate_zero, Nat.mul_zero, digits,
    Nat.ofDigitChars_ten_toDigits]

theorem exists_digit {c : Char} (h : c.isDigit = true) : ∃ d, d < 10 ∧ digits d = [c] := by
  obtain ⟨low, high⟩ := Char.isDigit_iff_toNat.mp h
  change 48 ≤ c.toNat at low
  change c.toNat ≤ 57 at high
  have small : c.toNat - 48 < 10 := by omega
  have chars : ∀ d < 10, Char.ofNat (48 + d) = d.digitChar := by decide
  refine ⟨c.toNat - 48, small, ?_⟩
  rw [digits, Nat.toDigits_of_lt_base small, ← chars _ small, Nat.add_sub_cancel' low,
    Char.ofNat_toNat]

theorem isNumeral_snoc {n : Nat} {cs : List Char} (h : IsNumeral n cs) {d : Nat} {c : Char}
    (small : d < 10) (digit : digits d = [c]) : IsNumeral (10 * n + d) (cs ++ [c]) := by
  obtain ⟨zeros, rfl⟩ := h
  rcases Nat.eq_zero_or_pos n with rfl | pos
  · refine ⟨zeros + 1, ?_⟩
    have zero : digits 0 = ['0'] := by decide
    rw [Nat.mul_zero, Nat.zero_add, digit, zero, List.replicate_succ']
  · refine ⟨zeros, ?_⟩
    rw [List.append_assoc, ← digit, digits, digits, digits,
      Nat.toDigits_append_toDigits (by decide) pos small]

theorem exists_isNumeral {cs : List Char} (some : cs ≠ []) (all : ∀ c ∈ cs, c.isDigit = true) :
    ∃ n, IsNumeral n cs := by
  induction cs using List.reverseRecOn with
  | nil => exact absurd rfl some
  | append_singleton cs c ih =>
      obtain ⟨d, small, digit⟩ := exists_digit (all c (by simp))
      by_cases first : cs = []
      · subst first
        exact ⟨d, 0, digit.symm⟩
      · obtain ⟨n, numeral⟩ := ih first fun other member => all other (by simp [member])
        exact ⟨10 * n + d, isNumeral_snoc numeral small digit⟩

theorem value?_eq_some_iff {n : Nat} {cs : List Char} : value? cs = some n ↔ IsNumeral n cs := by
  rw [value?]
  constructor
  · intro read
    obtain ⟨⟨some, all⟩, value⟩ := Option.ite_none_right_eq_some.mp read
    obtain ⟨m, numeral⟩ := exists_isNumeral some (List.all_eq_true.mp all)
    rwa [← Option.some.inj value, ofDigitChars_of_isNumeral numeral]
  · intro numeral
    have all := List.all_eq_true.mpr (isDigit_of_isNumeral numeral)
    rw [if_pos ⟨ne_nil_of_isNumeral numeral, all⟩, ofDigitChars_of_isNumeral numeral]

theorem unsigned?_eq_some_iff {limit n : Nat} {cs : List Char} :
    unsigned? limit cs = some n ↔ n ≤ limit ∧ IsNumeral n cs := by
  rw [unsigned?, Option.filter_eq_some_iff, value?_eq_some_iff,
    decide_eq_true_iff, and_comm]

theorem signed?_eq_some_iff {limit n : Nat} {cs : List Char} :
    signed? limit cs = some n ↔
      n ≤ limit ∧ ∃ digits, (cs = digits ∨ cs = '+' :: digits) ∧
        IsNumeral n digits := by
  fun_cases signed? limit cs with
  | case1 digits =>
      rw [unsigned?_eq_some_iff]
      refine and_congr_right fun _ => ⟨fun numeral => ⟨digits, .inr rfl, numeral⟩, ?_⟩
      rintro ⟨found, rfl | same, numeral⟩
      · have sign := isDigit_of_isNumeral numeral '+' List.mem_cons_self
        exact absurd sign (by decide)
      · cases same
        exact numeral
  | case2 _ unsigned =>
      rw [unsigned?_eq_some_iff]
      refine and_congr_right fun _ => ⟨fun numeral => ⟨cs, .inl rfl, numeral⟩, ?_⟩
      rintro ⟨found, rfl | same, numeral⟩
      · exact numeral
      · exact absurd same (unsigned found)

end DoorAccess.Text.Decimal
