import DoorAccess.Text.Blank
import DoorAccess.Text.Cut
import Mathlib.Data.List.Basic

/-!
Where a text is cut. It is cut at a given separator when none stands further in front, or further
behind; a part without the character that a separator begins with holds no separator. A text that
is split at every separator falls apart into the pieces of what stands before and behind any one.
-/
namespace DoorAccess.Text

section
variable {c : Char} {cs : List Char}

theorem cutFirst_append {before : List Char} (foreign : c ∉ before) (after : List Char) :
    cutFirst (c :: cs) (before ++ (c :: cs ++ after)) = some (before, after) := by
  induction before with
  | nil =>
      have here : (c :: cs).isPrefixOf? (c :: cs ++ after) = some after :=
        List.isPrefixOf?_eq_some_iff_append_eq.mpr rfl
      rw [List.nil_append, List.cons_append, cutFirst, ← List.cons_append, here]
  | cons b bs ih =>
      obtain ⟨other, foreign⟩ := List.ne_and_not_mem_of_not_mem_cons foreign
      simp only [List.cons_append, cutFirst, List.isPrefixOf?, beq_false_of_ne other]
      rw [← List.cons_append, ih foreign]
      rfl

theorem cutLast_eq_none {text : List Char} (absent : ¬ c :: cs <:+: text) :
    cutLast (c :: cs) text = none := by
  induction text with
  | nil => simp [cutLast]
  | cons b bs ih =>
      have later : cutLast (c :: cs) bs = none :=
        ih fun found => absent (List.infix_cons_iff.mpr (.inr found))
      have here : (c :: cs).isPrefixOf? (b :: bs) = none := by
        rw [Option.eq_none_iff_forall_ne_some]
        intro after found
        have whole := List.isPrefixOf?_eq_some_iff_append_eq.mp found
        exact absent (List.IsPrefix.isInfix ⟨after, whole⟩)
      rw [cutLast, later, here]
      rfl

theorem cutLast_append (before : List Char) {after : List Char} (last : ¬ c :: cs <:+: cs ++ after) :
    cutLast (c :: cs) (before ++ (c :: cs ++ after)) = some (before, after) := by
  induction before with
  | nil =>
      have here : (c :: cs).isPrefixOf? (c :: cs ++ after) = some after :=
        List.isPrefixOf?_eq_some_iff_append_eq.mpr rfl
      rw [List.nil_append, List.cons_append, cutLast, cutLast_eq_none last, ← List.cons_append, here]
      rfl
  | cons b bs ih =>
      rw [List.cons_append, cutLast, ih]

end

theorem splitAt_of_not_mem {separator : Char} {cs : List Char} (absent : separator ∉ cs) :
    splitAt (· == separator) cs = [cs] := by
  induction cs with
  | nil => rfl
  | cons c cs ih =>
      obtain ⟨other, later⟩ := List.ne_and_not_mem_of_not_mem_cons absent
      simp only [splitAt, beq_false_of_ne (Ne.symm other), ih later]
      rfl

theorem splitAt_append {isSeparator : Char → Bool} {c : Char} (separates : isSeparator c = true)
    (before after : List Char) : splitAt isSeparator (before ++ c :: after) =
      splitAt isSeparator before ++ splitAt isSeparator after := by
  induction before with
  | nil => simp [splitAt, separates]
  | cons b bs ih =>
      simp only [List.cons_append, splitAt, ih]
      split
      · rfl
      · cases pieces : splitAt isSeparator bs with
        | nil => exact absurd pieces (splitAt_ne_nil isSeparator bs)
        | cons piece pieces => rfl

end DoorAccess.Text
