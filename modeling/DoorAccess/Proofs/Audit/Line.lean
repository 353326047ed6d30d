import DoorAccess.Audit.Event
import DoorAccess.Proofs.Text.Cut
import Mathlib.Data.List.Basic

/-!
The lines of the logs. Whatever stands in the fields of an event, its line has six columns, which
are found again by splitting it at the semicolons, and ends where a line ends and nowhere before.
-/
namespace DoorAccess.Audit

namespace Moment

def digits : List Char := ['0', '1', '2', '3', '4', '5', '6', '7', '8', '9']

section
variable {P : Char → Prop}

theorem digit_of_forall (digits : ∀ c ∈ digits, P c) (n : Nat) : P (digit n) := by
  have known : ∀ k < 10, Char.ofNat ('0'.toNat + k) ∈ Moment.digits := by decide
  exact digits _ (known (n % 10) (Nat.mod_lt n (by decide)))

theorem date_of_forall (m : Moment) (digits : ∀ c ∈ digits, P c) (slash : P '/') :
    ∀ c ∈ m.date.toList, P c := by
  simp [date, fourDigits, twoDigits, digit_of_forall digits, slash]

theorem time_of_forall (m : Moment) (digits : ∀ c ∈ digits, P c) (colon : P ':') :
    ∀ c ∈ m.time.toList, P c := by
  simp [time, twoDigits, digit_of_forall digits, colon]

theorem dayKey_of_forall (m : Moment) (digits : ∀ c ∈ digits, P c) (line : P '_') :
    ∀ c ∈ m.dayKey.toList, P c := by
  simp [dayKey, fourDigits, twoDigits, digit_of_forall digits, line]

end

end Moment

namespace Line

/-- The characters that end a column or a line. -/
def marks : List Char := [';', '\n', '\r']

/-- A line of a log that spells the columns. -/
structure IsRow (line : List Char) (columns : List (List Char)) : Prop where
  semicolons : line.count ';' = 5
  noReturn : '\r' ∉ line
  newline : line.count '\n' = 1
  ended : line.getLast? = some '\n'
  columns : Text.splitAt (· == ';') line.dropLast = columns

theorem splitAt_join {columns : List (List Char)} (nonempty : columns ≠ [])
    (clean : ∀ column ∈ columns, ';' ∉ column) :
    Text.splitAt (· == ';') (join columns) = columns := by
  induction columns using join.induct with
  | case1 => exact absurd rfl nonempty
  | case2 column => exact Text.splitAt_of_not_mem (clean column (List.mem_singleton_self column))
  | case3 column columns more ih =>
      obtain ⟨here, later⟩ := List.forall_mem_cons.mp clean
      rw [join, Text.splitAt_append (by rfl), Text.splitAt_of_not_mem here, ih more later]
      · rfl
      · exact more

theorem count_join {c : Char} {columns : List (List Char)} (nonempty : columns ≠ [])
    (clean : ∀ column ∈ columns, c ∉ column) :
    (join columns).count c = if c = ';' then columns.length - 1 else 0 := by
  induction columns using join.induct with
  | case1 => exact absurd rfl nonempty
  | case2 column => simp [join, List.count_eq_zero.mpr (clean column (List.mem_singleton_self _))]
  | case3 column columns more ih =>
      obtain ⟨here, later⟩ := List.forall_mem_cons.mp clean
      have some : columns.length ≠ 0 := by simpa using more
      rw [join, List.count_append, List.count_eq_zero.mpr here, List.count_cons, ih more later]
      · by_cases semicolon : c = ';'
        · simp only [semicolon, if_true, beq_self_eq_true, List.length_cons]
          omega
        · simp [semicolon, Ne.symm semicolon]
      · exact more

/-- Six columns without marks make a row. -/
theorem isRow_join {columns : List (List Char)} (six : columns.length = 6)
    (clean : ∀ column ∈ columns, ∀ mark ∈ marks, mark ∉ column) :
    IsRow (join columns ++ ['\n']) columns := by
  have nonempty : columns ≠ [] := by
    rintro rfl
    cases six
  have count {mark : Char} (mem : mark ∈ marks) : (join columns).count mark = _ :=
    count_join nonempty fun column given => clean column given mark mem
  refine ⟨?_, ?_, ?_, by simp, ?_⟩
  · rw [List.count_append, count (by decide), six]
    rfl
  · rw [← List.count_eq_zero, List.count_append, count (by decide)]
    rfl
  · rw [List.count_append, count (by decide)]
    rfl
  · rw [List.dropLast_concat]
    exact splitAt_join nonempty fun column given => clean column given ';' (by decide)

theorem digits_clean : ∀ c ∈ Moment.digits, c ∉ marks := by simp [Moment.digits, marks]

theorem mem_column {field : String} : ∀ c ∈ column field, c ∉ marks := by
  intro c mem isMark
  obtain ⟨original, _, kept⟩ := List.mem_map.mp mem
  split at kept
  · subst kept
    exact absurd isMark (by decide)
  · next plain =>
      subst kept
      exact plain (by simpa [marks] using isMark)

/-- A row for every event: its date and time, and its fields without marks. -/
theorem isRow_ofEvent (now : Moment) (e : Event) : IsRow (ofEvent now e) (columns now e) := by
  have clean : ∀ column ∈ columns now e, ∀ c ∈ column, c ∉ marks := by
    simp only [columns, List.forall_mem_cons]
    exact ⟨now.date_of_forall digits_clean (by decide), now.time_of_forall digits_clean (by decide),
      mem_column, mem_column, mem_column, mem_column, List.forall_mem_nil _⟩
  exact isRow_join rfl fun column given mark isMark mem => clean column given mark mem isMark

theorem isRow_header : IsRow header (["Date", "Time", "Door", "Name", "UserID", "Access"].map
    String.toList) :=
  ⟨by decide, by decide, by decide, by decide, by decide⟩

end Line

end DoorAccess.Audit
