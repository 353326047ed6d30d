import DoorAccess.Proofs.Json.Scalars

/-!
A value is read as it was written, however deep it is nested. A value takes at least one character
and every nesting takes two, so the length of the text is fuel enough.
-/
namespace DoorAccess.Json

mutual

/-- Every string and every number in the value has the form that is read. -/
def Value.WellFormed : Value → Prop
  | .null | .bool _ => True
  | .number n => n.WellFormed
  | .string units => ∀ u ∈ units, u.WellFormed
  | .array items => ItemsWellFormed items
  | .object members => MembersWellFormed members

def ItemsWellFormed : List Value → Prop
  | [] => True
  | v :: vs => v.WellFormed ∧ ItemsWellFormed vs

def MembersWellFormed : List (List Unit16 × Value) → Prop
  | [] => True
  | (key, v) :: ms => (∀ u ∈ key, u.WellFormed) ∧ v.WellFormed ∧ MembersWellFormed ms

end

/-! ### Blanks -/

theorem skipSpace_cons {c : Char} (h : isSpace c = false) (cs : List Char) :
    skipSpace (c :: cs) = c :: cs := by
  rw [skipSpace, List.dropWhile_cons_of_neg (by simp [h])]

theorem skipSpace_lineBreak (indent : Nat) (cs : List Char) :
    skipSpace (lineBreak indent ++ cs) = skipSpace cs := by
  refine List.dropWhile_append_of_pos fun c member => ?_
  rcases List.mem_cons.mp member with rfl | blank
  · rfl
  · rw [List.eq_of_mem_replicate blank]
    rfl

theorem readValue_lineBreak (fuel indent : Nat) (cs : List Char) :
    readValue fuel (lineBreak indent ++ cs) = readValue fuel cs := by
  cases fuel with
  | zero => simp only [readValue]
  | succ fuel => simp only [readValue, skipSpace_lineBreak]

theorem readValue_space (fuel : Nat) (cs : List Char) :
    readValue fuel (' ' :: cs) = readValue fuel cs := by
  cases fuel with
  | zero => simp only [readValue]
  | succ fuel =>
      have skipped : skipSpace (' ' :: cs) = skipSpace cs := by simp [skipSpace, isSpace]
      simp only [readValue, skipped]

theorem readItems_lineBreak (fuel indent : Nat) (cs : List Char) :
    readItems fuel (lineBreak indent ++ cs) = readItems fuel cs := by
  cases fuel with
  | zero => simp only [readItems]
  | succ fuel => simp only [readItems, readValue_lineBreak]

theorem readMembers_lineBreak (fuel indent : Nat) (cs : List Char) :
    readMembers fuel (lineBreak indent ++ cs) = readMembers fuel cs := by
  cases fuel with
  | zero => simp only [readMembers]
  | succ fuel => simp only [readMembers, skipSpace_lineBreak]

/-! ### The first character -/

theorem Number.WellFormed.head_text {n : Number} (wellFormed : n.WellFormed) :
    ∃ c cs, n.text = c :: cs ∧ (c = '-' ∨ c.isDigit) := by
  obtain ⟨d, ds, whole, digit⟩ := wellFormed.head_whole
  cases sign : n.negative with
  | true => exact ⟨'-', _, by rw [Number.text_eq, sign]; rfl, .inl rfl⟩
  | false =>
      refine ⟨d, ds ++ (pointed n.fraction ++ marked n.exponent), ?_, .inr digit⟩
      rw [Number.text_eq, sign, whole]
      simp only [Bool.false_eq_true, if_false, List.nil_append, List.cons_append, List.append_assoc]

theorem of_head_text {c : Char} (h : c = '-' ∨ c.isDigit) :
    isSpace c = false ∧ c ≠ ']' ∧ c ≠ 'n' ∧ c ≠ 't' ∧ c ≠ 'f' ∧ c ≠ '"' ∧ c ≠ '[' ∧ c ≠ '{' := by
  rcases h with rfl | digit
  · decide
  · have not {other : Char} (odd : other.isDigit = false) : c ≠ other := by
      rintro rfl
      rw [digit] at odd
      cases odd
    have noSpace : isSpace c = false := by
      simp only [isSpace, Bool.or_eq_false_iff, beq_eq_false_iff_ne]
      exact ⟨⟨⟨not rfl, not rfl⟩, not rfl⟩, not rfl⟩
    exact ⟨noSpace, not rfl, not rfl, not rfl, not rfl, not rfl, not rfl, not rfl⟩

/-- A value starts with what is neither blank nor the end of an array. -/
theorem head_writeValue (indent : Nat) {v : Value} (wellFormed : v.WellFormed) :
    ∃ c cs, writeValue indent v = c :: cs ∧ isSpace c = false ∧ c ≠ ']' := by
  rcases v with _ | (_ | _) | n | units | (_ | _) | (_ | ⟨⟨_, _⟩, _⟩)
  case number =>
    obtain ⟨c, cs, text, first⟩ := Number.WellFormed.head_text wellFormed
    exact ⟨c, cs, text, (of_head_text first).1, (of_head_text first).2.1⟩
  all_goals exact ⟨_, _, rfl, by decide, by decide⟩

theorem readValue_number {c : Char} (h : c = '-' ∨ c.isDigit) (fuel : Nat) (cs : List Char) :
    readValue (fuel + 1) (c :: cs) = (readNumber (c :: cs)).map fun (n, rest) => (.number n, rest) := by
  obtain ⟨space, _, noNull, noTrue, noFalse, noString, noArray, noObject⟩ := of_head_text h
  rw [readValue, skipSpace_cons space]
  split <;> simp_all

/-! ### Values -/

theorem ends_lineBreak (indent : Nat) (cs : List Char) : Ends (lineBreak indent ++ cs) := by
  intro c first
  cases first
  decide

theorem ends_writeItems (indent outer : Nat) (vs : List Value) (cs : List Char) :
    Ends (writeItems indent vs ++ (lineBreak outer ++ cs)) := by
  cases vs with
  | nil => exact ends_lineBreak outer cs
  | cons v vs =>
      intro c first
      cases first
      decide

theorem ends_writeMembers (indent outer : Nat) (ms : List (List Unit16 × Value)) (cs : List Char) :
    Ends (writeMembers indent ms ++ (lineBreak outer ++ cs)) := by
  cases ms with
  | nil => exact ends_lineBreak outer cs
  | cons m ms =>
      intro c first
      cases first
      decide

theorem readString_writeString {units : List Unit16} (wellFormed : ∀ u ∈ units, u.WellFormed)
    (rest : List Char) :
    readString (units.flatMap writeUnit ++ ['"'] ++ rest) = some (units, rest) := by
  rw [List.append_assoc]
  exact readString_writeUnits wellFormed rest

mutual

theorem readValue_writeValue (indent : Nat) : ∀ (v : Value) (fuel : Nat) (rest : List Char),
    v.WellFormed → Ends rest → (writeValue indent v).length ≤ fuel →
      readValue fuel (writeValue indent v ++ rest) = some (v, rest)
  | .null, fuel + 1, rest, _, _, _ => rfl
  | .bool true, fuel + 1, rest, _, _, _ => rfl
  | .bool false, fuel + 1, rest, _, _, _ => rfl
  | .number n, fuel + 1, rest, wellFormed, ends, _ => by
      obtain ⟨c, cs, text, first⟩ := Number.WellFormed.head_text wellFormed
      have read := readNumber_text wellFormed ends
      rw [writeValue]
      rw [text] at read ⊢
      rw [List.cons_append, readValue_number first, ← List.cons_append, read]
      rfl
  | .string units, fuel + 1, rest, wellFormed, _, _ => by
      have read := readString_writeString wellFormed rest
      simp only [writeValue, writeString, List.cons_append, readValue,
        skipSpace_cons (show isSpace '"' = false by decide), read]
      rfl
  | .array [], fuel + 1, rest, _, _, _ => rfl
  | .array (v :: vs), fuel + 1, rest, wellFormed, _, enough => by
      have items := readItems_writeItems (indent + 1) indent v vs fuel rest wellFormed.1 wellFormed.2
        (by simp [writeValue, lineBreak] at enough; omega)
      obtain ⟨c, cs, text, noSpace, noEnd⟩ := head_writeValue (indent + 1) wellFormed.1
      simp only [writeValue, List.cons_append, List.append_assoc, List.nil_append, readValue,
        skipSpace_cons (show isSpace '[' = false by decide), skipSpace_lineBreak]
      rw [text] at items ⊢
      rw [List.cons_append, skipSpace_cons noSpace, ← List.cons_append]
      split
      · next same => exact absurd (List.cons.inj same).1 noEnd
      · rw [items]
        rfl
  | .object [], fuel + 1, rest, _, _, _ => rfl
  | .object ((key, v) :: ms), fuel + 1, rest, wellFormed, _, enough => by
      have members := readMembers_writeMembers (indent + 1) indent key v ms fuel rest wellFormed.1
        wellFormed.2.1 wellFormed.2.2
        (by simp [writeValue, writeString, lineBreak] at enough; omega)
      simp only [writeValue, writeString, List.cons_append, List.append_assoc, List.nil_append,
        readValue, skipSpace_cons (show isSpace '\x7b' = false by decide), skipSpace_lineBreak,
        skipSpace_cons (show isSpace '"' = false by decide)] at members ⊢
      split
      · next same => exact absurd (List.cons.inj same).1 (by decide)
      · rw [members]
        rfl
  | v, 0, rest, wellFormed, _, enough => by
      obtain ⟨c, cs, text, _⟩ := head_writeValue indent wellFormed
      simp [text] at enough
termination_by structural _ fuel => fuel

theorem readItems_writeItems (indent outer : Nat) : ∀ (v : Value) (vs : List Value) (fuel : Nat)
    (rest : List Char), v.WellFormed → ItemsWellFormed vs →
      (writeValue indent v).length + (writeItems indent vs).length < fuel →
      readItems fuel (writeValue indent v ++ (writeItems indent vs ++
        (lineBreak outer ++ ']' :: rest))) = some (v :: vs, rest)
  | v, vs, 0, rest, _, _, enough => by omega
  | v, [], fuel + 1, rest, wellFormed, _, enough => by
      have first := readValue_writeValue indent v fuel (lineBreak outer ++ ']' :: rest) wellFormed
        (ends_lineBreak outer _) (by omega)
      simp only [writeItems, List.nil_append, readItems, first, Option.bind_eq_bind,
        Option.bind_some, skipSpace_lineBreak, skipSpace_cons (show isSpace ']' = false by decide)]
      rfl
  | v, w :: ws, fuel + 1, rest, wellFormed, others, enough => by
      have first := readValue_writeValue indent v fuel
        (writeItems indent (w :: ws) ++ (lineBreak outer ++ ']' :: rest)) wellFormed
        (ends_writeItems indent outer _ _) (by omega)
      have more := readItems_writeItems indent outer w ws fuel rest others.1 others.2
        (by simp [writeItems] at enough; omega)
      simp only [readItems, first, Option.bind_eq_bind, Option.bind_some]
      simp only [writeItems, List.cons_append, List.append_assoc,
        skipSpace_cons (show isSpace ',' = false by decide), readItems_lineBreak, more,
        Option.bind_some]
      rfl
termination_by structural _ _ fuel => fuel

theorem readMembers_writeMembers (indent outer : Nat) : ∀ (key : List Unit16) (v : Value)
    (ms : List (List Unit16 × Value)) (fuel : Nat) (rest : List Char),
    (∀ u ∈ key, u.WellFormed) → v.WellFormed → MembersWellFormed ms →
      (writeValue indent v).length + (writeMembers indent ms).length < fuel →
      readMembers fuel (writeString key ++ ':' :: ' ' :: (writeValue indent v ++
        (writeMembers indent ms ++ (lineBreak outer ++ '}' :: rest)))) =
        some ((key, v) :: ms, rest)
  | key, v, ms, 0, rest, _, _, _, enough => by omega
  | key, v, [], fuel + 1, rest, named, wellFormed, _, enough => by
      have first := readValue_writeValue indent v fuel (lineBreak outer ++ '}' :: rest) wellFormed
        (ends_lineBreak outer _) (by omega)
      simp only [writeString, List.cons_append, List.append_assoc, List.nil_append, readMembers,
        skipSpace_cons (show isSpace '"' = false by decide), readString_writeUnits named,
        Option.bind_eq_bind, Option.bind_some, skipSpace_cons (show isSpace ':' = false by decide),
        readValue_space, writeMembers, first, skipSpace_lineBreak,
        skipSpace_cons (show isSpace '}' = false by decide)]
      rfl
  | key, v, (other, w) :: ms, fuel + 1, rest, named, wellFormed, others, enough => by
      have first := readValue_writeValue indent v fuel
        (writeMembers indent ((other, w) :: ms) ++ (lineBreak outer ++ '}' :: rest)) wellFormed
        (ends_writeMembers indent outer _ _) (by omega)
      have more := readMembers_writeMembers indent outer other w ms fuel rest others.1 others.2.1
        others.2.2 (by simp [writeMembers] at enough; omega)
      simp only [writeString, List.cons_append, List.append_assoc, List.nil_append, readMembers,
        skipSpace_cons (show isSpace '"' = false by decide), readString_writeUnits named,
        Option.bind_eq_bind, Option.bind_some, skipSpace_cons (show isSpace ':' = false by decide),
        readValue_space, first] at more ⊢
      simp only [writeMembers, writeString, List.cons_append, List.append_assoc, List.nil_append,
        skipSpace_cons (show isSpace ',' = false by decide), readMembers_lineBreak, more,
        Option.bind_some]
      rfl
termination_by structural _ _ _ fuel => fuel

end

/-- The text of a value and a line end is the text of this value. -/
theorem parse?_writeValue {v : Value} (wellFormed : v.WellFormed) :
    parse? (String.ofList (writeValue 0 v ++ ['\n'])) = some v := by
  have ends : Ends ['\n'] := by
    intro c first
    cases first
    decide
  have read := readValue_writeValue 0 v (2 * (writeValue 0 v ++ ['\n']).length + 1) ['\n'] wellFormed
    ends (by simp; omega)
  simp only [parse?, String.toList_ofList, read, Option.bind_eq_bind, Option.bind_some]
  rfl

end DoorAccess.Json
