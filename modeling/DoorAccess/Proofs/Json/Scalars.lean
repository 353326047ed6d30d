import DoorAccess.Json.Parser
import DoorAccess.Json.Printer

/-!
Strings and numbers are read as they were written. A string ends at its quote; a number ends where
no digit, point or exponent follows.
-/
namespace DoorAccess.Json

/-! ### Strings -/

/-- Every unit that is not a character is half of a surrogate pair. -/
def Unit16.WellFormed : Unit16 → Prop
  | .char _ => True
  | .surrogate code => 0xD800 ≤ code ∧ code < 0xE000

theorem hexDigit?_hexChar : ∀ n < 16, hexDigit? (hexChar n) = some n := by decide

theorem unit?_hexEscape {code : Nat} (h : code < 0x10000) :
    unit? (hexChar (code / 4096 % 16)) (hexChar (code / 256 % 16)) (hexChar (code / 16 % 16))
        (hexChar (code % 16)) =
      some (if 0xD800 ≤ code ∧ code < 0xE000 then .surrogate code else .char (Char.ofNat code)) := by
  have digits : ((code / 4096 % 16 * 16 + code / 256 % 16) * 16 + code / 16 % 16) * 16 + code % 16 =
      code := by omega
  simp only [unit?, hexDigit?_hexChar _ (Nat.mod_lt _ (by decide : 0 < 16)), Option.bind_eq_bind,
    Option.bind_some, digits]
  rfl

theorem readString_hexEscape {code : Nat} (h : code < 0x10000) (cs : List Char) :
    readString (hexEscape code ++ cs) = (readString cs).map fun (units, rest) =>
      ((if 0xD800 ≤ code ∧ code < 0xE000 then .surrogate code else .char (Char.ofNat code)) :: units,
        rest) := by
  simp only [hexEscape, List.cons_append, List.nil_append, readString, unit?_hexEscape h]
  rcases readString cs with _ | ⟨_, _⟩ <;> rfl

theorem readString_plain {c : Char} (quote : c ≠ '"') (slash : c ≠ '\\') (control : ¬ c.toNat < 0x20)
    (cs : List Char) :
    readString (c :: cs) = (readString cs).map fun (units, rest) => (.char c :: units, rest) := by
  rw [readString.eq_5 c cs quote (fun _ _ _ _ _ same => absurd same slash)
    (fun _ _ same => absurd same slash), if_neg control]
  rcases readString cs with _ | ⟨_, _⟩ <;> rfl

theorem readString_escape {c c' : Char} (other : c ≠ 'u') (escaped : escaped? c = some c')
    (cs : List Char) :
    readString ('\\' :: c :: cs) =
      (readString cs).map fun (units, rest) => (.char c' :: units, rest) := by
  rw [readString.eq_4 c cs (fun _ _ _ _ _ same => absurd same other), escaped]
  rcases readString cs with _ | ⟨_, _⟩ <;> rfl

theorem readString_writeChar (c : Char) (cs : List Char) :
    readString (writeChar c ++ cs) =
      (readString cs).map fun (units, rest) => (.char c :: units, rest) := by
  have back : Char.ofNat c.toNat = c := Char.ofNat_toNat c
  rw [writeChar]
  split
  · next same => subst c; exact readString_escape (by decide) rfl cs
  split
  · next same => subst c; exact readString_escape (by decide) rfl cs
  split
  · next same => subst c; exact readString_escape (by decide) rfl cs
  split
  · next same => subst c; exact readString_escape (by decide) rfl cs
  split
  · next same => subst c; exact readString_escape (by decide) rfl cs
  split
  · next same =>
      rw [← back, same]
      exact readString_escape (by decide) rfl cs
  split
  · next same =>
      rw [← back, same]
      exact readString_escape (by decide) rfl cs
  split
  · next control =>
      have below : ¬ (0xD800 ≤ c.toNat ∧ c.toNat < 0xE000) := by omega
      rw [readString_hexEscape (by omega)]
      simp only [below, if_false, back]
  · next quote slash _ _ _ _ _ control => exact readString_plain quote slash control cs

theorem readString_writeUnit {u : Unit16} (wellFormed : u.WellFormed) (cs : List Char) :
    readString (writeUnit u ++ cs) = (readString cs).map fun (units, rest) => (u :: units, rest) := by
  cases u with
  | char c => exact readString_writeChar c cs
  | surrogate code =>
      have half : 0xD800 ≤ code ∧ code < 0xE000 := wellFormed
      rw [writeUnit, readString_hexEscape (by omega)]
      simp only [half, and_self, if_true]

theorem readString_writeUnits {units : List Unit16} (wellFormed : ∀ u ∈ units, u.WellFormed)
    (rest : List Char) : readString (units.flatMap writeUnit ++ '"' :: rest) = some (units, rest) := by
  induction units with
  | nil => simp [readString]
  | cons u units ih =>
      rw [List.flatMap_cons, List.append_assoc, readString_writeUnit (wellFormed u (by simp)),
        ih fun v member => wellFormed v (by simp [member])]
      rfl

/-! ### Numbers -/

def AreDigits (cs : List Char) : Prop := ∀ c ∈ cs, c.isDigit

/-- The literal has the form that is read: no needless zero in front, digits where there must be
some. -/
structure Number.WellFormed (n : Number) : Prop where
  whole : n.whole = ['0'] ∨ (AreDigits n.whole ∧ n.whole ≠ [] ∧ n.whole.head? ≠ some '0')
  fraction : AreDigits n.fraction
  exponent : ∀ negative ds, n.exponent = some (negative, ds) → AreDigits ds ∧ ds ≠ []

theorem head?_digits {n : Nat} (positive : 0 < n) : (Text.Decimal.digits n).head? ≠ some '0' := by
  induction n using Nat.strongRecOn with
  | ind n ih =>
      rw [Text.Decimal.digits, Nat.toDigits_eq_if (by decide)]
      split
      · next single =>
          have digit : ∀ d < 10, 0 < d → Nat.digitChar d ≠ '0' := by decide
          simpa using digit n single positive
      · have earlier := ih (n / 10) (by omega) (by omega)
        rw [Text.Decimal.digits] at earlier
        cases leading : Nat.toDigits 10 (n / 10) with
        | nil => exact absurd leading Nat.toDigits_ne_nil
        | cons d ds =>
            rw [leading] at earlier
            exact earlier

theorem Number.wellFormed_ofNat (n : Nat) : (Number.ofNat n).WellFormed where
  whole := by
    rcases Nat.eq_zero_or_pos n with rfl | positive
    · exact .inl rfl
    · refine .inr ⟨fun c member => ?_, Nat.toDigits_ne_nil, head?_digits positive⟩
      exact Nat.isDigit_of_mem_toDigits (by decide) (by decide) member
  fraction := nofun
  exponent := nofun

/-- A number that stands in front of this is ended. -/
def Ends (rest : List Char) : Prop :=
  ∀ c ∈ rest.head?, c.isDigit = false ∧ c ≠ '.' ∧ c ≠ 'e' ∧ c ≠ 'E'

theorem readDigits_append {ds rest : List Char} (digits : AreDigits ds) (some : ds ≠ [])
    (ends : ∀ c ∈ rest.head?, c.isDigit = false) :
    readDigits (ds ++ rest) = .some (ds, rest) := by
  have taken : rest.takeWhile Char.isDigit = [] := by
    cases rest with
    | nil => rfl
    | cons c rest => simp [ends c rfl]
  have dropped : rest.dropWhile Char.isDigit = rest := by
    cases rest with
    | nil => rfl
    | cons c rest => simp [ends c rfl]
  rw [readDigits, List.takeWhile_append_of_pos digits, List.dropWhile_append_of_pos digits, taken,
    dropped, List.append_nil]
  split
  · contradiction
  · rfl

theorem readWhole_append {ds rest : List Char}
    (whole : ds = ['0'] ∨ (AreDigits ds ∧ ds ≠ [] ∧ ds.head? ≠ some '0'))
    (ends : ∀ c ∈ rest.head?, c.isDigit = false) : readWhole (ds ++ rest) = some (ds, rest) := by
  cases whole with
  | inl zero =>
      subst zero
      rfl
  | inr whole =>
      obtain ⟨digits, present, noZero⟩ := whole
      cases ds with
      | nil => exact absurd rfl present
      | cons d ds =>
          have other : d ≠ '0' := fun same => noZero (by rw [same]; rfl)
          rw [List.cons_append, readWhole.eq_2 _ (fun _ same => other (List.cons.inj same).1),
            ← List.cons_append]
          exact readDigits_append digits present ends

/-- What is written of a fraction and of an exponent. -/
def pointed (fraction : List Char) : List Char :=
  if fraction.isEmpty then [] else '.' :: fraction

def marked (exponent : Option (Bool × List Char)) : List Char :=
  match exponent with
  | none => []
  | some (true, ds) => 'e' :: '-' :: ds
  | some (false, ds) => 'e' :: ds

theorem Number.text_eq (n : Number) :
    n.text = (if n.negative then ['-'] else []) ++ n.whole ++ pointed n.fraction ++
      marked n.exponent := rfl

theorem readExponent_marked {exponent : Option (Bool × List Char)}
    (digits : ∀ negative ds, exponent = some (negative, ds) → AreDigits ds ∧ ds ≠ [])
    {rest : List Char} (ends : Ends rest) :
    readExponent (marked exponent ++ rest) = some (exponent, rest) := by
  have ended : ∀ c ∈ rest.head?, c.isDigit = false := fun c first => (ends c first).1
  rcases exponent with _ | ⟨_ | _, ds⟩
  · cases rest with
    | nil => rfl
    | cons c rest =>
        have noMark : ¬ (c = 'e' ∨ c = 'E') := by
          have first := ends c rfl
          rintro (same | same)
          · exact first.2.2.1 same
          · exact first.2.2.2 same
        simp only [marked, List.nil_append, readExponent, noMark, if_false]
  · obtain ⟨all, present⟩ := digits false ds rfl
    cases ds with
    | nil => exact absurd rfl present
    | cons d ds =>
        have digit : d.isDigit := all d (by simp)
        simp only [marked, List.cons_append, readExponent, true_or, if_true]
        split
        · next same => rw [(List.cons.inj same).1] at digit; exact absurd digit (by decide)
        · next same => rw [(List.cons.inj same).1] at digit; exact absurd digit (by decide)
        · rw [← List.cons_append, readDigits_append all present ended]
          rfl
  · obtain ⟨all, present⟩ := digits true ds rfl
    simp only [marked, List.cons_append, readExponent, true_or, if_true]
    rw [readDigits_append all present ended]
    rfl

theorem head?_marked (exponent : Option (Bool × List Char)) {rest : List Char} (ends : Ends rest) :
    ∀ c ∈ (marked exponent ++ rest).head?, c.isDigit = false ∧ c ≠ '.' := by
  intro c first
  rcases exponent with _ | ⟨_ | _, ds⟩
  · exact ⟨(ends c first).1, (ends c first).2.1⟩
  · cases first
    decide
  · cases first
    decide

theorem readFraction_pointed {fraction rest : List Char} (digits : AreDigits fraction)
    (ends : ∀ c ∈ rest.head?, c.isDigit = false ∧ c ≠ '.') :
    readFraction (pointed fraction ++ rest) = some (fraction, rest) := by
  cases fraction with
  | nil =>
      rw [pointed, List.isEmpty_nil, if_pos rfl, List.nil_append, readFraction.eq_2]
      intro cs same
      exact (ends '.' (by rw [same]; rfl)).2 rfl
  | cons d ds =>
      have ended := readDigits_append digits (by simp) fun c first => (ends c first).1
      simpa [pointed, readFraction] using ended

theorem head?_pointed (fraction : List Char) {rest : List Char}
    (ends : ∀ c ∈ rest.head?, c.isDigit = false) :
    ∀ c ∈ (pointed fraction ++ rest).head?, c.isDigit = false := by
  intro c first
  cases fraction with
  | nil => exact ends c first
  | cons d ds =>
      cases first
      rfl

theorem Number.WellFormed.head_whole {n : Number} (wellFormed : n.WellFormed) :
    ∃ d ds, n.whole = d :: ds ∧ d.isDigit := by
  cases wellFormed.whole with
  | inl zero => exact ⟨'0', [], zero, rfl⟩
  | inr some =>
      cases whole : n.whole with
      | nil => exact absurd whole some.2.1
      | cons d ds => exact ⟨d, ds, rfl, some.1 d (by simp [whole])⟩

/-- A number is read back, and nothing of what follows it is. -/
theorem readNumber_text {n : Number} (wellFormed : n.WellFormed) {rest : List Char}
    (ends : Ends rest) : readNumber (n.text ++ rest) = some (n, rest) := by
  have behindWhole := head?_marked n.exponent ends
  have whole := readWhole_append wellFormed.whole
    (head?_pointed n.fraction fun c first => (behindWhole c first).1)
  have fraction := readFraction_pointed wellFormed.fraction behindWhole
  have exponent := readExponent_marked wellFormed.exponent ends
  have text : n.text ++ rest = (if n.negative then ['-'] else []) ++
      (n.whole ++ (pointed n.fraction ++ (marked n.exponent ++ rest))) := by
    simp only [Number.text_eq, List.append_assoc]
  rw [text]
  cases sign : n.negative with
  | true =>
      simp only [if_true, List.cons_append, List.nil_append, readNumber, whole, fraction, exponent,
        Option.bind_eq_bind, Option.bind_some]
      rw [← sign]
      rfl
  | false =>
      obtain ⟨d, ds, start, digit⟩ := wellFormed.head_whole
      have unsigned : ∀ cs, n.whole ++ (pointed n.fraction ++ (marked n.exponent ++ rest)) ≠
          '-' :: cs := by
        intro cs same
        rw [start] at same
        rw [(List.cons.inj same).1] at digit
        exact absurd digit (by decide)
      simp only [Bool.false_eq_true, if_false, List.nil_append, readNumber.eq_2 _ unsigned, whole,
        fraction, exponent, Option.bind_eq_bind, Option.bind_some]
      rw [← sign]
      rfl

end DoorAccess.Json
