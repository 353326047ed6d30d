import DoorAccess.Console.Command
import DoorAccess.Proofs.Registry.Name
import Mathlib.Data.List.TakeWhile
import Mathlib.Data.List.Forall2

/-!
What the fields of a command are. A name that a command carries is a run of ASCII letters, digits
and underscores, so it has a canonical form, and a frame that is no command is refused for its syntax
or for its first word.
-/
namespace DoorAccess.Console.Command

/-- One or more characters of a class. -/
def IsField (isMember : Char → Bool) (field : String) : Prop :=
  field ≠ "" ∧ ∀ c ∈ field.toList, isMember c = true

def IsName (name : String) : Prop := IsField isNameChar name

/-- All names that the command carries are names. -/
def IsNamed : Command → Prop
  | newDoor name _ | newUser name _ | remove _ name => IsName name
  | edit _ old new _ => IsName old ∧ IsName new
  | getLog _ _ | exit | shutdown | help => True

theorem forall₂_fields {classes : List (Char → Bool)} {cs : List Char} {found : List String}
    (h : fields classes cs = some found) : List.Forall₂ IsField classes found := by
  induction classes generalizing cs found with
  | nil =>
      cases cs with
      | nil =>
          cases h
          exact .nil
      | cons => cases h
  | cons isMember classes ih =>
      cases cs with
      | nil => cases h
      | cons c cs =>
          simp only [fields] at h
          split at h
          · split at h
            · cases h
            · next present =>
                obtain ⟨rest, read, rfl⟩ := Option.map_eq_some_iff.mp h
                refine .cons ⟨by simpa [String.ofList_eq_empty_iff] using present, ?_⟩ (ih read)
                intro c member
                rw [String.toList_ofList] at member
                exact List.mem_takeWhile_imp member
          · cases h

section Arguments
variable {arguments : List Char} {command : Command}

theorem isName_of_record {make : String → Level → Command}
    (h : ofArguments?.record arguments make = some command) :
    ∃ name level, IsName name ∧ command = make name level := by
  rw [ofArguments?.record] at h
  split at h
  · next name digits read =>
      obtain ⟨level, _, rfl⟩ := Option.map_eq_some_iff.mp h
      cases forall₂_fields read with
      | cons named _ => exact ⟨name, level, named, rfl⟩
  · cases h

theorem isName_of_named {make : String → Command}
    (h : ofArguments?.named arguments make = some command) :
    ∃ name, IsName name ∧ command = make name := by
  rw [ofArguments?.named] at h
  split at h
  · next name read =>
      cases h
      cases forall₂_fields read with
      | cons named _ => exact ⟨name, named, rfl⟩
  · cases h

theorem isName_of_change {kind : RecordKind}
    (h : ofArguments?.change arguments kind = some command) :
    ∃ old new level, IsName old ∧ IsName new ∧ command = .edit kind old new level := by
  rw [ofArguments?.change] at h
  split at h
  · next old new read =>
      cases h
      cases forall₂_fields read with
      | cons first rest =>
          cases rest with
          | cons second _ => exact ⟨old, new, none, first, second, rfl⟩
  · split at h
    · next old new digits read =>
        obtain ⟨level, _, rfl⟩ := Option.map_eq_some_iff.mp h
        cases forall₂_fields read with
        | cons first rest =>
            cases rest with
            | cons second _ => exact ⟨old, new, some level, first, second, rfl⟩
    · cases h

theorem eq_of_bare {whole : Command} (h : ofArguments?.bare arguments whole = some command) :
    command = whole := by
  rw [ofArguments?.bare, Option.ite_none_right_eq_some] at h
  exact (Option.some.inj h.2).symm

theorem isNamed_of_ofArguments? {verb : Verb} (h : ofArguments? verb arguments = some command) :
    command.IsNamed := by
  cases verb with
  | newDoor | newUser =>
      obtain ⟨name, level, named, rfl⟩ := isName_of_record h
      exact named
  | rmDoor | rmUser =>
      obtain ⟨name, named, rfl⟩ := isName_of_named h
      exact named
  | mvDoor | mvUser =>
      obtain ⟨old, new, level, first, second, rfl⟩ := isName_of_change h
      exact ⟨first, second⟩
  | getUserLog | getDoorLog =>
      obtain ⟨name, _, rfl⟩ := isName_of_named h
      trivial
  | getSystemLog =>
      simp only [ofArguments?] at h
      split at h
      · obtain ⟨key, _, rfl⟩ := Option.map_eq_some_iff.mp h
        trivial
      · cases h
  | exit | shutdown | help =>
      rw [eq_of_bare h]
      trivial

end Arguments

theorem isNamed_of_parse {frame : String} {command : Command} (h : parse frame = .ok command) :
    command.IsNamed := by
  simp only [parse] at h
  split at h
  · cases h
  · split at h
    · next read =>
        cases h
        exact isNamed_of_ofArguments? read
    · cases h

theorem eq_of_parse_error {frame : String} {e : AccessError} (h : parse frame = .error e) :
    e = .badSyntax ∨ ∃ word, e = .unknownCommand word := by
  simp only [parse] at h
  split at h
  · exact .inr ⟨_, (Except.error.inj h).symm⟩
  · split at h
    · cases h
    · exact .inl (Except.error.inj h).symm

theorem toNat_of_isAlphanum {c : Char} (h : c.isAlphanum = true) :
    (65 ≤ c.toNat ∧ c.toNat ≤ 90) ∨ (97 ≤ c.toNat ∧ c.toNat ≤ 122) ∨
      (48 ≤ c.toNat ∧ c.toNat ≤ 57) := by
  have kinds : ((c.isUpper || c.isLower) || c.isDigit) = true := h
  have lower : c.isLower = (decide (97 ≤ c.val) && decide (c.val ≤ 122)) := rfl
  have digit : c.isDigit = (decide (48 ≤ c.val) && decide (c.val ≤ 57)) := rfl
  rw [lower, digit] at kinds
  simp only [Bool.or_eq_true, Bool.and_eq_true, decide_eq_true_eq, UInt32.le_iff_toNat_le] at kinds
  rcases kinds with (upper | lower) | digit
  · exact .inl (Name.toNat_of_isUpper upper)
  · exact .inr (.inl lower)
  · exact .inr (.inr digit)

theorem isBlank_of_isNameChar {c : Char} (h : isNameChar c = true) : Text.isBlank c = false := by
  rw [isNameChar, Bool.or_eq_true, beq_iff_eq] at h
  cases h with
  | inl letter =>
      have number := toNat_of_isAlphanum letter
      rw [← Bool.not_eq_true]
      simp only [Text.isBlank, Bool.or_eq_true, Bool.and_eq_true, decide_eq_true_eq, beq_iff_eq]
      omega
  | inr underscore =>
      subst underscore
      decide

theorem trimmed_of_isName {name : String} (named : IsName name) : Text.trimmed name = name := by
  have clean : ∀ c ∈ name.toList, Text.isBlank c = false :=
    fun c member => isBlank_of_isNameChar (named.2 c member)
  rw [Text.trimmed, Text.trim_eq_self, String.ofList_toList]
  · exact fun c first => clean c (List.mem_of_mem_head? first)
  · exact fun c last => clean c (List.mem_of_mem_getLast? last)

/-- What is called by a name of a command has a key to be stored under. -/
theorem canonical?_ne_none_of_isName {name : String} (named : IsName name) :
    Name.canonical? name ≠ none := by
  rw [ne_eq, Name.canonical?_eq_none_iff, trimmed_of_isName named]
  exact named.1

end DoorAccess.Console.Command
