import DoorAccess.Proofs.Audit.LogFile
import DoorAccess.Proofs.Console.Grammar

/-!
Which logs share a file. The key of a log is made of safe characters only, so names with others may
come to the same key: they do if they differ in nothing else. The names that a command can carry
keep their canonical form as their key.
-/
namespace DoorAccess

/-- Whatever the characters of a name and their small letters have in common is kept. -/
theorem Name.snakeFrom_of_forall {P : Char → Prop} (mark : P '_')
    (lowers : ∀ c, c.isUpper = true → P c → P c.toLower) {cs : List Char} (all : ∀ c ∈ cs, P c)
    (afterSmall : Bool) : ∀ c ∈ snakeFrom afterSmall cs, P c := by
  induction cs generalizing afterSmall with
  | nil => simp [snakeFrom]
  | cons c cs ih =>
      obtain ⟨here, rest⟩ := List.forall_mem_cons.mp all
      rw [snakeFrom]
      split
      · next upper =>
          split
          · simpa [mark, lowers c upper here] using ih rest false
          · simpa [lowers c upper here] using ih rest false
      · simpa [here] using ih rest c.isLower

namespace Console.Command

theorem isNameChar_toLower {c : Char} (upper : c.isUpper = true) : isNameChar c.toLower = true := by
  have bounds := Name.toNat_of_isUpper upper
  have value := Name.toNat_toLower_of_isUpper upper
  have lower : c.toLower.isLower = (decide (97 ≤ c.toLower.val) && decide (c.toLower.val ≤ 122)) :=
    rfl
  have small : c.toLower.isLower = true := by
    rw [lower, Bool.and_eq_true, decide_eq_true_eq, decide_eq_true_eq, UInt32.le_iff_toNat_le,
      UInt32.le_iff_toNat_le]
    change 97 ≤ c.toLower.toNat ∧ c.toLower.toNat ≤ 122
    omega
  have kinds : c.toLower.isAlphanum =
      ((c.toLower.isUpper || c.toLower.isLower) || c.toLower.isDigit) := rfl
  rw [isNameChar, kinds, small, Bool.or_true, Bool.true_or, Bool.true_or]

/-- The canonical form of a name is one again. -/
theorem isName_snakeCase {name : String} (named : IsName name) : IsName (Name.snakeCase name) := by
  refine ⟨fun none => canonical?_ne_none_of_isName named ?_, ?_⟩
  · rw [Name.canonical?, trimmed_of_isName named]
    exact if_pos none
  · rw [Name.snakeCase, String.toList_ofList]
    exact Name.snakeFrom_of_forall (by decide) (fun c upper _ => isNameChar_toLower upper) named.2
      false

theorem isName_of_canonical? {name key : String} (named : IsName name)
    (canonical : Name.canonical? name = some key) : IsName key := by
  rw [← Name.eq_of_canonical? canonical, trimmed_of_isName named]
  exact isName_snakeCase named

theorem isSafe_of_isNameChar {c : Char} (h : isNameChar c = true) : Audit.isSafe c = true := by
  rw [Audit.isSafe, Bool.or_eq_true]
  exact .inl h

end Console.Command

namespace Audit

/-- The characters that a key shows as an underscore. -/
def isMasked (c : Char) : Bool := !isSafe c || c == '_'

/-- The names differ in nothing that a key shows. -/
def Confusable (name name' : String) : Prop :=
  List.Forall₂ (fun c c' => c = c' ∨ isMasked c = true ∧ isMasked c' = true) name.toList
    name'.toList

instance : DecidableRel Confusable := fun name name' =>
  inferInstanceAs (Decidable (List.Forall₂ _ name.toList name'.toList))

theorem masked_eq_iff (c c' : Char) :
    (if isSafe c then c else '_') = (if isSafe c' then c' else '_') ↔
      c = c' ∨ isMasked c = true ∧ isMasked c' = true := by
  simp only [isMasked, Bool.or_eq_true, Bool.not_eq_true', beq_iff_eq]
  have plain : isSafe '_' = true := by decide
  grind

theorem safeKey_eq_iff (name name' : String) :
    safeKey name = safeKey name' ↔ Confusable name name' := by
  rw [safeKey, safeKey, String.ofList_inj, ← List.forall₂_eq_eq_eq, List.forall₂_map_left_iff,
    List.forall₂_map_right_iff, Confusable]
  simp only [masked_eq_iff]

theorem safeKey_eq_self {name : String} (safe : ∀ c ∈ name.toList, isSafe c = true) :
    safeKey name = name := by
  rw [safeKey, List.map_congr_left fun c member => if_pos (safe c member), List.map_id',
    String.ofList_toList]

theorem safeKey_of_isName {name : String} (named : Console.Command.IsName name) :
    safeKey name = name :=
  safeKey_eq_self fun c member => Console.Command.isSafe_of_isNameChar (named.2 c member)

end Audit

end DoorAccess
