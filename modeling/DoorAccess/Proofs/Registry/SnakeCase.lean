import DoorAccess.Proofs.Registry.Name
import Mathlib

/-!
Snake case told by the text alone, without the memory that reading it takes: an underscore stands
before each capital behind a small letter, and then all capitals are lowered. What is in snake case
already are the texts without capitals, and these stay as they are.
-/
namespace DoorAccess.Name

/-- A capital right behind a small letter. -/
def isHump (before : Option Char) (c : Char) : Bool := before.any Char.isLower && c.isUpper

/-- A text behind some character, with an underscore before each hump and nothing else changed. -/
def spacedBehind (before : Option Char) (cs : List Char) : List Char :=
  ((before :: cs.map some).zip cs).flatMap fun (before, c) =>
    if isHump before c then ['_', c] else [c]

def spaced (cs : List Char) : List Char := spacedBehind none cs

theorem spacedBehind_cons (before : Option Char) (c : Char) (cs : List Char) :
    spacedBehind before (c :: cs) =
      (if isHump before c then ['_', c] else [c]) ++ spacedBehind (some c) cs := by
  simp only [spacedBehind, List.map_cons, List.zip_cons_cons, List.flatMap_cons]

/-- Whether the next capital gets an underscore depends on this character alone. -/
theorem snakeFrom_cons (afterSmall : Bool) (c : Char) (cs : List Char) :
    snakeFrom afterSmall (c :: cs) =
      (if afterSmall && c.isUpper then ['_'] else []) ++ c.toLower :: snakeFrom c.isLower cs := by
  rw [snakeFrom]
  by_cases upper : c.isUpper = true
  · have large : c.isLower = false := Bool.eq_false_iff.mpr (Char.not_isLower_of_isUpper upper)
    cases afterSmall <;> simp [upper, large]
  · simp [upper, Char.toLower_eq_of_not_isUpper upper]

theorem snakeFrom_eq_spacedBehind (before : Option Char) (cs : List Char) :
    snakeFrom (before.any Char.isLower) cs = (spacedBehind before cs).map Char.toLower := by
  have underscore : '_'.toLower = '_' := by decide
  induction cs generalizing before with
  | nil => rfl
  | cons c cs ih =>
      rw [snakeFrom_cons, spacedBehind_cons, List.map_append, ← ih, isHump, Option.any_some]
      split <;> simp [underscore]

/-- But for underscores, snake case only lowers capitals. -/
theorem filter_snakeFrom (afterSmall : Bool) (cs : List Char) :
    (snakeFrom afterSmall cs).filter (· ≠ '_') = (cs.map Char.toLower).filter (· ≠ '_') := by
  induction cs generalizing afterSmall with
  | nil => rfl
  | cons c cs ih =>
      have mark : (if afterSmall && c.isUpper then ['_'] else []).filter (· ≠ '_') = [] := by
        split <;> rfl
      rw [snakeFrom_cons, List.filter_append, mark, List.map_cons, List.nil_append,
        List.filter_cons, List.filter_cons, ih]

theorem snakeFrom_eq_self_iff (afterSmall : Bool) (cs : List Char) :
    snakeFrom afterSmall cs = cs ↔ cs.any Char.isUpper = false := by
  rw [List.any_eq_false]
  constructor
  · intro same c member
    rw [← same] at member
    simp [isUpper_snakeFrom afterSmall cs c member]
  · intro small
    exact snakeFrom_eq_self (fun c member => Bool.eq_false_iff.mpr (small c member)) afterSmall

/-- What stands before a text shows only if the text begins with a capital. -/
theorem snakeFrom_congr_iff (cs : List Char) :
    snakeFrom false cs = snakeFrom true cs ↔ cs.head?.any Char.isUpper = false := by
  cases cs with
  | nil => simp [snakeFrom]
  | cons c cs => cases upper : c.isUpper <;> simp [snakeFrom_cons, upper]

/-- The case of a first letter is lost, unless a capital follows: then a small letter is marked. -/
theorem snakeFrom_first_iff (c : Char) (cs : List Char) :
    snakeFrom false (c.toUpper :: cs) = snakeFrom false (c.toLower :: cs) ↔
      (c.isAlpha && cs.head?.any Char.isUpper) = false := by
  simp only [snakeFrom_cons, Bool.false_and, Bool.false_eq_true, if_false, List.nil_append,
    Char.toLower_toUpper_eq_toLower, Char.toLower_toLower_eq_toLower, List.cons.injEq, true_and,
    Char.isLower_toUpper_eq_false, Char.isLower_toLower_eq_isAlpha]
  cases c.isAlpha with
  | false => simp
  | true => simpa using snakeFrom_congr_iff cs

theorem canonical?_idem (name : String) : (canonical? name).bind canonical? = canonical? name := by
  cases named : canonical? name with
  | none => rfl
  | some key => rw [Option.bind_some, canonical?_canonical named]

/-- Snake case is a projection onto the texts without capitals: the text with one underscore before
each capital that follows a small letter, lowered. But for underscores it is the lowered text. A
first letter gives the same in either case, unless a capital follows it. Trimming first makes it no
less of a projection. -/
theorem snakeCase_is_projection (name : String) :
    snakeCase (snakeCase name) = snakeCase name ∧
    (snakeCase name).toList.any Char.isUpper = false ∧
    (snakeCase name = name ↔ name.toList.any Char.isUpper = false) ∧
    (snakeCase name).toList = (spaced name.toList).map Char.toLower ∧
    (snakeCase name).toList.filter (· ≠ '_') =
      (name.toList.map Char.toLower).filter (· ≠ '_') ∧
    (∀ c : Char,
      snakeCase (String.ofList (c.toUpper :: name.toList)) =
          snakeCase (String.ofList (c.toLower :: name.toList)) ↔
        (c.isAlpha && name.toList.head?.any Char.isUpper) = false) ∧
    snakeCase (Text.trimmed (snakeCase (Text.trimmed name))) = snakeCase (Text.trimmed name) ∧
    (canonical? name).bind canonical? = canonical? name := by
  have clean : (snakeCase name).toList.any Char.isUpper = false := by
    rw [snakeCase, String.toList_ofList, List.any_eq_false]
    intro c member
    simp [isUpper_snakeFrom false name.toList c member]
  have fixed : snakeCase name = name ↔ name.toList.any Char.isUpper = false := by
    rw [← snakeFrom_eq_self_iff false, snakeCase, ← String.toList_inj, String.toList_ofList]
  have trimmed : Text.trimmed (snakeCase (Text.trimmed name)) = snakeCase (Text.trimmed name) :=
    (trimmed_snakeCase_iff (Text.trimmed name)).mpr (Text.trimmed_trimmed name)
  refine ⟨snakeCase_snakeCase name, clean, fixed, ?_, ?_, fun c => ?_, ?_, canonical?_idem name⟩
  · rw [snakeCase, String.toList_ofList]
    exact snakeFrom_eq_spacedBehind none name.toList
  · rw [snakeCase, String.toList_ofList, filter_snakeFrom]
  · rw [snakeCase, snakeCase, ← String.toList_inj]
    simpa only [String.toList_ofList] using snakeFrom_first_iff c name.toList
  · rw [trimmed, snakeCase_snakeCase]

example : snakeCase "mainHALL door_A Gate2B" = "main_hall door_a gate2b" := by decide +kernel

end DoorAccess.Name
