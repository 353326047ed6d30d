import DoorAccess.Name

/-!
A name that is stored is in its canonical form already: trimming and snake case change nothing
more, so it is found and written again under the name it has.
-/
namespace DoorAccess

namespace Text

theorem isBlank_head_trimLeft (cs : List Char) :
    ∀ c ∈ (trimLeft cs).head?, isBlank c = false := by
  intro c first
  have not := List.head?_dropWhile_not isBlank cs
  rw [trimLeft] at first
  rw [Option.mem_def.mp first] at not
  simpa using not

theorem trimLeft_eq_self {cs : List Char} (h : ∀ c ∈ cs.head?, isBlank c = false) :
    trimLeft cs = cs := by
  cases cs with
  | nil => rfl
  | cons c cs => exact List.dropWhile_cons_of_neg (by simp [h c rfl])

theorem trimRight_eq (cs : List Char) : trimRight cs = (trimLeft cs.reverse).reverse := rfl

theorem trimRight_prefix (cs : List Char) : trimRight cs <+: cs := by
  rw [trimRight_eq, ← List.reverse_suffix, List.reverse_reverse]
  exact List.dropWhile_suffix isBlank

/-- Nothing is left to trim at either end. -/
theorem trim_eq_self {cs : List Char} (first : ∀ c ∈ cs.head?, isBlank c = false)
    (last : ∀ c ∈ cs.getLast?, isBlank c = false) : trim cs = cs := by
  rw [trim, trimLeft_eq_self first, trimRight_eq, trimLeft_eq_self, List.reverse_reverse]
  simpa using last

theorem isBlank_head_trim (cs : List Char) : ∀ c ∈ (trim cs).head?, isBlank c = false := by
  intro c first
  refine isBlank_head_trimLeft cs c ?_
  obtain ⟨rest, whole⟩ := trimRight_prefix (trimLeft cs)
  rw [← whole, List.head?_append]
  simp [Option.mem_def.mp first, show trimRight (trimLeft cs) = trim cs from rfl]

theorem isBlank_last_trim (cs : List Char) : ∀ c ∈ (trim cs).getLast?, isBlank c = false := by
  intro c last
  refine isBlank_head_trimLeft (trimLeft cs).reverse c ?_
  rwa [trim, trimRight_eq, List.getLast?_reverse] at last

/-- A text is trimmed if no blank stands at either end. -/
theorem trimmed_eq_self_iff (s : String) : trimmed s = s ↔
    (∀ c ∈ s.toList.head?, isBlank c = false) ∧ ∀ c ∈ s.toList.getLast?, isBlank c = false := by
  constructor
  · intro same
    have ends : trim s.toList = s.toList := by
      rw [← String.toList_ofList (l := trim s.toList)]
      exact congrArg String.toList same
    rw [← ends]
    exact ⟨isBlank_head_trim s.toList, isBlank_last_trim s.toList⟩
  · intro ends
    rw [trimmed, trim_eq_self ends.1 ends.2, String.ofList_toList]

theorem trimmed_trimmed (s : String) : trimmed (trimmed s) = trimmed s := by
  rw [trimmed, trimmed, String.toList_ofList,
    trim_eq_self (isBlank_head_trim s.toList) (isBlank_last_trim s.toList)]

end Text

namespace Name

theorem isUpper_iff (c : Char) : c.isUpper ↔ 'A'.val ≤ c.val ∧ c.val ≤ 'Z'.val := decide_eq_true_iff

theorem toNat_of_isUpper {c : Char} (h : c.isUpper) : 65 ≤ c.toNat ∧ c.toNat ≤ 90 := by
  obtain ⟨low, high⟩ := (isUpper_iff c).mp h
  exact ⟨UInt32.le_iff_toNat_le.mp low, UInt32.le_iff_toNat_le.mp high⟩

theorem toLower_of_not_isUpper {c : Char} (h : ¬ c.isUpper) : c.toLower = c :=
  dif_neg fun inside => h ((isUpper_iff c).mpr inside)

theorem toNat_toLower_of_isUpper {c : Char} (h : c.isUpper) : c.toLower.toNat = c.toNat + 32 := by
  have bounds := toNat_of_isUpper h
  have lowered : c.toLower.val = c.val + 32 :=
    congrArg Char.val (dif_pos ((isUpper_iff c).mp h))
  change c.toLower.val.toNat = _
  rw [lowered, UInt32.toNat_add]
  change (c.toNat + 32) % 2 ^ 32 = _
  omega

theorem isUpper_toLower (c : Char) : c.toLower.isUpper = false := by
  by_cases upper : c.isUpper
  · have bounds := toNat_of_isUpper upper
    have value := toNat_toLower_of_isUpper upper
    rw [← Bool.not_eq_true]
    intro still
    have small := toNat_of_isUpper still
    omega
  · rwa [toLower_of_not_isUpper upper, ← Bool.not_eq_true]

@[simp] theorem isBlank_toLower (c : Char) : Text.isBlank c.toLower = Text.isBlank c := by
  by_cases upper : c.isUpper
  · have bounds := toNat_of_isUpper upper
    have value := toNat_toLower_of_isUpper upper
    have solid {c : Char} (low : 65 ≤ c.toNat) (high : c.toNat ≤ 122) :
        Text.isBlank c = false := by
      rw [← Bool.not_eq_true]
      simp only [Text.isBlank, Bool.or_eq_true, Bool.and_eq_true, decide_eq_true_eq, beq_iff_eq]
      omega
    rw [solid (by omega) (by omega), solid (by omega) (by omega)]
  · rw [toLower_of_not_isUpper upper]

theorem snakeFrom_eq_self {cs : List Char} (h : ∀ c ∈ cs, c.isUpper = false) (afterSmall : Bool) :
    snakeFrom afterSmall cs = cs := by
  induction cs generalizing afterSmall with
  | nil => simp only [snakeFrom]
  | cons c cs ih =>
      have small := h c (by simp)
      simp [snakeFrom, small, ih fun other member => h other (by simp [member])]

theorem isUpper_snakeFrom (afterSmall : Bool) (cs : List Char) :
    ∀ c ∈ snakeFrom afterSmall cs, c.isUpper = false := by
  have underscore : '_'.isUpper = false := by decide
  induction cs generalizing afterSmall with
  | nil => simp [snakeFrom]
  | cons c cs ih =>
      rw [snakeFrom]
      split
      · split
        · simpa [underscore, isUpper_toLower] using ih false
        · simpa [isUpper_toLower] using ih false
      · next small => simpa [small] using ih c.isLower

theorem snakeCase_snakeCase (name : String) : snakeCase (snakeCase name) = snakeCase name := by
  rw [snakeCase, snakeCase, String.toList_ofList,
    snakeFrom_eq_self (isUpper_snakeFrom false name.toList)]

/-- Snake case keeps both ends of a name, but for their case. -/
theorem head?_snakeFrom (cs : List Char) :
    (snakeFrom false cs).head? = cs.head?.map Char.toLower := by
  cases cs with
  | nil => rfl
  | cons c cs =>
      rw [snakeFrom]
      split
      · rfl
      · next small => simp [toLower_of_not_isUpper small]

theorem getLast?_snakeFrom (afterSmall : Bool) (cs : List Char) :
    (snakeFrom afterSmall cs).getLast? = cs.getLast?.map Char.toLower := by
  induction cs generalizing afterSmall with
  | nil => simp [snakeFrom]
  | cons c cs ih =>
      have shown (b : Bool) : c.toLower :: snakeFrom b cs ≠ [] ∧
          (c.toLower :: snakeFrom b cs).getLast? = (c :: cs).getLast?.map Char.toLower := by
        refine ⟨by simp, ?_⟩
        rw [List.getLast?_cons, List.getLast?_cons, ih]
        cases cs.getLast? <;> simp
      rw [snakeFrom]
      split
      · split
        · rw [List.getLast?_cons_of_ne_nil (shown false).1]
          exact (shown false).2
        · exact (shown false).2
      · next small =>
          have same := (shown c.isLower).2
          rwa [toLower_of_not_isUpper small] at same

/-- Snake case neither puts blanks at the ends of a name nor takes them away. -/
theorem trimmed_snakeCase_iff (name : String) :
    Text.trimmed (snakeCase name) = snakeCase name ↔ Text.trimmed name = name := by
  simp [Text.trimmed_eq_self_iff, snakeCase, head?_snakeFrom, getLast?_snakeFrom]

theorem canonical?_eq_none_iff (name : String) :
    canonical? name = none ↔ Text.trimmed name = "" := by
  have empty (cs : List Char) : snakeFrom false cs = [] ↔ cs = [] := by
    rw [← List.head?_eq_none_iff, head?_snakeFrom, Option.map_eq_none_iff, List.head?_eq_none_iff]
  simp [canonical?, snakeCase, String.ofList_eq_empty_iff, empty]

theorem eq_of_canonical? {name key : String} (h : canonical? name = some key) :
    snakeCase (Text.trimmed name) = key := by
  rw [canonical?] at h
  split at h
  · cases h
  · exact Option.some.inj h

theorem snakeCase_of_canonical? {name key : String} (h : canonical? name = some key) :
    snakeCase key = key := by
  rw [← eq_of_canonical? h, snakeCase_snakeCase]

theorem trimmed_of_canonical? {name key : String} (h : canonical? name = some key) :
    Text.trimmed key = key := by
  rw [← eq_of_canonical? h, trimmed_snakeCase_iff, Text.trimmed_trimmed]

theorem ne_empty_of_canonical? {name key : String} (h : canonical? name = some key) : key ≠ "" := by
  rintro rfl
  simp [canonical?, eq_of_canonical? h] at h

theorem canonical?_canonical {name key : String} (h : canonical? name = some key) :
    canonical? key = some key := by
  rw [canonical?, trimmed_of_canonical? h, snakeCase_of_canonical? h]
  exact if_neg (ne_empty_of_canonical? h)

/-- A text that is a canonical name but for its case is a name in itself. -/
theorem canonical?_of_snakeCase {name key : String} (canonical : canonical? key = some key)
    (named : snakeCase name = key) : canonical? name = some key := by
  have whole : Text.trimmed name = name := by
    rw [← trimmed_snakeCase_iff, named]
    exact trimmed_of_canonical? canonical
  rw [canonical?, whole, named]
  exact if_neg (ne_empty_of_canonical? canonical)

end Name

end DoorAccess
