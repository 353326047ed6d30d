import DoorAccess.Proofs.Text.Cut
import DoorAccess.Store.Place

/-!
Where a path leads that is written by joining a name to the text of a directory: into that
directory, whether or not its text ends in a separator.
-/
namespace DoorAccess

namespace Place

/-- A part of a path that leads one directory deeper. -/
structure IsPlain (name : String) : Prop where
  noSeparator : '/' ∉ name.toList
  named : name ≠ "" ∧ name ≠ "." ∧ name ≠ ".."

theorem enter_of_isPlain (place : Place) {name : String} (plain : IsPlain name) :
    place.enter name = { place with path := place.path ++ [name] } := by
  obtain ⟨empty, dot, dots⟩ := plain.named
  simp [enter, empty, dot, dots]

theorem enterAll_concat (place : Place) (parts : List String) (part : String) :
    place.enterAll (parts ++ [part]) = (place.enterAll parts).enter part := by
  simp [enterAll]

theorem partsOf_concat (text : String) {name : String} (foreign : '/' ∉ name.toList) :
    partsOf (text ++ "/" ++ name) = partsOf text ++ [name] := by
  have chars : (text ++ "/" ++ name).toList = text.toList ++ '/' :: name.toList := by simp
  rw [partsOf, chars, Text.splitAt_append (by rfl), Text.splitAt_of_not_mem foreign,
    List.map_append, partsOf, List.map_singleton, String.ofList_toList]

theorem start_append {text : String} (nonempty : text ≠ "") (rest : String) :
    start (text ++ rest) = start text := by
  have some : text.toList ≠ [] := String.toList_eq_nil_iff.not.mpr nonempty
  simp only [start, String.toList_append, List.head?_append_of_ne_nil _ some]

/-- Only a directory whose text ends in a separator, or is empty, needs none before the name. -/
theorem join_cases (directory name : String) :
    (directory = "" ∧ join directory name = name) ∨
      (∃ text, directory = text ++ "/" ∧ join directory name = text ++ "/" ++ name) ∨
      (directory ≠ "" ∧ join directory name = directory ++ "/" ++ name) := by
  cases last : directory.toList.getLast? with
  | none =>
      have empty : directory = "" :=
        String.toList_eq_nil_iff.mp (List.getLast?_eq_none_iff.mp last)
      refine .inl ⟨empty, ?_⟩
      simp only [join, last]
      rw [empty, String.empty_append]
  | some c =>
      obtain ⟨before, text⟩ := List.getLast?_eq_some_iff.mp last
      by_cases slash : c = '/'
      · subst slash
        have ended : directory = String.ofList before ++ "/" := by
          apply String.toList_injective
          simp [text]
        refine .inr (.inl ⟨_, ended, ?_⟩)
        rw [← ended]
        simp only [join, last]
      · refine .inr (.inr ⟨?_, ?_⟩)
        · rintro rfl
          cases last
        · simp only [join, last]
          split <;> simp_all

theorem partsOf_join (directory : String) {name : String} (plain : IsPlain name) :
    ∃ parts, partsOf (join directory name) = parts ++ [name] ∧
      (start (join directory name)).enterAll parts = ofText directory := by
  have foreign := plain.noSeparator
  rcases join_cases directory name with
    ⟨rfl, joined⟩ | ⟨text, rfl, joined⟩ | ⟨nonempty, joined⟩ <;> rw [joined]
  · refine ⟨[], ?_, ?_⟩
    · rw [partsOf, Text.splitAt_of_not_mem foreign]
      simp
    · have relative : name.toList.head? ≠ some '/' :=
        fun head => foreign (List.mem_of_mem_head? head)
      rw [start, if_neg relative]
      rfl
  · have ended : partsOf (text ++ "/") = partsOf text ++ [""] := by
      have bare := @partsOf_concat text "" List.not_mem_nil
      rwa [String.append_empty] at bare
    refine ⟨partsOf text, partsOf_concat text foreign, ?_⟩
    rw [start_append (by simp), ofText, ended, enterAll_concat]
    simp [enter]
  · refine ⟨partsOf directory, partsOf_concat directory foreign, ?_⟩
    rw [String.append_assoc, start_append nonempty, ofText]

theorem ofText_join (directory : String) {name : String} (plain : IsPlain name) :
    ofText (join directory name) = (ofText directory).enter name := by
  obtain ⟨parts, split, leads⟩ := partsOf_join directory plain
  rw [ofText, split, enterAll_concat, leads]

end Place

theorem FilePlace.ofText_join (directory : String) {name : String} (plain : Place.IsPlain name) :
    ofText (Place.join directory name) = ⟨Place.ofText directory, some name⟩ := by
  obtain ⟨parts, split, leads⟩ := Place.partsOf_join directory plain
  obtain ⟨empty, dot, dots⟩ := plain.named
  simp [ofText, split, empty, dot, dots, leads]

end DoorAccess
