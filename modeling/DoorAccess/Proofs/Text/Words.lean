import DoorAccess.Proofs.Registry.Name
import DoorAccess.Proofs.Text.Cut
import Mathlib.Data.List.Induction
import Mathlib.Data.List.TakeWhile

/-!
The words of a text. Blanks at either end of it add none, and a run of characters that are not
blank is a word when nothing or a blank stands behind it. A text that ends in anything but a blank
has a word, and one that is trimmed down to a word has nothing but blanks around it.
-/
namespace DoorAccess.Text

theorem words_cons_of_isBlank {c : Char} (blank : isBlank c = true) (cs : List Char) :
    words (c :: cs) = words cs := by
  simp [words, splitAt, blank]

theorem words_append_blank {c : Char} (blank : isBlank c = true) (before after : List Char) :
    words (before ++ c :: after) = words before ++ words after := by
  rw [words, splitAt_append blank, List.filter_append]
  rfl

theorem words_trimLeft (cs : List Char) : words (trimLeft cs) = words cs := by
  induction cs with
  | nil => rfl
  | cons c cs ih =>
      cases blank : isBlank c with
      | true =>
          rw [words_cons_of_isBlank blank, ← ih, trimLeft, List.dropWhile_cons_of_pos blank]
          rfl
      | false => rw [trimLeft_eq_self (by simpa using blank)]

theorem words_trimRight (cs : List Char) : words (trimRight cs) = words cs := by
  induction cs using List.reverseRecOn with
  | nil => rfl
  | append_singleton cs c ih =>
      cases blank : isBlank c with
      | true =>
          have dropped : trimRight (cs ++ [c]) = trimRight cs := by
            simp [trimRight, blank]
          rw [dropped, ih, words_append_blank blank]
          exact (List.append_nil (words cs)).symm
      | false => simp [trimRight, blank]

theorem words_trim (cs : List Char) : words (trim cs) = words cs := by
  rw [trim, words_trimRight, words_trimLeft]

section Word
variable {word : List Char}

theorem words_of_clean (clean : ∀ c ∈ word, isBlank c = false) (some : word ≠ []) :
    words word = [word] := by
  have whole : splitAt isBlank word = [word] := by
    clear some
    induction word with
    | nil => rfl
    | cons c cs ih =>
        have later := ih fun other member => clean other (List.mem_cons_of_mem c member)
        simp [splitAt, clean c List.mem_cons_self, later]
  rw [words, whole]
  exact List.filter_cons_of_pos (by simpa using some)

theorem words_append_word (clean : ∀ c ∈ word, isBlank c = false) (some : word ≠ [])
    {rest : List Char} (apart : ∀ c ∈ rest.head?, isBlank c = true) :
    words (word ++ rest) = word :: words rest := by
  cases rest with
  | nil =>
      rw [List.append_nil, words_of_clean clean some]
      rfl
  | cons c rest =>
      have blank := apart c rfl
      rw [words_append_blank blank, words_cons_of_isBlank blank, words_of_clean clean some]
      rfl

/-- Trimming leaves a word exactly if all that stands around it are blanks. -/
theorem trim_eq_word_iff (clean : ∀ c ∈ word, isBlank c = false) (some : word ≠ [])
    (cs : List Char) :
    trim cs = word ↔
      ∃ before after, before.all isBlank ∧ after.all isBlank ∧ cs = before ++ word ++ after := by
  have first : trimLeft word = word :=
    trimLeft_eq_self fun c first => clean c (List.mem_of_head? first)
  have last : trimRight word = word := by
    have whole : trim word = word :=
      trim_eq_self (fun c first => clean c (List.mem_of_head? first))
        fun c last => clean c (List.mem_of_getLast? last)
    rwa [trim, first] at whole
  constructor
  · rintro rfl
    refine ⟨cs.takeWhile isBlank, ((trimLeft cs).reverse.takeWhile isBlank).reverse,
      List.all_takeWhile, by rw [List.all_reverse]; exact List.all_takeWhile, ?_⟩
    have right : trim cs ++ ((trimLeft cs).reverse.takeWhile isBlank).reverse = trimLeft cs := by
      rw [trim, trimRight, ← List.reverse_append, List.takeWhile_append_dropWhile,
        List.reverse_reverse]
    rw [List.append_assoc, right, trimLeft, List.takeWhile_append_dropWhile]
  · rintro ⟨before, after, blankBefore, blankAfter, rfl⟩
    have left : trimLeft (before ++ word ++ after) = word ++ after := by
      rw [List.append_assoc, trimLeft,
        List.dropWhile_append_of_pos (List.all_eq_true.mp blankBefore)]
      refine trimLeft_eq_self fun c begun => clean c ?_
      rw [List.head?_append_of_ne_nil _ some] at begun
      exact List.mem_of_head? begun
    have right : trimRight (word ++ after) = trimRight word := by
      simp only [trimRight, List.reverse_append]
      rw [List.dropWhile_append_of_pos]
      simpa using blankAfter
    rw [trim, left, right, last]

end Word

theorem isBlank_head_dropWord (cs : List Char) :
    ∀ c ∈ (cs.dropWhile fun c => !isBlank c).head?, isBlank c = true := by
  intro c member
  have not := List.head?_dropWhile_not (fun c => !isBlank c) cs
  rw [Option.mem_def.mp member] at not
  simpa using not

/-- A text that does not begin with a blank begins with its first word. -/
theorem words_eq_cons {cs : List Char} (some : cs ≠ [])
    (first : ∀ c ∈ cs.head?, isBlank c = false) :
    words cs = cs.takeWhile (fun c => !isBlank c) ::
      words (cs.dropWhile fun c => !isBlank c) := by
  have clean : ∀ c ∈ cs.takeWhile (fun c => !isBlank c), isBlank c = false := by
    intro c member
    simpa using List.mem_takeWhile_imp member
  have begun : cs.takeWhile (fun c => !isBlank c) ≠ [] := by
    obtain ⟨c, rest, rfl⟩ := List.exists_cons_of_ne_nil some
    simp [first c rfl]
  conv_lhs => rw [← List.takeWhile_append_dropWhile (p := fun c => !isBlank c) (l := cs)]
  exact words_append_word clean begun (isBlank_head_dropWord cs)

theorem words_ne_nil {cs : List Char} (some : cs ≠ [])
    (last : ∀ c ∈ cs.getLast?, isBlank c = false) : words cs ≠ [] := by
  rw [← words_trimLeft]
  have rest : trimLeft cs ≠ [] := by
    intro none
    have blank := List.dropWhile_eq_nil_iff.mp none (cs.getLast some) (List.getLast_mem some)
    rw [last _ (List.getLast?_eq_getLast_of_ne_nil some)] at blank
    cases blank
  rw [words_eq_cons rest (isBlank_head_trimLeft cs)]
  exact List.cons_ne_nil _ _

end DoorAccess.Text
