import DoorAccess.Proofs.Console.Grammar
import DoorAccess.Proofs.Text.Numeral
import DoorAccess.Proofs.Text.Words

/-!
How commands are spelled. Only the words of a frame count: the first is a verb, the others are what
the verb takes. Main statement: a frame is read as a command if its words spell that command; words
that spell none are refused, for their syntax if the first is a verb and as an unknown command if
it is not.
-/
namespace DoorAccess.Console

def tokens (cs : List Char) : List String := (Text.words cs).map String.ofList

namespace Verb

theorem ofText?_text (verb : Verb) : ofText? verb.text = some verb := by
  cases verb <;> decide

theorem eq_text_of_ofText? {word : String} {verb : Verb} (h : ofText? word = some verb) :
    word = verb.text := by
  have found := List.find?_some h
  exact (of_decide_eq_true found).symm

theorem ofText?_eq_none_iff {word : String} :
    ofText? word = none ↔ ∀ verb : Verb, verb.text ≠ word := by
  constructor
  · intro none verb same
    rw [← same, ofText?_text] at none
    cases none
  · intro other
    rw [Option.eq_none_iff_forall_ne_some]
    intro verb found
    exact other verb (eq_text_of_ofText? found).symm

end Verb

namespace Command

/-- A level in decimal, with any number of zeros in front. -/
def IsLevel (digits : String) (level : Level) : Prop :=
  Text.Decimal.IsNumeral level.toNat digits.toList

/-- A day in four, two and two digits, and the key that its log has. -/
def IsDay (day key : String) : Prop :=
  ∃ (year month date : List Char) (s t : Char),
    (year.length = 4 ∧ month.length = 2 ∧ date.length = 2) ∧
    (∀ c ∈ year ++ month ++ date, c.isDigit = true) ∧ (s ∈ ['-', '_'] ∧ t ∈ ['-', '_']) ∧
    day.toList = year ++ s :: (month ++ t :: date) ∧
    key.toList = year ++ '_' :: (month ++ '_' :: date)

/-- What stands behind each verb, and the command it makes. -/
inductive Spells : Verb → List String → Command → Prop
  | newDoor {name digits : String} {level : Level} (named : IsName name)
      (leveled : IsLevel digits level) : Spells .newDoor [name, digits] (.newDoor name level)
  | newUser {name digits : String} {level : Level} (named : IsName name)
      (leveled : IsLevel digits level) : Spells .newUser [name, digits] (.newUser name level)
  | rmDoor {name : String} (named : IsName name) : Spells .rmDoor [name] (.remove .door name)
  | rmUser {name : String} (named : IsName name) : Spells .rmUser [name] (.remove .user name)
  | mvDoor {old new : String} (first : IsName old) (second : IsName new) :
      Spells .mvDoor [old, new] (.edit .door old new none)
  | mvDoorTo {old new digits : String} {level : Level} (first : IsName old) (second : IsName new)
      (leveled : IsLevel digits level) :
      Spells .mvDoor [old, new, digits] (.edit .door old new (some level))
  | mvUser {old new : String} (first : IsName old) (second : IsName new) :
      Spells .mvUser [old, new] (.edit .user old new none)
  | mvUserTo {old new digits : String} {level : Level} (first : IsName old) (second : IsName new)
      (leveled : IsLevel digits level) :
      Spells .mvUser [old, new, digits] (.edit .user old new (some level))
  | getSystemLog {day key : String} (dated : IsDay day key) :
      Spells .getSystemLog [day] (.getLog .system key)
  | getUserLog {name : String} (named : IsName name) :
      Spells .getUserLog [name] (.getLog .user name)
  | getDoorLog {name : String} (named : IsName name) :
      Spells .getDoorLog [name] (.getLog .door name)
  | exit : Spells .exit [] .exit
  | shutdown : Spells .shutdown [] .shutdown
  | help : Spells .help [] .help

/-- What a frame of these words is read as. -/
inductive Reads (words : List String) : Except AccessError Command → Prop
  | command {verb : Verb} {arguments : List String} {command : Command}
      (spelled : words = verb.text :: arguments) (spells : Spells verb arguments command) :
      Reads words (.ok command)
  | badSyntax {verb : Verb} {arguments : List String} (spelled : words = verb.text :: arguments)
      (none : ∀ command, ¬ Spells verb arguments command) : Reads words (.error .badSyntax)
  | unknown (other : ∀ verb : Verb, verb.text ≠ words.headD "") :
      Reads words (.error (.unknownCommand (words.headD "")))

theorem verb_of_spells {verb : Verb} {words : List String} {command : Command}
    (h : Spells verb words command) : command.verb = verb := by
  cases h <;> rfl

theorem level?_eq_some_iff {digits : String} {level : Level} :
    level? digits = some level ↔ IsLevel digits level := by
  rw [level?, IsLevel, Option.map_eq_some_iff]
  constructor
  · rintro ⟨n, read, rfl⟩
    obtain ⟨small, numeral⟩ := Text.Decimal.unsigned?_eq_some_iff.mp read
    rwa [UInt8.toNat_ofNat_of_lt' (Nat.lt_succ_of_le small)]
  · intro numeral
    have small : level.toNat ≤ 255 := Nat.le_of_lt_succ level.toNat_lt
    exact ⟨level.toNat, Text.Decimal.unsigned?_eq_some_iff.mpr ⟨small, numeral⟩, UInt8.ofNat_toNat⟩

theorem isField_of_isLevel {digits : String} {level : Level} (h : IsLevel digits level) :
    IsField Char.isDigit digits :=
  ⟨fun none => Text.Decimal.ne_nil_of_isNumeral h (by rw [none]; rfl),
    Text.Decimal.isDigit_of_isNumeral h⟩

/-- A class whose members are not blank. -/
def IsSolid (isMember : Char → Bool) : Prop := ∀ c, isMember c = true → Text.isBlank c = false

theorem isSolid_isNameChar : IsSolid isNameChar := fun _ => isBlank_of_isNameChar

theorem isSolid_isDigit : IsSolid Char.isDigit := by
  intro c digit
  exact isBlank_of_isNameChar (by simp [isNameChar, Char.isAlphanum, digit])

theorem isSolid_isDateChar : IsSolid isDateChar := by
  intro c member
  rw [isDateChar, Bool.or_eq_true, Bool.or_eq_true, beq_iff_eq, beq_iff_eq] at member
  rcases member with (digit | rfl) | rfl
  · exact isSolid_isDigit c digit
  · decide
  · decide

/-- What may stand behind the first word of a trimmed line: nothing, or blanks and more words. -/
structure IsTail (cs : List Char) : Prop where
  front : ∀ c ∈ cs.head?, Text.isBlank c = true
  back : ∀ c ∈ cs.getLast?, Text.isBlank c = false

theorem fields_cons_eq_some_iff {isMember : Char → Bool} {classes : List (Char → Bool)} {c : Char}
    {cs : List Char} {found : List String} :
    fields (isMember :: classes) (c :: cs) = some found ↔
      Text.isBlank c = true ∧ (Text.trimLeft cs).takeWhile isMember ≠ [] ∧
        ∃ rest, fields classes ((Text.trimLeft cs).dropWhile isMember) = some rest ∧
          String.ofList ((Text.trimLeft cs).takeWhile isMember) :: rest = found := by
  simp only [fields, Option.ite_none_right_eq_some, Option.ite_none_left_eq_some,
    Option.map_eq_some_iff, ne_eq]

theorem isBlank_head_of_fields {classes : List (Char → Bool)} {cs : List Char} {found : List String}
    (h : fields classes cs = some found) : ∀ c ∈ cs.head?, Text.isBlank c = true := by
  intro c first
  cases cs with
  | nil => cases first
  | cons d ds =>
      cases first
      cases classes with
      | nil => cases h
      | cons isMember classes => exact (fields_cons_eq_some_iff.mp h).1

/-- A word that is all of one class is the field of that class. -/
theorem takeWhile_of_word {isMember : Char → Bool} (solid : IsSolid isMember) {cs : List Char}
    (all : ∀ c ∈ cs.takeWhile (fun c => !Text.isBlank c), isMember c = true) :
    cs.takeWhile isMember = cs.takeWhile (fun c => !Text.isBlank c) ∧
      cs.dropWhile isMember = cs.dropWhile fun c => !Text.isBlank c := by
  induction cs with
  | nil => exact ⟨rfl, rfl⟩
  | cons c cs ih =>
      cases blank : Text.isBlank c with
      | true =>
          have not : isMember c = false := by
            rw [← Bool.not_eq_true]
            intro member
            exact Bool.noConfusion (blank.symm.trans (solid c member))
          simp [blank, not]
      | false =>
          simp only [List.takeWhile_cons, blank, Bool.not_false, if_true,
            List.forall_mem_cons] at all
          simpa [blank, all.1] using ih all.2

theorem tokens_cons {field after : List Char} (solid : ∀ c ∈ field, Text.isBlank c = false)
    (some : field ≠ []) (apart : ∀ c ∈ after.head?, Text.isBlank c = true) :
    tokens (field ++ after) = String.ofList field :: tokens after := by
  rw [tokens, Text.words_append_word solid some apart]
  rfl

theorem isBlank_last_dropWhile {cs : List Char} (back : ∀ c ∈ cs.getLast?, Text.isBlank c = false)
    (p : Char → Bool) : ∀ c ∈ (cs.dropWhile p).getLast?, Text.isBlank c = false := by
  intro c last
  refine back c ?_
  obtain ⟨front, whole⟩ := List.dropWhile_suffix (l := cs) p
  rw [← whole, List.getLast?_append, Option.mem_def.mp last]
  rfl

/-- Behind the blanks of a tail stands a word. -/
theorem IsTail.next {c : Char} {cs : List Char} (tail : IsTail (c :: cs)) :
    Text.trimLeft cs ≠ [] ∧ (∀ d ∈ (Text.trimLeft cs).getLast?, Text.isBlank d = false) ∧
      tokens (c :: cs) = tokens (Text.trimLeft cs) := by
  have blank := tail.front c rfl
  have same : Text.words (c :: cs) = Text.words (Text.trimLeft cs) := by
    rw [Text.words_cons_of_isBlank blank, Text.words_trimLeft]
  have spelled := Text.words_ne_nil (List.cons_ne_nil c cs) tail.back
  have last := isBlank_last_dropWhile tail.back Text.isBlank
  rw [List.dropWhile_cons_of_pos blank] at last
  exact ⟨fun none => spelled (by rw [same, none]; rfl), last,
    congrArg (List.map String.ofList) same⟩

/-- A field that is cut off in front is the first word. -/
theorem tokens_of_field {isMember : Char → Bool} (solid : IsSolid isMember) {cs : List Char}
    (present : cs.takeWhile isMember ≠ [])
    (front : ∀ c ∈ (cs.dropWhile isMember).head?, Text.isBlank c = true) :
    IsField isMember (String.ofList (cs.takeWhile isMember)) ∧
      tokens cs = String.ofList (cs.takeWhile isMember) :: tokens (cs.dropWhile isMember) := by
  have members : ∀ c ∈ cs.takeWhile isMember, isMember c = true :=
    fun _ => List.mem_takeWhile_imp
  have cut := tokens_cons (fun c member => solid c (members c member)) present front
  rw [List.takeWhile_append_dropWhile] at cut
  exact ⟨⟨by simpa [String.ofList_eq_empty_iff] using present, by simpa using members⟩, cut⟩

/-- The first word is the field that is cut off in front, if it is all of one class. -/
theorem field_of_tokens {isMember : Char → Bool} (solid : IsSolid isMember) {cs : List Char}
    (some : cs ≠ []) (first : ∀ c ∈ cs.head?, Text.isBlank c = false) {word : String}
    {others : List String} (spelled : tokens cs = word :: others)
    (field : IsField isMember word) :
    cs.takeWhile isMember ≠ [] ∧
      (∀ c ∈ (cs.dropWhile isMember).head?, Text.isBlank c = true) ∧
      String.ofList (cs.takeWhile isMember) = word ∧
      tokens (cs.dropWhile isMember) = others := by
  rw [tokens, Text.words_eq_cons some first] at spelled
  obtain ⟨rfl, others⟩ := List.cons.inj spelled
  have members := field.2
  rw [String.toList_ofList] at members
  obtain ⟨taken, left⟩ := takeWhile_of_word solid members
  refine ⟨?_, left ▸ Text.isBlank_head_dropWord cs, by rw [taken],
    (congrArg tokens left).trans others⟩
  rw [taken]
  exact fun none => field.1 (by rw [none])

/-- The fields of a tail are its words, if there are as many as classes and each is of its own. -/
theorem fields_eq_some_iff {classes : List (Char → Bool)}
    (solid : ∀ isMember ∈ classes, IsSolid isMember) {arguments : List Char}
    (tail : IsTail arguments) {found : List String} :
    fields classes arguments = some found ↔
      tokens arguments = found ∧ List.Forall₂ IsField classes found := by
  induction classes generalizing arguments found with
  | nil =>
      rw [List.forall₂_nil_left_iff]
      cases arguments with
      | nil => simp [fields, tokens, Text.words, Text.splitAt, eq_comm]
      | cons c cs =>
          have spelled := Text.words_ne_nil (List.cons_ne_nil c cs) tail.back
          constructor
          · intro read
            cases read
          · rintro ⟨rfl, none⟩
            exact absurd (List.map_eq_nil_iff.mp none) spelled
  | cons isMember classes ih =>
      obtain ⟨here, later⟩ := List.forall_mem_cons.mp solid
      cases arguments with
      | nil =>
          constructor
          · intro read
            cases read
          · rintro ⟨rfl, all⟩
            cases all
      | cons c cs =>
          obtain ⟨some, back, same⟩ := tail.next
          have first := Text.isBlank_head_trimLeft cs
          rw [fields_cons_eq_some_iff, same]
          generalize Text.trimLeft cs = start at some back first
          have last := isBlank_last_dropWhile back isMember
          constructor
          · rintro ⟨_, present, rest, read, rfl⟩
            have front := isBlank_head_of_fields read
            obtain ⟨spelled, all⟩ := (ih later ⟨front, last⟩).mp read
            obtain ⟨field, cut⟩ := tokens_of_field here present front
            exact ⟨spelled ▸ cut, .cons field all⟩
          · rintro ⟨spelled, all⟩
            cases all with
            | cons field rest =>
                obtain ⟨present, front, word, others⟩ :=
                  field_of_tokens here some first spelled field
                have read := (ih later ⟨front, last⟩).mpr ⟨others, rest⟩
                exact ⟨tail.front c rfl, present, _, read, by rw [word]⟩

section Arguments
variable {arguments : List Char} (tail : IsTail arguments) {command : Command}
include tail

theorem named_eq_some_iff {make : String → Command} :
    ofArguments?.named arguments make = some command ↔
      ∃ name, tokens arguments = [name] ∧ IsName name ∧ make name = command := by
  have solid : ∀ isMember ∈ [isNameChar], IsSolid isMember := by simp [isSolid_isNameChar]
  rw [ofArguments?.named]
  constructor
  · intro read
    split at read
    · next name found =>
        obtain ⟨spelled, all⟩ := (fields_eq_some_iff solid tail).mp found
        cases all with
        | cons named _ => exact ⟨name, spelled, named, Option.some.inj read⟩
    · cases read
  · rintro ⟨name, spelled, named, made⟩
    rw [(fields_eq_some_iff solid tail).mpr ⟨spelled, .cons named .nil⟩]
    exact congrArg some made

theorem record_eq_some_iff {make : String → Level → Command} :
    ofArguments?.record arguments make = some command ↔
      ∃ name digits level, tokens arguments = [name, digits] ∧ IsName name ∧
        IsLevel digits level ∧ make name level = command := by
  have solid : ∀ isMember ∈ [isNameChar, Char.isDigit], IsSolid isMember := by
    simp [isSolid_isNameChar, isSolid_isDigit]
  rw [ofArguments?.record]
  constructor
  · intro read
    split at read
    · next name digits found =>
        obtain ⟨level, valued, made⟩ := Option.map_eq_some_iff.mp read
        have leveled := level?_eq_some_iff.mp valued
        obtain ⟨spelled, all⟩ := (fields_eq_some_iff solid tail).mp found
        cases all with
        | cons named _ => exact ⟨name, digits, level, spelled, named, leveled, made⟩
    · cases read
  · rintro ⟨name, digits, level, spelled, named, leveled, made⟩
    have all : List.Forall₂ IsField [isNameChar, Char.isDigit] [name, digits] :=
      .cons named (.cons (isField_of_isLevel leveled) .nil)
    rw [(fields_eq_some_iff solid tail).mpr ⟨spelled, all⟩]
    exact Option.map_eq_some_iff.mpr ⟨level, level?_eq_some_iff.mpr leveled, made⟩

theorem change_eq_some_iff {kind : RecordKind} :
    ofArguments?.change arguments kind = some command ↔
      ∃ old new, (IsName old ∧ IsName new) ∧
        ((tokens arguments = [old, new] ∧ .edit kind old new none = command) ∨
          ∃ digits level, tokens arguments = [old, new, digits] ∧ IsLevel digits level ∧
            .edit kind old new (some level) = command) := by
  have two : ∀ isMember ∈ [isNameChar, isNameChar], IsSolid isMember := by
    simp [isSolid_isNameChar]
  have three : ∀ isMember ∈ [isNameChar, isNameChar, Char.isDigit], IsSolid isMember := by
    simp [isSolid_isNameChar, isSolid_isDigit]
  rw [ofArguments?.change]
  constructor
  · intro read
    split at read
    · next old new found =>
        obtain ⟨spelled, all⟩ := (fields_eq_some_iff two tail).mp found
        cases all with
        | cons first rest =>
            cases rest with
            | cons second _ =>
                exact ⟨old, new, ⟨first, second⟩, .inl ⟨spelled, Option.some.inj read⟩⟩
    · split at read
      · next old new digits found =>
          obtain ⟨level, valued, made⟩ := Option.map_eq_some_iff.mp read
          have leveled := level?_eq_some_iff.mp valued
          obtain ⟨spelled, all⟩ := (fields_eq_some_iff three tail).mp found
          cases all with
          | cons first rest =>
              cases rest with
              | cons second _ =>
                  exact ⟨old, new, ⟨first, second⟩, .inr ⟨digits, level, spelled, leveled, made⟩⟩
      · cases read
  · rintro ⟨old, new, ⟨first, second⟩, ⟨spelled, made⟩ | ⟨digits, level, spelled, leveled, made⟩⟩
    · have all : List.Forall₂ IsField [isNameChar, isNameChar] [old, new] :=
        .cons first (.cons second .nil)
      rw [(fields_eq_some_iff two tail).mpr ⟨spelled, all⟩]
      exact congrArg some made
    · have all : List.Forall₂ IsField [isNameChar, isNameChar, Char.isDigit] [old, new, digits] :=
        .cons first (.cons second (.cons (isField_of_isLevel leveled) .nil))
      split
      · next found => cases spelled.symm.trans ((fields_eq_some_iff two tail).mp found).1
      · rw [(fields_eq_some_iff three tail).mpr ⟨spelled, all⟩]
        exact Option.map_eq_some_iff.mpr ⟨level, level?_eq_some_iff.mpr leveled, made⟩

theorem bare_eq_some_iff {whole : Command} :
    ofArguments?.bare arguments whole = some command ↔ tokens arguments = [] ∧ whole = command := by
  have none : arguments = [] ↔ tokens arguments = [] := by
    constructor
    · rintro rfl
      rfl
    · intro spelled
      by_contra some
      exact Text.words_ne_nil some tail.back (List.map_eq_nil_iff.mp spelled)
  rw [ofArguments?.bare, Option.ite_none_right_eq_some, none, Option.some_inj]

end Arguments

theorem isField_of_isDay {day key : String} (h : IsDay day key) : IsField isDateChar day := by
  obtain ⟨year, month, date, s, t, -, digits, ⟨left, right⟩, spelled, -⟩ := h
  have separator : ∀ c ∈ ['-', '_'], isDateChar c = true := by simp [isDateChar]
  have digit : ∀ c ∈ year ++ month ++ date, isDateChar c = true := by
    intro c member
    rw [isDateChar, digits c member]
    rfl
  refine ⟨fun none => ?_, ?_⟩
  · rw [none] at spelled
    exact absurd (congrArg List.length spelled) (by simp)
  · simp only [List.mem_append, or_imp, forall_and] at digit
    rw [spelled]
    simp only [List.mem_append, List.mem_cons, or_imp, forall_and, forall_eq]
    exact ⟨digit.1.1, separator s left, digit.1.2, separator t right, digit.2⟩

theorem dayKey?_eq_some_iff {day key : String} (field : IsField isDateChar day) :
    dayKey? day = some key ↔ IsDay day key := by
  have separator {c : Char} (member : c ∈ day.toList) (not : ¬ c.isDigit = true) :
      c ∈ ['-', '_'] := by
    have dated := field.2 c member
    simpa [isDateChar, not] using dated
  constructor
  · intro read
    rw [dayKey?] at read
    split at read
    · next a b c d s e f t g h spelled =>
        obtain ⟨⟨digits, left, right⟩, keyed⟩ := Option.ite_none_right_eq_some.mp read
        refine ⟨[a, b, c, d], [e, f], [g, h], s, t, ⟨rfl, rfl, rfl⟩, ?_, ⟨?_, ?_⟩, spelled, ?_⟩
        · exact List.all_eq_true.mp digits
        · exact separator (by simp [spelled]) left
        · exact separator (by simp [spelled]) right
        · rw [← Option.some.inj keyed, String.toList_ofList]
          rfl
    · cases read
  · rintro ⟨year, month, date, s, t, ⟨four, two, two'⟩, digits, ⟨left, right⟩, spelled, keyed⟩
    have separates : ∀ c ∈ ['-', '_'], ¬ c.isDigit = true := by simp
    match year, month, date, four, two, two' with
    | [a, b, c, d], [e, f], [g, h], _, _, _ =>
      rw [dayKey?, spelled]
      simp only [List.cons_append, List.nil_append]
      rw [if_pos ⟨List.all_eq_true.mpr digits, separates s left, separates t right⟩,
        ← String.ofList_toList (s := key), keyed]
      rfl

theorem day_eq_some_iff {arguments : List Char} (tail : IsTail arguments) {command : Command} :
    ofArguments? .getSystemLog arguments = some command ↔
      ∃ day key, tokens arguments = [day] ∧ IsDay day key ∧ .getLog .system key = command := by
  have solid : ∀ isMember ∈ [isDateChar], IsSolid isMember := by simp [isSolid_isDateChar]
  rw [ofArguments?]
  constructor
  · intro read
    split at read
    · next day found =>
        obtain ⟨key, keyed, made⟩ := Option.map_eq_some_iff.mp read
        obtain ⟨spelled, all⟩ := (fields_eq_some_iff solid tail).mp found
        cases all with
        | cons field _ =>
            exact ⟨day, key, spelled, (dayKey?_eq_some_iff field).mp keyed, made⟩
    · cases read
  · rintro ⟨day, key, spelled, dated, made⟩
    have field := isField_of_isDay dated
    rw [(fields_eq_some_iff solid tail).mpr ⟨spelled, .cons field .nil⟩]
    exact Option.map_eq_some_iff.mpr ⟨key, (dayKey?_eq_some_iff field).mpr dated, made⟩

/-- What stands behind a verb is taken exactly if its words spell a command. -/
theorem ofArguments?_eq_some_iff {arguments : List Char} (tail : IsTail arguments) (verb : Verb)
    {command : Command} :
    ofArguments? verb arguments = some command ↔ Spells verb (tokens arguments) command := by
  constructor
  · intro read
    cases verb with
    | newDoor | newUser =>
        obtain ⟨name, digits, level, spelled, named, leveled, rfl⟩ :=
          (record_eq_some_iff tail).mp read
        rw [spelled]
        constructor <;> assumption
    | rmDoor | rmUser | getUserLog | getDoorLog =>
        obtain ⟨name, spelled, named, rfl⟩ := (named_eq_some_iff tail).mp read
        rw [spelled]
        constructor
        assumption
    | mvDoor | mvUser =>
        obtain ⟨old, new, ⟨first, second⟩, shorter | ⟨digits, level, spelled, leveled, rfl⟩⟩ :=
          (change_eq_some_iff tail).mp read
        · obtain ⟨spelled, rfl⟩ := shorter
          rw [spelled]
          constructor <;> assumption
        · rw [spelled]
          constructor <;> assumption
    | getSystemLog =>
        obtain ⟨day, key, spelled, dated, rfl⟩ := (day_eq_some_iff tail).mp read
        rw [spelled]
        exact .getSystemLog dated
    | exit | shutdown | help =>
        obtain ⟨spelled, rfl⟩ := (bare_eq_some_iff tail).mp read
        rw [spelled]
        constructor
  · intro spells
    generalize spelled : tokens arguments = words at spells
    cases spells with
    | newDoor named leveled | newUser named leveled =>
        exact (record_eq_some_iff tail).mpr ⟨_, _, _, spelled, named, leveled, rfl⟩
    | rmDoor named | rmUser named | getUserLog named | getDoorLog named =>
        exact (named_eq_some_iff tail).mpr ⟨_, spelled, named, rfl⟩
    | mvDoor first second | mvUser first second =>
        exact (change_eq_some_iff tail).mpr ⟨_, _, ⟨first, second⟩, .inl ⟨spelled, rfl⟩⟩
    | mvDoorTo first second leveled | mvUserTo first second leveled =>
        exact (change_eq_some_iff tail).mpr
          ⟨_, _, ⟨first, second⟩, .inr ⟨_, _, spelled, leveled, rfl⟩⟩
    | getSystemLog dated => exact (day_eq_some_iff tail).mpr ⟨_, _, spelled, dated, rfl⟩
    | exit | shutdown | help => exact (bare_eq_some_iff tail).mpr ⟨spelled, rfl⟩

theorem parse_reads (frame : String) : Reads (tokens frame.toList) (parse frame) := by
  have same : tokens (Text.trim frame.toList) = tokens frame.toList :=
    congrArg (List.map String.ofList) (Text.words_trim frame.toList)
  have first := Text.isBlank_head_trim frame.toList
  have last := Text.isBlank_last_trim frame.toList
  rw [← same]
  simp only [parse]
  generalize Text.trim frame.toList = line at first last
  by_cases empty : line = []
  · subst empty
    exact .unknown fun verb => by cases verb <;> decide
  · have tail : IsTail (line.dropWhile fun c => !Text.isBlank c) :=
      ⟨Text.isBlank_head_dropWord line, isBlank_last_dropWhile last _⟩
    have spelled : tokens line = String.ofList (line.takeWhile fun c => !Text.isBlank c) ::
        tokens (line.dropWhile fun c => !Text.isBlank c) :=
      congrArg (List.map String.ofList) (Text.words_eq_cons empty first)
    split
    · next unknown =>
        have word : String.ofList (line.takeWhile fun c => !Text.isBlank c) =
            (tokens line).headD "" := by rw [spelled]; rfl
        rw [word] at unknown ⊢
        exact .unknown (Verb.ofText?_eq_none_iff.mp unknown)
    · next verb known =>
        rw [Verb.eq_text_of_ofText? known] at spelled
        split
        · next command read => exact .command spelled ((ofArguments?_eq_some_iff tail verb).mp read)
        · next none =>
            refine .badSyntax spelled fun command spells => ?_
            rw [(ofArguments?_eq_some_iff tail verb).mpr spells] at none
            cases none

theorem level_eq_of_isLevel {digits : String} {level level' : Level} (h : IsLevel digits level)
    (h' : IsLevel digits level') : level = level' :=
  Option.some.inj ((level?_eq_some_iff.mpr h).symm.trans (level?_eq_some_iff.mpr h'))

theorem key_eq_of_isDay {day key key' : String} (h : IsDay day key) (h' : IsDay day key') :
    key = key' := by
  have field := isField_of_isDay h
  exact Option.some.inj
    (((dayKey?_eq_some_iff field).mpr h).symm.trans ((dayKey?_eq_some_iff field).mpr h'))

theorem command_eq_of_spells {verb : Verb} {words : List String} {command command' : Command}
    (h : Spells verb words command) (h' : Spells verb words command') : command = command' := by
  cases h with
  | newDoor _ leveled | newUser _ leveled | mvDoorTo _ _ leveled | mvUserTo _ _ leveled =>
      cases h' with
      | _ => rw [level_eq_of_isLevel leveled (by assumption)]
  | getSystemLog dated =>
      cases h' with
      | getSystemLog dated' => rw [key_eq_of_isDay dated dated']
  | _ =>
      cases h'
      rfl

/-- Two verbs that begin the same words are one. -/
theorem verb_eq {words arguments arguments' : List String} {verb verb' : Verb}
    (h : words = verb.text :: arguments) (h' : words = verb'.text :: arguments') :
    verb = verb' ∧ arguments = arguments' := by
  obtain ⟨text, rfl⟩ := List.cons.inj (h.symm.trans h')
  have same := congrArg Verb.ofText? text
  rw [Verb.ofText?_text, Verb.ofText?_text] at same
  exact ⟨Option.some.inj same, rfl⟩

theorem Reads.eq {words : List String} {r r' : Except AccessError Command} (h : Reads words r)
    (h' : Reads words r') : r = r' := by
  cases h with
  | command spelled spells =>
      cases h' with
      | command spelled' spells' =>
          obtain ⟨rfl, rfl⟩ := verb_eq spelled spelled'
          rw [command_eq_of_spells spells spells']
      | badSyntax spelled' none =>
          obtain ⟨rfl, rfl⟩ := verb_eq spelled spelled'
          exact absurd spells (none _)
      | unknown other => exact absurd (by rw [spelled]; rfl) (other _)
  | badSyntax spelled none =>
      cases h' with
      | command spelled' spells =>
          obtain ⟨rfl, rfl⟩ := verb_eq spelled spelled'
          exact absurd spells (none _)
      | badSyntax => rfl
      | unknown other => exact absurd (by rw [spelled]; rfl) (other _)
  | unknown other =>
      cases h' with
      | command spelled | badSyntax spelled => exact absurd (by rw [spelled]; rfl) (other _)
      | unknown => rfl

/-- A frame is read as its words tell, and as nothing else. A command has the verb that its first
word is, and frames of the same words are read alike. -/
theorem parse_eq_iff_reads (frame : String) :
    (∀ r, parse frame = r ↔ Reads (tokens frame.toList) r) ∧
    (∀ command, parse frame = .ok command →
      (tokens frame.toList).head? = some command.verb.text) ∧
    ∀ other : String, tokens other.toList = tokens frame.toList → parse other = parse frame := by
  have reads := parse_reads frame
  refine ⟨fun r => ⟨fun read => read ▸ reads, reads.eq⟩, ?_, ?_⟩
  · intro command read
    rw [read] at reads
    cases reads with
    | command spelled spells =>
        rw [spelled, verb_of_spells spells]
        rfl
  · intro other same
    exact (same ▸ parse_reads other).eq reads

example : parse "\tmvDoor  hall\u00a0Side_1 007 " = .ok (.edit .door "hall" "Side_1" (some 7)) := by
  decide +kernel

end Command

end DoorAccess.Console
