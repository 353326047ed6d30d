import DoorAccess.Proofs.Text.Cut
import DoorAccess.Proofs.Text.Utf8
import DoorAccess.Wire.Parcel

/-!
A peer reads the stream of a connection back reply by reply. Nothing in a reply is escaped: the
word before the first separator has no separator, the number behind the last one has none either,
a line has no line feed but its last byte, and how far a file goes is said before it begins.
-/
namespace DoorAccess

namespace Text.Decimal

theorem not_mem_digits {c : Char} (other : c.isDigit = false) (n : Nat) : c ∉ digits n := by
  intro member
  have digit := Nat.isDigit_of_mem_toDigits (by decide) (by decide) member
  rw [other] at digit
  cases digit

/-- A written number is read back where a sign is allowed. -/
theorem signed?_digits {n limit : Nat} (fits : n ≤ limit) : signed? limit (digits n) = some n := by
  have unsigned : unsigned? limit (digits n) = some n := by
    rw [unsigned?, value?_digits, Option.filter_some, if_pos (by simpa using fits)]
  have unmarked : '+' ∉ digits n := not_mem_digits (by decide) n
  rw [signed?]
  · exact unsigned
  · intro cs marked
    exact unmarked (marked ▸ List.mem_cons_self)

end Text.Decimal

namespace Wire

namespace Reply

/-- The characters of a reply without the line feed that ends it. -/
def unended : Reply → List Char
  | text payload => tag ++ ("string".toList ++ (separator ++ flatten payload.toList))
  | file name size => tag ++ ("file".toList ++ (separator ++
      (name.toList ++ (separator ++ Text.Decimal.digits size))))

theorem line_eq (reply : Reply) : reply.line = reply.unended ++ ['\n'] := by
  cases reply with
  | text | file => simp only [line, unended, List.append_assoc]

theorem not_mem_flatten (cs : List Char) : '\n' ∉ flatten cs := by
  intro found
  obtain ⟨c, _, here⟩ := List.mem_map.mp found
  split at here
  · cases here
  · next other => exact other (.inl here)

theorem not_mem_unended_text (payload : String) : '\n' ∉ (text payload).unended := by
  simp only [unended, List.mem_append, not_or]
  exact ⟨by decide, by decide, by decide, not_mem_flatten payload.toList⟩

theorem not_mem_unended_file {name : String} (oneLine : '\n' ∉ name.toList) (size : Nat) :
    '\n' ∉ (file name size).unended := by
  simp only [unended, List.mem_append, not_or]
  exact ⟨by decide, by decide, by decide, oneLine, by decide,
    Text.Decimal.not_mem_digits (by decide) size⟩

theorem isPrefixOf?_tag (rest : List Char) : tag.isPrefixOf? (tag ++ rest) = some rest :=
  List.isPrefixOf?_eq_some_iff_append_eq.mpr rfl

theorem parse?_text (payload : String) :
    parse? (text payload).unended = some (.text (String.ofList (flatten payload.toList))) := by
  have kind : Text.cutFirst separator ("string".toList ++ (separator ++ flatten payload.toList)) =
      some ("string".toList, flatten payload.toList) := Text.cutFirst_append (by decide) _
  rw [unended, parse?, isPrefixOf?_tag]
  -- the word is only compared with itself
  generalize "string".toList = word at kind ⊢
  simp only [kind, Option.bind_eq_bind, Option.bind_some, if_true, Option.pure_def]

/-- No separator stands further behind than the one in front of the number. -/
theorem not_infix_digits (n : Nat) : ¬ separator <:+: ['%', '%'] ++ Text.Decimal.digits n := by
  intro found
  have count := found.sublist.count_le '%'
  have foreign := Text.Decimal.not_mem_digits (c := '%') (by decide) n
  rw [List.count_append, List.count_eq_zero.mpr foreign] at count
  exact absurd count (by decide)

theorem parse?_file (name : String) {size : Nat} (fits : size ≤ maxSize) :
    parse? (file name size).unended = some (.file name size) := by
  have kind : Text.cutFirst separator ("file".toList ++ (separator ++
      (name.toList ++ (separator ++ Text.Decimal.digits size)))) =
      some ("file".toList, name.toList ++ (separator ++ Text.Decimal.digits size)) :=
    Text.cutFirst_append (by decide) _
  have last : Text.cutLast separator (name.toList ++ (separator ++ Text.Decimal.digits size)) =
      some (name.toList, Text.Decimal.digits size) :=
    Text.cutLast_append name.toList (not_infix_digits size)
  have other : "file".toList ≠ "string".toList := by decide
  simp only [unended, parse?, isPrefixOf?_tag, kind, last, Text.Decimal.signed?_digits fits, other,
    Option.bind_eq_bind, Option.bind_some, Option.pure_def, if_true, if_false, String.ofList_toList]

end Reply

namespace Received

theorem cutLine?_line {line : Bytes} (clean : newline ∉ line) (rest : Bytes) :
    cutLine? (line ++ newline :: rest) = some (line, rest) := by
  induction line with
  | nil => simp [cutLine?]
  | cons b bs ih =>
      obtain ⟨other, clean⟩ := List.ne_and_not_mem_of_not_mem_cons clean
      rw [List.cons_append, cutLine?, if_neg (Ne.symm other), ih clean]
      rfl

/-- The line of a reply is read by itself, whatever stands behind it. -/
theorem next?_reply {reply : Reply} (oneLine : '\n' ∉ reply.unended) (rest : Bytes) :
    next? (reply.encode ++ rest) = (Reply.parse? reply.unended).bind (ofReply? rest) := by
  have clean : newline ∉ Text.Utf8.encode reply.unended := fun found =>
    oneLine (Text.Utf8.mem_of_mem_encode (by decide) found)
  have bytes : reply.encode ++ rest = Text.Utf8.encode reply.unended ++ newline :: rest := by
    rw [Reply.encode, Reply.line_eq, Text.Utf8.encode, List.flatMap_append, List.append_assoc]
    rfl
  simp only [next?, bytes, cutLine?_line clean, Text.Utf8.decode?_encode, Option.bind_eq_bind,
    Option.bind_some]

theorem next?_encode (p : Parcel) (rest : Bytes) :
    next? (p.encode ++ rest) = some (p.expected, rest) := by
  cases p with
  | text payload =>
      have blanks : Reply.flatten payload.toList =
          payload.toList.map fun c => if c = '\r' ∨ c = '\n' then ' ' else c := by
        simp only [Reply.flatten, or_comm]
      rw [Parcel.encode, next?_reply (Reply.not_mem_unended_text payload), Reply.parse?_text,
        Option.bind_some, ofReply?, Parcel.expected, blanks]
  | file name body oneLine fits =>
      have enough : body.length ≤ (body ++ rest).length := by simp
      rw [Parcel.encode, List.append_assoc,
        next?_reply (Reply.not_mem_unended_file oneLine body.length), Reply.parse?_file name fits,
        Option.bind_some, ofReply?, if_pos enough, List.take_left, List.drop_left, Parcel.expected]

example : next? ((Reply.file "%a%%%9%" 2).encode ++ [10, 37, 10]) =
    some (.file "%a%%%9%" [10, 37], [10]) := rfl

theorem encode_ne_nil (p : Parcel) (rest : Bytes) : p.encode ++ rest ≠ [] := by
  intro empty
  have read := next?_encode p rest
  rw [empty] at read
  cases read

/-- A peer that takes lines, and behind the line of a file the bytes that it announces, reads
exactly the replies that were sent, in their order: whatever a name, a body or a text looks like,
nothing is lost and nothing is taken for something else. A line break in a text is read as a
blank. -/
theorem readAll?_stream (parcels : List Parcel) :
    readAll? (Parcel.stream parcels) = some (parcels.map Parcel.expected) := by
  induction parcels with
  | nil =>
      rw [Parcel.stream, List.flatMap_nil, readAll?, if_pos rfl]
      rfl
  | cons p parcels ih =>
      have next := next?_encode p (Parcel.stream parcels)
      rw [Parcel.stream, List.flatMap_cons, ← Parcel.stream, readAll?,
        if_neg (encode_ne_nil p _)]
      split
      · next none => rw [next] at none; cases none
      · next received rest here =>
          rw [next] at here
          cases here
          rw [ih, Option.map_some, List.map_cons]

end Received

end Wire

end DoorAccess
