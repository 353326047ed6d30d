import DoorAccess.Wire.Inbox

/-!
However a stream is cut into chunks, the frames found in it are those of its lines. The decoder
remembers a front part of its buffer that it has searched in vain; that this part holds no line feed
is all that has to be kept from one chunk to the next.
-/
namespace DoorAccess.Wire

/-! ### The lines of a stream -/

/-- A stream is an unended line, or it begins with a line. -/
theorem clean_or_line (stream : Bytes) :
    newline ∉ stream ∨ ∃ line rest, stream = line ++ newline :: rest ∧ newline ∉ line := by
  by_cases ended : newline ∈ stream
  · exact .inr (List.eq_append_cons_of_mem ended)
  · exact .inl ended

namespace Lines
variable {maxLength : Nat}

/-- These frames and then what was read. -/
def Reading.behind (frames : List String) (r : Reading) : Reading := ⟨frames ++ r.frames, r.failure⟩

theorem split_of_clean {tail : Bytes} (clean : newline ∉ tail) : split tail = ([], tail) := by
  induction tail with
  | nil => rfl
  | cons b bs ih =>
      obtain ⟨first, clean⟩ := List.ne_and_not_mem_of_not_mem_cons clean
      have other : (b == newline) = false := beq_false_of_ne (Ne.symm first)
      simp [split, ih clean, other]

theorem split_line {line : Bytes} (clean : newline ∉ line) (rest : Bytes) :
    split (line ++ newline :: rest) = (line :: (split rest).1, (split rest).2) := by
  induction line with
  | nil => simp [split]
  | cons b bs ih =>
      obtain ⟨first, clean⟩ := List.ne_and_not_mem_of_not_mem_cons clean
      have other : (b == newline) = false := beq_false_of_ne (Ne.symm first)
      simp [split, ih clean, other]

theorem read_of_clean {tail : Bytes} (clean : newline ∉ tail) :
    read maxLength tail =
      ⟨[], if maxLength < tail.length then some (.frameTooLong maxLength) else none⟩ := by
  simp only [read, split_of_clean clean, readFrom]

theorem read_line {line : Bytes} (clean : newline ∉ line) (rest : Bytes) :
    read maxLength (line ++ newline :: rest) =
      if maxLength < line.length then ⟨[], some (.frameTooLong maxLength)⟩
      else (read maxLength rest).behind [frameOf line] := by
  simp only [read, split_line clean, readFrom]
  rfl

/-- Nothing that may follow saves a line that is too long already. -/
theorem read_tooLong {front : Bytes} (clean : newline ∉ front) (long : maxLength < front.length)
    (rest : Bytes) : read maxLength (front ++ rest) = ⟨[], some (.frameTooLong maxLength)⟩ := by
  rcases clean_or_line rest with unended | ⟨line, rest, rfl, unended⟩
  · have whole : newline ∉ front ++ rest := by simp [clean, unended]
    rw [read_of_clean whole, if_pos (by rw [List.length_append]; omega)]
  · have whole : newline ∉ front ++ line := by simp [clean, unended]
    rw [← List.append_assoc, read_line whole, if_pos (by rw [List.length_append]; omega)]

end Lines

/-! ### One attempt -/

namespace Decoder
variable {d : Decoder} {buffer line rest : Bytes}

/-- What the decoder takes for searched holds no line feed. -/
def Searched (d : Decoder) (buffer : Bytes) : Prop := newline ∉ buffer.take d.searched

theorem newlineAt?_of_clean (clean : newline ∉ buffer) (from_ : Nat) :
    newlineAt? from_ buffer = none := by
  have behind : newline ∉ buffer.drop from_ := fun found => clean (List.mem_of_mem_drop found)
  rw [newlineAt?, List.idxOf?_eq_none_iff.mpr behind, Option.map_none]

theorem newlineAt?_line (clean : newline ∉ line) {from_ : Nat} (before : from_ ≤ line.length) :
    newlineAt? from_ (line ++ newline :: rest) = some line.length := by
  have first : ∀ cs : Bytes, newline ∉ cs →
      (cs ++ newline :: rest).idxOf? newline = some cs.length := by
    intro cs clean
    induction cs with
    | nil => simp [List.idxOf?_cons]
    | cons c cs ih =>
        obtain ⟨other, clean⟩ := List.ne_and_not_mem_of_not_mem_cons clean
        simp [List.idxOf?_cons, ih clean, Ne.symm other]
  have behind : newline ∉ line.drop from_ := fun found => clean (List.mem_of_mem_drop found)
  rw [newlineAt?, List.drop_append_of_le_length before, first _ behind, List.length_drop]
  simp only [Option.map_some, Option.some.injEq]
  omega

theorem le_length_of_clean_take {n : Nat} (clean : newline ∉ (line ++ newline :: rest).take n) :
    n ≤ line.length := by
  rw [← Nat.not_lt]
  intro past
  obtain ⟨k, more⟩ : ∃ k, n - line.length = k + 1 := ⟨_, (Nat.sub_one_add_one (by omega)).symm⟩
  refine clean ?_
  rw [List.take_append, more]
  simp

/-- What decoding can come to. A line that is too long may have ended or not, and a buffer without
frame is kept for more bytes. -/
inductive Decodes (d : Decoder) (buffer : Bytes) : Attempt → Prop
  | tooLong (front rest : Bytes) (searched : Nat) (whole : buffer = front ++ rest)
      (clean : newline ∉ front) (long : d.maxLength < front.length) (back : searched ≤ d.searched) :
      Decodes d buffer ⟨.error (.frameTooLong d.maxLength), ⟨d.maxLength, searched⟩, buffer⟩
  | frame (line rest : Bytes) (whole : buffer = line ++ newline :: rest) (clean : newline ∉ line)
      (short : line.length ≤ d.maxLength) :
      Decodes d buffer ⟨.ok (some (frameOf line)), ⟨d.maxLength, 0⟩, rest⟩
  | nothing (clean : newline ∉ buffer) (short : buffer.length ≤ d.maxLength) :
      Decodes d buffer ⟨.ok none, ⟨d.maxLength, buffer.length⟩, buffer⟩

theorem Searched.decodes (searched : d.Searched buffer) : d.Decodes buffer (d.decode buffer) := by
  rcases clean_or_line buffer with clean | ⟨line, rest, rfl, clean⟩
  · rw [decode, newlineAt?_of_clean clean]
    dsimp only
    split
    · next long =>
        exact .tooLong buffer [] d.searched (List.append_nil buffer).symm clean long (Nat.le_refl _)
    · next short => exact .nothing clean (Nat.not_lt.mp short)
  · have before : min d.searched (line ++ newline :: rest).length ≤ line.length :=
      Nat.le_trans (Nat.min_le_left _ _) (le_length_of_clean_take searched)
    rw [decode, newlineAt?_line clean before]
    dsimp only
    split
    · next long => exact .tooLong line (newline :: rest) 0 rfl clean long (Nat.zero_le _)
    · next short => simpa using Decodes.frame line rest rfl clean (Nat.not_lt.mp short)

/-- Looking again for a frame where there is none changes nothing. -/
theorem decode_again {d d' : Decoder} {buffer rest : Bytes}
    (nothing : d.decode buffer = ⟨.ok none, d', rest⟩) : d'.decode rest = ⟨.ok none, d', rest⟩ := by
  rw [decode] at nothing
  split at nothing
  · split at nothing <;> cases nothing
  · split at nothing
    · cases nothing
    · next short =>
        cases nothing
        simp [decode, newlineAt?, short]

end Decoder

/-! ### The inbox -/

namespace Inbox
variable {maxLength : Nat} {i : Inbox}

structure Sound (i : Inbox) (maxLength : Nat) : Prop where
  limit : i.decoder.maxLength = maxLength
  within : i.decoder.searched ≤ i.buffer.length
  searched : i.decoder.Searched i.buffer

/-- There is nothing to take before more bytes come. -/
structure Waiting (i : Inbox) (maxLength : Nat) : Prop extends i.Sound maxLength where
  unended : newline ∉ i.buffer
  short : i.buffer.length ≤ maxLength

theorem waiting_new (maxLength : Nat) : (new maxLength).Waiting maxLength where
  limit := rfl
  within := Nat.le_refl 0
  searched := by simp [Decoder.Searched, new]
  unended := by simp [new]
  short := Nat.zero_le maxLength

theorem Sound.feed (sound : i.Sound maxLength) (chunk : Bytes) :
    Sound ⟨i.decoder, i.buffer ++ chunk⟩ maxLength := by
  refine ⟨sound.limit, ?_, ?_⟩
  · exact Nat.le_trans sound.within (by simp)
  · have kept : (i.buffer ++ chunk).take i.decoder.searched = i.buffer.take i.decoder.searched :=
      List.take_append_of_le_length sound.within
    rw [Decoder.Searched, kept]
    exact sound.searched

theorem Sound.decoded {d : Decoder} {buffer : Bytes} {a : Attempt}
    (sound : Sound ⟨d, buffer⟩ maxLength) (step : d.Decodes buffer a) :
    Sound ⟨a.decoder, a.buffer⟩ maxLength := by
  have limit : d.maxLength = maxLength := sound.limit
  cases step with
  | tooLong front rest searched whole clean long back =>
      refine ⟨limit, Nat.le_trans back sound.within, fun found => sound.searched ?_⟩
      exact List.take_subset_take_left _ back found
  | frame => exact ⟨limit, Nat.zero_le _, by simp [Decoder.Searched]⟩
  | nothing clean short =>
      exact ⟨limit, Nat.le_refl _, fun found => clean (List.mem_of_mem_take found)⟩

/-! ### Draining -/

section Drain
variable {d d' : Decoder} {buffer rest : Bytes}

theorem drain_eq (ended : Bool) (d : Decoder) (buffer : Bytes) :
    drain ended d buffer =
      match d.attempt ended buffer with
      | ⟨.error e, d', rest⟩ => ⟨[], some e, ⟨d', rest⟩⟩
      | ⟨.ok none, d', rest⟩ => ⟨[], none, ⟨d', rest⟩⟩
      | ⟨.ok (some frame), d', rest⟩ =>
        { drain ended d' rest with frames := frame :: (drain ended d' rest).frames } := by
  rw [drain]
  dsimp only
  generalize d.attempt ended buffer = a
  obtain ⟨_ | _ | _, _, _⟩ := a <;> rfl

theorem drain_error {e : AccessError} (ended : Bool)
    (h : d.decode buffer = ⟨.error e, d', rest⟩) :
    drain ended d buffer = ⟨[], some e, ⟨d', rest⟩⟩ := by
  rw [drain_eq, Decoder.attempt_of_outcome ended (by simp [h]), h]

theorem drain_frame {frame : String} (ended : Bool)
    (h : d.decode buffer = ⟨.ok (some frame), d', rest⟩) :
    drain ended d buffer =
      { drain ended d' rest with frames := frame :: (drain ended d' rest).frames } := by
  rw [drain_eq, Decoder.attempt_of_outcome ended (by simp [h]), h]

theorem drain_nothing (h : d.decode buffer = ⟨.ok none, d', rest⟩) :
    drain false d buffer = ⟨[], none, ⟨d', rest⟩⟩ ∧
      drain true d buffer = ⟨[], none, ⟨{ d' with searched := 0 }, []⟩⟩ := by
  simp [drain_eq, Decoder.attempt, Decoder.decodeEnd, h]

end Drain

theorem Waiting.decode_eq (waiting : i.Waiting maxLength) :
    i.decoder.decode i.buffer =
      ⟨.ok none, ⟨i.decoder.maxLength, i.buffer.length⟩, i.buffer⟩ := by
  have step := waiting.searched.decodes
  generalize i.decoder.decode i.buffer = a at step
  cases step with
  | tooLong front rest searched whole clean long =>
      have short := waiting.short
      rw [whole, List.length_append, ← waiting.limit] at short
      omega
  | frame line rest whole =>
      refine absurd waiting.unended (not_not_intro ?_)
      simp [whole]
  | nothing => rfl

/-- What a reading says of every stream that begins with the buffer: it fails where all of these
fail, or it has their first lines and waits for the rest. -/
inductive Reads (maxLength : Nat) (buffer : Bytes) : Reading → Prop
  | failed {frames : List String} {e : AccessError} {left : Inbox}
      (same : ∀ more, Lines.read maxLength (buffer ++ more) = ⟨frames, some e⟩) :
      Reads maxLength buffer ⟨frames, some e, left⟩
  | going {frames : List String} {left : Inbox} (waiting : left.Waiting maxLength)
      (same : ∀ more, Lines.read maxLength (buffer ++ more) =
        (Lines.read maxLength (left.buffer ++ more)).behind frames) :
      Reads maxLength buffer ⟨frames, none, left⟩

theorem reads_drain {d : Decoder} {buffer : Bytes} (sound : Sound ⟨d, buffer⟩ maxLength) :
    Reads maxLength buffer (drain false d buffer) := by
  induction size : buffer.length using Nat.strongRecOn generalizing d buffer with
  | ind _ ih =>
      have searched : d.Searched buffer := sound.searched
      have step := searched.decodes
      obtain rfl : d.maxLength = maxLength := sound.limit
      generalize decoded : d.decode buffer = a at step
      have left := sound.decoded step
      cases step with
      | tooLong front rest searched whole clean long =>
          rw [drain_error false decoded]
          refine .failed fun more => ?_
          rw [whole, List.append_assoc, Lines.read_tooLong clean long]
      | frame line rest whole clean short =>
          have later := ih rest.length (by simp [← size, whole]; omega) left rfl
          have first (more : Bytes) : Lines.read d.maxLength (buffer ++ more) =
              (Lines.read d.maxLength (rest ++ more)).behind [frameOf line] := by
            rw [whole, List.append_assoc, List.cons_append, Lines.read_line clean,
              if_neg (Nat.not_lt.mpr short)]
          rw [drain_frame false decoded]
          generalize drain false ⟨d.maxLength, 0⟩ rest = r at later
          cases later with
          | failed same => exact .failed fun more => by rw [first, same]; rfl
          | going waiting same => exact .going waiting fun more => by rw [first, same]; rfl
      | nothing clean short =>
          rw [(drain_nothing decoded).1]
          exact .going ⟨left, clean, short⟩ fun more => rfl

theorem readChunks_of_waiting (waiting : i.Waiting maxLength) (chunks : List Bytes) :
    i.readChunks chunks = Lines.read maxLength (i.buffer ++ chunks.flatten) := by
  induction chunks generalizing i with
  | nil =>
      have noMore : Lines.read maxLength i.buffer = ⟨[], none⟩ := by
        rw [Lines.read_of_clean waiting.unended, if_neg (Nat.not_lt.mpr waiting.short)]
      rw [readChunks, finish, (drain_nothing waiting.decode_eq).2, List.flatten_nil,
        List.append_nil, noMore]
  | cons chunk chunks ih =>
      have reads := reads_drain (waiting.feed chunk)
      rw [readChunks, receive, List.flatten_cons, ← List.append_assoc]
      generalize drain false i.decoder (i.buffer ++ chunk) = r at reads
      cases reads with
      | failed same => rw [same]
      | going waiting same => rw [same, ← ih waiting]; rfl

/-! ### Any order of bytes and attempts -/

/-- What can happen to an inbox. -/
inductive Act
  | feed (chunk : Bytes)
  | attempt (ended : Bool)

def take (i : Inbox) : Act → Inbox
  | .feed chunk => { i with buffer := i.buffer ++ chunk }
  | .attempt ended =>
    let a := i.decoder.attempt ended i.buffer
    ⟨a.decoder, a.buffer⟩

def run (i : Inbox) (acts : List Act) : Inbox := acts.foldl take i

/-- What decoding finds now. -/
def found (i : Inbox) : Except AccessError (Option String) := (i.decoder.decode i.buffer).outcome

theorem Sound.take (sound : i.Sound maxLength) (act : Act) : (i.take act).Sound maxLength := by
  cases act with
  | feed chunk => exact sound.feed chunk
  | attempt ended =>
      have left := sound.decoded sound.searched.decodes
      cases ended with
      | false => exact left
      | true =>
          by_cases nothing : i.found = .ok none
          · rw [found] at nothing
            simp only [Inbox.take, Decoder.attempt, if_true, Decoder.decodeEnd, nothing]
            exact ⟨left.limit, Nat.zero_le _, by simp [Decoder.Searched]⟩
          · rw [Inbox.take, Decoder.attempt_of_outcome true nothing]
            exact left

theorem Sound.run (sound : i.Sound maxLength) (acts : List Act) : (i.run acts).Sound maxLength := by
  refine List.foldlRecOn (motive := fun i : Inbox => i.Sound maxLength) acts _ sound ?_
  exact fun i sound act _ => sound.take act

/-- The buffer begins with more bytes of one line than a line may have. -/
structure Stuck (i : Inbox) (maxLength : Nat) : Prop extends i.Sound maxLength where
  clean : newline ∉ i.buffer.take (maxLength + 1)
  long : maxLength < i.buffer.length

theorem Stuck.decode (stuck : i.Stuck maxLength) :
    ∃ d, i.decoder.decode i.buffer = ⟨.error (.frameTooLong maxLength), d, i.buffer⟩ := by
  have step := stuck.searched.decodes
  obtain rfl : i.decoder.maxLength = maxLength := stuck.limit
  generalize i.decoder.decode i.buffer = a at step
  cases step with
  | tooLong => exact ⟨_, rfl⟩
  | frame line rest whole clean short =>
      have clean := stuck.clean
      rw [whole] at clean
      exact absurd (Decoder.le_length_of_clean_take clean) (by omega)
  | nothing clean short => exact absurd stuck.long (Nat.not_lt.mpr short)

theorem Stuck.take (stuck : i.Stuck maxLength) (act : Act) : (i.take act).Stuck maxLength := by
  have sound := stuck.toSound.take act
  cases act with
  | feed chunk =>
      refine ⟨sound, ?_, ?_⟩
      · rw [Inbox.take, List.take_append_of_le_length stuck.long]
        exact stuck.clean
      · exact Nat.lt_of_lt_of_le stuck.long (by simp [Inbox.take])
  | attempt ended =>
      obtain ⟨d, failed⟩ := stuck.decode
      have same : (i.take (.attempt ended)).buffer = i.buffer := by
        rw [Inbox.take, Decoder.attempt_of_outcome ended (by simp [failed]), failed]
      exact ⟨sound, same ▸ stuck.clean, same ▸ stuck.long⟩

theorem Stuck.run (stuck : i.Stuck maxLength) (acts : List Act) : (i.run acts).Stuck maxLength := by
  refine List.foldlRecOn (motive := fun i : Inbox => i.Stuck maxLength) acts _ stuck ?_
  exact fun i stuck act _ => stuck.take act

theorem Sound.stuck {e : AccessError} (sound : i.Sound maxLength) (failed : i.found = .error e) :
    e = .frameTooLong maxLength ∧ i.Stuck maxLength := by
  have step := sound.searched.decodes
  obtain rfl : i.decoder.maxLength = maxLength := sound.limit
  rw [found] at failed
  generalize i.decoder.decode i.buffer = a at step failed
  cases step with
  | tooLong front rest searched whole clean long =>
      cases failed
      refine ⟨rfl, sound, ?_, ?_⟩
      · rw [whole, List.take_append_of_le_length long]
        exact fun member => clean (List.mem_of_mem_take member)
      · rw [whole, List.length_append]
        omega
  | frame | nothing => cases failed

/-- The frames of a stream are those of its lines, however it is cut into chunks, and reading fails
where a line is too long. Whatever is fed and tried in whatever order, an attempt that finds no
frame leaves a short buffer without line feed, and one that fails is followed by such only. -/
theorem readChunks_eq_read_lines (maxLength : Nat) (chunks : List Bytes) :
    (new maxLength).readChunks chunks = Lines.read maxLength chunks.flatten ∧
      ∀ acts : List Act, let i := (new maxLength).run acts
        (i.found = .ok none →
          let a := i.decoder.decode i.buffer
          a.buffer.length ≤ maxLength ∧ newline ∉ a.buffer) ∧
        ∀ e, i.found = .error e → ∀ more : List Act, (i.run more).found = .error e := by
  refine ⟨readChunks_of_waiting (waiting_new maxLength) chunks, ?_⟩
  intro acts i
  have sound : i.Sound maxLength := (waiting_new maxLength).toSound.run acts
  constructor
  · intro nothing
    have step := sound.searched.decodes
    rw [found] at nothing
    generalize i.decoder.decode i.buffer = a at step nothing
    cases step with
    | tooLong | frame => cases nothing
    | nothing clean short => exact ⟨sound.limit ▸ short, clean⟩
  · intro e failed more
    obtain ⟨rfl, stuck⟩ := sound.stuck failed
    obtain ⟨d, again⟩ := (stuck.run more).decode
    rw [found, again]

/-- A cut inside the end of a line, and a last line that is too long before it has ended. -/
theorem readChunks_cut_in_line_end :
    (new 3).readChunks [[97, 98, 13], [10, 99], [100, 101, 102]] =
      ⟨["ab"], some (.frameTooLong 3)⟩ := by
  rw [(readChunks_eq_read_lines 3 _).1]
  rfl

end Inbox

end DoorAccess.Wire
