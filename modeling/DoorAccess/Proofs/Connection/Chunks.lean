import DoorAccess.Proofs.Connection.Stepwise

/-!
What a file transfer reads and sends, however much a read gives and whatever becomes of the file
meanwhile. A transfer makes a read for as long as bytes are owed; it sends what it reads, and it
stops with a failure at the first read that gives nothing.
-/
namespace DoorAccess

namespace Transfer

variable {σ : Type} {path : String} {read : Source σ} {s : σ} {owed : Nat}

/-- One read: how many bytes it asks for, and what comes of it. -/
structure Reading where
  asked : Nat
  given : Except AccessError Bytes

namespace Reading

/-- What is taken of it. -/
def bytes (r : Reading) : Bytes :=
  match r.given with
  | .ok got => got.take r.asked
  | .error _ => []

/-- What a transfer fails with if the read gives nothing. -/
def failure (path : String) (r : Reading) : AccessError :=
  match r.given with
  | .ok _ => truncated path
  | .error e => e

theorem length_bytes_le (r : Reading) : r.bytes.length ≤ r.asked := by
  rw [bytes]
  split
  · exact List.length_take_le ..
  · exact Nat.zero_le _

end Reading

/-- Asked for this, read after read, the source gives this. -/
def Source.Gives (read : Source σ) : σ → List Reading → Prop
  | _, [] => True
  | s, r :: rest => (read s r.asked).1 = r.given ∧ Source.Gives read (read s r.asked).2 rest

/-- These reads make up a transfer that owes so many bytes, and this is what it puts out. -/
inductive MakeUp (path : String) : Nat → List Reading → Sent → Prop
  | settled : MakeUp path 0 [] ⟨[], none⟩
  | stopped (owed : Nat) (r : Reading) (owes : owed ≠ 0) (asks : r.asked = min owed chunkSize)
      (nothing : r.bytes = []) : MakeUp path owed [r] ⟨[], some (r.failure path)⟩
  | continued (owed : Nat) (r : Reading) (rest : List Reading) (out : Sent) (owes : owed ≠ 0)
      (asks : r.asked = min owed chunkSize) (some : r.bytes ≠ [])
      (onward : MakeUp path (owed - r.bytes.length) rest out) :
      MakeUp path owed (r :: rest) ⟨r.bytes ++ out.bytes, out.failure⟩

/-! ### The loop -/

/-- The next read of a transfer that owes so many bytes. -/
def Source.next (read : Source σ) (s : σ) (owed : Nat) : Reading :=
  ⟨min owed chunkSize, (read s (min owed chunkSize)).1⟩

theorem Source.eq_next {r : Reading} (asks : r.asked = min owed chunkSize)
    (gives : (read s r.asked).1 = r.given) : r = read.next s owed := by
  rw [Source.next, ← asks, gives]

theorem pump_of_owed (owes : owed ≠ 0) :
    pump path read s owed =
      let r := read.next s owed
      if r.bytes = [] then ⟨[], some (r.failure path)⟩
      else
        let rest := pump path read (read s r.asked).2 (owed - r.bytes.length)
        ⟨r.bytes ++ rest.bytes, rest.failure⟩ := by
  rw [pump, if_neg owes]
  dsimp only
  split
  · next failed => simp [Source.next, Reading.bytes, Reading.failure, failed]
  · next got after gave =>
      simp only [Source.next, Reading.bytes, Reading.failure, gave]
      cases got.take (min owed chunkSize) with
      | nil => rfl
      | cons b bs => rfl

theorem exists_makeUp (path : String) (read : Source σ) (s : σ) (owed : Nat) :
    ∃ readings, read.Gives s readings ∧ MakeUp path owed readings (pump path read s owed) := by
  induction owed using Nat.strongRecOn generalizing s with
  | ind owed ih =>
      by_cases settled : owed = 0
      · subst settled
        rw [pump, if_pos rfl]
        exact ⟨[], trivial, .settled⟩
      · rw [pump_of_owed settled]
        dsimp only
        split
        · next nothing =>
            exact ⟨[read.next s owed], ⟨rfl, trivial⟩, .stopped _ _ settled rfl nothing⟩
        · next some =>
            -- A read that gives something lowers what is owed, which carries the induction.
            have fewer := List.length_pos_iff.mpr some
            obtain ⟨rest, gives, makeUp⟩ := ih (owed - (read.next s owed).bytes.length) (by omega)
              (read s (read.next s owed).asked).2
            exact ⟨read.next s owed :: rest, ⟨rfl, gives⟩,
              .continued _ _ _ _ settled rfl some makeUp⟩

theorem pump_of_makeUp {readings : List Reading} {out : Sent}
    (makeUp : MakeUp path owed readings out) (gives : read.Gives s readings) :
    pump path read s owed = out := by
  induction makeUp generalizing s with
  | settled => rw [pump, if_pos rfl]
  | stopped owed r owes asks nothing =>
      obtain rfl := Source.eq_next asks gives.1
      rw [pump_of_owed owes]
      exact if_pos nothing
  | continued owed r rest out owes asks some onward ih =>
      obtain rfl := Source.eq_next asks gives.1
      rw [pump_of_owed owes]
      dsimp only
      rw [if_neg some, ih gives.2]

/-! ### What the reads come to -/

/-- All that was taken of these reads. -/
def received (readings : List Reading) : Bytes := readings.flatMap Reading.bytes

namespace MakeUp

variable {readings : List Reading} {out : Sent} (makeUp : MakeUp path owed readings out)
include makeUp

theorem bytes_eq : out.bytes = received readings := by
  induction makeUp with
  | settled => rfl
  | stopped owed r owes asks nothing => simp [received, nothing]
  | continued owed r rest out owes asks some onward ih => simp [received, ih]

theorem asks {before after : List Reading} {r : Reading} (split : readings = before ++ r :: after) :
    (received before).length < owed ∧
      r.asked = min (owed - (received before).length) chunkSize ∧ (r.bytes = [] → after = []) := by
  induction makeUp generalizing before with
  | settled => simp at split
  | stopped owed r' owes asks nothing =>
      obtain ⟨rfl, here⟩ := List.append_eq_singleton_iff.mp split.symm |>.resolve_right (by simp)
      cases here
      exact ⟨Nat.pos_of_ne_zero owes, asks, fun _ => rfl⟩
  | continued owed first rest out owes asks some onward ih =>
      cases before with
      | nil =>
          cases split
          exact ⟨Nat.pos_of_ne_zero owes, asks, fun nothing => absurd nothing some⟩
      | cons _ before =>
          cases split
          obtain ⟨less, asked, last⟩ := ih rfl
          have whole : (received (first :: before)).length =
              first.bytes.length + (received before).length := by simp [received]
          rw [whole, ← Nat.sub_sub]
          exact ⟨by omega, asked, last⟩

theorem length_le : readings.length ≤ owed := by
  induction makeUp with
  | settled => exact Nat.le_refl 0
  | stopped owed r owes => exact Nat.pos_of_ne_zero owes
  | continued owed r rest out owes asks some onward ih =>
      have fewer := List.length_pos_iff.mpr some
      rw [List.length_cons]
      omega

theorem length_bytes (whole : out.failure = none) : out.bytes.length = owed := by
  induction makeUp with
  | settled => rfl
  | stopped => cases whole
  | continued owed r rest out owes asks some onward ih =>
      have within := r.length_bytes_le
      rw [List.length_append, ih whole]
      omega

theorem short {failure : AccessError} (failed : out.failure = some failure) :
    out.bytes.length < owed ∧
      ∃ r, readings.getLast? = some r ∧ r.bytes = [] ∧ failure = r.failure path := by
  induction makeUp with
  | settled => cases failed
  | stopped owed r owes asks nothing =>
      cases failed
      exact ⟨Nat.pos_of_ne_zero owes, r, rfl, nothing, rfl⟩
  | continued owed r rest out owes asks some onward ih =>
      obtain ⟨less, last, found, nothing, same⟩ := ih failed
      refine ⟨?_, last, ?_, nothing, same⟩
      · rw [List.length_append]
        omega
      · rw [List.getLast?_cons, found, Option.getD_some]

end MakeUp

/-- All that is owed is sent just if nothing fails. -/
theorem length_pump_eq_iff :
    (pump path read s owed).bytes.length = owed ↔ (pump path read s owed).failure = none := by
  obtain ⟨_, _, makeUp⟩ := exists_makeUp path read s owed
  constructor
  · intro whole
    cases failed : (pump path read s owed).failure with
    | none => rfl
    | some failure => exact absurd whole (Nat.ne_of_lt (makeUp.short failed).1)
  · exact makeUp.length_bytes

/-! ### A file that changes -/

/-- A file with what is in it at each read and how much the read gives at the most: one byte more
than this, so that it gives some where there are any. The state counts the reads and tells the place
in the file. -/
def ofFile (contents : Nat → Bytes) (portions : Nat → Nat) : Source (Nat × Nat) :=
  fun (turn, place) want =>
    let got := ((contents turn).drop place).take (min want (portions turn + 1))
    (.ok got, turn + 1, place + got.length)

/-- One is the other as far as it goes. -/
def Agrees (content whole : Bytes) : Prop := content <+: whole ∨ whole <+: content

section
variable {contents : Nat → Bytes} {portions : Nat → Nat} {turn place : Nat} {whole : Bytes}

theorem take_drop_prefix {content : Bytes} (agrees : Agrees content whole) {n : Nat}
    (within : n ≤ (whole.drop place).length) :
    (content.drop place).take n <+: whole.drop place := by
  rcases agrees with ⟨more, rfl⟩ | ⟨more, rfl⟩
  · rw [List.drop_append]
    exact (List.take_prefix ..).trans (List.prefix_append ..)
  · rw [List.drop_append, List.take_append_of_le_length within]
    exact List.take_prefix ..

theorem pump_ofFile_of_owed (owes : owed ≠ 0) :
    pump path (ofFile contents portions) (turn, place) owed =
      let got := ((contents turn).drop place).take (min (min owed chunkSize) (portions turn + 1))
      if got = [] then ⟨[], some (truncated path)⟩
      else
        let rest := pump path (ofFile contents portions) (turn + 1, place + got.length)
          (owed - got.length)
        ⟨got ++ rest.bytes, rest.failure⟩ := by
  have taken : ((ofFile contents portions).next (turn, place) owed).bytes =
      ((contents turn).drop place).take (min (min owed chunkSize) (portions turn + 1)) := by
    simp [Source.next, ofFile, Reading.bytes, List.take_take]
  rw [pump_of_owed owes]
  dsimp only
  rw [taken]
  rfl

theorem pump_ofFile (agrees : ∀ n, Agrees (contents n) whole)
    (size : (whole.drop place).length = owed) :
    let out := pump path (ofFile contents portions) (turn, place) owed
    out.bytes <+: whole.drop place ∧
      (out.failure = none ∨ out.failure = some (truncated path)) ∧
      ((∀ n, whole <+: contents n) → out.failure = none) := by
  induction owed using Nat.strongRecOn generalizing turn place with
  | ind owed ih =>
      by_cases settled : owed = 0
      · subst settled
        rw [pump, if_pos rfl]
        exact ⟨List.nil_prefix, .inl rfl, fun _ => rfl⟩
      · rw [pump_ofFile_of_owed settled]
        have within : min (min owed chunkSize) (portions turn + 1) ≤ (whole.drop place).length := by
          omega
        have first := take_drop_prefix (agrees turn) within
        generalize cut : ((contents turn).drop place).take _ = got at first ⊢
        dsimp only
        split
        · next nothing =>
            refine ⟨List.nil_prefix, .inr rfl, fun grown => ?_⟩
            have long := (grown turn).length_le
            have none := congrArg List.length (cut.trans nothing)
            rw [List.length_drop] at size
            rw [List.length_take, List.length_drop, List.length_nil] at none
            have chunk : 0 < chunkSize := by decide
            omega
        · next some =>
            -- What was read is the front of what is owed, so the next read begins right behind it,
            -- whatever the file has become.
            have fewer := List.length_pos_iff.mpr some
            obtain ⟨later, rejoined⟩ := first
            have remains : later = whole.drop (place + got.length) := by
              rw [← List.drop_drop, ← rejoined, List.drop_left]
            have left : later.length = owed - got.length := by
              rw [← size, ← rejoined, List.length_append, Nat.add_sub_cancel_left]
            obtain ⟨begins, fails, grown⟩ := ih (owed - got.length) (by omega) (remains ▸ left)
            rw [← rejoined, List.prefix_append_right_inj, remains]
            exact ⟨begins, fails, grown⟩

/-- Of a file that is only cut or appended to, no other bytes are sent than were in it when it was
announced, and all of them unless it was found too short. -/
theorem send_ofFile (path name : String) (agrees : ∀ n, Agrees (contents n) whole) :
    let sent := send path name whole.length (ofFile contents portions) (0, 0)
    ∃ body, sent.bytes = (Wire.Reply.file name whole.length).encode ++ body ∧ body <+: whole ∧
      (sent.failure = none ∧ body = whole ∨
        sent.failure = some (truncated path) ∧ body ≠ whole) ∧
      ((∀ n, whole <+: contents n) → sent.failure = none) := by
  intro sent
  obtain ⟨begins, fails, grown⟩ : _ ∧ _ ∧ _ := pump_ofFile agrees rfl
  refine ⟨(pump path (ofFile contents portions) (0, 0) whole.length).bytes, rfl, begins, ?_, grown⟩
  refine fails.imp (fun settled => ⟨settled, ?_⟩) fun failed => ⟨failed, fun all => ?_⟩
  · exact begins.eq_of_length (length_pump_eq_iff.mpr settled)
  · have settled := length_pump_eq_iff.mp (congrArg List.length all)
    cases settled.symm.trans failed

end

end Transfer

namespace Channel

/-! ### The connection meanwhile -/

/-- Where the connection stands in the transfer of a file that was announced with this size, after
these bytes were read of it: what comes before the transfer was put out, and then a part of the
header and of what was read, or all of it. -/
inductive Progress (before : Bytes) (path : String) (size : Nat) (got : Bytes) : Channel → Prop
  | underway (b : Outbox) (h : Nat) (pending : Bytes) (owed : Nat)
      (sent : b.sent ++ pending = before ++ (header path size ++ got))
      (left : got.length + owed = size) :
      Progress before path size got ⟨b, h, .sending path pending owed⟩
  | complete (b : Outbox) (h : Nat) (sent : b.sent = before ++ (header path size ++ got))
      (whole : got.length = size) : Progress before path size got ⟨b, h, .waiting⟩
  | failed (b : Outbox) (h : Nat) (failure : AccessError) (unsent : Bytes)
      (sent : b.sent ++ unsent = before ++ (header path size ++ got)) (within : got.length ≤ size) :
      Progress before path size got ⟨b, h, .leaving (some (.file path, failure))⟩

variable {before got : Bytes} {path : String} {size : Nat} {c : Channel}

theorem Progress.take (progress : Progress before path size got c) (going : c.task.item? ≠ none)
    (e : Event) : Progress before path size (got ++ c.reading e) (c.take e) := by
  cases progress with
  | complete | failed => exact absurd rfl going
  | underway b h pending owed sent left =>
      have takes := take_takes ⟨b, h, .sending path pending owed⟩ e
      generalize accepted _ [e] = new, reading _ e = more, take _ e = c' at takes ⊢
      cases takes with
      | idle | handles | write | close =>
          rw [List.append_nil]
          exact .underway _ _ _ _ sent left
      | putFile _ _ _ bytes pending =>
          rw [List.append_nil]
          exact .underway _ _ _ _ ((List.append_assoc ..).trans sent) left
      | read _ _ _ more owed =>
          rw [List.append_nil] at sent
          refine .underway _ _ _ _ ?_ ?_
          · rw [sent, ← List.append_assoc, ← List.append_assoc, ← List.append_assoc]
          · rw [List.length_append]
            omega
      | settledFile =>
          rw [List.append_nil] at sent ⊢
          exact .complete _ _ sent left
      | failed _ _ _ item failure here =>
          cases here
          rw [List.append_nil]
          exact .failed _ _ _ _ sent (left ▸ Nat.le_add_right ..)

/-- A course of the connection begins with the transfer, to its end if it comes to one. -/
theorem Progress.run (progress : Progress before path size got c) (events : List Event) :
    ∃ during later, events = during ++ later ∧
      Progress before path size (got ++ c.readings during) (c.run during) ∧
      (later ≠ [] → (c.run during).task.item? = none) := by
  induction events generalizing got c with
  | nil => exact ⟨[], [], rfl, by simpa [readings, Channel.run] using progress, by simp⟩
  | cons e events ih =>
      -- Once the transfer is over, the other events are left aside.
      cases going : c.task.item? with
      | none =>
          refine ⟨[], e :: events, rfl, ?_, fun _ => going⟩
          simpa [readings, Channel.run] using progress
      | some item =>
          obtain ⟨during, later, rfl, reached, ended⟩ := ih (progress.take (by simp [going]) e)
          refine ⟨e :: during, later, rfl, ?_, ended⟩
          rwa [List.append_assoc] at reached

theorem sent_of_lost (lost : c.task.lost? ≠ none) (later : List Event) :
    (c.run later).outbox.sent = c.outbox.sent :=
  ((isKept_sent _).run ⟨Task.isBusy_of_lost? lost, rfl⟩ later).2

open Transfer (Source Reading Agrees received chunkSize truncated) in
/-- The transfer of a file that was announced with some size, however the file can be read. It makes
at most so many reads, and these alone decide what it sends. Each asks for what is still owed, or
for a chunk if that is less; only the last may give nothing. Sent are the header and what was read,
in this order: as many bytes as were announced if nothing fails, fewer if something does, and then
the failure is that of the last read. So of a file that is only cut or appended to meanwhile, no
other bytes are sent than were in it, and never more.

The writer of a connection does just this, and if it fails, nothing is sent afterwards. Whatever is
called on the handles meanwhile, and however much of a piece the peer takes at once: what was sent
and what is at hand are the header and what was read of the file, until the transfer is over. -/
theorem sends_what_was_announced {σ : Type} (path : String) (size : Nat) (read : Source σ) (s : σ) :
    let sent := Transfer.send path (fileName path) size read s
    (∃ readings : List Reading, read.Gives s readings ∧
      (∀ {τ : Type} (other : Source τ) (t : τ), other.Gives t readings →
        Transfer.send path (fileName path) size other t = sent) ∧
      readings.length ≤ size ∧
      (∀ before r after, readings = before ++ r :: after →
        (received before).length < size ∧
          r.asked = min (size - (received before).length) chunkSize ∧ (r.bytes = [] → after = [])) ∧
      sent.bytes = header path size ++ received readings ∧
      (sent.failure = none → (received readings).length = size) ∧
      ∀ failure, sent.failure = some failure → (received readings).length < size ∧
        ∃ r, readings.getLast? = some r ∧ r.bytes = [] ∧ failure = r.failure path) ∧
    (∀ (contents : Nat → Bytes) (portions : Nat → Nat) (whole : Bytes),
      (∀ n, Agrees (contents n) whole) → whole.length = size →
      let sent := Transfer.send path (fileName path) size (Transfer.ofFile contents portions) (0, 0)
      ∃ body, sent.bytes = header path size ++ body ∧ body <+: whole ∧
        (sent.failure = none ∧ body = whole ∨
          sent.failure = some (truncated path) ∧ body ≠ whole) ∧
        ((∀ n, whole <+: contents n) → sent.failure = none)) ∧
    ∀ (b : Outbox) (h : Nat),
      let after := dealtWith b h (.file path) sent
      (⟨b, h, .opening path⟩ : Channel).Reaches after ∧
      (sent.failure ≠ none → ∀ later, (after.run later).outbox.sent = b.sent ++ sent.bytes) ∧
      ∀ events,
        let c := (⟨b, h, .opening path⟩ : Channel).advance (.opened size)
        ∃ during later, events = during ++ later ∧
          Progress b.sent path size (c.readings during) (c.run during) ∧
          (later ≠ [] → (c.run during).task.item? = none) ∧
          ((c.run during).task.lost? ≠ none →
            (c.run events).outbox.sent = (c.run during).outbox.sent) := by
  intro sent
  obtain ⟨readings, gives, makeUp⟩ := Transfer.exists_makeUp path read s size
  have body := makeUp.bytes_eq
  refine ⟨⟨readings, gives, fun other t same => ?_, makeUp.length_le, fun _ _ _ => makeUp.asks, ?_,
    fun whole => body ▸ makeUp.length_bytes whole,
    fun failure failed => body ▸ makeUp.short failed⟩, ?_, fun b h =>
      ⟨send_reaches path size read s, fun failed => ?_, fun events => ?_⟩⟩
  · rw [Transfer.send, Transfer.pump_of_makeUp makeUp same]
    rfl
  · exact congrArg (header path size ++ ·) body
  · rintro contents portions whole agrees rfl
    exact Transfer.send_ofFile path (fileName path) agrees
  · obtain ⟨failure, failed⟩ := Option.ne_none_iff_exists'.mp failed
    exact sent_of_lost (by simp [dealtWith, failed, Task.lost?])
  · intro c
    have opened : Progress b.sent path size [] c :=
      .underway _ _ _ _ (by rw [List.append_nil]) (Nat.zero_add size)
    obtain ⟨during, later, rfl, progress, ended⟩ := opened.run events
    refine ⟨during, later, rfl, progress, ended, fun lost => ?_⟩
    rw [run_append]
    exact sent_of_lost lost later

/-- Three bytes are announced and read one by one; then the file is cut to its first byte. -/
theorem sends_what_was_announced_of_cut_file :
    let contents (n : Nat) : Bytes := if n < 2 then [1, 2, 3] else [1]
    let sent := Transfer.send "f" (fileName "f") 3 (Transfer.ofFile contents fun _ => 0) (0, 0)
    (∀ n, Transfer.Agrees (contents n) [1, 2, 3]) ∧
      sent = ⟨header "f" 3 ++ [1, 2], some (Transfer.truncated "f")⟩ ∧
      (∃ body, sent.bytes = header "f" 3 ++ body ∧ body <+: [1, 2, 3] ∧ body ≠ [1, 2, 3]) ∧
      ∀ later, ((dealtWith {} 1 (.file "f") sent).run later).outbox.sent =
        header "f" 3 ++ [1, 2] := by
  intro contents sent
  have agrees (n : Nat) : Transfer.Agrees (contents n) [1, 2, 3] := by
    simp only [contents]
    split
    · exact .inl List.prefix_rfl
    · exact .inl ⟨[2, 3], rfl⟩
  have cut : sent = ⟨header "f" 3 ++ [1, 2], some (Transfer.truncated "f")⟩ := by
    simp [sent, Transfer.send, Transfer.pump_ofFile_of_owed, Transfer.chunkSize, contents, header]
  obtain ⟨_, ofFile, ofConnection⟩ :=
    sends_what_was_announced "f" 3 (Transfer.ofFile contents fun _ => 0) (0, 0)
  obtain ⟨body, bytes, part, ended, _⟩ := ofFile contents (fun _ => 0) [1, 2, 3] agrees rfl
  have failed : sent.failure ≠ none := by rw [cut]; exact Option.some_ne_none _
  refine ⟨agrees, cut, ⟨body, bytes, part, ?_⟩, fun later => ?_⟩
  · exact (ended.resolve_left fun done => failed done.1).2
  · have nothing := (ofConnection {} 1).2.1 failed later
    rw [show Transfer.send .. = sent from rfl, cut] at nothing
    rw [cut]
    exact nothing

end Channel

end DoorAccess
