import DoorAccess.Proofs.Reader.Turns
import Mathlib.Logic.Function.Basic

/-!
Readers side by side. Bytes arrive on their connections in any pieces, the connections take turns in
any order, and in between the registry is changed elsewhere. What a reader is answered depends on
its own bytes and on the registry as it is when a frame is handled, and on nothing that another
reader does.
-/
namespace DoorAccess.Reader

/-- The connections of all readers, and what they share. -/
structure Lobby (κ : Type) where
  controller : Controller
  lines : κ → Line

/-- What happens to the readers' connections, and in between what others do to the registry and the
disk. -/
inductive Act (κ : Type)
  | arrive (k : κ) (chunk : Bytes)
  | hangUp (k : κ)
  | turn (k : κ) (now : Audit.Moment)
  | elsewhere (engine : Engine) (disk : Disk)

/-- The reader whose act it is, if it is one of a reader. -/
def Act.reader? : Act κ → Option κ
  | .arrive k _ | .hangUp k | .turn k _ => some k
  | .elsewhere _ _ => none

namespace Lobby
variable {κ : Type}

/-- Nobody has sent anything yet. -/
def start (κ : Type) (maxLength : Nat) (c : Controller) : Lobby κ := ⟨c, fun _ => .new maxLength⟩

structure Invariant (maxLength : Nat) (l : Lobby κ) : Prop where
  answered : ∀ k, (l.lines k).Answered
  stands : ∀ k, (l.lines k).Stands maxLength

theorem invariant_start (maxLength : Nat) (c : Controller) :
    (start κ maxLength c).Invariant maxLength :=
  ⟨fun _ => Line.answered_new maxLength, fun _ => Line.stands_new maxLength⟩

variable [DecidableEq κ]

def take (l : Lobby κ) : Act κ → Lobby κ
  | .arrive k chunk => { l with lines := Function.update l.lines k ((l.lines k).arrive chunk) }
  | .hangUp k => { l with lines := Function.update l.lines k (l.lines k).hangUp }
  | .turn k now =>
    let (line, controller) := (l.lines k).turn now l.controller
    ⟨controller, Function.update l.lines k line⟩
  | .elsewhere engine disk => { l with controller := { l.controller with engine, disk } }

def run (l : Lobby κ) (acts : List (Act κ)) : Lobby κ := acts.foldl take l

/-! ### Every line by itself -/

variable {maxLength : Nat}

theorem Invariant.update {l : Lobby κ} (inv : l.Invariant maxLength) (k : κ) {line : Line}
    (answered : line.Answered) (stands : line.Stands maxLength) (c : Controller) :
    Invariant maxLength ⟨c, Function.update l.lines k line⟩ := by
  constructor <;> intro other <;> by_cases same : other = k
  · subst other
    simpa using answered
  · simpa [same] using inv.answered other
  · subst other
    simpa using stands
  · simpa [same] using inv.stands other

theorem invariant_take {l : Lobby κ} (inv : l.Invariant maxLength) (act : Act κ) :
    (l.take act).Invariant maxLength := by
  cases act with
  | arrive k chunk =>
      exact inv.update k ((inv.answered k).arrive chunk) ((inv.stands k).arrive chunk) _
  | hangUp k => exact inv.update k (inv.answered k).hangUp (inv.stands k).hangUp _
  | turn k now => exact inv.update k ((inv.answered k).turn now _) ((inv.stands k).turn now _) _
  | elsewhere engine disk => exact ⟨inv.answered, inv.stands⟩

theorem invariant_run {l : Lobby κ} (inv : l.Invariant maxLength) (acts : List (Act κ)) :
    (l.run acts).Invariant maxLength := by
  induction acts generalizing l with
  | nil => exact inv
  | cons act acts ih => exact ih (invariant_take inv act)

/-! ### Coming to rest -/

theorem settled_of_turns (l : Lobby κ) (k : κ) (moments : List Audit.Moment)
    (enough : (l.lines k).Settled ∨
      (l.lines k).connection.inbox.buffer.length < moments.length) :
    ((l.run (moments.map (.turn k))).lines k).Settled := by
  induction moments generalizing l with
  | nil => exact enough.resolve_right (Nat.not_lt_zero _)
  | cons now moments ih =>
      have line : (l.take (.turn k now)).lines k = ((l.lines k).turn now l.controller).1 := by
        simp [take]
      refine ih (l.take (.turn k now)) ?_
      rw [line]
      obtain settled | short := enough
      · exact .inl (settled.turn now _)
      · refine (Line.settled_or_shorter (l.lines k) now l.controller).imp_right fun shorter => ?_
        exact Nat.lt_of_lt_of_le shorter (Nat.le_of_lt_succ short)

/-! ### No reader disturbs another -/

theorem take_engine (l : Lobby κ) {act : Act κ} (reader : act.reader? ≠ none) :
    (l.take act).controller.engine = l.controller.engine := by
  cases act with
  | arrive | hangUp => rfl
  | turn k now => exact Line.turn_engine _ _ _
  | elsewhere => exact absurd rfl reader

theorem take_line_of_other (l : Lobby κ) {act : Act κ} {k : κ} (other : act.reader? ≠ some k) :
    (l.take act).lines k = l.lines k := by
  cases act with
  | arrive j | hangUp j | turn j =>
      have apart : k ≠ j := fun same => other (congrArg some same.symm)
      simp [take, apart]
  | elsewhere => rfl

theorem take_controller_of_closed (l : Lobby κ) {k : κ}
    (closed : (l.lines k).connection.isOpen = false) {act : Act κ} (own : act.reader? = some k) :
    (l.take act).controller = l.controller := by
  cases act with
  | arrive | hangUp => rfl
  | turn j now =>
      cases own
      simp [take, Line.turn_of_closed closed]
  | elsewhere => cases own

theorem take_silent (l : Lobby κ) (k : κ) (closed : (l.lines k).connection.isOpen = false)
    (act : Act κ) : (l.lines k).Silent ((l.take act).lines k) := by
  by_cases own : act.reader? = some k
  · cases act with
    | arrive j chunk =>
        cases own
        simpa [take] using Line.silent_arrive closed chunk
    | hangUp j =>
        cases own
        simpa [take] using ⟨closed, rfl, rfl, rfl⟩
    | turn j now =>
        cases own
        simpa [take, Line.turn_of_closed closed] using ⟨closed, rfl, rfl, rfl⟩
    | elsewhere => cases own
  · rw [take_line_of_other l own]
    exact ⟨closed, rfl, rfl, rfl⟩

theorem run_silent (l : Lobby κ) (k : κ) (closed : (l.lines k).connection.isOpen = false)
    (acts : List (Act κ)) : (l.lines k).Silent ((l.run acts).lines k) := by
  induction acts generalizing l with
  | nil => exact ⟨closed, rfl, rfl, rfl⟩
  | cons act acts ih =>
      have first := take_silent l k closed act
      have later := ih (l.take act) first.closed
      exact ⟨later.closed, later.handled.trans first.handled, later.output.trans first.output,
        later.events.trans first.events⟩

/-- Whether an act is one of this reader or of none. -/
def concerns (k : κ) (act : Act κ) : Bool := act.reader? = none ∨ act.reader? = some k

/-- Two lobbies that this reader cannot tell apart. -/
structure Alike (k : κ) (l l' : Lobby κ) : Prop where
  engine : l'.controller.engine = l.controller.engine
  line : l'.lines k = l.lines k

theorem Alike.take {k : κ} {l l' : Lobby κ} (alike : Alike k l l') (act : Act κ) :
    Alike k (l.take act) (l'.take act) := by
  by_cases reader : act.reader? = none
  · cases act with
    | elsewhere engine disk => exact ⟨rfl, alike.line⟩
    | arrive | hangUp | turn => cases reader
  · refine ⟨?_, ?_⟩
    · rw [take_engine l' reader, take_engine l reader, alike.engine]
    · by_cases own : act.reader? = some k
      · cases act with
        | arrive j | hangUp j =>
            cases own
            simp [Lobby.take, alike.line]
        | turn j now =>
            cases own
            simp [Lobby.take, alike.line, Line.turn_congr alike.engine]
        | elsewhere => cases own
      · rw [take_line_of_other l' own, take_line_of_other l own, alike.line]

theorem Alike.skip {k : κ} {l l' : Lobby κ} (alike : Alike k l l') {act : Act κ}
    (other : concerns k act = false) : Alike k (l.take act) l' := by
  simp only [concerns, decide_eq_false_iff_not, not_or] at other
  exact ⟨by rw [take_engine l other.1, alike.engine],
    by rw [take_line_of_other l other.2, alike.line]⟩

/-- The line of a reader is the same when no other reader does anything. -/
theorem Alike.run {k : κ} {l l' : Lobby κ} (alike : Alike k l l') (acts : List (Act κ)) :
    Alike k (l.run acts) (l'.run (acts.filter (concerns k))) := by
  induction acts generalizing l l' with
  | nil => exact alike
  | cons act acts ih =>
      cases mine : concerns k act with
      | true =>
          rw [List.filter_cons_of_pos mine]
          exact ih (alike.take act)
      | false =>
          rw [List.filter_cons_of_neg (by simp [mine])]
          exact ih (alike.skip mine)

/-- However the bytes of all readers arrive, whatever order their connections take turns in, and
whatever is done to the registry in between: each reader is answered frame by frame, by the registry
as it is at that moment, the lines of its own bytes up to the first one that is malformed or too
long. A reader that is given turns is answered all of them, and is dismissed behind a malformed
frame and lost at a line that is too long; then nothing more is answered or recorded. No reader
changes the registry, and without the other readers each would be answered the same. What the server
does when a chunk arrives or a stream ends are turns of this kind. -/
theorem each_reader_has_its_own_answers (maxLength : Nat) (c : Controller) (acts : List (Act κ))
    (k : κ) :
    let l := (start κ maxLength c).run acts
    let line := l.lines k
    line.Answered ∧
      (line.frames <+: (Wire.Lines.read maxLength line.received).frames ∧
        ∀ h ∈ line.handled.dropLast, ¬ IsMalformed h.frame) ∧
      (line.Settled → line.Complete maxLength) ∧
      (∀ moments : List Audit.Moment, line.connection.inbox.buffer.length < moments.length →
        ((l.run (moments.map (.turn k))).lines k).Settled) ∧
      (line.connection.isOpen = false →
        (∀ act, act.reader? = some k → (l.take act).controller = l.controller) ∧
          ∀ more, line.Silent ((l.run more).lines k)) ∧
      (∀ act, act.reader? ≠ none → (l.take act).controller.engine = l.controller.engine) ∧
      ((start κ maxLength c).run (acts.filter (concerns k))).lines k = line ∧
      line.IsServed l.controller := by
  intro l line
  have inv : l.Invariant maxLength := invariant_run (invariant_start maxLength c) acts
  have alike : Alike k (start κ maxLength c) (start κ maxLength c) := ⟨rfl, rfl⟩
  refine ⟨inv.answered k, ⟨(inv.stands k).frames_first, (inv.stands k).proper⟩,
    (inv.stands k).complete, ?_, ?_, fun _ => take_engine l, (alike.run acts).line,
    line.isServed l.controller⟩
  · exact fun moments enough => settled_of_turns l k moments (.inr enough)
  · exact fun closed => ⟨fun _ => take_controller_of_closed l closed, run_silent l k closed⟩

/-- A user is added between two requests of one chunk, and a request waits behind a malformed
frame. -/
example :
    let hall : Registry := (Registry.empty.insertDoor "hall" 3).2
    let before : Engine := ⟨hall, ⟨⟨{}, none⟩⟩, 1, 0, 0, 0⟩
    let after : Engine := ⟨(hall.insertUser "ann" 5 "7").2, ⟨⟨{}, none⟩⟩, 1, 1, 0, 0⟩
    let c : Controller := ⟨before, ⟨none⟩, ⟨"admin", none⟩, Disk.empty, [], false⟩
    let now : Audit.Moment := ⟨2024, 1, 2, 3, 4⟩
    let l := (start Unit 9 c).run [.arrive () (bytesOf "hall:7\nhall:7\nhall\nhall:7\n"),
      .turn () now, .elsewhere after Disk.empty, .turn () now, .turn () now, .turn () now]
    (l.lines ()).handled.map (·.reply) =
      ["denied", "approved", AccessError.malformedRequest.message] := by
  decide +kernel

end Lobby

end DoorAccess.Reader
