import DoorAccess.Console.Session
import DoorAccess.Proofs.Registry.Operations

/-!
All that one step of an admin session can do. A step of the session is a chain of functions that
look at the stage, at the frame and at what all connections share; these relations list what comes
of it, each with the condition it depends on, so that an invariant of sessions is shown by going
through the list. The engine and the admin's place are looked at apart from each other.
-/
namespace DoorAccess

namespace Controller

@[simp] theorem recordAll_engine (c : Controller) (now : Audit.Moment) (events : List Audit.Event) :
    (c.recordAll now events).engine = c.engine := by
  induction events generalizing c with
  | nil => rfl
  | cons e events ih => exact ih (c.record now e)

@[simp] theorem recordAll_binding (c : Controller) (now : Audit.Moment)
    (events : List Audit.Event) : (c.recordAll now events).binding = c.binding := by
  induction events generalizing c with
  | nil => rfl
  | cons e events ih => exact ih (c.record now e)

end Controller

theorem Audit.Trail.eq_of_find_error (t : Trail) {kind : LogKind} {key : String} {d : Disk}
    {e : AccessError} (h : t.find kind key d = .error e) : e = .logNotFound := by
  rw [find] at h
  split at h
  · exact (Except.error.inj h).symm
  · dsimp only at h
    split at h
    · cases h
    · exact (Except.error.inj h).symm

namespace Console

/-- The change that a command asks to have confirmed. -/
def Command.proposal? : Command → Option Change
  | .remove kind name => some (.remove kind name)
  | .edit kind old new level => some (.edit kind old new level)
  | _ => none

theorem eq_of_missing? {r : Registry} {kind : RecordKind} {name : String} {e : AccessError}
    (h : missing? r kind name = some e) : e = .doorNotFound ∨ e = .userNotFound := by
  cases kind with
  | door =>
      rw [missing?, Option.ite_none_right_eq_some] at h
      exact .inl (Option.some.inj h.2).symm
  | user =>
      rw [missing?, Option.ite_none_right_eq_some] at h
      exact .inr (Option.some.inj h.2).symm

theorem endsSession_iff (frame : String) :
    endsSession frame = true ↔
      Command.parse frame = .ok .exit ∨ Command.parse frame = .ok .shutdown := by
  rw [endsSession]
  split <;> simp_all

/-- The texts that report a change as made. -/
def doneTexts : List String :=
  ["Door Added Successfully", "User Added Successfully", "Door Removed Successfully",
    "User Removed Successfully", "Door Updated Successfully", "User Updated Successfully"]

theorem doneText_mem (change : Change) : doneText change ∈ doneTexts := by
  cases change with
  | addDoor | addUser => simp [doneText, doneTexts]
  | remove kind | edit kind => cases kind <;> simp [doneText, doneTexts]

/-- One text is no answer that another would be. -/
theorem replies_ne_of_text {replies : List Outgoing} {text : String} {texts : List String}
    (answered : replies = [.text text]) (other : text ∉ texts) :
    ∀ known ∈ texts, replies ≠ [.text known] := by
  intro known member same
  rw [answered] at same
  cases same
  exact other member

namespace Session

section Commit
variable (s : Session) (change : Change) (o : Occasion) (c : Controller)

theorem commit_of_ready : { s with stage := .ready }.commit change o c = s.commit change o c := by
  simp only [commit]

@[simp] theorem commit_session : (s.commit change o c).session = { s with stage := .ready } := by
  rw [commit]
  dsimp only
  split <;> rfl

@[simp] theorem commit_flow : (s.commit change o c).flow = .stay := by
  rw [commit]
  dsimp only
  split <;> rfl

@[simp] theorem commit_change : (s.commit change o c).change = some change := by
  rw [commit]
  dsimp only
  split <;> rfl

theorem commit_controller :
    (s.commit change o c).controller =
      (c.commit change o.number).2.recordAll o.now (s.commit change o c).events := by
  rw [commit]
  dsimp only
  split
  · next h => rw [h]; rfl
  · next h => rw [h]; rfl

@[simp] theorem commit_binding : (s.commit change o c).controller.binding = c.binding := by
  rw [commit_controller, Controller.recordAll_binding]
  rfl

end Commit

/-- What carrying out a command comes to. -/
inductive Runs (s : Session) (o : Occasion) (c : Controller) : Command → Step → Prop
  | door (name : String) (level : Level) :
      Runs s o c (.newDoor name level) (s.commit (.addDoor name level) o c)
  | scan (name : String) (level : Level) (absent : c.engine.registry.user? name = none) :
      Runs s o c (.newUser name level)
        ({ s with stage := .awaitingCredential name level }.say c scanCredential)
  | prompt (command : Command) (change : Change) (asks : command.proposal? = some change) :
      Runs s o c command ({ s with stage := .awaitingConfirmation change }.say c confirmPrompt)
  | refusal (command : Command) (stays : command ≠ .exit ∧ command ≠ .shutdown) (e : AccessError)
      (cause : e ∈ [.userExists, .doorNotFound, .userNotFound, .logNotFound]) :
      Runs s o c command ({ s with stage := .ready }.refuse c e)
  | log (kind : Audit.LogKind) (key path : String) (found : c.trail.find kind key c.disk = .ok path) :
      Runs s o c (.getLog kind key) ({ s with stage := .ready }.answer c [.file path])
  | help : Runs s o c .help ({ s with stage := .ready }.answer c (helpLines.map .text))
  | exit : Runs s o c .exit ({ s with stage := .ready }.sayAndClose (c.release s.id) goodbye)
  | shutdown : Runs s o c .shutdown ({ s with stage := .ready }.sayAndClose
      { c.release s.id with shutdownRequested := true } shuttingDown)

theorem cause_mem_refusals :
    ∀ e ∈ [AccessError.userExists, .doorNotFound, .userNotFound, .logNotFound],
      e ∈ .logNotFound :: AccessError.refusals := by
  decide

theorem propose_runs (s : Session) (o : Occasion) (c : Controller) (command : Command)
    (change : Change) (asks : command.proposal? = some change) (kind : RecordKind)
    (name : String) :
    Runs s o c command ({ s with stage := .ready }.propose change kind name c) := by
  have stays : command ≠ .exit ∧ command ≠ .shutdown := by
    constructor <;> rintro rfl <;> cases asks
  rw [propose]
  split
  · next e missing =>
      rcases eq_of_missing? missing with rfl | rfl <;> exact .refusal command stays _ (by simp)
  · exact .prompt command change asks

theorem run_runs (s : Session) (command : Command) (o : Occasion) (c : Controller) :
    Runs s o c command (s.run command o c) := by
  cases command with
  | newDoor name level =>
      simp only [run, commit_of_ready]
      exact .door name level
  | newUser name level =>
      simp only [run]
      split
      · exact .refusal (.newUser name level) ⟨nofun, nofun⟩ .userExists (by simp)
      · next absent => exact .scan name level (by simpa using absent)
  | remove kind name => exact propose_runs s o c _ _ rfl kind name
  | edit kind old new level => exact propose_runs s o c _ _ rfl kind old
  | getLog kind key =>
      simp only [run]
      split
      · next path found => exact .log kind key path found
      · next e lost =>
          rw [c.trail.eq_of_find_error lost]
          exact .refusal (.getLog kind key) ⟨nofun, nofun⟩ .logNotFound (by simp)
  | help => exact .help
  | exit => exact .exit
  | shutdown => exact .shutdown

/-- What a frame comes to: all that can become of it, stage by stage. -/
inductive Receives (s : Session) (frame : String) (o : Occasion) (c : Controller) : Step → Prop
  | stranger (stage : s.stage = .unidentified) (unknown : c.binding.accepts frame = false) :
      Receives s frame o c (s.say c awaitingIdentification)
  | turnedAway (stage : s.stage = .unidentified) (known : c.binding.accepts frame = true)
      (held : c.binding.isHeldByOther s.id = true) :
      Receives s frame o c (s.sayAndClose c AccessError.adminAlreadyBound.message)
  | identified (stage : s.stage = .unidentified) (known : c.binding.accepts frame = true)
      (free : c.binding.isHeldByOther s.id = false) :
      Receives s frame o c ({ s with stage := .ready }.say
        { c with binding := { c.binding with holder := some s.id } } identified)
  | unreadable (stage : s.stage = .ready) (e : AccessError)
      (parsed : Command.parse frame = .error e) : Receives s frame o c (s.refuse c e)
  | command (stage : s.stage = .ready) (command : Command)
      (parsed : Command.parse frame = .ok command) (step : Step) (runs : Runs s o c command step) :
      Receives s frame o c { step with command := some command }
  | left (stage : s.stage ≠ .unidentified) (command : Command)
      (parsed : Command.parse frame = .ok command) (leaves : command = .exit ∨ command = .shutdown)
      (step : Step) (runs : Runs s o c command step) :
      Receives s frame o c { step with command := some command }
  | credential (name : String) (level : Level) (stage : s.stage = .awaitingCredential name level)
      (present : Text.trimmed frame ≠ "") :
      Receives s frame o c
        ({ s with stage := .awaitingConfirmation (.addUser name level (Text.trimmed frame)) }.say c
          confirmPrompt)
  | held (stage : s.stage ≠ .unidentified) : Receives s frame o c (s.refuse c .badSyntax)
  | approved (change : Change) (stage : s.stage = .awaitingConfirmation change)
      (answer : Text.trimmed frame = "approved") : Receives s frame o c (s.commit change o c)
  | denied (change : Change) (stage : s.stage = .awaitingConfirmation change)
      (answer : Text.trimmed frame = "denied") :
      Receives s frame o c ({ s with stage := .ready }.say c cancelled)

theorem identify_receives (s : Session) (frame : String) (o : Occasion) (c : Controller)
    (stage : s.stage = .unidentified) : Receives s frame o c (s.identify frame c) := by
  have same : { s with stage := .unidentified } = s := by rw [← stage]
  rw [identify]
  cases known : c.binding.accepts frame with
  | false => simpa [same] using Receives.stranger stage known
  | true =>
      cases held : c.binding.isHeldByOther s.id with
      | true => simpa [Binding.take, held, same] using Receives.turnedAway stage known held
      | false => simpa [Binding.take, held] using Receives.identified stage known held

theorem dispatch_receives (s : Session) (frame : String) (o : Occasion) (c : Controller)
    (stage : s.stage = .ready) : Receives s frame o c (s.dispatch frame o c) := by
  have same : { s with stage := .ready } = s := by rw [← stage]
  rw [dispatch]
  split
  · next e parsed => simpa only [same] using Receives.unreadable stage e parsed
  · next command parsed => exact .command stage command parsed _ (run_runs s command o c)

theorem leave_receives (s : Session) (frame : String) (o : Occasion) (c : Controller)
    (stage : s.stage ≠ .unidentified) (ends : endsSession frame = true) :
    Receives s frame o c (s.dispatch frame o c) := by
  rw [dispatch]
  cases (endsSession_iff frame).mp ends with
  | inl parsed =>
      rw [parsed]
      exact .left stage .exit parsed (.inl rfl) _ (run_runs s .exit o c)
  | inr parsed =>
      rw [parsed]
      exact .left stage .shutdown parsed (.inr rfl) _ (run_runs s .shutdown o c)

theorem readCredential_receives (s : Session) (name : String) (level : Level) (frame : String)
    (o : Occasion) (c : Controller) (stage : s.stage = .awaitingCredential name level) :
    Receives s frame o c (s.readCredential name level frame o c) := by
  have known : s.stage ≠ .unidentified := by simp [stage]
  rw [readCredential]
  split
  · next ends => exact leave_receives s frame o c known ends
  · split
    · exact .held known
    · next present => exact .credential name level stage present

theorem readConfirmation_receives (s : Session) (change : Change) (frame : String) (o : Occasion)
    (c : Controller) (stage : s.stage = .awaitingConfirmation change) :
    Receives s frame o c (s.readConfirmation change frame o c) := by
  have known : s.stage ≠ .unidentified := by simp [stage]
  rw [readConfirmation]
  split
  · next answer => exact .approved change stage answer
  · split
    · next answer => exact .denied change stage answer
    · split
      · next ends => exact leave_receives s frame o c known ends
      · exact .held known

theorem receive_receives (s : Session) (frame : String) (o : Occasion) (c : Controller) :
    Receives s frame o c (s.receive frame o c) := by
  rw [receive]
  split
  · next stage => exact identify_receives s frame o c stage
  · next stage => exact dispatch_receives s frame o c stage
  · next name level stage => exact readCredential_receives s name level frame o c stage
  · next change stage => exact readConfirmation_receives s change frame o c stage

end Session

end Console

end DoorAccess
