import DoorAccess.Proofs.Console.Steps
import Mathlib.Data.List.Induction

/-!
What an admin session asks the engine to change, over all the frames it is ever given. A door is
added by the command alone. Every other change was asked for by a command of the same session and
is made by the answer that approves it, with nothing but syntax errors in between and, for a new
user, the one frame that is taken for the credential. What all connections share may be anything
whenever a frame arrives.
-/
namespace DoorAccess.Console

/-- A frame that a session is given, at its moment and with what all connections share as it is
then. -/
structure Delivery where
  frame : String
  occasion : Occasion
  controller : Controller

/-- A frame together with the session it is given to. -/
structure Exchange where
  session : Session
  delivery : Delivery

namespace Exchange

def frame (x : Exchange) : String := x.delivery.frame

def step (x : Exchange) : Step :=
  x.session.receive x.delivery.frame x.delivery.occasion x.delivery.controller

/-- The frame was answered with the syntax error. -/
def IsRefused (x : Exchange) : Prop := x.step.replies = [.text AccessError.badSyntax.message]

/-- The frame was read as a command. -/
def Asks (x : Exchange) (command : Command) : Prop :=
  x.session.stage = .ready ∧ Command.parse x.frame = .ok command

/-- The frame was taken for a credential. -/
def Scans (x : Exchange) (credential : String) : Prop :=
  x.step.replies = [.text confirmPrompt] ∧ Text.trimmed x.frame = credential ∧ credential ≠ ""

end Exchange

namespace Session

/-- The session after some frames. -/
def after (s : Session) (ds : List Delivery) : Session :=
  ds.foldl (fun s d => (Exchange.mk s d).step.session) s

def trace (s : Session) : List Delivery → List Exchange
  | [] => []
  | d :: ds => ⟨s, d⟩ :: trace (Exchange.mk s d).step.session ds

theorem after_concat (s : Session) (ds : List Delivery) (d : Delivery) :
    s.after (ds ++ [d]) = (Exchange.mk (s.after ds) d).step.session := by
  simp [after]

theorem trace_concat (s : Session) (ds : List Delivery) (d : Delivery) :
    s.trace (ds ++ [d]) = s.trace ds ++ [⟨s.after ds, d⟩] := by
  induction ds generalizing s with
  | nil => rfl
  | cons first ds ih => simp only [List.cons_append, trace, ih, after, List.foldl_cons]

end Session

/-- The user is being added: it was asked for, and only syntax errors came after it. -/
def Announced (past : List Exchange) (name : String) (level : Level) : Prop :=
  ∃ earlier request between, past = earlier ++ request :: between ∧
    request.Asks (.newUser name level) ∧ ∀ x ∈ between, x.IsRefused

/-- The change was asked for with exactly these values, and only syntax errors came after it, with
one credential among them if a user is to be added. -/
inductive Requested (past : List Exchange) : Change → Prop
  | user (name : String) (level : Level) (credential : String) (before : List Exchange)
      (scan : Exchange) (between : List Exchange) (split : past = before ++ scan :: between)
      (announced : Announced before name level) (scans : scan.Scans credential)
      (refused : ∀ x ∈ between, x.IsRefused) : Requested past (.addUser name level credential)
  | removal (kind : RecordKind) (name : String) (earlier : List Exchange) (request : Exchange)
      (between : List Exchange) (split : past = earlier ++ request :: between)
      (asks : request.Asks (.remove kind name)) (refused : ∀ x ∈ between, x.IsRefused) :
      Requested past (.remove kind name)
  | edit (kind : RecordKind) (old new : String) (level : Option Level) (earlier : List Exchange)
      (request : Exchange) (between : List Exchange) (split : past = earlier ++ request :: between)
      (asks : request.Asks (.edit kind old new level)) (refused : ∀ x ∈ between, x.IsRefused) :
      Requested past (.edit kind old new level)

/-- What a session has in its stage, it was given. -/
def Justified (past : List Exchange) : Stage → Prop
  | .unidentified | .ready => True
  | .awaitingCredential name level => Announced past name level
  | .awaitingConfirmation change => Requested past change

theorem forall_refused_concat {between : List Exchange} {x : Exchange}
    (refused : ∀ y ∈ between, y.IsRefused) (last : x.IsRefused) :
    ∀ y ∈ between ++ [x], y.IsRefused := by
  intro y hy
  cases List.mem_append.mp hy with
  | inl earlier => exact refused y earlier
  | inr here => rwa [List.mem_singleton.mp here]

theorem announced_concat {past : List Exchange} {x : Exchange} {name : String} {level : Level}
    (announced : Announced past name level) (last : x.IsRefused) :
    Announced (past ++ [x]) name level := by
  obtain ⟨earlier, request, between, rfl, asks, refused⟩ := announced
  exact ⟨earlier, request, between ++ [x], by simp, asks, forall_refused_concat refused last⟩

theorem requested_concat {past : List Exchange} {x : Exchange} {change : Change}
    (requested : Requested past change) (last : x.IsRefused) : Requested (past ++ [x]) change := by
  cases requested with
  | user name level credential before scan between split announced scans refused =>
      exact .user name level credential before scan (between ++ [x]) (by simp [split]) announced
        scans (forall_refused_concat refused last)
  | removal kind name earlier request between split asks refused =>
      exact .removal kind name earlier request (between ++ [x]) (by simp [split]) asks
        (forall_refused_concat refused last)
  | edit kind old new level earlier request between split asks refused =>
      exact .edit kind old new level earlier request (between ++ [x]) (by simp [split]) asks
        (forall_refused_concat refused last)

theorem justified_concat {past : List Exchange} {x : Exchange} {stage : Stage}
    (justified : Justified past stage) (last : x.IsRefused) : Justified (past ++ [x]) stage := by
  cases stage with
  | unidentified | ready => trivial
  | awaitingCredential name level => exact announced_concat justified last
  | awaitingConfirmation change => exact requested_concat justified last

theorem justified_runs {past : List Exchange} {x : Exchange} {command : Command} {o : Occasion}
    {c : Controller} (step : Step) (asks : x.Asks command)
    (runs : Session.Runs x.session o c command step) :
    Justified (past ++ [x]) step.session.stage := by
  cases runs with
  | scan name level _ => exact ⟨past, x, [], rfl, asks, List.forall_mem_nil _⟩
  | prompt command change proposes =>
      cases command <;> cases proposes
      · exact .removal _ _ past x [] rfl asks (List.forall_mem_nil _)
      · exact .edit _ _ _ _ past x [] rfl asks (List.forall_mem_nil _)
  | door name level => rw [Session.commit_session]; trivial
  | refusal | log | help | exit | shutdown => trivial

theorem ready_of_leaves {s : Session} {o : Occasion} {c : Controller} {command : Command}
    {step : Step} (runs : Session.Runs s o c command step)
    (leaves : command = .exit ∨ command = .shutdown) : step.session.stage = .ready := by
  cases leaves with
  | inl exit =>
      subst exit
      cases runs with
      | prompt _ _ proposes => cases proposes
      | refusal _ stays => exact absurd rfl stays.1
      | exit => rfl
  | inr shutdown =>
      subst shutdown
      cases runs with
      | prompt _ _ proposes => cases proposes
      | refusal _ stays => exact absurd rfl stays.2
      | shutdown => rfl

theorem justified_step {past : List Exchange} (x : Exchange)
    (justified : Justified past x.session.stage) :
    Justified (past ++ [x]) x.step.session.stage := by
  have receives := x.session.receive_receives x.delivery.frame x.delivery.occasion
    x.delivery.controller
  change Session.Receives _ _ _ _ x.step at receives
  generalize made : x.step = step at receives ⊢
  cases receives with
  | stranger stage | turnedAway stage =>
      change Justified _ x.session.stage
      rw [stage]
      trivial
  | identified | denied => trivial
  | approved change =>
      rw [Session.commit_session]
      trivial
  | unreadable stage =>
      change Justified _ x.session.stage
      rw [stage]
      trivial
  | command stage command parsed step runs =>
      exact justified_runs step ⟨stage, parsed⟩ runs
  | left stage command parsed leaves step runs =>
      change Justified _ step.session.stage
      rw [ready_of_leaves runs leaves]
      trivial
  | credential name level stage present =>
      rw [stage] at justified
      exact .user name level _ past x [] rfl justified ⟨by rw [made]; rfl, rfl, present⟩
        (List.forall_mem_nil _)
  | held => exact justified_concat justified (by rw [Exchange.IsRefused, made]; rfl)

theorem justified_after (s : Session) (stage : s.stage = .unidentified) (ds : List Delivery) :
    Justified (s.trace ds) (s.after ds).stage := by
  induction ds using List.reverseRecOn with
  | nil =>
      change Justified [] s.stage
      rw [stage]
      trivial
  | append_singleton ds d ih =>
      rw [Session.trace_concat, Session.after_concat]
      exact justified_step ⟨s.after ds, d⟩ ih

/-- The frame has the engine make a change: a door is added at once, any other change waits in the
stage until it is approved. -/
def Makes (s : Session) (frame : String) (change : Change) : Prop :=
  (s.stage = .ready ∧ ∃ name level, Command.parse frame = .ok (.newDoor name level) ∧
    change = .addDoor name level) ∨
  (s.stage = .awaitingConfirmation change ∧ Text.trimmed frame = "approved")

/-- The registry and the disk are as the change leaves them, or as they were if none was made. -/
def Accounts (s : Session) (frame : String) (o : Occasion) (c : Controller) (step : Step) : Prop :=
  match step.change with
  | none => step.controller.engine = c.engine ∧ step.controller.disk = c.disk
  | some change =>
    step.controller = (c.commit change o.number).2.recordAll o.now step.events ∧
      Makes s frame change

theorem accounts_runs {s : Session} {frame : String} {o : Occasion} {c : Controller}
    {command : Command} (step : Step)
    (ready : s.stage = .ready ∨ command = .exit ∨ command = .shutdown)
    (parsed : Command.parse frame = .ok command) (runs : Session.Runs s o c command step) :
    Accounts s frame o c step := by
  cases runs with
  | door name level =>
      have ready : s.stage = .ready := by simpa using ready
      rw [Accounts, Session.commit_change]
      exact ⟨Session.commit_controller s _ o c, .inl ⟨ready, name, level, parsed, rfl⟩⟩
  | scan | prompt | refusal | log | help | exit | shutdown => exact ⟨rfl, rfl⟩

theorem accounts_receive (s : Session) (frame : String) (o : Occasion) (c : Controller) :
    Accounts s frame o c (s.receive frame o c) := by
  have receives := s.receive_receives frame o c
  generalize s.receive frame o c = step at receives ⊢
  cases receives with
  | command stage command parsed step runs =>
      exact accounts_runs step (.inl stage) parsed runs
  | left _ command parsed leaves step runs =>
      exact accounts_runs step (.inr leaves) parsed runs
  | approved change stage answer =>
      rw [Accounts, Session.commit_change]
      exact ⟨Session.commit_controller s change o c, .inr ⟨stage, answer⟩⟩
  | stranger | turnedAway | identified | unreadable | credential | held | denied =>
      exact ⟨rfl, rfl⟩

/-- Whatever frames a session is given and whatever others do in between: a frame has the engine
make a change only if it is the command that adds this very door, or the approval of a change that
an earlier frame asked for with these very values. Any other frame leaves the registry and the disk
as they are. -/
theorem change_only_as_requested (id : ConnectionId) (ds : List Delivery) (d : Delivery) :
    let past := Session.trace { id } ds
    let x : Exchange := ⟨Session.after { id } ds, d⟩
    match x.step.change with
    | none =>
      x.step.controller.engine = d.controller.engine ∧ x.step.controller.disk = d.controller.disk
    | some change =>
      x.step.controller = (d.controller.commit change d.occasion.number).2.recordAll
        d.occasion.now x.step.events ∧
      ((∃ name level, x.Asks (.newDoor name level) ∧ change = .addDoor name level) ∨
        (Text.trimmed d.frame = "approved" ∧ Requested past change)) := by
  intro past x
  have justified : Justified past x.session.stage := justified_after { id } rfl ds
  have accounts : Accounts x.session d.frame d.occasion d.controller x.step :=
    accounts_receive x.session d.frame d.occasion d.controller
  rw [Accounts] at accounts
  split at accounts
  · exact accounts
  · next change _ =>
      obtain ⟨effect, makes⟩ := accounts
      refine ⟨effect, ?_⟩
      cases makes with
      | inl added =>
          obtain ⟨stage, name, level, parsed, made⟩ := added
          exact .inl ⟨name, level, ⟨stage, parsed⟩, made⟩
      | inr confirmed =>
          obtain ⟨stage, answer⟩ := confirmed
          rw [stage] at justified
          exact .inr ⟨answer, justified⟩

end DoorAccess.Console
