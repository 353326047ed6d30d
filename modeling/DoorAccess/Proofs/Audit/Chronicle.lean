import DoorAccess.Proofs.Console.Grammar
import DoorAccess.Proofs.Console.Steps
import DoorAccess.Proofs.Engine.Commit
import DoorAccess.Proofs.Reader.Request
import DoorAccess.Proofs.Registry.Records
import Mathlib.Data.List.Induction
import Mathlib.Logic.Function.Basic

/-!
What is recorded, over any interleaving of reader frames and admin frames on one server. Each
well-formed request is recorded once, as it was answered, and each change that was made once, with
the record as it stands then or as it was taken out; nothing else is recorded at all.
-/
namespace DoorAccess

/-! ### What an event tells -/

namespace Audit.Event

/-- The event tells of the request as it was answered. -/
structure TellsRequest (e : Event) (r : Registry) (requested presented reply : String) : Prop where
  decision : ∃ d : Decision, d = (r.authorize requested presented).1 ∧ reply = d.reply ∧
    e.access = d.label
  credential : e.credential = presented
  /-- Of an unknown door no user is looked for. -/
  user : e.user = if (r.door? requested).isSome then (r.userOf? presented).map (·.name) else none
  door : e.door = some (((r.door? requested).map (·.name)).getD requested)
  isRegistered : e.isRegistered = true ↔ reply ≠ "Unknown Door"

/-- The event tells of the record that a change was made of. -/
def TellsRecord (e : Event) (verb : String) : Record → Prop
  | .door door => e.access = verb ∧ e.door = some door.name ∧ e.isRegistered = true ∧
      e.user = none ∧ e.credential = "-"
  | .user user => e.access = verb ∧ e.door = none ∧ e.isRegistered = false ∧
      e.user = some user.name ∧ e.credential = user.credential

theorem tellsRequest_ofDecision (e : Engine) (door credential : String) :
    (ofDecision (e.authorize door credential) credential).TellsRequest e.registry door credential
      (e.authorize door credential).decision.reply where
  decision := ⟨_, rfl, rfl, rfl⟩
  credential := rfl
  user := by
    simp only [ofDecision, Engine.authorize, Registry.authorize]
    cases e.registry.door? door with
    | none => rfl
    | some found => cases found : e.registry.userOf? credential <;> simp
  door := rfl
  isRegistered := by
    simp only [ofDecision, decide_eq_true_eq]
    cases (e.authorize door credential).decision <;> simp [Decision.reply]

theorem tellsRecord_ofRecord (verb : String) (record : Record) :
    (ofRecord verb record).TellsRecord verb record := by
  cases record <;> exact ⟨rfl, rfl, rfl, rfl, rfl⟩

end Audit.Event

namespace Controller
variable {c : Controller} {change : Change} {number : UInt32}

theorem commit_done {record : Record} (h : (c.commit change number).1 = .ok record) :
    c.engine.registry.Done (c.commit change number).2.engine.registry change record ∧
      (c.commit change number).2.engine.writes = c.engine.writes + 1 := by
  obtain ⟨staged, d, applied, _, commit⟩ := Engine.commit_ok h
  simp only [Controller.commit, commit]
  exact ⟨Registry.done_apply applied, rfl⟩

theorem commit_undone {e : AccessError} (h : (c.commit change number).1 = .error e) :
    (c.commit change number).2.engine.registry = c.engine.registry ∧
      (c.commit change number).2.engine.writes = c.engine.writes := by
  obtain ⟨undone, refuses | unwritten⟩ := Engine.commit_error h
  · exact ⟨undone.registry, by simp only [Controller.commit, refuses.untried]⟩
  · exact ⟨undone.registry, unwritten.writes⟩

end Controller

namespace Console

/-- The step does not report a change as made. -/
def Step.IsSilent (step : Step) : Prop := ∀ change, step.replies ≠ [.text (doneText change)]

theorem isSilent_of_text {step : Step} {text : String} (replies : step.replies = [.text text])
    (other : text ∉ doneTexts) : step.IsSilent :=
  fun change => replies_ne_of_text replies other _ (doneText_mem change)

theorem refusal_not_done :
    ∀ e ∈ .logNotFound :: AccessError.refusals, e.message ∉ doneTexts := by
  decide

theorem failure_not_done {e : AccessError}
    (cause : e ∈ AccessError.refusals ∨ ∃ text, e = .persistence text) :
    e.message ∉ doneTexts := by
  rcases cause with refusal | ⟨text, rfl⟩
  · exact refusal_not_done e (.tail _ refusal)
  · change "Operation failed - Could not persist configuration" ∉ doneTexts
    decide

theorem unreadable_not_done {frame : String} {e : AccessError}
    (h : Command.parse frame = .error e) : e.message ∉ doneTexts := by
  rcases Command.eq_of_parse_error h with rfl | ⟨word, rfl⟩
  · exact refusal_not_done _ (by simp [AccessError.refusals])
  · change "Unknown Command" ∉ doneTexts
    decide

end Console

/-! ### What happens on a server -/

/-- A frame that was handled, what all connections shared before it, and what came of it. -/
inductive Deed
  | request (frame : String) (now : Audit.Moment) (before : Controller) (step : Reader.Step)
  | command (session : Console.Session) (frame : String) (o : Occasion) (before : Controller)
      (step : Console.Step)

namespace Deed

def frame : Deed → String
  | request frame _ _ _ | command _ frame _ _ _ => frame

def before : Deed → Controller
  | request _ _ before _ | command _ _ _ before _ => before

def after : Deed → Controller
  | request _ _ _ step => step.controller
  | command _ _ _ _ step => step.controller

def events : Deed → List Audit.Event
  | request _ _ _ step => step.events
  | command _ _ _ _ step => step.events

/-- Whether it is a reader's frame and a request. -/
def isRequest : Deed → Bool
  | request frame _ _ _ => (Reader.Request.parse frame).isOk
  | command _ _ _ _ _ => false

/-- Nothing is left to tell: the deed and what was recorded of it. -/
inductive Told : Deed → Prop
  | decision (frame : String) (now : Audit.Moment) (before : Controller) (step : Reader.Step)
      (door credential : String) (cut : frame.toList = door.toList ++ ':' :: credential.toList)
      (first : ':' ∉ door.toList) (both : door ≠ "" ∧ credential ≠ "") (e : Audit.Event)
      (tells : e.TellsRequest before.engine.registry door credential step.reply)
      (events : step.events = [e]) (recorded : step.controller = before.record now e) :
      Told (.request frame now before step)
  | malformed (frame : String) (now : Audit.Moment) (before : Controller) (step : Reader.Step)
      (malformed : Reader.IsMalformed frame) (events : step.events = [])
      (unrecorded : step.controller = before) : Told (.request frame now before step)
  | made (session : Console.Session) (frame : String) (o : Occasion) (before : Controller)
      (step : Console.Step) (change : Change) (record : Record)
      (made : (before.commit change o.number).1 = .ok record)
      (done : before.engine.registry.Done step.controller.engine.registry change record)
      (reply : step.replies = [.text (Console.doneText change)])
      (writes : step.controller.engine.writes = before.engine.writes + 1) (e : Audit.Event)
      (tells : e.TellsRecord (Console.verbOf change).text record) (events : step.events = [e])
      (recorded : step.controller = (before.commit change o.number).2.record o.now e) :
      Told (.command session frame o before step)
  | spared (session : Console.Session) (frame : String) (o : Occasion) (before : Controller)
      (step : Console.Step) (reply : step.IsSilent)
      (registry : step.controller.engine.registry = before.engine.registry)
      (writes : step.controller.engine.writes = before.engine.writes) (events : step.events = [])
      (unrecorded : match step.change with
        | none => step.controller.disk = before.disk
        | some change => (∃ e, (before.commit change o.number).1 = .error e) ∧
            step.controller = (before.commit change o.number).2) :
      Told (.command session frame o before step)

theorem isRequest_iff (frame : String) (now : Audit.Moment) (c : Controller) :
    (Reader.Request.parse frame).isOk = true ↔ ¬ Reader.IsMalformed frame := by
  rw [← (Reader.receive_serves frame now c).flow, Reader.receive]
  split <;> simp_all [Except.isOk, Except.toBool]

theorem told_request (frame : String) (now : Audit.Moment) (c : Controller) :
    Told (.request frame now c (Reader.receive frame now c)) := by
  have serves := Reader.receive_serves frame now c
  generalize Reader.receive frame now c = step at serves
  obtain ⟨answer, _, controller⟩ := serves
  obtain ⟨reply, flow, events, after⟩ := step
  dsimp only at answer controller
  cases answer with
  | decision door credential cut first both =>
      exact .decision frame now c _ door credential cut first both _
        (Audit.Event.tellsRequest_ofDecision c.engine door credential) rfl controller
  | malformed malformed => exact .malformed frame now c _ malformed rfl controller

section Console
open Console Session
variable {s : Session} {frame : String} {o : Occasion} {c : Controller} {step : Console.Step}

/-- A step for which the engine was asked for no change. -/
theorem told_of_none (reply : step.IsSilent) (engine : step.controller.engine = c.engine)
    (disk : step.controller.disk = c.disk) (none : step.change = none) (events : step.events = []) :
    Told (.command s frame o c step) := by
  refine .spared s frame o c step reply (by rw [engine]) (by rw [engine]) events ?_
  rw [none]
  exact disk

theorem told_commit (s : Session) (frame : String) (change : Change) (o : Occasion) (c : Controller)
    (command : Option Command) :
    Told (.command s frame o c { s.commit change o c with command }) := by
  cases outcome : c.commit change o.number with
  | mk result after =>
      have result_eq : (c.commit change o.number).1 = result := by rw [outcome]
      cases result with
      | error e =>
          have step : s.commit change o c =
              { ({ s with stage := .ready } : Session).refuse after e with change := some change } := by
            simp only [Session.commit, outcome]
          obtain ⟨registry, writes⟩ := Controller.commit_undone result_eq
          rw [outcome] at registry writes
          rw [step]
          refine .spared s frame o c _ (isSilent_of_text rfl ?_) registry writes rfl
            ⟨⟨e, result_eq⟩, by rw [outcome]; rfl⟩
          refine failure_not_done ((Engine.refused_or_unwritten result_eq).imp_left ?_)
          exact fun cause => Registry.apply_error cause.choose_spec
      | ok record =>
          have step : s.commit change o c =
              { ({ s with stage := .ready } : Session).say
                  (after.record o.now (.ofRecord (verbOf change).text record)) (doneText change) with
                events := [.ofRecord (verbOf change).text record], change := some change } := by
            simp only [Session.commit, outcome]
            rfl
          obtain ⟨done, writes⟩ := Controller.commit_done result_eq
          rw [outcome] at done writes
          rw [step]
          exact .made s frame o c _ change record result_eq done rfl writes _
            (Audit.Event.tellsRecord_ofRecord _ record) rfl (by rw [outcome]; rfl)

theorem told_runs {command : Command} (runs : Runs s o c command step) :
    Told (.command s frame o c { step with command := some command }) := by
  cases runs with
  | door name level => exact told_commit s frame _ o c _
  | scan | prompt | exit | shutdown =>
      exact told_of_none (isSilent_of_text rfl (by decide)) rfl rfl rfl rfl
  | refusal command stays e cause =>
      exact told_of_none (isSilent_of_text rfl (refusal_not_done e (cause_mem_refusals e cause)))
        rfl rfl rfl rfl
  | log => exact told_of_none (fun _ => by simp [answer]) rfl rfl rfl rfl
  | help => exact told_of_none (fun _ => by simp [answer, helpLines]) rfl rfl rfl rfl

theorem told_command (s : Session) (frame : String) (o : Occasion) (c : Controller) :
    Told (.command s frame o c (s.receive frame o c)) := by
  have receives := s.receive_receives frame o c
  generalize s.receive frame o c = step at receives ⊢
  cases receives with
  | stranger | turnedAway | identified | credential | held | denied =>
      exact told_of_none (isSilent_of_text rfl (by decide)) rfl rfl rfl rfl
  | unreadable stage e parsed =>
      exact told_of_none (isSilent_of_text rfl (unreadable_not_done parsed)) rfl rfl rfl rfl
  | command _ command _ step runs | left _ command _ _ step runs => exact told_runs runs
  | approved change => exact told_commit s frame change o c _

end Console

/-- One event is recorded for a request and one for a change that is made. -/
theorem Told.length {deed : Deed} (told : deed.Told) :
    deed.events.length + deed.before.engine.writes =
      deed.after.engine.writes + if deed.isRequest then 1 else 0 := by
  cases told with
  | decision frame now before step door credential cut first both e _ events recorded =>
      have request : (Reader.Request.parse frame).isOk = true :=
        (isRequest_iff frame now before).mpr (Reader.not_isMalformed_of_cut cut first
          (both.imp String.toList_eq_nil_iff.not.mpr String.toList_eq_nil_iff.not.mpr))
      simp only [Deed.events, Deed.before, Deed.after, isRequest, events, recorded, request]
      exact Nat.add_comm _ _
  | malformed frame now before step malformed events unrecorded =>
      have none : ¬ (Reader.Request.parse frame).isOk = true :=
        fun request => (isRequest_iff frame now before).mp request malformed
      simp [Deed.events, Deed.before, Deed.after, isRequest, events, unrecorded, none]
  | made session frame o before step change record _ _ _ writes e _ events =>
      simp only [Deed.events, Deed.before, Deed.after, isRequest, events, writes]
      exact Nat.add_comm _ _
  | spared session frame o before step _ _ writes events =>
      simp [Deed.events, Deed.before, Deed.after, isRequest, events, writes]

end Deed

/-- What all connections share, the sessions of the admin connections, and all that was handled and
recorded so far. -/
structure Premises where
  controller : Controller
  sessions : ConnectionId → Console.Session
  deeds : List Deed := []
  recorded : List Audit.Event := []

/-- What happens: a reader or an admin sends a frame, an admin connection begins or gives up its
place, and the disk is changed or struck from outside. -/
inductive Happening
  | request (frame : String) (now : Audit.Moment)
  | connect (id : ConnectionId)
  | command (id : ConnectionId) (frame : String) (o : Occasion)
  | release (id : ConnectionId)
  | outside (disk : Disk) (faults : Disk.Faults)

/-- The frame that is handled, if it is one. -/
def Happening.frame? : Happening → Option String
  | request frame _ | command _ frame _ => some frame
  | connect _ | release _ | outside _ _ => none

namespace Premises

/-- Nothing has been handled yet. -/
def start (c : Controller) : Premises := { controller := c, sessions := fun id => { id } }

def take (p : Premises) : Happening → Premises
  | .request frame now =>
    let step := Reader.receive frame now p.controller
    { p with
      controller := step.controller
      deeds := p.deeds ++ [.request frame now p.controller step]
      recorded := p.recorded ++ step.events }
  | .connect id =>
    let step := Console.Session.connect { id } p.controller
    { p with
      controller := step.controller
      sessions := Function.update p.sessions id step.session
      recorded := p.recorded ++ step.events }
  | .command id frame o =>
    let step := (p.sessions id).receive frame o p.controller
    { controller := step.controller
      sessions := Function.update p.sessions id step.session
      deeds := p.deeds ++ [.command (p.sessions id) frame o p.controller step]
      recorded := p.recorded ++ step.events }
  | .release id => { p with controller := p.controller.release id }
  | .outside disk faults => { p with controller := { p.controller with disk, faults } }

def run (p : Premises) (happenings : List Happening) : Premises := happenings.foldl take p

/-- A greeting changes nothing and is not recorded. -/
theorem take_connect (p : Premises) (id : ConnectionId) :
    p.take (.connect id) = { p with sessions := Function.update p.sessions id { id } } := by
  simp only [take, Console.Session.connect]
  split <;> simp [Console.Session.sayAndClose, Console.Session.say, Console.Session.answer]

/-- What is recorded is what the deeds tell, and the deeds are all there is to tell of. -/
structure Accounted (start p : Premises) (happenings : List Happening) : Prop where
  frames : p.deeds.map Deed.frame = happenings.filterMap Happening.frame?
  told : ∀ deed ∈ p.deeds, deed.Told
  recorded : p.recorded = p.deeds.flatMap Deed.events
  counted : p.recorded.length + start.controller.engine.writes =
    p.controller.engine.writes + p.deeds.countP Deed.isRequest

theorem accounted_start (c : Controller) : (start c).Accounted (start c) [] :=
  ⟨rfl, List.forall_mem_nil _, rfl, Nat.add_comm _ _⟩

namespace Accounted
variable {first p : Premises} {happenings : List Happening}

/-- One more frame has been handled. -/
theorem deed (accounted : first.Accounted p happenings) {deed : Deed} (told : deed.Told)
    (before : deed.before = p.controller) {happening : Happening}
    (frame : happening.frame? = some deed.frame) (sessions : ConnectionId → Console.Session) :
    first.Accounted ⟨deed.after, sessions, p.deeds ++ [deed], p.recorded ++ deed.events⟩
      (happenings ++ [happening]) where
  frames := by simp [accounted.frames, frame]
  told := by
    intro other given
    rcases List.mem_append.mp given with earlier | here
    · exact accounted.told other earlier
    · rwa [List.mem_singleton.mp here]
  recorded := by simp [accounted.recorded]
  counted := by
    have counted := accounted.counted
    have length := told.length
    rw [before] at length
    simp only [List.length_append, List.countP_append, List.countP_singleton]
    omega

/-- What no frame brings about is not recorded. -/
theorem aside (accounted : first.Accounted p happenings) (happening : Happening)
    (silent : happening.frame? = none) (c : Controller)
    (engine : c.engine = p.controller.engine) (sessions : ConnectionId → Console.Session) :
    first.Accounted { p with controller := c, sessions } (happenings ++ [happening]) where
  frames := by simp [accounted.frames, silent]
  told := accounted.told
  recorded := accounted.recorded
  counted := by simpa only [engine] using accounted.counted

theorem take (accounted : first.Accounted p happenings) (happening : Happening) :
    first.Accounted (p.take happening) (happenings ++ [happening]) := by
  cases happening with
  | request frame now => exact accounted.deed (Deed.told_request frame now p.controller) rfl rfl _
  | command id frame o => exact accounted.deed (Deed.told_command _ frame o p.controller) rfl rfl _
  | connect id =>
      rw [take_connect]
      exact accounted.aside (.connect id) rfl p.controller rfl _
  | release id => exact accounted.aside (.release id) rfl (p.controller.release id) rfl p.sessions
  | outside disk faults =>
      exact accounted.aside (.outside disk faults) rfl { p.controller with disk, faults } rfl
        p.sessions

end Accounted

theorem accounted_run (c : Controller) (happenings : List Happening) :
    (start c).Accounted ((start c).run happenings) happenings := by
  induction happenings using List.reverseRecOn with
  | nil => exact accounted_start c
  | append_singleton happenings happening ih =>
      rw [run, List.foldl_append]
      exact ih.take happening

/-- However the frames of readers and admins are mixed, and whatever is done to the disk in between:
what is recorded are, in order, the events of the frames that were handled. A request has the one
event that tells how it was answered, a change that was made the one that tells its record, and
nothing else has any. So there are as many events as requests and changes made. -/
theorem recorded_is_what_happened (c : Controller) (happenings : List Happening) :
    let p := (start c).run happenings
    p.deeds.map Deed.frame = happenings.filterMap Happening.frame? ∧
      (∀ deed ∈ p.deeds, deed.Told) ∧ p.recorded = p.deeds.flatMap Deed.events ∧
      p.recorded.length + c.engine.writes =
        p.controller.engine.writes + p.deeds.countP Deed.isRequest := by
  intro p
  obtain ⟨frames, told, recorded, counted⟩ := accounted_run c happenings
  exact ⟨frames, told, recorded, counted⟩

/-- A door is asked for before and after it is added; a name that is given twice is refused, and so
is a request without a credential. -/
example :
    let e : Engine := ⟨.empty, ⟨⟨{}, some "doors.json"⟩⟩, 0, 0, 0, 0⟩
    let c : Controller := ⟨e, ⟨none⟩, ⟨"admin", none⟩, Disk.empty, [], false⟩
    let now : Audit.Moment := ⟨2024, 1, 2, 3, 4⟩
    let p := (start c).run [.request "Hall:7" now, .command 1 "admin" ⟨now, 1⟩,
      .command 1 "newDoor Hall 3" ⟨now, 2⟩, .request "Hall:" now,
      .command 1 "newDoor hall 4" ⟨now, 3⟩, .request "Hall:7" now]
    p.recorded = [⟨some "Hall", false, none, "7", "unknown_door"⟩,
      ⟨some "hall", true, none, "-", "newDoor"⟩, ⟨some "hall", true, none, "7", "denied"⟩] := by
  decide +kernel

end Premises

end DoorAccess
