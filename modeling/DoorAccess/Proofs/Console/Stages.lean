import DoorAccess.Proofs.Console.Confirmation
import DoorAccess.Proofs.Console.Course
import DoorAccess.Proofs.Console.Grammar
import DoorAccess.Proofs.Engine.Interruption
import DoorAccess.Proofs.Registry.Storable

/-!
Where a session stands, read off its replies. Whoever has followed the replies from the greeting on
knows the kind of the stage, and the syntax error is the one reply that leaves the stage as it was.
For that no confirmed change may be answered with it: the change carries names of the command
grammar and a trimmed credential, and the registry holds no user without a credential.
-/
namespace DoorAccess

/-- The engine was opened, and anything was asked of it and done to the disk since. -/
def Engine.IsReachable (e : Engine) : Prop :=
  ∃ l : Engine.Lifetime, l.IsReachable ∧ l.engine = e

theorem Engine.IsReachable.sound {e : Engine} (reachable : e.IsReachable) : e.registry.Sound := by
  obtain ⟨l, opened, rfl⟩ := reachable
  exact opened.sound

namespace Console

inductive Stage.Kind
  | unidentified
  | ready
  | awaitingCredential
  | awaitingConfirmation
deriving DecidableEq, Repr

def Stage.kind : Stage → Stage.Kind
  | .unidentified => .unidentified
  | .ready => .ready
  | .awaitingCredential _ _ => .awaitingCredential
  | .awaitingConfirmation _ => .awaitingConfirmation

/-- What a client that has read the replies to a frame takes the stage for. -/
def Stage.Kind.after (k : Stage.Kind) (replies : List Outgoing) : Stage.Kind :=
  if replies = [.text awaitingIdentification] then .unidentified
  else if replies = [.text scanCredential] then .awaitingCredential
  else if replies = [.text confirmPrompt] then .awaitingConfirmation
  else if replies = [.text AccessError.badSyntax.message] then k
  else .ready

/-- The texts that speak of another stage than the one in which commands are taken. -/
def tellingTexts : List String :=
  [awaitingIdentification, scanCredential, confirmPrompt, AccessError.badSyntax.message]

example : tellingTexts = ["Awaiting identification", "Scan credential", "Confirm: approved|denied",
      "Operation failed - Incorrect CLI syntax"] := rfl

theorem Stage.Kind.after_of_other {replies : List Outgoing}
    (other : ∀ text ∈ tellingTexts, replies ≠ [.text text]) (k : Stage.Kind) :
    k.after replies = .ready := by
  simp only [tellingTexts, List.forall_mem_cons] at other
  obtain ⟨first, second, third, fourth, _⟩ := other
  rw [after, if_neg first, if_neg second, if_neg third, if_neg fourth]

/-! ### What waits in a stage -/

/-- The change carries names as commands give them, and a credential as the session takes it. -/
def IsProper : Change → Prop
  | .addDoor name _ | .remove _ name => Command.IsName name
  | .addUser name _ credential =>
    Command.IsName name ∧ Text.trimmed credential = credential ∧ credential ≠ ""
  | .edit _ old new _ => Command.IsName old ∧ Command.IsName new

def Stage.IsProper : Stage → Prop
  | .unidentified | .ready => True
  | .awaitingCredential name _ => Command.IsName name
  | .awaitingConfirmation change => Console.IsProper change

theorem isStorable_of_isProper {change : Change} (proper : IsProper change) :
    change.IsStorable := by
  cases change with
  | addDoor name level => exact Command.canonical?_ne_none_of_isName proper
  | addUser name level credential =>
      exact ⟨Command.canonical?_ne_none_of_isName proper.1, proper.2.2⟩
  | remove kind name => trivial
  | edit kind old new level => exact Command.canonical?_ne_none_of_isName proper.2

namespace Session
variable {s : Session} {frame : String} {o : Occasion} {c : Controller} {step : Step}

theorem isProper_runs {command : Command} (named : command.IsNamed) (runs : Runs s o c command step) :
    step.session.stage.IsProper := by
  cases runs with
  | scan name level => exact named
  | prompt command change asks =>
      cases command <;> cases asks
      · exact named
      · exact named
  | door name level => rw [commit_session]; trivial
  | refusal | log | help | exit | shutdown => trivial

theorem isProper_receives (proper : s.stage.IsProper) (receives : Receives s frame o c step) :
    step.session.stage.IsProper := by
  cases receives with
  | stranger | turnedAway | unreadable | held => exact proper
  | identified | denied => trivial
  | command _ _ parsed step runs | left _ _ parsed _ step runs =>
      change step.session.stage.IsProper
      exact isProper_runs (Command.isNamed_of_parse parsed) runs
  | credential name level stage present =>
      rw [stage] at proper
      exact ⟨proper, Text.trimmed_trimmed frame, present⟩
  | approved change => rw [commit_session]; trivial

/-! ### What the replies tell -/

/-- After the step the stage is of the kind that the replies tell, and if they are the syntax error
it is the very stage it was. -/
structure Told (s : Session) (step : Step) : Prop where
  kind : step.flow = .stay → step.session.stage.kind = s.stage.kind.after step.replies
  same : step.flow = .stay → step.replies = [.text AccessError.badSyntax.message] →
    step.session.stage = s.stage

theorem told_of_close (closed : step.flow = .close) : Told s step where
  kind stays := absurd (closed.symm.trans stays) nofun
  same stays := absurd (closed.symm.trans stays) nofun

/-- A step to the stage in which commands are taken, with replies that tell of no other. -/
theorem told_of_ready (ready : step.session.stage = .ready)
    (other : ∀ text ∈ tellingTexts, step.replies ≠ [.text text]) : Told s step where
  kind _ := by rw [ready, Stage.Kind.after_of_other other]; rfl
  same _ refused := absurd refused (other _ (by simp [tellingTexts]))

theorem told_of_text {text : String} (ready : step.session.stage = .ready)
    (replies : step.replies = [.text text]) (other : text ∉ tellingTexts) : Told s step :=
  told_of_ready ready (replies_ne_of_text replies other)

/-- A step whose one reply names the stage it leads to. -/
theorem told_of_prompt {text : String} (replies : step.replies = [.text text])
    (kind : step.session.stage.kind = s.stage.kind.after [.text text])
    (other : text ≠ AccessError.badSyntax.message) : Told s step where
  kind _ := replies ▸ kind
  same _ refused := by
    rw [replies] at refused
    cases refused
    exact absurd rfl other

theorem commit_replies (s : Session) (change : Change) (o : Occasion) (c : Controller) :
    (s.commit change o c).replies =
      match (c.commit change o.number).1 with
      | .error e => [.text e.message]
      | .ok _ => [.text (doneText change)] := by
  rw [commit]
  dsimp only
  split
  · next h => rw [h]; rfl
  · next h => rw [h]; rfl

theorem refusal_not_telling :
    ∀ e ∈ .logNotFound :: AccessError.refusals, e ≠ .badSyntax → e.message ∉ tellingTexts := by
  decide

theorem persistence_not_telling (text : String) :
    (AccessError.persistence text).message ∉ tellingTexts := by
  change "Operation failed - Could not persist configuration" ∉ tellingTexts
  decide

theorem unknownCommand_not_telling (word : String) :
    (AccessError.unknownCommand word).message ∉ tellingTexts := by
  change "Unknown Command" ∉ tellingTexts
  decide

theorem doneText_not_telling (change : Change) : doneText change ∉ tellingTexts := by
  have apart : ∀ text ∈ doneTexts, text ∉ tellingTexts := by decide
  exact apart _ (doneText_mem change)

/-- A proper change is never answered with the syntax error. -/
theorem commit_text (s : Session) {change : Change} (o : Occasion) {c : Controller}
    (proper : IsProper change) (sound : c.engine.registry.Sound) :
    ∃ text, (s.commit change o c).replies = [.text text] ∧ text ∉ tellingTexts := by
  rw [commit_replies]
  cases outcome : (c.commit change o.number).1 with
  | error e =>
      refine ⟨e.message, rfl, ?_⟩
      rcases Engine.refused_or_unwritten outcome with ⟨left, refused⟩ | ⟨text, rfl⟩
      · exact refusal_not_telling e (.tail _ (Registry.apply_error refused))
          (sound.apply_ne_badSyntax (isStorable_of_isProper proper) refused)
      · exact persistence_not_telling text
  | ok record => exact ⟨doneText change, rfl, doneText_not_telling change⟩

theorem commit_told (s : Session) {change : Change} (o : Occasion) {c : Controller}
    (proper : IsProper change) (sound : c.engine.registry.Sound) :
    Told s (s.commit change o c) := by
  obtain ⟨text, replies, other⟩ := commit_text s o proper sound
  exact told_of_text (by rw [commit_session]) replies other

theorem runs_told {command : Command} (named : command.IsNamed) (sound : c.engine.registry.Sound)
    (runs : Runs s o c command step) : Told s step := by
  cases runs with
  | door name level => exact commit_told s o named sound
  | scan | prompt => exact told_of_prompt rfl rfl (by decide)
  | refusal command stays e cause =>
      refine told_of_text rfl rfl (refusal_not_telling e (cause_mem_refusals e cause) ?_)
      rintro rfl
      exact absurd cause (by decide)
  | log => exact told_of_ready rfl fun _ _ => by simp [answer]
  | help => exact told_of_ready rfl fun _ _ => by simp [answer, helpLines]
  | exit | shutdown => exact told_of_close rfl

theorem receives_told (proper : s.stage.IsProper) (sound : c.engine.registry.Sound)
    (receives : Receives s frame o c step) : Told s step := by
  cases receives with
  | stranger stage =>
      refine told_of_prompt rfl ?_ (by decide)
      change s.stage.kind = _
      rw [stage]
      rfl
  | turnedAway => exact told_of_close rfl
  | identified => exact told_of_text rfl rfl (by decide)
  | unreadable stage e parsed =>
      rcases Command.eq_of_parse_error parsed with rfl | ⟨word, rfl⟩
      · exact ⟨fun _ => rfl, fun _ _ => rfl⟩
      · exact told_of_text stage rfl (unknownCommand_not_telling word)
  | command stage command parsed step runs =>
      have told := runs_told (Command.isNamed_of_parse parsed) sound runs
      exact ⟨told.kind, told.same⟩
  | left stage command parsed leaves step runs =>
      have told := runs_told (Command.isNamed_of_parse parsed) sound runs
      exact ⟨told.kind, told.same⟩
  | credential => exact told_of_prompt rfl rfl (by decide)
  | held => exact ⟨fun _ => rfl, fun _ _ => rfl⟩
  | approved change stage answer =>
      rw [stage] at proper
      exact commit_told s o proper sound
  | denied => exact told_of_text rfl rfl (by decide)

end Session

/-! ### Runs -/

namespace Exchange

/-- The frame approves the change that waits in the stage. -/
def Approves (x : Exchange) (change : Change) : Prop :=
  x.session.stage = .awaitingConfirmation change ∧ Text.trimmed x.frame = "approved"

theorem not_isRefused_of_approves {x : Exchange} {change : Change}
    (proper : x.session.stage.IsProper) (sound : x.delivery.controller.engine.registry.Sound)
    (approves : x.Approves change) : ¬ x.IsRefused := by
  obtain ⟨stage, answer⟩ := approves
  have commits : x.step = x.session.commit change x.delivery.occasion x.delivery.controller := by
    simp only [step, Session.receive, stage, Session.readConfirmation]
    exact if_pos answer
  rw [stage] at proper
  obtain ⟨text, replies, other⟩ :=
    Session.commit_text x.session x.delivery.occasion proper sound
  rw [IsRefused, commits, replies]
  intro refused
  cases refused
  exact other (by decide)

theorem receives (x : Exchange) :
    Session.Receives x.session x.frame x.delivery.occasion x.delivery.controller x.step :=
  x.session.receive_receives _ _ _

end Exchange

namespace Session
variable {s : Session} {ds : List Delivery}

/-- The stage is proper before each frame, so the replies tell of it. -/
theorem told_trace (proper : s.stage.IsProper)
    (sound : ∀ d ∈ ds, d.controller.engine.registry.Sound) :
    ∀ x ∈ s.trace ds, x.session.stage.IsProper ∧ Told x.session x.step ∧
      ∀ change, x.Approves change → ¬ x.IsRefused := by
  induction ds generalizing s with
  | nil => nofun
  | cons d ds ih =>
      obtain ⟨here, later⟩ := List.forall_mem_cons.mp sound
      have receives := (Exchange.mk s d).receives
      refine List.forall_mem_cons.mpr ⟨⟨proper, receives_told proper here receives, ?_⟩, ?_⟩
      · exact fun change => (Exchange.mk s d).not_isRefused_of_approves proper here
      · exact ih (isProper_receives proper receives) later

/-- Followed step by step, the replies lead to the kind of the last stage. -/
theorem kind_after (told : ∀ x ∈ s.trace ds, Told x.session x.step)
    (stays : ∀ x ∈ s.trace ds, x.step.flow = .stay) :
    (s.after ds).stage.kind =
      ((s.trace ds).map (·.step.replies)).foldl Stage.Kind.after s.stage.kind := by
  induction ds generalizing s with
  | nil => rfl
  | cons d ds ih =>
      obtain ⟨first, others⟩ := List.forall_mem_cons.mp told
      obtain ⟨here, later⟩ := List.forall_mem_cons.mp stays
      simp only [trace, List.map_cons, List.foldl_cons, ← first.kind here]
      exact ih others later

theorem connect_told (s : Session) (c : Controller) (stage : s.stage = .unidentified)
    (stays : (s.connect c).flow = .stay) (k : Stage.Kind) :
    (s.connect c).session.stage.kind = k.after (s.connect c).replies := by
  rw [connect] at stays ⊢
  split at stays
  · cases stays
  · next free =>
      rw [if_neg free]
      change s.stage.kind = _
      rw [stage]
      rfl

end Session

/-- Whatever frames a session is given after its greeting, and whatever has become of the registry
and of the disk when each of them arrives: unless a step closes the session, its replies tell the
kind of stage it leads to, and after the syntax error the stage is the very one it was, with all
that waits in it. What waits has proper names and a proper credential, so an approved change is
never answered with that error. Whoever follows the replies from the greeting on therefore knows the
kind of the stage at all times. -/
theorem replies_tell_stage (id : ConnectionId) (c : Controller) (ds : List Delivery)
    (reachable : ∀ d ∈ ds, d.controller.engine.IsReachable) :
    let greeting := Session.connect { id } c
    let run := greeting.session.trace ds
    (greeting.flow = .stay →
      ∀ k : Stage.Kind, greeting.session.stage.kind = k.after greeting.replies) ∧
    (∀ x ∈ run, x.step.flow = .stay →
      x.step.session.stage.kind = x.session.stage.kind.after x.step.replies ∧
        (x.IsRefused → x.step.session.stage = x.session.stage)) ∧
    (∀ x ∈ run, x.session.stage.IsProper ∧ ∀ change, x.Approves change → ¬ x.IsRefused) ∧
    (greeting.flow = .stay → (∀ x ∈ run, x.step.flow = .stay) →
      ∀ k : Stage.Kind, (greeting.session.after ds).stage.kind =
        (greeting.replies :: run.map (·.step.replies)).foldl Stage.Kind.after k) := by
  intro greeting run
  have start : greeting.session = { id } := Session.connect_session { id } c
  have proper : greeting.session.stage.IsProper := by rw [start]; trivial
  have told := Session.told_trace proper fun d given => (reachable d given).sound
  have greeted := Session.connect_told { id } c rfl
  refine ⟨greeted, ?_, fun x given => ⟨(told x given).1, (told x given).2.2⟩, ?_⟩
  · intro x given stays
    obtain ⟨_, tells, _⟩ := told x given
    exact ⟨tells.kind stays, tells.same stays⟩
  · intro stays goesOn k
    rw [List.foldl_cons, ← greeted stays k]
    exact Session.kind_after (fun x given => (told x given).2.1) goesOn

/-- A user is added, with one blank frame where the credential is asked for. -/
theorem replies_tell_stage_of_enrolment :
    let store : Store := ⟨⟨{}, some "doors.json"⟩⟩
    let e := Engine.ofBuilding store ⟨.empty, 0⟩
    let d := (Engine.open store 7 Disk.empty []).2
    let c : Controller := ⟨e, ⟨none⟩, ⟨"admin", none⟩, d, [], false⟩
    let ds : List Delivery := ["admin", "newUser ann 5", " ", "7", "approved"].map
      (⟨·, ⟨⟨2024, 1, 2, 3, 4⟩, 8⟩, c⟩)
    let run := (Session.connect { id := 1 } c).session.trace ds
    (∀ d ∈ ds, d.controller.engine.IsReachable) ∧
      run.map (·.step.replies) = [[.text identified], [.text scanCredential],
        [.text AccessError.badSyntax.message], [.text confirmPrompt],
        [.text "User Added Successfully"]] ∧
      ∀ x ∈ run, x.step.flow = .stay →
        x.step.session.stage.kind = x.session.stage.kind.after x.step.replies ∧
          (x.IsRefused → x.step.session.stage = x.session.stage) := by
  intro store e d c ds run
  have opened : Engine.open store 7 Disk.empty [] = (.ok e, d) := rfl
  have engine : e.IsReachable :=
    ⟨⟨e, d, true⟩, ⟨store, 7, Disk.empty, [], e, d, [], opened, rfl⟩, rfl⟩
  have reachable : ∀ x ∈ ds, x.controller.engine.IsReachable := by
    intro x given
    obtain ⟨frame, _, rfl⟩ := List.mem_map.mp given
    exact engine
  exact ⟨reachable, by decide +kernel, (replies_tell_stage 1 c ds reachable).2.1⟩

end Console

end DoorAccess
