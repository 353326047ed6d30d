import DoorAccess.Proofs.Audit.Chronicle
import DoorAccess.Proofs.Console.Stages
import DoorAccess.Proofs.Registry.Standing

/-!
What the changes made at the consoles leave behind, among all that happens on a server. A frame has
a change made and says so, or the registry stays as it is; so what stands in the registry after some
frame stands there until a change that was made takes it out.
-/
namespace DoorAccess

/-! ### Changes that are made -/

namespace Console

/-- The frame has had the change made, and the step says so. -/
structure Made (s : Session) (frame : String) (c : Controller) (step : Step) (change : Change)
    (record : Record) : Prop where
  makes : Makes s frame change
  asked : step.change = some change
  reply : step.replies = [.text (doneText change)]
  applied : c.engine.registry.apply change = (.ok record, step.controller.engine.registry)

namespace Session
variable {s : Session} {frame : String} {o : Occasion} {c : Controller} {step : Step}

/-- Nothing was made of the frame, and nothing is reported as made. -/
def Idles (c : Controller) (step : Step) : Prop :=
  step.IsSilent ∧ step.controller.engine.registry = c.engine.registry

theorem commit_made_or_idles {change : Change} (makes : Makes s frame change) (o : Occasion)
    (c : Controller) :
    (∃ made record, Made s frame c (s.commit change o c) made record) ∨
      Idles c (s.commit change o c) := by
  have replies := commit_replies s change o c
  have engine : (s.commit change o c).controller.engine = (c.commit change o.number).2.engine := by
    rw [commit_controller, Controller.recordAll_engine]
  cases outcome : (c.commit change o.number).1 with
  | error e =>
      rw [outcome] at replies
      have cause := (Engine.refused_or_unwritten outcome).imp_left fun refused =>
        Registry.apply_error refused.choose_spec
      exact .inr ⟨isSilent_of_text replies (failure_not_done cause),
        by rw [engine, (Controller.commit_undone outcome).1]⟩
  | ok record =>
      rw [outcome] at replies
      obtain ⟨staged, d, applied, _, committed⟩ := Engine.commit_ok outcome
      refine .inl ⟨change, record, makes, commit_change s change o c, replies, ?_⟩
      rw [applied, engine, Controller.commit, committed]
      rfl

theorem runs_made {command : Command} (runs : Runs s o c command step)
    (ready : s.stage = .ready ∨ command = .exit ∨ command = .shutdown)
    (parsed : Command.parse frame = .ok command) :
    (∃ change record, Made s frame c step change record) ∨ Idles c step := by
  cases runs with
  | door name level =>
      have stage : s.stage = .ready := by simpa using ready
      exact commit_made_or_idles (.inl ⟨stage, name, level, parsed, rfl⟩) o c
  | scan | prompt | exit | shutdown => exact .inr ⟨isSilent_of_text rfl (by decide), rfl⟩
  | refusal command stays e cause =>
      exact .inr ⟨isSilent_of_text rfl (refusal_not_done e (cause_mem_refusals e cause)), rfl⟩
  | log => exact .inr ⟨fun _ => by simp [answer], rfl⟩
  | help => exact .inr ⟨fun _ => by simp [answer, helpLines], rfl⟩

/-- Whatever a frame comes to, a change was made and is reported, or there is neither. -/
theorem receives_made (receives : Receives s frame o c step) :
    (∃ change record, Made s frame c step change record) ∨ Idles c step := by
  cases receives with
  | stranger | turnedAway | identified | credential | held | denied =>
      exact .inr ⟨isSilent_of_text rfl (by decide), rfl⟩
  | unreadable stage e parsed =>
      exact .inr ⟨isSilent_of_text rfl (unreadable_not_done parsed), rfl⟩
  | approved change stage answer => exact commit_made_or_idles (.inr ⟨stage, answer⟩) o c
  | command stage command parsed step runs =>
      rcases runs_made runs (.inl stage) parsed with ⟨change, record, made⟩ | idles
      · exact .inl ⟨change, record, made.makes, made.asked, made.reply, made.applied⟩
      · exact .inr ⟨idles.1, idles.2⟩
  | left stage command parsed leaves step runs =>
      rcases runs_made runs (.inr leaves) parsed with ⟨change, record, made⟩ | idles
      · exact .inl ⟨change, record, made.makes, made.asked, made.reply, made.applied⟩
      · exact .inr ⟨idles.1, idles.2⟩

end Session

end Console

/-! ### Deeds in their places -/

namespace Deed
open Console

/-- The frame as one that was given to the session of this connection. -/
def exchange? (id : ConnectionId) : Deed → Option Exchange
  | request _ _ _ _ => none
  | command s frame o before _ => if s.id = id then some ⟨s, frame, o, before⟩ else none

/-- A change was made that takes out the record under the name. -/
def TakesOut (kind : RecordKind) (key : String) : Deed → Prop
  | request _ _ _ _ => False
  | command _ _ _ _ step => ∃ change, step.change = some change ∧
      step.replies = [.text (doneText change)] ∧ change.TakesOut kind key

instance (kind : RecordKind) (key : String) : DecidablePred (Deed.TakesOut kind key)
  | .request _ _ _ _ => inferInstanceAs (Decidable False)
  | .command _ _ _ _ step => inferInstanceAs (Decidable (∃ change ∈ step.change,
      step.replies = [.text (doneText change)] ∧ change.TakesOut kind key))

end Deed

/-- The frames given to the session of a connection. -/
def dialogue (id : ConnectionId) (deeds : List Deed) : List Console.Exchange :=
  deeds.filterMap (Deed.exchange? id)

/-- What came of a frame is what its handling by the engine and by the session comes to, and what
the session has in its stage it was given among the deeds of the past. -/
def Deed.IsPlaced (past : List Deed) : Deed → Prop
  | request _ _ before step => step.controller.engine = before.engine
  | command s frame o before step => Console.Session.Receives s frame o before step ∧
      Console.Justified (dialogue s.id past) s.stage ∧ before.engine.registry.Sound

namespace Deed
open Console
variable {past : List Deed} {deed : Deed}

theorem sound_after (placed : deed.IsPlaced past) (sound : deed.before.engine.registry.Sound) :
    deed.after.engine.registry.Sound := by
  cases deed with
  | request frame now before step =>
      rw [IsPlaced] at placed
      rw [after, placed]
      exact sound
  | command s frame o before step =>
      rw [Deed.before] at sound
      rcases Session.receives_made placed.1 with ⟨change, record, made⟩ | ⟨_, same⟩
      · have applied := sound.apply change
        rwa [made.applied] at applied
      · rwa [after, same]

theorem spares_after (placed : deed.IsPlaced past) :
    Registry.Spares (fun kind key => deed.TakesOut kind key) deed.before.engine.registry
      deed.after.engine.registry := by
  cases deed with
  | request frame now before step =>
      rw [IsPlaced] at placed
      rw [Deed.before, after, placed]
      exact Registry.spares_refl _ _
  | command s frame o before step =>
      rcases Session.receives_made placed.1 with ⟨change, record, made⟩ | ⟨_, same⟩
      · refine (Registry.spares_apply placed.2.2 made.applied).mono fun kind key gives => ?_
        exact ⟨change, made.asked, made.reply, gives⟩
      · rw [Deed.before, after, same]
        exact Registry.spares_refl _ _

end Deed

/-! ### All that happens -/

namespace Premises
open Console

/-- Every deed is in its place, and what it left in the registry is there as long as no later deed
has taken it out. -/
structure Faithful (p : Premises) : Prop where
  id : ∀ id, (p.sessions id).id = id
  justified : ∀ id, Justified (dialogue id p.deeds) (p.sessions id).stage
  sound : p.controller.engine.registry.Sound
  placed : ∀ before deed after, p.deeds = before ++ deed :: after → deed.IsPlaced before
  standing : ∀ before deed after, p.deeds = before ++ deed :: after →
    Registry.Spares (fun kind key => ∃ d ∈ after, d.TakesOut kind key)
      deed.after.engine.registry p.controller.engine.registry

theorem faithful_start {c : Controller} (sound : c.engine.registry.Sound) :
    (start c).Faithful where
  id _ := rfl
  justified _ := trivial
  sound := sound
  placed before deed after split := absurd split (by simp [start])
  standing before deed after split := absurd split (by simp [start])

theorem split_concat {deeds before after : List Deed} {last deed : Deed}
    (split : deeds ++ [last] = before ++ deed :: after) :
    (before = deeds ∧ deed = last ∧ after = []) ∨
      ∃ others, after = others ++ [last] ∧ deeds = before ++ deed :: others := by
  rcases List.eq_nil_or_concat after with rfl | ⟨others, other, rfl⟩
  · obtain ⟨rfl, same⟩ := List.append_inj' split rfl
    exact .inl ⟨rfl, (List.cons.inj same).1.symm, rfl⟩
  · rw [List.concat_eq_append, ← List.cons_append, ← List.append_assoc] at split
    obtain ⟨rfl, same⟩ := List.append_inj' split rfl
    obtain ⟨rfl, _⟩ := List.cons.inj same
    exact .inr ⟨others, List.concat_eq_append, rfl⟩

theorem dialogue_request (id : ConnectionId) (deeds : List Deed) (frame : String)
    (now : Audit.Moment) (before : Controller) (step : Reader.Step) :
    dialogue id (deeds ++ [.request frame now before step]) = dialogue id deeds := by
  simp [dialogue, Deed.exchange?]

theorem dialogue_command (id : ConnectionId) (deeds : List Deed) (s : Session) (frame : String)
    (o : Occasion) (before : Controller) (step : Console.Step) :
    dialogue id (deeds ++ [.command s frame o before step]) =
      dialogue id deeds ++ if s.id = id then [⟨s, frame, o, before⟩] else [] := by
  rw [dialogue, List.filterMap_append]
  by_cases here : s.id = id
  · simp [dialogue, Deed.exchange?, here]
  · simp [dialogue, Deed.exchange?, here]

namespace Faithful
variable {p : Premises}

/-- What no frame brings about leaves the deeds and the registry as they are. -/
theorem aside (faithful : p.Faithful) {c : Controller} (engine : c.engine = p.controller.engine)
    {sessions : ConnectionId → Session}
    (same : ∀ id, sessions id = p.sessions id ∨ sessions id = { id }) :
    Faithful { p with controller := c, sessions } where
  id other := by
    rcases same other with kept | fresh
    · exact (congrArg Session.id kept).trans (faithful.id other)
    · exact congrArg Session.id fresh
  justified other := by
    rcases same other with kept | fresh
    · change Justified _ (sessions other).stage
      rw [kept]
      exact faithful.justified other
    · change Justified _ (sessions other).stage
      rw [fresh]
      trivial
  sound := engine ▸ faithful.sound
  placed := faithful.placed
  standing before deed after split := engine ▸ faithful.standing before deed after split

/-- One more frame has been handled. -/
theorem deed (faithful : p.Faithful) {deed : Deed} (placed : deed.IsPlaced p.deeds)
    (before : deed.before = p.controller) {sessions : ConnectionId → Session}
    (id : ∀ id, (sessions id).id = id)
    (justified : ∀ id, Justified (dialogue id (p.deeds ++ [deed])) (sessions id).stage)
    (recorded : List Audit.Event) :
    Faithful ⟨deed.after, sessions, p.deeds ++ [deed], recorded⟩ where
  id := id
  justified := justified
  sound := deed.sound_after placed (before ▸ faithful.sound)
  placed earlier other later split := by
    rcases split_concat split with ⟨rfl, rfl, rfl⟩ | ⟨others, rfl, within⟩
    · exact placed
    · exact faithful.placed earlier other others within
  standing earlier other later split := by
    rcases split_concat split with ⟨rfl, rfl, rfl⟩ | ⟨others, rfl, within⟩
    · exact Registry.spares_refl _ _
    · have last := before ▸ Deed.spares_after placed
      refine ((faithful.standing earlier other others within).mono ?_).trans (last.mono ?_)
      · exact fun kind key ⟨d, given, gives⟩ => ⟨d, List.mem_append_left _ given, gives⟩
      · exact fun kind key gives => ⟨deed, by simp, gives⟩

theorem take (faithful : p.Faithful) (happening : Happening) : (p.take happening).Faithful := by
  cases happening with
  | request frame now =>
      have placed : Deed.IsPlaced p.deeds
          (.request frame now p.controller (Reader.receive frame now p.controller)) :=
        Reader.receive_engine frame now p.controller
      refine faithful.deed placed rfl faithful.id ?_ _
      intro id
      rw [dialogue_request]
      exact faithful.justified id
  | connect id =>
      rw [take_connect]
      refine faithful.aside rfl fun other => ?_
      by_cases here : other = id
      · subst here
        exact .inr (by simp)
      · exact .inl (Function.update_of_ne here _ _)
  | command id frame o =>
      have receives := (p.sessions id).receive_receives frame o p.controller
      have self := faithful.id id
      have placed : Deed.IsPlaced p.deeds (.command (p.sessions id) frame o p.controller
          ((p.sessions id).receive frame o p.controller)) :=
        ⟨receives, self.symm ▸ faithful.justified id, faithful.sound⟩
      refine faithful.deed placed rfl ?_ ?_ _
      · intro other
        by_cases here : other = id
        · subst here
          simp [(Session.receive_regular _ frame o p.controller).id, self]
        · rw [Function.update_of_ne here]
          exact faithful.id other
      · intro other
        rw [dialogue_command, self]
        by_cases here : other = id
        · subst here
          rw [if_pos rfl, Function.update_self]
          exact justified_step ⟨p.sessions other, frame, o, p.controller⟩ (faithful.justified other)
        · rw [if_neg (Ne.symm here), List.append_nil, Function.update_of_ne here]
          exact faithful.justified other
  | release id =>
      exact faithful.aside (rfl : (p.controller.release id).engine = _) fun _ => .inl rfl
  | outside disk faults =>
      exact faithful.aside (rfl : ({ p.controller with disk, faults } : Controller).engine = _)
        fun _ => .inl rfl

end Faithful

theorem faithful_run {c : Controller} (sound : c.engine.registry.Sound)
    (happenings : List Happening) : ((start c).run happenings).Faithful := by
  refine List.foldlRecOn (motive := Faithful) happenings _ (faithful_start sound) ?_
  exact fun _ faithful happening _ => faithful.take happening

end Premises

end DoorAccess
