import DoorAccess.Proofs.Audit.Keys
import DoorAccess.Proofs.Console.Lasting
import DoorAccess.Proofs.Registry.Additions
import DoorAccess.Proofs.Registry.Editing

/-!
Where names come from. A change that a console has made gives no record a name beyond those of the
commands, so every other name was in the file when the server was started.
-/
namespace DoorAccess
open Console

namespace Registry.Sound
variable {r r' : Registry} {record other : Record}

theorem stores_of_request (sound : r.Sound) (entry : Record) (named : Command.IsName entry.name)
    (applied : r.apply entry.request = (.ok record, r')) (stored : r'.Stores other) :
    r.Stores other ∨ Command.IsName other.name := by
  rcases sound.request_cases entry with ⟨_, _, canonical, _, made, gains⟩ | ⟨_, _, refused⟩
  · cases made.symm.trans applied
    rcases (gains.stored other).mp stored with kept | rfl
    · exact .inl kept
    · obtain ⟨_, key, keyed, rfl⟩ := Record.canonical?_eq_some_iff.mp canonical
      rw [Record.name_renamed]
      exact .inr (Command.isName_of_canonical? named keyed)
  · cases refused.symm.trans applied

/-- What is stored after a proper change was stored before or has a name of the commands. -/
theorem stores_of_apply (sound : r.Sound) {change : Change} (proper : IsProper change)
    (applied : r.apply change = (.ok record, r')) (stored : r'.Stores other) :
    r.Stores other ∨ Command.IsName other.name := by
  cases change with
  | addDoor name level =>
      exact sound.stores_of_request (.door ⟨name, level⟩) proper applied stored
  | addUser name level credential =>
      exact sound.stores_of_request (.user ⟨name, credential, level⟩) proper.1 applied stored
  | remove kind name =>
      rcases sound.remove_cases kind name with ⟨_, refused⟩ | ⟨_, _, _, removed, gains⟩
      · cases refused.symm.trans applied
      · cases removed.symm.trans applied
        exact .inl ((gains.stored other).mpr (.inl stored))
  | edit kind old new level =>
      rcases sound.edit_cases kind old new level with ⟨_, refused⟩ | ⟨_, _, _, _,
        ⟨_, refused⟩ | ⟨key, canonical, ⟨_, refused⟩ | ⟨_, _, made, replaces⟩⟩⟩
      · cases refused.symm.trans applied
      · cases refused.symm.trans applied
      · cases refused.symm.trans applied
      · cases made.symm.trans applied
        rcases (replaces.stored other).mp stored with ⟨kept, _⟩ | rfl
        · exact .inl kept
        · rw [Record.name_renamed]
          exact .inr (Command.isName_of_canonical? proper.2 canonical)

end Registry.Sound

theorem Console.isProper_of_makes {s : Session} {frame : String} {change : Change}
    (proper : s.stage.IsProper) (makes : Makes s frame change) : IsProper change := by
  rcases makes with ⟨_, name, level, parsed, rfl⟩ | ⟨stage, _⟩
  · exact Command.isNamed_of_parse parsed
  · rwa [stage] at proper

namespace Premises

/-- Whatever waits at a console has names of the commands, and a record that was not stored at first
has one too. -/
structure Vetted (first : Registry) (p : Premises) : Prop where
  sound : p.controller.engine.registry.Sound
  proper : ∀ id, (p.sessions id).stage.IsProper
  named : ∀ record, p.controller.engine.registry.Stores record →
    first.Stores record ∨ Command.IsName record.name

theorem vetted_start {c : Controller} (sound : c.engine.registry.Sound) :
    (start c).Vetted c.engine.registry where
  sound := sound
  proper _ := trivial
  named _ stored := .inl stored

namespace Vetted
variable {first : Registry} {p p' : Premises}

/-- What is stored stays as it is. -/
theorem aside (vetted : p.Vetted first)
    (same : p'.controller.engine.registry = p.controller.engine.registry)
    (proper : ∀ id, (p'.sessions id).stage.IsProper) : p'.Vetted first where
  sound := same ▸ vetted.sound
  proper := proper
  named := same ▸ vetted.named

theorem proper_update (vetted : p.Vetted first) (id : ConnectionId) {s : Session}
    (proper : s.stage.IsProper) (other : ConnectionId) :
    (Function.update p.sessions id s other).stage.IsProper :=
  (Function.forall_update_iff p.sessions fun _ s => s.stage.IsProper).mpr
    ⟨proper, fun other _ => vetted.proper other⟩ other

theorem take (vetted : p.Vetted first) (happening : Happening) :
    (p.take happening).Vetted first := by
  cases happening with
  | request frame now =>
      exact vetted.aside (congrArg Engine.registry (Reader.receive_engine frame now p.controller))
        vetted.proper
  | connect id =>
      rw [take_connect]
      exact vetted.aside rfl (vetted.proper_update id trivial)
  | command id frame o =>
      have receives := (p.sessions id).receive_receives frame o p.controller
      have proper := vetted.proper_update id
        (Session.isProper_receives (vetted.proper id) receives)
      rcases Session.receives_made receives with ⟨change, record, made⟩ | ⟨_, same⟩
      · have sound := vetted.sound.apply change
        rw [made.applied] at sound
        refine ⟨sound, proper, fun other stored => ?_⟩
        have allowed := isProper_of_makes (vetted.proper id) made.makes
        rcases vetted.sound.stores_of_apply allowed made.applied stored with kept | named
        · exact vetted.named other kept
        · exact .inr named
      · exact vetted.aside same proper
  | release id => exact vetted.aside rfl vetted.proper
  | outside disk faults => exact vetted.aside rfl vetted.proper

end Vetted

theorem vetted_run {c : Controller} (sound : c.engine.registry.Sound)
    (happenings : List Happening) : ((start c).run happenings).Vetted c.engine.registry := by
  refine List.foldlRecOn (motive := Vetted c.engine.registry) happenings _ (vetted_start sound) ?_
  exact fun _ vetted happening _ => vetted.take happening

end Premises

end DoorAccess
