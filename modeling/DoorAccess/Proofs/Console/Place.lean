import DoorAccess.Proofs.Console.Steps
import Mathlib.Logic.Function.Basic

/-!
The admin's place under any interleaving of admin connections. The place is given up when the input
of a session is over, and also as soon as the connection is known to be lost; the session may then
still be given a frame that was read before. As long as this does not happen, a connection holds the
place exactly while it is open and has identified itself, so the place names the one session whose
frames are taken for commands. A session that is given frames behind the loss may take the place
once more, or go on with commands without the place. Giving up the place late or twice harms nobody
else.
-/
namespace DoorAccess.Console

namespace Binding

theorem isHeldByOther_eq_false (b : Binding) (id : ConnectionId) :
    b.isHeldByOther id = false ↔ b.holder = none ∨ b.holder = some id := by
  rw [isHeldByOther]
  cases b.holder <;> simp

theorem holder_ne_of_isHeldByOther {b : Binding} {id : ConnectionId}
    (held : b.isHeldByOther id = true) : b.holder ≠ some id := by
  intro own
  cases held.symm.trans ((isHeldByOther_eq_false b id).mpr (.inr own))

theorem release_holder (b : Binding) (id : ConnectionId) :
    (b.release id).holder = if b.holder = some id then none else b.holder := by
  rw [release]
  split <;> rfl

theorem release_of_ne {b : Binding} {id : ConnectionId} (h : b.holder ≠ some id) :
    b.release id = b := if_neg h

theorem holder_release_ne (b : Binding) (id : ConnectionId) : (b.release id).holder ≠ some id := by
  rw [release_holder]
  split
  · nofun
  · assumption

theorem holder_release_of_ne (b : Binding) {id other : ConnectionId} (apart : other ≠ id) :
    (b.release id).holder = some other ↔ b.holder = some other := by
  rw [release_holder]
  split
  · next held => simp [held, Ne.symm apart]
  · rfl

end Binding

/-! ### What a step does to the place -/

namespace Session

/-- All that a step can do to the admin's place. -/
inductive Moves (s : Session) (c : Controller) (step : Step) : Prop
  | stays (id : step.session.id = s.id) (flow : step.flow = .stay)
      (same : step.controller.binding = c.binding)
      (side : step.session.stage = .unidentified ↔ s.stage = .unidentified)
  | turnedAway (id : step.session.id = s.id) (flow : step.flow = .close)
      (same : step.controller.binding = c.binding) (held : c.binding.isHeldByOther s.id = true)
      (before : s.stage = .unidentified)
  | takes (id : step.session.id = s.id) (flow : step.flow = .stay)
      (taken : step.controller.binding = { c.binding with holder := some s.id })
      (free : c.binding.isHeldByOther s.id = false) (before : s.stage = .unidentified)
      (after : step.session.stage ≠ .unidentified)
  | leaves (id : step.session.id = s.id) (flow : step.flow = .close)
      (released : step.controller.binding = c.binding.release s.id)
      (before : s.stage ≠ .unidentified) (after : step.session.stage ≠ .unidentified)

section Moves
variable {s : Session} {c : Controller} {step : Step}

theorem Moves.id (moves : Moves s c step) : step.session.id = s.id := by
  cases moves <;> assumption

/-- To all others nothing changes. -/
theorem Moves.others (moves : Moves s c step) {other : ConnectionId} (apart : other ≠ s.id) :
    step.controller.binding.holder = some other ↔ c.binding.holder = some other := by
  cases moves with
  | stays _ _ same | turnedAway _ _ same => rw [same]
  | takes _ _ taken free =>
      rw [taken]
      rcases (Binding.isHeldByOther_eq_false _ _).mp free with empty | own
      · simp [empty, Ne.symm apart]
      · simp [own]
  | leaves _ _ released =>
      rw [released]
      exact c.binding.holder_release_of_ne apart

/-- Who is identified stays so. -/
theorem Moves.identified (moves : Moves s c step) (before : s.stage ≠ .unidentified) :
    step.session.stage ≠ .unidentified := by
  cases moves with
  | stays _ _ _ side => exact mt side.mp before
  | turnedAway _ _ _ _ here | takes _ _ _ _ here => exact absurd here before
  | leaves _ _ _ _ after => exact after

theorem Moves.withCommand (moves : Moves s c step) (command : Option Command) :
    Moves s c { step with command } := by
  cases moves with
  | stays id flow same side => exact .stays id flow same side
  | turnedAway id flow same held before => exact .turnedAway id flow same held before
  | takes id flow taken free before after => exact .takes id flow taken free before after
  | leaves id flow released before after => exact .leaves id flow released before after

theorem runs_moves {o : Occasion} {command : Command} (runs : Runs s o c command step)
    (identified : s.stage ≠ .unidentified) : Moves s c step := by
  cases runs with
  | door => exact .stays (by simp) (by simp) (by simp) (by simp [identified])
  | scan | prompt | refusal | log | help =>
      exact .stays rfl rfl rfl (by simp [say, answer, refuse, identified])
  | exit | shutdown => exact .leaves rfl rfl rfl identified nofun

theorem receives_moves {frame : String} {o : Occasion} (receives : Receives s frame o c step) :
    Moves s c step := by
  cases receives with
  | stranger | unreadable | held => exact .stays rfl rfl rfl Iff.rfl
  | turnedAway stage _ held => exact .turnedAway rfl rfl rfl held stage
  | identified stage _ free => exact .takes rfl rfl rfl free stage nofun
  | command stage _ _ step runs => exact (runs_moves runs (by simp [stage])).withCommand _
  | left stage _ _ _ step runs => exact (runs_moves runs stage).withCommand _
  | credential name level stage => exact .stays rfl rfl rfl (by simp [stage, say, answer])
  | approved change stage => exact .stays (by simp) (by simp) (by simp) (by simp [stage])
  | denied change stage => exact .stays rfl rfl rfl (by simp [stage, say, answer])

theorem connect_moves (c : Controller) (stage : s.stage = .unidentified) :
    Moves s c (s.connect c) := by
  rw [connect]
  split
  · next held => exact .turnedAway rfl rfl rfl held stage
  · exact .stays rfl rfl rfl Iff.rfl

end Moves

/-- The step carries out no command and makes no change. -/
structure Spares (c : Controller) (step : Step) : Prop where
  command : step.command = none
  change : step.change = none
  engine : step.controller.engine = c.engine
  disk : step.controller.disk = c.disk

/-- Before a session has identified itself, its frames are taken for names only. -/
theorem receive_spares {s : Session} (stage : s.stage = .unidentified) (frame : String)
    (o : Occasion) (c : Controller) : Spares c (s.receive frame o c) := by
  rw [receive, stage]
  change Spares c (s.identify frame c)
  rw [identify]
  split
  · split <;> exact ⟨rfl, rfl, rfl, rfl⟩
  · exact ⟨rfl, rfl, rfl, rfl⟩

end Session

/-! ### Sessions side by side -/

/-- The session of a connection, and what has become of both. -/
structure Visit where
  session : Session
  /-- No step has closed the session, and its input is not over. -/
  isOpen : Bool := true
  /-- The connection is known to be lost. -/
  isCutOff : Bool := false
  /-- The session had identified itself when the place was given up for the lost connection. -/
  hasLost : Bool := false
deriving DecidableEq, Repr

namespace Visit

def leave (v : Visit) : Visit := { v with isOpen := false }

/-- Whatever the connection has sent before may still be on its way to the session. -/
def cutOff (v : Visit) : Visit :=
  { v with isCutOff := true, hasLost := v.hasLost || v.session.stage ≠ .unidentified }

/-- The session takes frames for commands. -/
def Acts (v : Visit) : Prop := v.isOpen = true ∧ v.session.stage ≠ .unidentified

/-- The session acts, and its connection is not over. -/
def IsPresent (v : Visit) : Prop := v.Acts ∧ v.isCutOff = false

/-- The session has identified itself behind the loss of its connection. -/
def IsLate (v : Visit) : Prop := v.Acts ∧ v.isCutOff = true ∧ v.hasLost = false

theorem leave_gone (v : Visit) (acts : v.leave.Acts) : v.leave.hasLost = true := nomatch acts.1

theorem cutOff_gone (v : Visit) (acts : v.cutOff.Acts) : v.cutOff.hasLost = true := by
  have past : v.session.stage ≠ .unidentified := acts.2
  simp [cutOff, past]

/-- What is true of a visit at any time. -/
def IsSound (v : Visit) : Prop :=
  v.hasLost = true → v.isCutOff = true ∧ v.session.stage ≠ .unidentified

theorem IsSound.cutOff {v : Visit} (sound : v.IsSound) : v.cutOff.IsSound := by
  intro gone
  simp only [Visit.cutOff, Bool.or_eq_true, decide_eq_true_eq] at gone
  exact ⟨rfl, gone.elim (fun already => (sound already).2) fun past => past⟩

theorem present_or_late_iff {v : Visit} (sound : v.IsSound) :
    v.IsPresent ∨ v.IsLate ↔ v.Acts ∧ v.hasLost = false := by
  constructor
  · rintro (⟨acts, uncut⟩ | ⟨acts, _, kept⟩)
    · refine ⟨acts, ?_⟩
      cases gone : v.hasLost with
      | false => rfl
      | true => cases uncut.symm.trans (sound gone).1
    · exact ⟨acts, kept⟩
  · rintro ⟨acts, kept⟩
    cases cut : v.isCutOff with
    | false => exact .inl ⟨acts, cut⟩
    | true => exact .inr ⟨acts, cut, kept⟩

end Visit

/-- The sessions of all admin connections so far, and what they share. -/
structure Hall where
  controller : Controller
  visits : ConnectionId → Option Visit := fun _ => none

/-- What happens to admin connections, and in between what others do to all but the place. -/
inductive Event
  | connect (id : ConnectionId)
  | frame (id : ConnectionId) (text : String) (o : Occasion)
  /-- The input of the session is over. -/
  | leave (id : ConnectionId)
  /-- The connection is announced as lost, whether its session still runs or not. -/
  | cutOff (id : ConnectionId)
  | elsewhere (c : Controller)

namespace Hall

/-- Nobody has connected yet. -/
def start (c : Controller) : Hall :=
  { controller := { c with binding := { c.binding with holder := none } } }

/-- Takes over what a step of a session brings about. -/
def follow (h : Hall) (v : Visit) (step : Step) : Hall where
  controller := step.controller
  visits := Function.update h.visits v.session.id
    (some { v with session := step.session, isOpen := step.flow = .stay })

/-- Gives up the place for a connection. -/
def giveUp (h : Hall) (id : ConnectionId) (goes : Visit → Visit) : Hall where
  controller := h.controller.release id
  visits := Function.update h.visits id ((h.visits id).map goes)

/-- A number is given to one connection only, and frames reach a session until one of its steps
closes it or its input is over. The loss of a connection may be announced at any time and any number
of times, and does not keep frames from its session. -/
def take (h : Hall) : Event → Hall
  | .connect id =>
    match h.visits id with
    | some _ => h
    | none => h.follow { session := { id } } (Session.connect { id } h.controller)
  | .frame id text o =>
    match h.visits id with
    | none => h
    | some v => if v.isOpen then h.follow v (v.session.receive text o h.controller) else h
  | .leave id => h.giveUp id Visit.leave
  | .cutOff id => h.giveUp id Visit.cutOff
  | .elsewhere c => { h with controller := { c with binding := h.controller.binding } }

def run (h : Hall) (events : List Event) : Hall := events.foldl take h

/-- The event is a frame for a session whose connection is known to be lost. -/
def reachesCutOff (h : Hall) : Event → Bool
  | .frame id _ _ => (h.visits id).any (·.isCutOff)
  | .connect _ | .leave _ | .cutOff _ | .elsewhere _ => false

/-- No frame comes to a session behind the loss of its connection. -/
def IsTimely (h : Hall) (events : List Event) : Prop :=
  ∀ earlier e later, events = earlier ++ e :: later → (h.run earlier).reachesCutOff e = false

def HasNoLate (h : Hall) : Prop := ∀ id v, h.visits id = some v → ¬ v.IsLate

structure Invariant (h : Hall) : Prop where
  ids : ∀ id v, h.visits id = some v → v.session.id = id
  place : ∀ id, h.controller.binding.holder = some id ↔
    ∃ v, h.visits id = some v ∧ v.Acts ∧ v.hasLost = false
  sound : ∀ id v, h.visits id = some v → v.IsSound

theorem invariant_start (c : Controller) : (start c).Invariant where
  ids id v visit := by cases visit
  place id := by simp [start]
  sound id v visit := by cases visit

section
variable {h : Hall}

theorem visits_follow (h : Hall) (v : Visit) (step : Step) (id : ConnectionId) :
    (h.follow v step).visits id =
      if id = v.session.id then
        some { v with session := step.session, isOpen := step.flow = .stay }
      else h.visits id :=
  Function.update_apply ..

theorem visits_giveUp (h : Hall) (id : ConnectionId) (goes : Visit → Visit)
    (other : ConnectionId) :
    (h.giveUp id goes).visits other =
      if other = id then (h.visits id).map goes else h.visits other :=
  Function.update_apply ..

theorem invariant_follow (inv : h.Invariant) {v : Visit} {step : Step}
    (moves : Session.Moves v.session h.controller step) (isOpen : v.isOpen = true)
    (own : h.controller.binding.holder = some v.session.id ↔ v.Acts ∧ v.hasLost = false)
    (sound : v.IsSound) : (h.follow v step).Invariant where
  ids id w visit := by
    rw [visits_follow] at visit
    split at visit
    · next here =>
        cases visit
        exact moves.id.trans here.symm
    · exact inv.ids id w visit
  place id := by
    change step.controller.binding.holder = _ ↔ _
    rw [visits_follow]
    split
    · next here =>
        subst here
        simp only [Option.some.injEq, exists_eq_left', Visit.Acts, decide_eq_true_eq]
        rw [Visit.Acts, and_iff_right isOpen] at own
        cases moves with
        | stays _ flow same side => rw [same, own, ne_eq, ne_eq, side, and_iff_right flow]
        | turnedAway _ flow same held =>
            have other := Binding.holder_ne_of_isHeldByOther held
            simp [same, other, flow]
        | takes _ flow taken _ before after =>
            have kept : v.hasLost = false :=
              Bool.eq_false_iff.mpr fun gone => (sound gone).2 before
            simp [taken, flow, after, kept]
        | leaves _ flow released =>
            have free := h.controller.binding.holder_release_ne v.session.id
            simp [released, free, flow]
    · next apart => exact (moves.others apart).trans (inv.place id)
  sound id w visit := by
    rw [visits_follow] at visit
    split at visit
    · cases visit
      exact fun gone => ⟨(sound gone).1, moves.identified (sound gone).2⟩
    · exact inv.sound id w visit

theorem invariant_giveUp (inv : h.Invariant) (id : ConnectionId) {goes : Visit → Visit}
    (same : ∀ v, (goes v).session = v.session)
    (gone : ∀ v, (goes v).Acts → (goes v).hasLost = true)
    (sound : ∀ v, v.IsSound → (goes v).IsSound) : (h.giveUp id goes).Invariant where
  ids other w visit := by
    rw [visits_giveUp] at visit
    split at visit
    · next here =>
        obtain ⟨v, before, rfl⟩ := Option.map_eq_some_iff.mp visit
        rw [same, inv.ids id v before, here]
    · exact inv.ids other w visit
  place other := by
    change (h.controller.binding.release id).holder = _ ↔ _
    rw [visits_giveUp]
    split
    · next here =>
        subst here
        refine iff_of_false (h.controller.binding.holder_release_ne other) ?_
        rintro ⟨w, visit, acts, kept⟩
        obtain ⟨v, _, rfl⟩ := Option.map_eq_some_iff.mp visit
        cases kept.symm.trans (gone v acts)
    · next apart => exact (h.controller.binding.holder_release_of_ne apart).trans (inv.place other)
  sound other w visit := by
    rw [visits_giveUp] at visit
    split at visit
    · obtain ⟨v, before, rfl⟩ := Option.map_eq_some_iff.mp visit
      exact sound v (inv.sound id v before)
    · exact inv.sound other w visit

theorem invariant_take (inv : h.Invariant) (e : Event) : (h.take e).Invariant := by
  cases e with
  | connect id =>
      cases visit : h.visits id with
      | some v => simpa only [take, visit] using inv
      | none =>
          have free : h.controller.binding.holder ≠ some id := by
            rw [ne_eq, inv.place id]
            simp [visit]
          rw [take, visit]
          refine invariant_follow inv (Session.connect_moves h.controller rfl) rfl ?_ nofun
          exact iff_of_false free fun acts => acts.1.2 rfl
  | frame id text o =>
      cases visit : h.visits id with
      | none => simpa only [take, visit] using inv
      | some v =>
          simp only [take, visit]
          split
          · next isOpen =>
              obtain rfl := inv.ids id v visit
              have moves := Session.receives_moves (v.session.receive_receives text o h.controller)
              refine invariant_follow inv moves isOpen ?_ (inv.sound _ v visit)
              rw [inv.place, visit]
              simp
          · exact inv
  | leave id =>
      exact invariant_giveUp inv id (fun _ => rfl) Visit.leave_gone fun _ sound => sound
  | cutOff id =>
      exact invariant_giveUp inv id (fun _ => rfl) Visit.cutOff_gone fun _ => Visit.IsSound.cutOff
  | elsewhere c => exact ⟨inv.ids, inv.place, inv.sound⟩

theorem invariant_run (inv : h.Invariant) (events : List Event) : (h.run events).Invariant := by
  induction events generalizing h with
  | nil => exact inv
  | cons e events ih => exact ih (invariant_take inv e)

/-! ### Who has the place -/

namespace Invariant

theorem holder_iff (inv : h.Invariant) (id : ConnectionId) :
    h.controller.binding.holder = some id ↔
      ∃ v, h.visits id = some v ∧ (v.IsPresent ∨ v.IsLate) := by
  rw [inv.place]
  refine exists_congr fun v => and_congr_right fun visit => ?_
  exact (Visit.present_or_late_iff (inv.sound id v visit)).symm

theorem holder_is_present_iff (inv : h.Invariant) :
    (∀ id, h.controller.binding.holder = some id ↔ ∃ v, h.visits id = some v ∧ v.IsPresent) ↔
      h.HasNoLate := by
  constructor
  · intro present id v visit late
    obtain ⟨w, there, here⟩ := (present id).mp ((inv.holder_iff id).mpr ⟨v, visit, .inr late⟩)
    cases visit.symm.trans there
    cases here.2.symm.trans late.2.1
  · intro none id
    rw [inv.holder_iff]
    refine exists_congr fun v => and_congr_right fun visit => ?_
    exact or_iff_left (none id v visit)

theorem eq_of_present (inv : h.Invariant) {a b : ConnectionId} {v w : Visit}
    (first : h.visits a = some v) (second : h.visits b = some w) (present : v.IsPresent)
    (present' : w.IsPresent) : a = b := by
  have held := (inv.holder_iff a).mpr ⟨v, first, .inl present⟩
  have held' := (inv.holder_iff b).mpr ⟨w, second, .inl present'⟩
  exact Option.some.inj (held.symm.trans held')

theorem acts_iff (inv : h.Invariant) {id : ConnectionId} {v : Visit}
    (visit : h.visits id = some v) (isOpen : v.isOpen = true) :
    v.Acts ↔ h.controller.binding.holder = some id ∨ v.hasLost = true := by
  have own : h.controller.binding.holder = some id ↔ v.Acts ∧ v.hasLost = false := by
    rw [inv.place, visit]
    simp
  rw [own]
  cases gone : v.hasLost with
  | false => simp
  | true => simpa using ⟨isOpen, (inv.sound id v visit gone).2⟩

end Invariant

/-! ### Closed sessions, and sessions that hear nothing behind their loss -/

theorem closed_giveUp {id : ConnectionId} {v : Visit} (visit : h.visits id = some v)
    (closed : v.isOpen = false) (other : ConnectionId) {goes : Visit → Visit}
    (stays : (goes v).isOpen = false) :
    ∃ w, (h.giveUp other goes).visits id = some w ∧ w.isOpen = false := by
  rw [visits_giveUp]
  split
  · next here =>
      subst here
      exact ⟨goes v, by rw [visit]; rfl, stays⟩
  · exact ⟨v, visit, closed⟩

theorem closed_follow {id : ConnectionId} {v : Visit} (visit : h.visits id = some v)
    (closed : v.isOpen = false) {other : Visit} (apart : id ≠ other.session.id) (step : Step) :
    ∃ w, (h.follow other step).visits id = some w ∧ w.isOpen = false :=
  ⟨v, (visits_follow ..).trans ((if_neg apart).trans visit), closed⟩

theorem closed_take (inv : h.Invariant) {id : ConnectionId} {v : Visit}
    (visit : h.visits id = some v) (closed : v.isOpen = false) (e : Event) :
    ∃ w, (h.take e).visits id = some w ∧ w.isOpen = false := by
  cases e with
  | connect other =>
      cases there : h.visits other with
      | some u => exact ⟨v, by rw [take, there]; exact visit, closed⟩
      | none =>
          have apart : id ≠ other := by
            rintro rfl
            cases visit.symm.trans there
          rw [take, there]
          exact closed_follow visit closed apart _
  | frame other text o =>
      cases there : h.visits other with
      | none => exact ⟨v, by rw [take, there]; exact visit, closed⟩
      | some u =>
          simp only [take, there]
          split
          · next isOpen =>
              have apart : id ≠ u.session.id := by
                rw [inv.ids other u there]
                rintro rfl
                cases visit.symm.trans there
                cases closed.symm.trans isOpen
              exact closed_follow visit closed apart _
          · exact ⟨v, visit, closed⟩
  | leave other => exact closed_giveUp visit closed other rfl
  | cutOff other => exact closed_giveUp visit closed other closed
  | elsewhere c => exact ⟨v, visit, closed⟩

theorem closed_run (inv : h.Invariant) {id : ConnectionId} {v : Visit}
    (visit : h.visits id = some v) (closed : v.isOpen = false) (events : List Event) :
    ∃ w, (h.run events).visits id = some w ∧ w.isOpen = false := by
  induction events generalizing h v with
  | nil => exact ⟨v, visit, closed⟩
  | cons e events ih =>
      obtain ⟨w, visit, closed⟩ := closed_take inv visit closed e
      exact ih (invariant_take inv e) visit closed

/-- A closed session never has the place again. -/
theorem holder_ne_of_closed (inv : h.Invariant) {id : ConnectionId} {v : Visit}
    (visit : h.visits id = some v) (closed : v.isOpen = false) :
    h.controller.binding.holder ≠ some id := by
  rw [ne_eq, inv.place]
  rintro ⟨w, there, acts, _⟩
  cases visit.symm.trans there
  cases closed.symm.trans acts.1

theorem hasNoLate_follow (none : h.HasNoLate) {v : Visit} (known : v.isCutOff = false)
    (step : Step) : (h.follow v step).HasNoLate := by
  intro id w visit
  rw [visits_follow] at visit
  split at visit
  · cases visit
    exact fun late => nomatch known.symm.trans late.2.1
  · exact none id w visit

theorem hasNoLate_giveUp (none : h.HasNoLate) (id : ConnectionId) {goes : Visit → Visit}
    (gone : ∀ v, (goes v).Acts → (goes v).hasLost = true) : (h.giveUp id goes).HasNoLate := by
  intro other w visit
  rw [visits_giveUp] at visit
  split at visit
  · obtain ⟨v, _, rfl⟩ := Option.map_eq_some_iff.mp visit
    exact fun late => nomatch late.2.2.symm.trans (gone v late.1)
  · exact none other w visit

theorem hasNoLate_take (none : h.HasNoLate) {e : Event} (timely : h.reachesCutOff e = false) :
    (h.take e).HasNoLate := by
  cases e with
  | connect id =>
      cases visit : h.visits id with
      | some v => simpa only [take, visit] using none
      | none => simpa only [take, visit] using hasNoLate_follow none rfl _
  | frame id text o =>
      cases visit : h.visits id with
      | none => simpa only [take, visit] using none
      | some v =>
          have known : v.isCutOff = false := by simpa [reachesCutOff, visit] using timely
          simp only [take, visit]
          split
          · exact hasNoLate_follow none known _
          · exact none
  | leave id => exact hasNoLate_giveUp none id Visit.leave_gone
  | cutOff id => exact hasNoLate_giveUp none id Visit.cutOff_gone
  | elsewhere c => exact none

theorem hasNoLate_run (none : h.HasNoLate) {events : List Event} (timely : h.IsTimely events) :
    (h.run events).HasNoLate := by
  induction events generalizing h with
  | nil => exact none
  | cons e events ih =>
      refine ih (hasNoLate_take none (timely [] e events rfl)) fun earlier e' later split => ?_
      exact timely (e :: earlier) e' later (congrArg (e :: ·) split)

/-- In any run the place is held exactly by the connection that is open and identified, or by one
that has identified itself behind its loss; so it is held by the former alone just if there is none
of the latter, as in a run without such frames. At most one connection is open and identified. A
session takes frames for commands just if it has the place, or had it when its connection was lost,
and before that they do nothing. Once a session is closed the place is not its own any more,
whatever comes; and giving up the place for one that does not have it changes nothing. -/
theorem holder_is_present_or_late (c : Controller) (events : List Event) :
    let h := (start c).run events
    let holder := h.controller.binding.holder
    (∀ id, holder = some id ↔ ∃ v, h.visits id = some v ∧ (v.IsPresent ∨ v.IsLate)) ∧
      ((∀ id, holder = some id ↔ ∃ v, h.visits id = some v ∧ v.IsPresent) ↔ h.HasNoLate) ∧
      (IsTimely (start c) events → h.HasNoLate) ∧
      (∀ a b v w, h.visits a = some v → h.visits b = some w → v.IsPresent → w.IsPresent → a = b) ∧
      (∀ id v, h.visits id = some v → v.isOpen = true →
        (v.Acts ↔ holder = some id ∨ v.hasLost = true) ∧ (v.hasLost = true → v.isCutOff = true) ∧
        (¬ v.Acts → ∀ text o,
          Session.Spares h.controller (v.session.receive text o h.controller))) ∧
      (∀ id v, h.visits id = some v → v.isOpen = false → ∀ later,
        (h.run later).controller.binding.holder ≠ some id) ∧
      ∀ id goes, holder ≠ some id → (h.giveUp id goes).controller = h.controller := by
  intro h holder
  have inv : h.Invariant := invariant_run (invariant_start c) events
  refine ⟨inv.holder_iff, inv.holder_is_present_iff, ?_, ?_, ?_, ?_, ?_⟩
  · exact hasNoLate_run (by intro id v visit; cases visit)
  · exact fun a b v w => inv.eq_of_present
  · intro id v visit isOpen
    refine ⟨inv.acts_iff visit isOpen, fun gone => (inv.sound id v visit gone).1, ?_⟩
    intro idle text o
    exact Session.receive_spares (not_not.mp fun past => idle ⟨isOpen, past⟩) text o _
  · intro id v visit closed later
    obtain ⟨w, there, closed⟩ := closed_run inv visit closed later
    exact holder_ne_of_closed (invariant_run inv later) there closed
  · intro id goes apart
    change { h.controller with binding := h.controller.binding.release id } = h.controller
    rw [Binding.release_of_ne apart]

/-- A connection whose name is read behind its loss has the place without being open, and the next
one is turned away for it. One that was identified goes on to add a door while another has the
place. -/
theorem lost_connections_hold_and_act :
    let c : Controller :=
      ⟨⟨.empty, ⟨⟨{}, some "doors.json"⟩⟩, 0, 0, 0, 0⟩, ⟨none⟩, ⟨"admin", none⟩, Disk.empty, [],
        false⟩
    let o : Occasion := ⟨⟨2024, 1, 2, 3, 4⟩, 1⟩
    let late := (start c).run [.connect 1, .cutOff 1, .frame 1 "admin" o]
    let lost := (start c).run
      [.connect 1, .frame 1 "admin" o, .cutOff 1, .connect 2, .frame 2 "admin" o]
    let obeyed := lost.take (.frame 1 "newDoor hall 3" o)
    (late.controller.binding.holder = some 1 ∧
        ¬ ∃ v, late.visits 1 = some v ∧ v.IsPresent) ∧
      (Session.connect { id := 2 } late.controller).flow = .close ∧
      lost.controller.binding.holder = some 2 ∧
      lost.controller.engine.registry.door? "hall" = none ∧
      obeyed.controller.engine.registry.door? "hall" = some ⟨"hall", 3⟩ := by
  intro c o late lost obeyed
  refine ⟨⟨by decide +kernel, ?_⟩, by decide +kernel⟩
  rintro ⟨v, visit, present⟩
  have known : late.visits 1 = some { session := ⟨1, .ready⟩, isCutOff := true } := by
    decide +kernel
  cases visit.symm.trans known
  cases present.2

end

end Hall

end DoorAccess.Console
