import DoorAccess.Proofs.Console.Lasting

/-!
What an enrolment is worth at the readers. The console takes a frame for a credential without the
blanks around it; a reader's credential is taken as it stands. So a user who was added at the
console passes the doors of at most the user's level with the trimmed text, and with the text as it
was scanned only if there was nothing to trim.
-/
namespace DoorAccess

namespace Console

/-- The user was asked for, and the text was taken for the credential; whatever else was said since
is a syntax error. -/
def Enrols (past : List Exchange) (name : String) (level : Level) (text : String) : Prop :=
  ∃ before scan between, past = before ++ scan :: between ∧ Announced before name level ∧
    (scan.frame = text ∧ scan.step.replies = [.text confirmPrompt]) ∧ ∀ x ∈ between, x.IsRefused

theorem eq_of_last_of_not {α : Type} {p : α → Prop} {xs xs' ys ys' : List α} {x x' : α}
    (same : xs ++ x :: ys = xs' ++ x' :: ys') (not : ¬ p x) (not' : ¬ p x')
    (all : ∀ y ∈ ys, p y) (all' : ∀ y ∈ ys', p y) : xs = xs' ∧ x = x' := by
  rcases List.append_eq_append_iff.mp same with ⟨front, rfl, rest⟩ | ⟨front, rfl, rest⟩
  · cases front with
    | nil =>
        obtain ⟨rfl, rfl⟩ := List.cons.inj rest
        exact ⟨by simp, rfl⟩
    | cons y front =>
        obtain ⟨rfl, rfl⟩ := List.cons.inj rest
        exact absurd (all x' (by simp)) not'
  · cases front with
    | nil =>
        obtain ⟨rfl, rfl⟩ := List.cons.inj rest
        exact ⟨by simp, rfl⟩
    | cons y front =>
        obtain ⟨rfl, rfl⟩ := List.cons.inj rest
        exact absurd (all' x (by simp)) not

theorem not_isRefused_of_prompt {x : Exchange} (prompted : x.step.replies = [.text confirmPrompt]) :
    ¬ x.IsRefused := by
  intro refused
  exact absurd (prompted.symm.trans refused) (by decide)

theorem not_isRefused_of_asks {x : Exchange} {name : String} {level : Level}
    (asks : x.Asks (.newUser name level)) : ¬ x.IsRefused := by
  obtain ⟨stage, parsed⟩ := asks
  rw [Exchange.frame] at parsed
  simp only [Exchange.IsRefused, Exchange.step, Session.receive, stage, Session.dispatch, parsed,
    Session.run]
  split
  · exact replies_ne_of_text rfl (by decide : _ ∉ [AccessError.badSyntax.message]) _ (by simp)
  · exact replies_ne_of_text rfl (by decide : _ ∉ [AccessError.badSyntax.message]) _ (by simp)

/-- What waits to be approved is the enrolment. -/
theorem eq_of_enrols {past : List Exchange} {name name' : String} {level level' : Level}
    {text credential : String} (enrols : Enrols past name level text)
    (requested : Requested past (.addUser name' level' credential)) :
    name' = name ∧ level' = level ∧ credential = Text.trimmed text := by
  obtain ⟨before, scan, between, rfl, announced, ⟨rfl, prompted⟩, refused⟩ := enrols
  cases requested with
  | user _ _ _ before' scan' between' split announced' scans' refused' =>
      obtain ⟨rfl, rfl⟩ := eq_of_last_of_not split (not_isRefused_of_prompt prompted)
        (not_isRefused_of_prompt scans'.1) refused refused'
      obtain ⟨earlier, request, waiting, rfl, asks, held⟩ := announced
      obtain ⟨earlier', request', waiting', split', asks', held'⟩ := announced'
      obtain ⟨rfl, rfl⟩ := eq_of_last_of_not split' (not_isRefused_of_asks asks)
        (not_isRefused_of_asks asks') held held'
      obtain ⟨rfl, rfl⟩ := Command.newUser.inj (Except.ok.inj (asks'.2.symm.trans asks.2))
      exact ⟨rfl, rfl, scans'.2.1.symm⟩

/-! ### Enrolments can be looked for -/

/-- Whether a list can be split so is found out place by place. -/
instance decidableSplit {α : Type} (xs : List α) (p : List α → α → List α → Prop)
    [∀ before x after, Decidable (p before x after)] :
    Decidable (∃ before x after, xs = before ++ x :: after ∧ p before x after) :=
  decidable_of_iff (∃ k : Fin xs.length, p (xs.take k) xs[k] (xs.drop (k + 1))) <| by
    constructor
    · rintro ⟨k, holds⟩
      exact ⟨_, _, _, by simp, holds⟩
    · rintro ⟨before, x, after, rfl, holds⟩
      exact ⟨⟨before.length, by simp⟩, by simpa using holds⟩

instance (x : Exchange) : Decidable x.IsRefused :=
  inferInstanceAs (Decidable (x.step.replies = _))

instance (x : Exchange) (command : Command) : Decidable (x.Asks command) :=
  inferInstanceAs (Decidable (_ ∧ _))

instance (past : List Exchange) (name : String) (level : Level) :
    Decidable (Announced past name level) :=
  decidableSplit past fun _ request between =>
    request.Asks (.newUser name level) ∧ ∀ x ∈ between, x.IsRefused

instance (past : List Exchange) (name : String) (level : Level) (text : String) :
    Decidable (Enrols past name level text) :=
  decidableSplit past fun before scan between => Announced before name level ∧
    (scan.frame = text ∧ scan.step.replies = [.text confirmPrompt]) ∧ ∀ x ∈ between, x.IsRefused

end Console

/-! ### Enrolments among all that happens -/

namespace Deed
open Console
variable {past : List Deed} {deed : Deed}

/-- The command that adds the door was carried out. -/
def AddsDoor (name : String) (level : Level) : Deed → Prop
  | request _ _ _ _ => False
  | command s frame o before step =>
    (Exchange.mk s ⟨frame, o, before⟩).Asks (.newDoor name level) ∧
      step.replies = [.text "Door Added Successfully"]

/-- A user was added when the frame approved it. -/
def AddsUser (id : ConnectionId) : Deed → Prop
  | request _ _ _ _ => False
  | command s frame _ _ step => s.id = id ∧ Text.trimmed frame = "approved" ∧
      step.replies = [.text "User Added Successfully"]

instance (name : String) (level : Level) : DecidablePred (Deed.AddsDoor name level)
  | .request _ _ _ _ => inferInstanceAs (Decidable False)
  | .command _ _ _ _ _ => inferInstanceAs (Decidable (_ ∧ _))

instance (id : ConnectionId) : DecidablePred (Deed.AddsUser id)
  | .request _ _ _ _ => inferInstanceAs (Decidable False)
  | .command _ _ _ _ _ => inferInstanceAs (Decidable (_ ∧ _))

theorem key_of_isName {name key : String} (named : Command.IsName name)
    (canonical : Name.canonical? name = some key) : key = Name.snakeCase name := by
  rw [Name.canonical?, Command.trimmed_of_isName named, Option.ite_none_left_eq_some] at canonical
  exact (Option.some.inj canonical.2).symm

theorem door_of_adds {name : String} {level : Level} (placed : deed.IsPlaced past)
    (adds : deed.AddsDoor name level) :
    deed.after.engine.registry.doors[Name.snakeCase name]? =
      some ⟨Name.snakeCase name, level⟩ := by
  cases deed with
  | request => exact absurd adds id
  | command s frame o before step =>
      obtain ⟨⟨stage, parsed⟩, reply⟩ := adds
      rcases Session.receives_made placed.1 with ⟨change, record, made⟩ | ⟨silent, _⟩
      · rcases made.makes with ⟨_, name', level', parsed', rfl⟩ | ⟨waits, _⟩
        · obtain ⟨rfl, rfl⟩ := Command.newDoor.inj (Except.ok.inj (parsed'.symm.trans parsed))
          obtain ⟨door, added, rfl⟩ := Registry.aDoor_eq_ok made.applied
          obtain ⟨canonical, _, rfl, same⟩ := Registry.insertDoor_ok added
          have key := key_of_isName (Command.isNamed_of_parse parsed) canonical
          rw [after, same, ← key]
          exact Std.TreeMap.getElem?_insert_self
        · rw [waits] at stage
          cases stage
      · exact absurd reply (silent (.addDoor name level))

theorem isName_of_enrols {exchanges : List Exchange} {name text : String} {level : Level}
    (enrols : Enrols exchanges name level text) : Command.IsName name := by
  obtain ⟨_, _, _, _, ⟨_, _, _, _, asks, _⟩, _⟩ := enrols
  exact Command.isNamed_of_parse asks.2

theorem user_of_adds {id : ConnectionId} {name text : String} {level : Level}
    (placed : deed.IsPlaced past) (enrols : Enrols (dialogue id past) name level text)
    (adds : deed.AddsUser id) :
    deed.after.engine.registry.users.Holds ⟨Name.snakeCase name, Text.trimmed text, level⟩ := by
  cases deed with
  | request => exact absurd adds fun never => never
  | command s frame o before step =>
      obtain ⟨rfl, _, reply⟩ := adds
      obtain ⟨receives, justified, sound⟩ := placed
      rcases Session.receives_made receives with ⟨change, record, made⟩ | ⟨silent, _⟩
      · have told : doneText change = "User Added Successfully" := by
          simpa using made.reply.symm.trans reply
        rcases made.makes with ⟨_, _, _, _, rfl⟩ | ⟨waits, _⟩
        · exact absurd told (by simp [doneText])
        · rw [waits] at justified
          cases change with
          | addUser name' level' credential =>
              obtain ⟨rfl, rfl, rfl⟩ := eq_of_enrols enrols justified
              obtain ⟨user, added, rfl⟩ := Registry.aUser_eq_ok made.applied
              obtain ⟨canonical, _, credited, leveled, users, inserted, same⟩ :=
                Registry.insertUser_ok added
              have key := key_of_isName (isName_of_enrols enrols) canonical
              rw [after, same, ← key, ← credited, ← leveled]
              exact (sound.table.holds_insert inserted user).mpr (.inr rfl)
          | addDoor => exact absurd told (by simp [doneText])
          | remove kind | edit kind => exact absurd told (by cases kind <;> simp [doneText])
      · exact absurd reply (silent (.addUser name level text))

end Deed

namespace Premises
open Console

/-- The door was added, and no change that was made since takes it out. -/
def DoorStands (p : Premises) (name : String) (level : Level) : Prop :=
  ∃ before deed after, p.deeds = before ++ deed :: after ∧ deed.AddsDoor name level ∧
    ∀ d ∈ after, ¬ d.TakesOut .door (Name.snakeCase name)

/-- The user was enrolled on the connection with the text as the credential, and no change that was
made since takes the user out. -/
def UserStands (p : Premises) (id : ConnectionId) (name : String) (level : Level)
    (text : String) : Prop :=
  ∃ before deed after, p.deeds = before ++ deed :: after ∧
    Enrols (dialogue id before) name level text ∧ deed.AddsUser id ∧
    ∀ d ∈ after, ¬ d.TakesOut .user (Name.snakeCase name)

namespace Faithful
variable {p : Premises} {name text : String} {level : Level}

theorem door? (faithful : p.Faithful) (stands : p.DoorStands name level) :
    p.controller.engine.registry.door? name = some ⟨Name.snakeCase name, level⟩ := by
  obtain ⟨before, deed, after, split, adds, kept⟩ := stands
  have placed := faithful.placed before deed after split
  refine (faithful.standing before deed after split).door _ _ ?_ (deed.door_of_adds placed adds)
  exact fun ⟨d, given, gives⟩ => kept d given gives

theorem holds {id : ConnectionId} (faithful : p.Faithful)
    (stands : p.UserStands id name level text) :
    p.controller.engine.registry.users.Holds ⟨Name.snakeCase name, Text.trimmed text, level⟩ := by
  obtain ⟨before, deed, after, split, enrols, adds, kept⟩ := stands
  have placed := faithful.placed before deed after split
  have added := deed.user_of_adds placed enrols adds
  refine (faithful.standing before deed after split).user _ ?_ added
  exact fun ⟨d, given, gives⟩ => kept d given gives

end Faithful

theorem isName_of_doorStands {p : Premises} {name : String} {level : Level}
    (stands : p.DoorStands name level) : Command.IsName name := by
  obtain ⟨_, deed, _, _, adds, _⟩ := stands
  cases deed with
  | request => exact absurd adds id
  | command => exact Command.isNamed_of_parse adds.1.2

theorem clean_of_isName {name : String} (named : Command.IsName name) : ':' ∉ name.toList :=
  fun member => absurd (named.2 ':' member) (by decide)

/-- Of a door that is there, the decision is about whoever has the credential. -/
theorem authorize_of_door {e : Engine} {name : String} {door : Door}
    (found : e.registry.door? name = some door) (credential : String) :
    e.authorize name credential = ⟨match e.registry.userOf? credential with
      | some user => if door.level ≤ user.level then .approved else .denied
      | none => .denied, door.name, e.registry.userOf? credential⟩ := by
  rw [Engine.authorize, Registry.authorize, found]
  cases e.registry.userOf? credential <;> rfl

instance (p : Premises) (name : String) (level : Level) : Decidable (p.DoorStands name level) :=
  decidableSplit p.deeds fun _ deed after => deed.AddsDoor name level ∧
    ∀ d ∈ after, ¬ d.TakesOut .door (Name.snakeCase name)

instance (p : Premises) (id : ConnectionId) (name : String) (level : Level) (text : String) :
    Decidable (p.UserStands id name level text) :=
  decidableSplit p.deeds fun before deed after => Enrols (dialogue id before) name level text ∧
    deed.AddsUser id ∧ ∀ d ∈ after, ¬ d.TakesOut .user (Name.snakeCase name)

/-- A user who was enrolled at the console with some text passes the doors of at most the user's
level, added there too, with that text less the blanks around it. The decision is put down to the
user. The text as it was scanned is put down to the user only if no blanks were around it. -/
theorem enrolled_credential_opens {c : Controller} (reachable : c.engine.IsReachable)
    (happenings : List Happening) {id : ConnectionId} {door user text : String} {low high : Level}
    (doorStands : ((start c).run happenings).DoorStands door low)
    (userStands : ((start c).run happenings).UserStands id user high text) (now : Audit.Moment) :
    let shared := ((start c).run happenings).controller
    let credential := Text.trimmed text
    let decision := if low ≤ high then Decision.approved else .denied
    let answer := Reader.receive (door ++ ":" ++ credential) now shared
    (answer.reply = decision.reply ∧ answer.flow = .stay ∧
      answer.events = [⟨some (Name.snakeCase door), true, some (Name.snakeCase user), credential,
        decision.label⟩]) ∧
    ∃ e, (Reader.receive (door ++ ":" ++ text) now shared).events = [e] ∧
      (e.user = some (Name.snakeCase user) ↔ credential = text) := by
  intro shared credential decision answer
  have faithful := faithful_run reachable.sound happenings
  have found := faithful.door? doorStands
  have held := faithful.holds userStands
  have table := faithful.sound.table
  have userOf : shared.engine.registry.userOf? credential = some _ :=
    table.findCredential?_eq_some_iff.mpr ⟨held, rfl⟩
  have named := isName_of_doorStands doorStands
  have present : credential ≠ "" := (faithful.sound.user _ held).2
  have scanned : text ≠ "" := by
    rintro rfl
    exact present rfl
  constructor
  · have received := Reader.receive_request (clean_of_isName named) ⟨named.1, present⟩ now shared
    rw [authorize_of_door found, userOf] at received
    simp only [answer, received, true_and]
    by_cases enough : low ≤ high <;> simp [decision, enough, Audit.Event.ofDecision]
  · have received := Reader.receive_request (clean_of_isName named) ⟨named.1, scanned⟩ now shared
    rw [authorize_of_door found] at received
    rw [received]
    refine ⟨_, rfl, ?_⟩
    change (shared.engine.registry.userOf? text).map User.name = _ ↔ _
    constructor
    · intro attributed
      obtain ⟨other, has, same⟩ := Option.map_eq_some_iff.mp attributed
      obtain ⟨held', credited⟩ := table.findCredential?_eq_some_iff.mp has
      rw [← credited, table.eq_of_name held' held same]
    · intro plain
      rw [← plain, userOf]
      rfl

/-- The credential is scanned with blanks around it, after a frame of nothing but blanks. -/
theorem enrolled_credential_opens_hall :
    let store : Store := ⟨⟨{}, some "doors.json"⟩⟩
    let e := Engine.ofBuilding store ⟨.empty, 0⟩
    let d := (Engine.open store 7 Disk.empty []).2
    let c : Controller := ⟨e, ⟨none⟩, ⟨"admin", none⟩, d, [], false⟩
    let now : Audit.Moment := ⟨2024, 1, 2, 3, 4⟩
    let p := (start c).run [.connect 1, .command 1 "admin" ⟨now, 1⟩,
      .command 1 "newUser Ann 5" ⟨now, 2⟩, .command 1 " " ⟨now, 3⟩, .command 1 " 7:a " ⟨now, 4⟩,
      .request "Hall:7:a" now, .command 1 "approved" ⟨now, 5⟩, .command 1 "newDoor Hall 3" ⟨now, 6⟩]
    c.engine.IsReachable ∧ p.DoorStands "Hall" 3 ∧ p.UserStands 1 "Ann" 5 " 7:a " ∧
      (Reader.receive "Hall:7:a" now p.controller).reply = "approved" := by
  intro store e d c now p
  have opened : Engine.open store 7 Disk.empty [] = (.ok e, d) := rfl
  have reachable : c.engine.IsReachable :=
    ⟨⟨e, d, true⟩, ⟨store, 7, Disk.empty, [], e, d, [], opened, rfl⟩, rfl⟩
  have door : p.DoorStands "Hall" 3 := by decide +kernel
  have user : p.UserStands 1 "Ann" 5 " 7:a " := by decide +kernel
  exact ⟨reachable, door, user, (enrolled_credential_opens reachable _ door user now).1.1⟩

/-- Presented with the blanks it was scanned with, a credential may open nothing. -/
theorem padded_credential_is_denied :
    ¬ ∀ (c : Controller) (happenings : List Happening) (id : ConnectionId) (door user text : String)
        (low high : Level) (now : Audit.Moment), c.engine.IsReachable →
      ((start c).run happenings).DoorStands door low →
      ((start c).run happenings).UserStands id user high text →
      (Reader.receive (door ++ ":" ++ text) now ((start c).run happenings).controller).reply =
        if low ≤ high then "approved" else "denied" := by
  intro opens
  let store : Store := ⟨⟨{}, some "doors.json"⟩⟩
  let e := Engine.ofBuilding store ⟨.empty, 0⟩
  let d := (Engine.open store 7 Disk.empty []).2
  let c : Controller := ⟨e, ⟨none⟩, ⟨"admin", none⟩, d, [], false⟩
  let now : Audit.Moment := ⟨2024, 1, 2, 3, 4⟩
  have opened : Engine.open store 7 Disk.empty [] = (.ok e, d) := rfl
  have reachable : c.engine.IsReachable :=
    ⟨⟨e, d, true⟩, ⟨store, 7, Disk.empty, [], e, d, [], opened, rfl⟩, rfl⟩
  have denied := opens c [.connect 1, .command 1 "admin" ⟨now, 1⟩,
    .command 1 "newDoor hall 3" ⟨now, 2⟩, .command 1 "newUser ann 5" ⟨now, 3⟩,
    .command 1 " 7 " ⟨now, 4⟩, .command 1 "approved" ⟨now, 5⟩] 1 "hall" "ann" " 7 " 3 5 now
    reachable (by decide +kernel) (by decide +kernel)
  exact absurd denied (by decide +kernel)

end Premises

end DoorAccess
