import DoorAccess.CommandLine
import DoorAccess.Proofs.Console.Hosting
import DoorAccess.Proofs.Text.Utf8
import DoorAccess.Proofs.Text.Words

/-!
Whether the settings of a server let its admin in. The name of the admin arrives as a line, so it
comes out of the line as it is in the settings, and whoever sends it to a server whose place is free
takes the place; but the settings set no limit to the name, and a name that is longer than a frame
may be is never read.
-/
namespace DoorAccess

/-! ### The name as a line -/

theorem textOf_bytesOf (s : String) : textOf (bytesOf s) = s := by
  rw [textOf, bytesOf, Text.Utf8.decodeLossy_encode, String.ofList_toList]

namespace Wire

section Name
variable {name : String} (clean : ∀ c ∈ name.toList, Text.isBlank c = false)
include clean

theorem newline_not_mem_bytesOf : newline ∉ bytesOf name := by
  intro found
  have blank := clean _ (Text.Utf8.mem_of_mem_encode (by decide) found)
  cases blank

theorem frameOf_bytesOf : frameOf (bytesOf name) = name := by
  have last : (bytesOf name).getLast? ≠ some carriageReturn := by
    intro last
    have blank := clean _ (Text.Utf8.mem_of_mem_encode (by decide) (List.mem_of_getLast? last))
    cases blank
  rw [frameOf, if_neg last, textOf_bytesOf]

/-- The name is read from its line as it is, if the line is short enough. -/
theorem Lines.read_name (maxLength : Nat) :
    read maxLength (bytesOf name ++ [newline]) =
      if (bytesOf name).length ≤ maxLength then ⟨[name], none⟩
      else ⟨[], some (.frameTooLong maxLength)⟩ := by
  have nothing : read maxLength [] = ⟨[], none⟩ := rfl
  rw [read_line (newline_not_mem_bytesOf clean), frameOf_bytesOf clean, nothing]
  split
  · next long => rw [if_neg (Nat.not_le.mpr long)]
  · next short =>
      rw [if_pos (Nat.not_lt.mp short)]
      rfl

end Name

end Wire

theorem Console.Binding.accepts_iff {b : Binding}
    (clean : ∀ c ∈ b.name.toList, Text.isBlank c = false) (some : b.name.toList ≠ [])
    (frame : String) :
    b.accepts frame = true ↔
      ∃ before after : String, Text.isAllBlank before ∧ Text.isAllBlank after ∧
        frame = before ++ b.name ++ after := by
  rw [accepts, decide_eq_true_eq, Text.trimmed, ← String.toList_inj, String.toList_ofList,
    Text.trim_eq_word_iff clean some]
  constructor
  · rintro ⟨before, after, blankBefore, blankAfter, whole⟩
    refine ⟨.ofList before, .ofList after, ?_, ?_, ?_⟩
    · simpa only [Text.isAllBlank, String.toList_ofList] using blankBefore
    · simpa only [Text.isAllBlank, String.toList_ofList] using blankAfter
    · simp [← String.toList_inj, whole]
  · rintro ⟨before, after, blankBefore, blankAfter, rfl⟩
    exact ⟨before.toList, after.toList, blankBefore, blankAfter, by simp⟩

theorem Console.Binding.accepts_name {b : Binding}
    (clean : ∀ c ∈ b.name.toList, Text.isBlank c = false) (some : b.name.toList ≠ []) :
    b.accepts b.name = true :=
  (accepts_iff clean some b.name).mpr ⟨"", "", rfl, rfl, by simp⟩

namespace Config

theorem check_eq_none_iff {p : Prop} [Decidable p] {f : Fault} {rest : Option Fault} :
    (if p then some f else rest) = none ↔ ¬ p ∧ rest = none := by
  by_cases fails : p <;> simp [fails]

/-- What the check of the settings says of the admin's name. -/
theorem adminName_of_valid {c : Config} (valid : c.fault? = none) :
    c.adminName.toList ≠ [] ∧ ∀ ch ∈ c.adminName.toList, Text.isBlank ch = false := by
  simp only [fault?, check_eq_none_iff] at valid
  obtain ⟨_, _, _, _, named, clean, _⟩ := valid
  refine ⟨fun none => named ?_, by simpa using clean⟩
  rw [Text.isAllBlank, none]
  rfl

theorem fault?_of_checked {c c' : Config} (checked : c.checked = .ok c') : c'.fault? = none := by
  rw [Config.checked] at checked
  split at checked
  · cases checked
  · next valid =>
      cases checked
      exact valid

end Config

/-- Whatever the settings came from, a server is started only with settings that were checked. -/
theorem CommandLine.fault?_of_started {args : List String} {d : Disk} {config : Config}
    (started : configure args d = .started config) : config.fault? = none := by
  rw [configure] at started
  split at started
  · cases started
  · split at started
    · cases started
    · dsimp only at started
      split at started
      · cases started
      · split at started
        · cases started
        · split at started
          · cases started
          · next checked =>
              cases started
              exact Config.fault?_of_checked checked

/-! ### The admin at the door -/

namespace Console

/-- Where the place is free, the name makes its sender the admin. -/
theorem Course.run_name (clock : Nat → Occasion) (id : ConnectionId) {c : Controller}
    (free : c.binding.holder = none) (known : c.binding.accepts c.binding.name = true) :
    (Course.start id c).run clock alone [c.binding.name] =
      let step := ({ id, stage := .ready } : Session).say
        { c with binding := { c.binding with holder := some id } } identified
      { ((Course.start id c).add step) with frames := 1 } := by
  have other : c.binding.isHeldByOther id = false :=
    (Binding.isHeldByOther_eq_false _ _).mpr (.inl free)
  simp [run, next, start, add, alone, Session.connect, Session.receive, Session.identify,
    Session.say, Session.answer, Binding.take, other, known]

/-- A connection that sends nothing but the name's line takes the place, or it is cut off. -/
theorem Connection.attend_name (id : ConnectionId) (maxLength : Nat) {c : Controller}
    (clean : ∀ ch ∈ c.binding.name.toList, Text.isBlank ch = false)
    (named : c.binding.name.toList ≠ []) (free : c.binding.holder = none) (clock : Nat → Occasion)
    {chunks : List Bytes} (line : chunks.flatten = bytesOf c.binding.name ++ [Wire.newline]) :
    let s := attend id maxLength c clock alone chunks false
    if (bytesOf c.binding.name).length ≤ maxLength then
      s.connection.isOpen = true ∧ s.connection.session = { id, stage := .ready } ∧
        s.controller.binding.holder = some id
    else s.connection.isOpen = false ∧ s.controller.binding.holder = none := by
  intro s
  obtain ⟨inbox, attended⟩ := attend_served clock alone id maxLength c chunks false
  rw [line, Wire.Lines.read_name clean] at attended
  split
  · next fits =>
      have known := Binding.accepts_name clean named
      have going : ¬ Over ((Course.start id c).run clock alone [c.binding.name])
          ⟨[c.binding.name], none⟩ false := by
        rw [Course.run_name clock id free known]
        simp [Over, Course.add, Session.say, Session.answer]
      rw [if_pos fits, if_neg going, Course.run_name clock id free known] at attended
      rw [show s = _ from attended]
      exact ⟨rfl, rfl, rfl⟩
  · next long =>
      rw [if_neg long, if_pos (.inr (.inl rfl))] at attended
      rw [show s = _ from attended]
      refine ⟨rfl, ?_⟩
      change ((Course.start id c).controller.binding.release _).holder = none
      have greeted : (Course.start id c).controller = c := Session.connect_controller { id } c
      rw [Binding.release_holder, greeted, free, ite_self]

end Console

namespace Server

/-- What becomes of the place of a server when a connection comes and sends the name's line. -/
theorem place_after_name {s : Server} {config : Config} (valid : config.fault? = none)
    (named : s.IsNamedBy config) (free : s.controller.binding.holder = none)
    (clock : Nat → Occasion) {chunks : List Bytes}
    (line : chunks.flatten = bytesOf config.adminName ++ [Wire.newline]) :
    let id := (s.accept .admin).1
    let s' := s.run (.accept .admin :: chunks.map (.feed clock .admin id ·))
    if (bytesOf config.adminName).length ≤ config.maxFrameLength then
      s'.controller.binding.holder = some id ∧
        ∃ inbox, s'.consoles[id]? = some ⟨{ id, stage := .ready }, inbox, true⟩
    else s'.controller.binding.holder = none ∧ s'.consoles[id]? = none := by
  intro id s'
  obtain ⟨some, clean⟩ := Config.adminName_of_valid valid
  obtain ⟨rfl, name⟩ := named
  rw [← name] at some clean line ⊢
  obtain ⟨connection, controller, _⟩ := s.hosts_run clock chunks
  have attended := Console.Connection.attend_name id s.config.maxFrameLength clean some free
    (fun n => clock (s.frames + n)) line
  generalize Console.Connection.attend id s.config.maxFrameLength s.controller
    (fun n => clock (s.frames + n)) Console.alone chunks false = k at attended connection controller
  split
  · next fits =>
      rw [if_pos fits] at attended
      obtain ⟨isOpen, session, holder⟩ := attended
      rw [if_pos isOpen] at connection controller
      refine ⟨(congrArg (·.binding.holder) controller).trans holder, k.connection.inbox, ?_⟩
      rw [← session, ← isOpen]
      exact connection
  · next long =>
      rw [if_neg long] at attended
      obtain ⟨closed, holder⟩ := attended
      rw [if_neg (by simp [closed])] at connection controller
      refine ⟨(congrArg (·.binding.holder) controller).trans ?_, connection⟩
      exact (Console.Binding.release_holder _ _).trans (by rw [holder, ite_self])

end Server

namespace Config

/-- Settings that pass the check have a name that is accepted itself, and with nothing but blanks
around it. However its line is cut into chunks, it is read as the one frame it is, and whoever comes
to a server whose place is free and sends this line becomes the admin, if the name is no longer
than a frame may be. If it is longer, which the check allows, the line is not read and its sender
is cut off. -/
theorem admin_is_let_in_iff_name_fits {config : Config} (valid : config.fault? = none) :
    (∀ chunks : List Bytes, chunks.flatten = bytesOf config.adminName ++ [Wire.newline] →
      (Wire.Inbox.new config.maxFrameLength).readChunks chunks =
        if (bytesOf config.adminName).length ≤ config.maxFrameLength then
          ⟨[config.adminName], none⟩
        else ⟨[], some (.frameTooLong config.maxFrameLength)⟩) ∧
    (∀ b : Console.Binding, b.name = config.adminName → b.accepts config.adminName = true ∧
      ∀ frame, b.accepts frame = true ↔ ∃ before after : String, Text.isAllBlank before ∧
        Text.isAllBlank after ∧ frame = before ++ config.adminName ++ after) ∧
    (∀ number d start, Server.start config number d = .ok start → ∀ events,
      let s := start.run events
      s.controller.binding.holder = none → ∀ clock, ∀ chunks : List Bytes,
        chunks.flatten = bytesOf config.adminName ++ [Wire.newline] →
          let id := (s.accept .admin).1
          let s' := s.run (.accept .admin :: chunks.map (.feed clock .admin id ·))
          if (bytesOf config.adminName).length ≤ config.maxFrameLength then
            s'.controller.binding.holder = some id ∧
              ∃ inbox, s'.consoles[id]? = some ⟨{ id, stage := .ready }, inbox, true⟩
          else s'.controller.binding.holder = none ∧ s'.consoles[id]? = none) := by
  obtain ⟨some, clean⟩ := adminName_of_valid valid
  refine ⟨?_, ?_, ?_⟩
  · intro chunks line
    rw [Wire.Inbox.readChunks_of_waiting (Wire.Inbox.waiting_new _)]
    exact (congrArg _ line).trans (Wire.Lines.read_name clean _)
  · intro b name
    rw [← name] at some clean ⊢
    exact ⟨b.accepts_name clean some, b.accepts_iff clean some⟩
  · intro number d start started events s free clock chunks line
    exact Server.place_after_name valid ((Server.IsNamedBy.of_start started).run events) free clock
      line

/-- On a new disk a server with the usual place for its store starts, and nobody has come. -/
theorem start_on_empty_disk (config : Config) (store : config.storePath = "config.json") :
    ∃ s, Server.start config 7 Disk.empty = .ok s ∧ s.controller.binding.holder = none ∧
      (s.accept .admin).1 = 1 := by
  have top : Place.parentText? "config.json" = some "" := by
    simp [Place.parentText?, Place.dropEnd]
  have prepared : Server.prepareStore "config.json" Disk.empty = (.ok (), Disk.empty) := by
    simp [Server.prepareStore, top]
  rw [Server.start, store, prepared]
  dsimp only
  rw [Controller.open, store]
  exact ⟨_, rfl, rfl, rfl⟩

/-- A name from the command line, and its line cut inside a letter. -/
theorem admin_is_let_in_of_command_line :
    let args := ["doorwarden", "--admin-name", "pförtner"]
    let chunks : List Bytes := [[112, 102, 195], [182, 114, 116, 110, 101, 114, 10]]
    ∃ config s, CommandLine.configure args Disk.empty = .started config ∧
      config.fault? = none ∧ Server.start config 7 Disk.empty = .ok s ∧
      ∀ clock, (s.run (.accept .admin ::
        chunks.map (.feed clock .admin 1 ·))).controller.binding.holder = some 1 := by
  intro args chunks
  have configured :
      CommandLine.configure args Disk.empty = .started { adminName := "pförtner" } := rfl
  have valid := CommandLine.fault?_of_started configured
  obtain ⟨s, started, free, first⟩ :=
    start_on_empty_disk { adminName := "pförtner" } rfl
  refine ⟨_, s, configured, valid, started, fun clock => ?_⟩
  have admitted := (admin_is_let_in_iff_name_fits valid).2.2 7 Disk.empty s started [] free clock
    chunks rfl
  rw [if_pos (by decide)] at admitted
  rw [← first]
  exact admitted.1

/-- A name of 65 letters where a frame may have 64 bytes. -/
theorem long_name_is_never_read :
    let config : Config := { adminName := .ofList (.replicate 65 'a'), maxFrameLength := 64 }
    let line := bytesOf config.adminName ++ [Wire.newline]
    config.fault? = none ∧
      (Wire.Inbox.new 64).readChunks [line] = ⟨[], some (.frameTooLong 64)⟩ ∧
      ∃ s, Server.start config 7 Disk.empty = .ok s ∧ s.controller.binding.holder = none ∧
        ∀ clock, (s.run [.accept .admin, .feed clock .admin 1 line]).controller.binding.holder =
          none := by
  intro config line
  have valid : config.fault? = none := by decide
  have long : ¬ (bytesOf config.adminName).length ≤ config.maxFrameLength := by decide
  have clean := (adminName_of_valid valid).2
  obtain ⟨s, started, free, first⟩ := start_on_empty_disk config rfl
  refine ⟨valid, ?_, s, started, free, fun clock => ?_⟩
  · rw [Wire.Inbox.readChunks_of_waiting (Wire.Inbox.waiting_new 64), List.flatten_singleton]
    exact (Wire.Lines.read_name clean 64).trans (if_neg long)
  · have whole : [line].flatten = line := List.append_nil line
    have turnedAway := Server.place_after_name valid (.of_start started) free clock whole
    rw [if_neg long, first] at turnedAway
    exact turnedAway.1

end Config

end DoorAccess
