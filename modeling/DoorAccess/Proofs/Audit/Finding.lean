import DoorAccess.Proofs.Audit.Keys
import DoorAccess.Proofs.Audit.Logs
import DoorAccess.Proofs.Console.Spelling
import DoorAccess.Proofs.Store.Write

/-!
Whether a log is found that was written. What is recorded stands under the canonical name, or under
the day; what is asked for may be spelled otherwise, and comes to the same file. No event and no
request leads out of the folders of the logs.
-/
namespace DoorAccess

theorem Disk.isFile_iff (d : Disk) (p : Path) :
    d.isFile p = true ↔ ∃ content, d.read p = .ok content := by
  rw [isFile, read]
  split <;> split <;> simp_all

namespace Audit

/-- The day in the form in which it may be asked for, with these separators. -/
def Moment.dayWith (m : Moment) (s t : Char) : String :=
  String.ofList (fourDigits m.year ++ s :: (twoDigits m.month ++ t :: twoDigits m.day))

/-- Whose personal log of this kind the event belongs to. -/
def Event.subject? (e : Event) : LogKind → Option String
  | .system => none
  | .user => e.user
  | .door => if e.isRegistered then e.door else none

namespace LogFile
variable {root : String} {d d' : Disk} {f : LogFile}

/-- The log can be read. -/
def IsThere (root : String) (d : Disk) (f : LogFile) : Prop :=
  ∃ content, (f.place root).read d = .ok content

theorem isThere_iff (safe : f.IsSafe) :
    f.IsThere root d ↔ (∀ p ∈ (f.folder root).ways, d.isDirectory p = true) ∧
      Disk.nameFits f.name = true ∧
        ∃ content, d.node? (f.location root) = some (.file content) := by
  rw [IsThere, place_eq root safe]
  simp only [FilePlace.read, FilePlace.path?, Option.map_some, Place.ways, List.mem_append,
    List.mem_singleton, or_imp, forall_and, forall_eq]
  constructor
  · rintro ⟨content, read⟩
    split at read
    · next reachable =>
        have found := Disk.read_eq_ok.mp read
        obtain ⟨parent, fits⟩ := Disk.parent_of_stat found
        exact ⟨⟨List.all_eq_true.mp reachable, parent⟩, fits, content, Disk.node?_of_stat found⟩
    · cases read
  · rintro ⟨⟨through, parent⟩, fits, content, found⟩
    refine ⟨content, ?_⟩
    rw [if_pos (show (f.folder root).isReachable d = true from List.all_eq_true.mpr through)]
    exact Disk.read_eq_ok.mpr (Disk.stat_of_node? ⟨parent, fits⟩ found)

theorem isThere_iff_isFile (safe : f.IsSafe) : f.IsThere root d ↔
    (f.folder root).isReachable d = true ∧ d.isFile (f.location root) = true := by
  rw [IsThere, place_eq root safe, Disk.isFile_iff]
  simp only [FilePlace.read, FilePlace.path?, Option.map_some, location]
  by_cases reachable : (f.folder root).isReachable d = true <;> simp [reachable]

/-- Only a log that can be opened takes a line. -/
theorem canOpen_of_appended (safe : f.IsSafe) {line : List Char}
    (appended : (Trail.appendLine (f.path root) line d).1 = .ok ()) : f.CanOpen root d := by
  have eq : FilePlace.ofText (f.path root) = ⟨f.folder root, some f.name⟩ := place_eq root safe
  rw [CanOpen, FilePlace.CanOpen, place, eq]
  simp only [Trail.appendLine, eq, FilePlace.path?, Option.map_some, Option.getD_some] at appended
  split at appended
  · cases appended
  · next made makes =>
      have opens {opened : Disk}
          (creates : made.create ((f.folder root).path ++ [f.name]) = .ok opened) :=
        show ∃ made p opened, (f.folder root).make d = (.ok (), made) ∧ _ = some p ∧
          made.create p = .ok opened from ⟨made, _, opened, makes, rfl, creates⟩
      have opens_file {content : Bytes}
          (read : made.read ((f.folder root).path ++ [f.name]) = .ok content) :=
        opens (by rw [Disk.create, Disk.read_eq_ok.mp read])
      split at appended
      · next read => exact opens_file read
      · next read => exact opens_file read
      · obtain ⟨_, creates, _⟩ := Disk.performUnder_cons_ok (Prod.ext appended rfl)
        exact opens creates
      · cases appended

end LogFile

namespace Posting
variable {root : String} {d d' : Disk} {f : LogFile} {x : Posting}

theorem Lands.isThere_self (h : Lands root d d' x) (safe : x.1.IsSafe)
    (opens : x.1.CanOpen root d) : x.1.IsThere root d' :=
  (LogFile.isThere_iff safe).mpr ⟨h.directories safe opens,
    ((LogFile.canOpen_iff safe).mp opens).2.1, _, h.node_of_self opens⟩

/-- Whatever is written besides, a log that is there stays there. -/
theorem Lands.isThere (h : Lands root d d' x) (safe : x.1.IsSafe) (safe' : f.IsSafe)
    (there : f.IsThere root d) : f.IsThere root d' := by
  obtain ⟨ways, fits, content, found⟩ := (LogFile.isThere_iff safe').mp there
  by_cases self : x.1.CanOpen root d ∧ x.1 = f
  · exact self.2 ▸ h.isThere_self safe self.1
  · refine (LogFile.isThere_iff safe').mpr ⟨fun p way => h.isDirectory safe (ways p way), fits, ?_⟩
    rcases h.away fun opens same => self ⟨opens, LogFile.location_injective root same.symm⟩ with
      same | ⟨absent, _⟩
    · exact ⟨content, same.trans found⟩
    · rw [found] at absent
      cases absent

theorem isThere_foldl (safe : f.IsSafe) (there : f.IsThere root d) (xs : List Posting)
    (all : ∀ x ∈ xs, x.1.IsSafe) : f.IsThere root (xs.foldl (post root) d) := by
  induction xs generalizing d with
  | nil => exact there
  | cons x xs ih =>
      obtain ⟨here, rest⟩ := List.forall_mem_cons.mp all
      rw [List.foldl_cons]
      exact ih ((post_lands root d here).isThere here safe there) rest

/-- Nothing changes but the logs that are written, and no file is there anew but these. -/
theorem away_foldl (xs : List Posting) (all : ∀ x ∈ xs, x.1.IsSafe) {q : Path}
    (off : ∀ x ∈ xs, q ≠ x.1.location root) :
    let d' := xs.foldl (post root) d
    d'.node? q = d.node? q ∨ (d.node? q = none ∧ d'.node? q = some .directory ∧
      ∃ x ∈ xs, ∃ p ∈ (x.1.folder root).ways, q <+: p) := by
  induction xs generalizing d with
  | nil => exact .inl rfl
  | cons x xs ih =>
      obtain ⟨safe, rest⟩ := List.forall_mem_cons.mp all
      obtain ⟨here, later⟩ := List.forall_mem_cons.mp off
      have first := (post_lands root d safe).away fun _ => here
      have others := ih (d := post root d x) rest later
      rw [List.foldl_cons]
      rcases first with same | ⟨absent, made, p, mem, way⟩ <;>
        rcases others with same' | ⟨absent', made', y, listed, way'⟩
      · exact .inl (same'.trans same)
      · exact .inr ⟨same ▸ absent', made', y, List.mem_cons_of_mem _ listed, way'⟩
      · exact .inr ⟨absent, same'.trans made, x, List.mem_cons_self, p, mem, way⟩
      · rw [made] at absent'
        cases absent'

end Posting

namespace Trail
variable {root : String} {now : Moment} {e : Event} {d : Disk} {f : LogFile}

/-- When the event is recorded, its line gets into this log. -/
def Appends (root : String) (now : Moment) (e : Event) (d : Disk) (f : LogFile) : Prop :=
  ∃ before after, targets now e = before ++ f :: after ∧
    (appendLine (f.path root) (Line.ofEvent now e)
      (before.foldl (fun d g => (appendLine (g.path root) (Line.ofEvent now e) d).2) d)).1 = .ok ()

/-- The lines of an event, one for each log it concerns. -/
def linesOf (now : Moment) (e : Event) (files : List LogFile) : List Posting :=
  files.map fun g => (g, Line.ofEvent now e)

theorem foldl_linesOf (root : String) (now : Moment) (e : Event) (d : Disk) (files : List LogFile) :
    (linesOf now e files).foldl (Posting.post root) d =
      files.foldl (fun d g => (appendLine (g.path root) (Line.ofEvent now e) d).2) d := by
  rw [linesOf, List.foldl_map]
  rfl

theorem record_eq (root : String) (now : Moment) (e : Event) (d : Disk) :
    record ⟨some root⟩ now e d = (linesOf now e (targets now e)).foldl (Posting.post root) d :=
  (foldl_linesOf root now e d (targets now e)).symm

theorem isSafe_of_mem_linesOf {x : Posting} {files : List LogFile} (within : files ⊆ targets now e)
    (mem : x ∈ linesOf now e files) : x.1.IsSafe := by
  obtain ⟨g, listed, rfl⟩ := List.mem_map.mp mem
  exact LogFile.isSafe_of_mem_targets (within listed)

theorem isSafe_of_mem_postings {entries : List (Moment × Event)} {x : Posting}
    (mem : x ∈ postings entries) : x.1.IsSafe := by
  obtain ⟨entry, _, posted⟩ := List.mem_flatMap.mp mem
  exact isSafe_of_mem_linesOf (List.Subset.refl _) posted

theorem Appends.mem_targets (appended : Appends root now e d f) : f ∈ targets now e := by
  obtain ⟨before, after, split, _⟩ := appended
  simp [split]

theorem Appends.isThere (appended : Appends root now e d f) (later : List (Moment × Event)) :
    f.IsThere root (recordAll ⟨some root⟩ ((now, e) :: later) d) := by
  have safe := LogFile.isSafe_of_mem_targets appended.mem_targets
  obtain ⟨before, after, split, done⟩ := appended
  have opens := LogFile.canOpen_of_appended safe done
  have behind : after ⊆ targets now e := by
    rw [split]
    simp
  rw [← foldl_linesOf] at opens
  have lines : linesOf now e (targets now e) =
      linesOf now e before ++ (f, Line.ofEvent now e) :: linesOf now e after := by
    rw [split, linesOf, List.map_append]
    rfl
  have written : f.IsThere root (record ⟨some root⟩ now e d) := by
    rw [record_eq, lines, List.foldl_append, List.foldl_cons]
    have lands := Posting.post_lands root ((linesOf now e before).foldl (Posting.post root) d)
      (x := (f, Line.ofEvent now e)) safe
    exact Posting.isThere_foldl safe (lands.isThere_self safe opens) _
      fun x => isSafe_of_mem_linesOf behind
  have all : recordAll ⟨some root⟩ ((now, e) :: later) d =
      recordAll ⟨some root⟩ later (record ⟨some root⟩ now e d) := rfl
  rw [all, recordAll_eq]
  exact Posting.isThere_foldl safe written _ fun x => isSafe_of_mem_postings

theorem find_of_isThere {kind : LogKind} {key : String} (asked : LogFile.ofRequest kind key = f)
    (there : f.IsThere root d) : find ⟨some root⟩ kind key d = .ok (f.path root) := by
  obtain ⟨content, read⟩ := there
  rw [LogFile.place] at read
  simp only [find, asked, read]

theorem find_of_not_isThere {kind : LogKind} {key : String}
    (missing : ¬ (LogFile.ofRequest kind key).IsThere root d) :
    find ⟨some root⟩ kind key d = .error .logNotFound := by
  rw [LogFile.IsThere, LogFile.place] at missing
  simp only [find]
  split
  · next content read => exact absurd ⟨content, read⟩ missing
  · rfl

end Trail

/-! ### Requests -/

theorem Moment.isDay_dayWith (m : Moment) {s t : Char} (left : s ∈ ['-', '_'])
    (right : t ∈ ['-', '_']) : Console.Command.IsDay (m.dayWith s t) m.dayKey := by
  have all : digits.all Char.isDigit = true := by decide
  have digit : ∀ n, (Moment.digit n).isDigit = true := digit_of_forall (List.all_eq_true.mp all)
  refine ⟨fourDigits m.year, twoDigits m.month, twoDigits m.day, s, t, ⟨rfl, rfl, rfl⟩, ?_,
    ⟨left, right⟩, ?_, ?_⟩
  · simp [fourDigits, twoDigits, digit]
  · simp [dayWith]
  · simp [dayKey]

/-- However the day is written, the request is for the log of the day. -/
theorem parse_dayWith (m : Moment) {s t : Char} (left : s ∈ ['-', '_']) (right : t ∈ ['-', '_'])
    {frame : String} (spelled : Console.tokens frame.toList =
      [Console.Verb.getSystemLog.text, m.dayWith s t]) :
    Console.Command.parse frame = .ok (.getLog .system m.dayKey) := by
  have reads := Console.Command.parse_reads frame
  rw [spelled] at reads
  exact reads.eq (.command rfl (.getSystemLog (m.isDay_dayWith left right)))

namespace LogFile

theorem ofRequest_dayKey (m : Moment) : ofRequest .system m.dayKey = ⟨.system, m.dayKey⟩ := by
  have digits : Moment.digits.all (fun c => isSafe c && c != '-') = true := by decide
  have plain : ∀ c ∈ m.dayKey.toList, (isSafe c && c != '-') = true :=
    m.dayKey_of_forall (List.all_eq_true.mp digits) (by decide)
  simp only [Bool.and_eq_true, bne_iff_ne] at plain
  have kept : m.dayKey.toList.map (fun c => if c = '-' then '_' else c) = m.dayKey.toList :=
    (List.map_congr_left fun c member => if_neg (plain c member).2).trans (List.map_id' _)
  rw [ofRequest, kept, String.ofList_toList, safeKey_eq_self fun c member => (plain c member).1]

/-- The personal logs that an event gets into are those of its subjects. -/
theorem mem_targets_iff_subject? {now : Moment} {e : Event} {kind : LogKind} {key : String}
    (personal : kind ≠ .system) :
    ⟨kind, key⟩ ∈ targets now e ↔ ∃ name, e.subject? kind = some name ∧ key = safeKey name := by
  rw [mem_targets_iff]
  cases kind with
  | system => exact absurd rfl personal
  | user => simp [Event.subject?, ofUser, ofDoor]
  | door => simp [Event.subject?, ofUser, ofDoor, and_left_comm, and_assoc]

/-- An event about someone is found in the log that is asked for by the name. -/
theorem ofRequest_of_subject? {now : Moment} {e : Event} {f : LogFile} {kind : LogKind}
    {name : String} (target : f ∈ targets now e) (here : f.kind = kind)
    (subject : e.subject? kind = some (Name.snakeCase name)) : ofRequest kind name = f := by
  have personal : kind ≠ .system := by
    rintro rfl
    cases subject
  obtain ⟨own, key⟩ := f
  obtain rfl : kind = own := here.symm
  obtain ⟨_, same, rfl⟩ := (mem_targets_iff_subject? personal).mp target
  obtain rfl := Option.some.inj (subject.symm.trans same)
  cases kind with
  | system => exact absurd rfl personal
  | user | door => rfl

theorem path_injective {root : String} {f g : LogFile} (safe : f.IsSafe) (safe' : g.IsSafe)
    (same : f.path root = g.path root) : f = g := by
  have places : f.place root = g.place root := congrArg FilePlace.ofText same
  rw [place_eq root safe, place_eq root safe', FilePlace.mk.injEq, Option.some.injEq] at places
  exact location_injective root (by rw [location, location, places.1, places.2])

theorem isSafe_ofRequest (kind : LogKind) (key : String) : (ofRequest kind key).IsSafe := by
  cases kind <;> exact isSafe_safeKey _ _

theorem kind_ofRequest (kind : LogKind) (key : String) : (ofRequest kind key).kind = kind := by
  cases kind <;> rfl

/-- The log is a file in the folder of its kind below the root, and its name is that of no other
place, whatever it was made from. -/
structure IsBelow (root : String) (f : LogFile) : Prop where
  safe : ∀ c ∈ f.key.toList, c.isAlphanum = true ∨ c = '_' ∨ c = '-'
  path : f.path root = Place.join (Place.join root f.kind.folder) ("Log_" ++ f.key ++ ".csv")
  place : f.place root = ⟨⟨(Place.ofText root).through,
    (Place.ofText root).path ++ [f.kind.folder]⟩, some ("Log_" ++ f.key ++ ".csv")⟩

theorem isBelow_of_isSafe (root : String) {f : LogFile} (safe : f.IsSafe) : f.IsBelow root where
  safe c member := by simpa [isSafe, or_assoc] using safe c member
  path := rfl
  place := place_eq root safe

end LogFile

namespace Trail
variable {root : String} {now : Moment} {e : Event} {d : Disk} {f : LogFile}

/-- What is read and written for whatever events and requests stays in the folders of the logs, and
nothing is handed out but a file that is there. -/
structure Confined (root : String) : Prop where
  written : ∀ now e, ∀ f ∈ targets now e, f.IsBelow root
  asked : ∀ kind key, (LogFile.ofRequest kind key).kind = kind ∧
    (LogFile.ofRequest kind key).IsBelow root
  untouched : ∀ now e d q, (∀ f ∈ targets now e, q ≠ f.location root) →
    let d' := record ⟨some root⟩ now e d
    d'.node? q = d.node? q ∨ (d.node? q = none ∧ d'.node? q = some .directory ∧
      ∃ f ∈ targets now e, ∃ p ∈ (f.folder root).ways, q <+: p)
  found : ∀ kind key d,
    let f := LogFile.ofRequest kind key
    find ⟨some root⟩ kind key d =
      if (f.folder root).isReachable d = true ∧ d.isFile (f.location root) = true
      then .ok (f.path root) else .error .logNotFound

theorem untouched_record (root : String) (now : Moment) (e : Event) (d : Disk) (q : Path)
    (off : ∀ f ∈ targets now e, q ≠ f.location root) :
    let d' := record ⟨some root⟩ now e d
    d'.node? q = d.node? q ∨ (d.node? q = none ∧ d'.node? q = some .directory ∧
      ∃ f ∈ targets now e, ∃ p ∈ (f.folder root).ways, q <+: p) := by
  have off' : ∀ x ∈ linesOf now e (targets now e), q ≠ x.1.location root :=
    List.forall_mem_map.mpr off
  have away := Posting.away_foldl (d := d) _
    (fun _ => isSafe_of_mem_linesOf (List.Subset.refl _)) off'
  rw [← record_eq] at away
  refine away.imp_right fun ⟨absent, made, x, listed, p, mem, way⟩ => ?_
  obtain ⟨f, target, rfl⟩ := List.mem_map.mp listed
  exact ⟨absent, made, f, target, p, mem, way⟩

theorem find_eq (root : String) (kind : LogKind) (key : String) (d : Disk) :
    let f := LogFile.ofRequest kind key
    find ⟨some root⟩ kind key d =
      if (f.folder root).isReachable d = true ∧ d.isFile (f.location root) = true
      then .ok (f.path root) else .error .logNotFound := by
  intro f
  have there : f.IsThere root d ↔ _ :=
    LogFile.isThere_iff_isFile (LogFile.isSafe_ofRequest kind key)
  split
  · next file => exact find_of_isThere rfl (there.mpr file)
  · next none => exact find_of_not_isThere fun found => none (there.mp found)

theorem confined (root : String) : Confined root where
  written _ _ _ target := LogFile.isBelow_of_isSafe root (LogFile.isSafe_of_mem_targets target)
  asked kind key := ⟨LogFile.kind_ofRequest kind key,
    LogFile.isBelow_of_isSafe root (LogFile.isSafe_ofRequest kind key)⟩
  untouched := untouched_record root
  found := find_eq root

theorem find_subject {kind : LogKind} {name : String} (appended : Appends root now e d f)
    (later : List (Moment × Event)) (subject : e.subject? kind = some (Name.snakeCase name))
    (here : f.kind = kind) :
    find ⟨some root⟩ kind name (recordAll ⟨some root⟩ ((now, e) :: later) d) = .ok (f.path root) :=
  find_of_isThere (LogFile.ofRequest_of_subject? appended.mem_targets here subject)
    (appended.isThere later)

theorem find_day (appended : Appends root now e d f) (later : List (Moment × Event))
    (here : f.kind = .system) : find ⟨some root⟩ .system now.dayKey
      (recordAll ⟨some root⟩ ((now, e) :: later) d) = .ok (f.path root) := by
  refine find_of_isThere ?_ (appended.isThere later)
  rw [LogFile.ofRequest_dayKey]
  rcases LogFile.mem_targets_iff.mp appended.mem_targets with
    rfl | ⟨_, _, rfl⟩ | ⟨_, _, _, rfl⟩
  · rfl
  · cases here
  · cases here

end Trail

theorem LogFile.path_ne_of_isName (root : String) {kind : LogKind} {n m : String}
    (personal : kind ≠ .system) (named : Console.Command.IsName n)
    (named' : Console.Command.IsName m) (apart : Name.snakeCase n ≠ Name.snakeCase m) :
    (ofRequest kind n).path root ≠ (ofRequest kind m).path root := by
  intro same
  have files := path_injective (isSafe_ofRequest kind n) (isSafe_ofRequest kind m) same
  have key {name : String} (named : Console.Command.IsName name) :
      (ofRequest kind name).key = Name.snakeCase name := by
    have kept := safeKey_of_isName (Console.Command.isName_snakeCase named)
    cases kind with
    | system => exact absurd rfl personal
    | user | door => exact kept
  exact apart ((key named).symm.trans ((congrArg LogFile.key files).trans (key named')))

/-- A line that got into the log of a user or of a registered door is found by whoever asks for the
name in any spelling with the same canonical form, and one in the log of a day by whoever asks for
the day with either separator, whatever else has been recorded since; names of commands with
different canonical forms have different logs. Whatever the names in events and requests are,
nothing outside the folders of the logs is written or handed out. -/
theorem requests_find_what_was_recorded (root : String) :
    (∀ now e d f, Trail.Appends root now e d f → ∀ later : List (Moment × Event),
      let d' := Trail.recordAll ⟨some root⟩ ((now, e) :: later) d
      (∀ kind n m, e.subject? kind = some (Name.snakeCase n) → f.kind = kind →
        Name.snakeCase m = Name.snakeCase n →
          Trail.find ⟨some root⟩ kind m d' = .ok (f.path root)) ∧
      (f.kind = .system → ∀ s ∈ ['-', '_'], ∀ t ∈ ['-', '_'], ∀ frame : String,
        Console.tokens frame.toList = [Console.Verb.getSystemLog.text, now.dayWith s t] →
          ∃ key, Console.Command.parse frame = .ok (.getLog .system key) ∧
            Trail.find ⟨some root⟩ .system key d' = .ok (f.path root))) ∧
    (∀ kind n m, kind ≠ .system → Console.Command.IsName n → Console.Command.IsName m →
      Name.snakeCase n ≠ Name.snakeCase m →
        (LogFile.ofRequest kind n).path root ≠ (LogFile.ofRequest kind m).path root) ∧
    Trail.Confined root := by
  refine ⟨fun now e d f appended later => ⟨fun kind n m subject here same => ?_,
    fun here s left t right frame spelled => ?_⟩,
    fun kind n m => LogFile.path_ne_of_isName root, Trail.confined root⟩
  · exact Trail.find_subject appended later (same ▸ subject) here
  · exact ⟨_, parse_dayWith now left right spelled, Trail.find_day appended later here⟩

/-- A user and a day, asked for otherwise than they are written, after one more event. -/
theorem requests_find_ann_lea :
    let now : Moment := ⟨2024, 1, 2, 3, 4⟩
    let e : Event := ⟨some "hall", true, some "ann_lea", "7", "approved"⟩
    let later : List (Moment × Event) := [(now, ⟨some "../x", false, none, "9", "unknown_door"⟩)]
    let d := Trail.recordAll ⟨some "logs"⟩ ((now, e) :: later) .empty
    Trail.Appends "logs" now e .empty (.ofUser "ann_lea") ∧
      Trail.find ⟨some "logs"⟩ .user "AnnLea" d = .ok "logs/userLogs/Log_ann_lea.csv" ∧
      Console.Command.parse "getSystemLog 2024-01_02" = .ok (.getLog .system "2024_01_02") ∧
      Trail.find ⟨some "logs"⟩ .system "2024_01_02" d =
        .ok "logs/systemLogs/Log_2024_01_02.csv" := by
  intro now e later d
  obtain ⟨found, -, -⟩ := requests_find_what_was_recorded "logs"
  have user : Trail.Appends "logs" now e .empty (.ofUser "ann_lea") :=
    ⟨[⟨.system, now.dayKey⟩], [.ofDoor "hall"], by decide, by decide +kernel⟩
  have day : Trail.Appends "logs" now e .empty ⟨.system, now.dayKey⟩ :=
    ⟨[], [.ofUser "ann_lea", .ofDoor "hall"], by decide, by decide +kernel⟩
  have named : Name.snakeCase "AnnLea" = Name.snakeCase "ann_lea" := by decide
  have log : LogFile.path "logs" ⟨.system, now.dayKey⟩ = "logs/systemLogs/Log_2024_01_02.csv" := by
    decide +kernel
  obtain ⟨key, parsed, there⟩ := (found now e _ _ day later).2 rfl '-' (by decide) '_' (by decide)
    "getSystemLog 2024-01_02" (by decide +kernel)
  have keyed : Console.Command.parse "getSystemLog 2024-01_02" =
      .ok (.getLog .system "2024_01_02") := by decide +kernel
  cases keyed.symm.trans parsed
  rw [log] at there
  exact ⟨user, (found now e _ _ user later).1 .user "ann_lea" "AnnLea" rfl rfl named, keyed, there⟩

end Audit

end DoorAccess
