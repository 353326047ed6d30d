import DoorAccess.Proofs.Audit.LogFile
import Mathlib.Data.List.Nodup

/-!
What stands in the logs after any events. A log that can be opened is written once for each event
that concerns it, in their order and below one header; what is in the way of another is left alone
and keeps no log from being written.
-/
namespace DoorAccess.Audit

/-- What a file holds; what is no file holds nothing. -/
def contentAt (d : Disk) (p : Path) : Bytes :=
  match d.node? p with
  | some (.file content) => content
  | _ => []

theorem contentAt_of_grown {paths : List Path} {d d' : Disk} (h : Disk.Grown paths d d') (p : Path) :
    contentAt d' p = contentAt d p := by
  rcases h p with same | ⟨absent, made, _⟩
  · rw [contentAt, same, contentAt]
  · rw [contentAt, made, contentAt, absent]

/-- A line that is to be added to a log. -/
abbrev Posting := LogFile × List Char

namespace Posting

def post (root : String) (d : Disk) (x : Posting) : Disk :=
  (Trail.appendLine (x.1.path root) x.2 d).2

/-- What a log holds with one more line, which gets the header above it if the log is empty. -/
def extended (d : Disk) (p : Path) (line : List Char) : Bytes :=
  contentAt d p ++ Text.Utf8.encode (if contentAt d p = [] then Line.header ++ line else line)

variable {root : String} {d : Disk} {f : LogFile}

/-- A line for a log that cannot be opened makes directories at most. -/
theorem post_of_not_canOpen (safe : f.IsSafe) (line : List Char) (closed : ¬ f.CanOpen root d) :
    Disk.Grown (f.folder root).ways d (post root d (f, line)) := by
  have eq : FilePlace.ofText (f.path root) = ⟨f.folder root, some f.name⟩ :=
    LogFile.place_eq root safe
  rw [LogFile.CanOpen, FilePlace.CanOpen, LogFile.place, eq] at closed
  have grown : Disk.Grown (f.folder root).ways d ((f.folder root).make d).2 := Place.make_grown _ d
  have parent := @Place.make_isDirectory (f.folder root) d
  simp only [post, Trail.appendLine, eq, FilePlace.path?, Option.map_some, Option.getD_some]
  split
  · next makes => rwa [makes] at grown
  · next made makes =>
      rw [makes] at grown parent
      have stuck (opened : Disk) : made.create ((f.folder root).path ++ [f.name]) ≠ .ok opened :=
        fun creates => closed ⟨made, _, opened, makes, rfl, creates⟩
      have unread (content : Bytes) :
          made.read ((f.folder root).path ++ [f.name]) ≠ .ok content := by
        intro found
        exact stuck _ (by rw [Disk.create, Disk.read_eq_ok.mp found])
      split
      · next found => exact absurd found (unread [])
      · next content _ found => exact absurd found (unread content)
      · next lost =>
          have above := parent rfl (f.folder root).path (by simp [Place.ways])
          obtain ⟨fits, absent⟩ := Disk.absent_of_stat (Disk.read_eq_notFound.mp lost) above
          exact absurd (Disk.create_of_parent ⟨above, fits⟩ (by simp [absent])) (stuck _)
      · exact grown

theorem post_of_canOpen (safe : f.IsSafe) (line : List Char) (opens : f.CanOpen root d) :
    ∃ made : Disk, Disk.Grown (f.folder root).ways d made ∧
      (∀ p ∈ (f.folder root).ways, made.isDirectory p = true) ∧
      ∀ q, (post root d (f, line)).node? q = if q = f.location root then
        some (.file (extended d (f.location root) line)) else made.node? q := by
  have eq : FilePlace.ofText (f.path root) = ⟨f.folder root, some f.name⟩ :=
    LogFile.place_eq root safe
  rw [LogFile.CanOpen, FilePlace.CanOpen, LogFile.place, eq] at opens
  obtain ⟨made, _, opened, makes, ⟨⟩, creates⟩ := opens
  have grown : Disk.Grown (f.folder root).ways d made := by
    have grown := Place.make_grown (f.folder root) d
    rwa [makes] at grown
  obtain ⟨_, parent, free⟩ := Disk.create_eq_ok creates
  refine ⟨made, grown, ?_, ?_⟩
  · have directories := @Place.make_isDirectory (f.folder root) d
    rw [makes] at directories
    exact directories rfl
  intro q
  simp only [post, Trail.appendLine, eq, makes, FilePlace.path?, Option.map_some, Option.getD_some,
    extended, ← contentAt_of_grown grown]
  rw [show f.location root = (f.folder root).path ++ [f.name] from rfl]
  cases found : made.node? ((f.folder root).path ++ [f.name]) with
  | none =>
      simp only [Disk.read_eq_notFound.mpr (Disk.stat_of_absent parent found)]
      rw [Disk.node?_performAll_create_append parent found]
      simp [contentAt, found]
  | some n =>
      cases n with
      | directory => exact absurd found free
      | file content =>
          have read := Disk.read_eq_ok.mpr (Disk.stat_of_node? parent found)
          cases content <;> simp only [read] <;>
            rw [Disk.node?_performAll_append parent found] <;> simp [contentAt, found]

theorem canOpen_of_grown {d' : Disk} {g : LogFile} (safe : f.IsSafe)
    (h : Disk.Grown (g.folder root).ways d d') : f.CanOpen root d' ↔ f.CanOpen root d := by
  rw [LogFile.canOpen_iff safe, LogFile.canOpen_iff safe]
  simp only [h.passable_iff]
  refine and_congr_right fun _ => and_congr_right fun _ => and_congr_left fun free => not_congr ?_
  rcases h (f.location root) with same | ⟨_, _, p, mem, way⟩
  · rw [same]
  · exact absurd way (LogFile.not_prefix_ways g free p mem)

/-- A log that is written stands in no other log's way. -/
theorem canOpen_of_written {d' : Disk} {g : LogFile} {content : Bytes} (safe : f.IsSafe)
    (safe' : g.IsSafe) (opens : g.CanOpen root d)
    (h : ∀ q, d'.node? q = if q = g.location root then some (.file content) else d.node? q) :
    f.CanOpen root d' ↔ f.CanOpen root d := by
  obtain ⟨_, _, free, apart⟩ := (LogFile.canOpen_iff safe').mp opens
  have passable (p : Path) (mem : p ∈ (f.folder root).ways) : d'.Passable p ↔ d.Passable p := by
    have same (q : Path) (way : q <+: p) : d'.node? q = d.node? q := by
      rw [h q, if_neg]
      rintro rfl
      exact LogFile.not_prefix_ways f apart p mem way
    exact ⟨fun ⟨noFile, fits⟩ => ⟨fun q way => same q way ▸ noFile q way, fits⟩,
      fun ⟨noFile, fits⟩ => ⟨fun q way => same q way ▸ noFile q way, fits⟩⟩
  rw [LogFile.canOpen_iff safe, LogFile.canOpen_iff safe]
  refine and_congr (forall₂_congr passable) (and_congr_right fun _ => and_congr_left fun _ =>
    not_congr ?_)
  rw [h]
  split
  · next here => simp [here, free]
  · rfl

/-- What a line does to the disk: its log gets it if it can be opened, and otherwise directories are
added at most. -/
inductive Lands (root : String) (d d' : Disk) (x : Posting) : Prop
  | written (opens : x.1.CanOpen root d) (made : Disk)
      (grown : Disk.Grown (x.1.folder root).ways d made)
      (directories : ∀ p ∈ (x.1.folder root).ways, made.isDirectory p = true)
      (node : ∀ q, d'.node? q = if q = x.1.location root then
        some (.file (extended d (x.1.location root) x.2)) else made.node? q)
  | passedOver (closed : ¬ x.1.CanOpen root d) (grown : Disk.Grown (x.1.folder root).ways d d')

theorem post_lands (root : String) (d : Disk) {x : Posting} (safe : x.1.IsSafe) :
    Lands root d (post root d x) x := by
  by_cases opens : x.1.CanOpen root d
  · obtain ⟨made, grown, directories, node⟩ := post_of_canOpen safe x.2 opens
    exact .written opens made grown directories node
  · exact .passedOver opens (post_of_not_canOpen safe x.2 opens)

namespace Lands
variable {d' : Disk} {x : Posting}

theorem canOpen_iff (h : Lands root d d' x) (safe : x.1.IsSafe) (f : LogFile) (safe' : f.IsSafe) :
    f.CanOpen root d' ↔ f.CanOpen root d := by
  cases h with
  | passedOver closed grown => exact canOpen_of_grown safe' grown
  | written opens made grown directories node =>
      have still := (canOpen_of_grown safe grown).mpr opens
      rw [← canOpen_of_grown (g := x.1) safe' grown]
      exact canOpen_of_written safe' safe still node

/-- Away from the log that is written, directories are added at most. -/
theorem away (h : Lands root d d' x) {q : Path}
    (off : x.1.CanOpen root d → q ≠ x.1.location root) :
    d'.node? q = d.node? q ∨ (d.node? q = none ∧ d'.node? q = some .directory ∧
      ∃ p ∈ (x.1.folder root).ways, q <+: p) := by
  cases h with
  | passedOver closed grown => exact grown q
  | written opens made grown directories node =>
      rw [node q, if_neg (off opens)]
      exact grown q

theorem node_of_other (h : Lands root d d' x) {f : LogFile} (safe : f.IsSafe)
    (opens : f.CanOpen root d) (other : x.1 ≠ f) :
    d'.node? (f.location root) = d.node? (f.location root) := by
  obtain ⟨_, _, _, free⟩ := (LogFile.canOpen_iff safe).mp opens
  rcases h.away fun _ same => other (LogFile.location_injective root same.symm) with
    same | ⟨_, _, p, mem, way⟩
  · exact same
  · exact absurd way (LogFile.not_prefix_ways x.1 free p mem)

theorem node_of_self (h : Lands root d d' x) (opens : x.1.CanOpen root d) :
    d'.node? (x.1.location root) = some (.file (extended d (x.1.location root) x.2)) := by
  cases h with
  | passedOver closed => exact absurd opens closed
  | written opens made grown directories node => rw [node, if_pos rfl]

theorem directories (h : Lands root d d' x) (safe : x.1.IsSafe) (opens : x.1.CanOpen root d) :
    ∀ p ∈ (x.1.folder root).ways, d'.isDirectory p = true := by
  intro p mem
  obtain ⟨_, _, _, free⟩ := (LogFile.canOpen_iff safe).mp opens
  cases h with
  | passedOver closed => exact absurd opens closed
  | written opens made grown directories node =>
      obtain ⟨nodes, fits⟩ := (Disk.isDirectory_iff made p).mp (directories p mem)
      refine (Disk.isDirectory_iff d' p).mpr ⟨fun q way => ?_, fits⟩
      rw [node q, if_neg]
      · exact nodes q way
      · rintro rfl
        exact free p mem way

theorem isDirectory (h : Lands root d d' x) (safe : x.1.IsSafe) {p : Path}
    (found : d.isDirectory p = true) : d'.isDirectory p = true := by
  obtain ⟨nodes, fits⟩ := (Disk.isDirectory_iff d p).mp found
  refine (Disk.isDirectory_iff d' p).mpr ⟨fun q way => ?_, fits⟩
  have off : x.1.CanOpen root d → q ≠ x.1.location root := by
    rintro opens rfl
    exact ((LogFile.canOpen_iff safe).mp opens).2.2.1 (nodes _ way)
  rcases h.away off with same | ⟨absent, _⟩
  · rw [same, nodes q way]
  · rw [nodes q way] at absent
    cases absent

end Lands

/-- The lines for one log, in their order. -/
def linesTo (f : LogFile) (xs : List Posting) : List (List Char) :=
  (xs.filter (·.1 = f)).map (·.2)

theorem linesTo_concat_self (xs : List Posting) (x : Posting) :
    linesTo x.1 (xs ++ [x]) = linesTo x.1 xs ++ [x.2] := by
  simp [linesTo]

theorem linesTo_concat_other {x : Posting} {f : LogFile} (other : x.1 ≠ f) (xs : List Posting) :
    linesTo f (xs ++ [x]) = linesTo f xs := by
  simp [linesTo, other]

/-- What a log consists of: nothing without a line. -/
def written? (lines : List (List Char)) : Option Node :=
  if lines = [] then none else some (.file (Text.Utf8.encode (Line.header ++ lines.flatten)))

/-- What the lines so far have done to the disk. -/
structure Kept (root : String) (d d' : Disk) (xs : List Posting) : Prop where
  opens : ∀ f : LogFile, f.IsSafe → (f.CanOpen root d' ↔ f.CanOpen root d)
  log : ∀ f : LogFile, f.IsSafe → f.CanOpen root d →
    d'.node? (f.location root) = written? (linesTo f xs)
  directories : ∀ f : LogFile, f.IsSafe → f.CanOpen root d → linesTo f xs ≠ [] →
    ∀ p ∈ (f.folder root).ways, d'.isDirectory p = true
  others : ∀ q, (∀ f : LogFile, f.IsSafe → f.CanOpen root d → q ≠ f.location root) →
    (∀ n, d.node? q = some n → d'.node? q = some n) ∧
      ∀ content, d'.node? q = some (.file content) → d.node? q = some (.file content)

theorem kept_nil (absent : ∀ f : LogFile, f.IsSafe → f.CanOpen root d →
    d.node? (f.location root) = none) : Kept root d d [] where
  opens _ _ := Iff.rfl
  log := absent
  directories _ _ _ some := absurd rfl some
  others _ _ := ⟨fun _ => id, fun _ => id⟩

theorem encode_append (cs cs' : List Char) :
    Text.Utf8.encode (cs ++ cs') = Text.Utf8.encode cs ++ Text.Utf8.encode cs' :=
  List.flatMap_append

/-- A log is never left empty, so it has its header once. -/
theorem extended_written {lines : List (List Char)} {p : Path} (h : d.node? p = written? lines)
    (line : List Char) : some (.file (extended d p line)) = written? (lines ++ [line]) := by
  by_cases none : lines = []
  · subst none
    simp [extended, contentAt, h, written?]
  · have some : Text.Utf8.encode (Line.header ++ lines.flatten) ≠ [] := by
      rw [encode_append]
      exact List.append_ne_nil_of_left_ne_nil (by decide) _
    have before : contentAt d p = Text.Utf8.encode (Line.header ++ lines.flatten) := by
      simp only [contentAt, h, written?, none, if_false]
    rw [extended, before, if_neg some, ← encode_append]
    simp [written?]

theorem Kept.post {d' : Disk} {xs : List Posting} (kept : Kept root d d' xs) {x : Posting}
    (safe : x.1.IsSafe) : Kept root d (post root d' x) (xs ++ [x]) := by
  have lands := post_lands root d' safe
  generalize Posting.post root d' x = d₁ at lands
  refine ⟨fun f safe' => ?_, fun f safe' opens => ?_, fun f safe' opens some => ?_, fun q off => ?_⟩
  · exact (lands.canOpen_iff safe f safe').trans (kept.opens f safe')
  · have opens' := (kept.opens f safe').mpr opens
    by_cases self : x.1 = f
    · subst self
      rw [lands.node_of_self opens', linesTo_concat_self]
      exact extended_written (kept.log x.1 safe' opens) x.2
    · rw [lands.node_of_other safe' opens' self, linesTo_concat_other self]
      exact kept.log f safe' opens
  · have opens' := (kept.opens f safe').mpr opens
    by_cases self : x.1 = f
    · subst self
      exact lands.directories safe opens'
    · rw [linesTo_concat_other self] at some
      exact fun p mem => lands.isDirectory safe (kept.directories f safe' opens some p mem)
  · obtain ⟨stays, comes⟩ := kept.others q off
    have away := lands.away fun opens => off x.1 safe ((kept.opens x.1 safe).mp opens)
    refine ⟨fun n found => ?_, fun content found => comes content ?_⟩
    · rcases away with same | ⟨absent, _⟩
      · rw [same, stays n found]
      · rw [stays n found] at absent
        cases absent
    · rcases away with same | ⟨_, made, _⟩
      · rw [← same, found]
      · rw [made] at found
        cases found

theorem kept_foldl (absent : ∀ f : LogFile, f.IsSafe → f.CanOpen root d →
    d.node? (f.location root) = none) (xs : List Posting) (safe : ∀ x ∈ xs, x.1.IsSafe) :
    Kept root d (xs.foldl (post root) d) xs := by
  induction xs using List.reverseRecOn with
  | nil => exact kept_nil absent
  | append_singleton xs x ih =>
      rw [List.foldl_append]
      exact (ih fun y mem => safe y (List.mem_append_left _ mem)).post (safe x (by simp))

theorem read_of_kept {d' : Disk} {xs : List Posting} (kept : Kept root d d' xs) (safe : f.IsSafe)
    (opens : f.CanOpen root d) : (f.place root).read d' = if linesTo f xs = [] then .error .notFound
      else .ok (Text.Utf8.encode (Line.header ++ (linesTo f xs).flatten)) := by
  obtain ⟨passable, fits, _⟩ := (LogFile.canOpen_iff safe).mp ((kept.opens f safe).mpr opens)
  have node := kept.log f safe opens
  rw [LogFile.location] at node
  rw [LogFile.place_eq root safe]
  simp only [FilePlace.read, FilePlace.path?, Option.map_some]
  by_cases none : linesTo f xs = []
  · have absent : d'.node? ((f.folder root).path ++ [f.name]) = Option.none := by
      rw [node, written?, if_pos none]
    have lost : d'.read ((f.folder root).path ++ [f.name]) = .error .notFound := by
      rw [Disk.read_eq_notFound, Disk.stat_concat]
      rcases Disk.stat_of_passable (passable (f.folder root).path (by simp [Place.ways])) with
        found | lost
      · simp [found, fits, absent]
      · simp [lost]
    simp [lost, none]
  · have directories := kept.directories f safe opens none
    have parent := directories (f.folder root).path (by simp [Place.ways])
    have reachable : (f.folder root).isReachable d' = true :=
      List.all_eq_true.mpr fun p mem => directories p (List.mem_append_left _ mem)
    rw [written?, if_neg none] at node
    rw [if_pos reachable, if_neg none]
    exact Disk.read_eq_ok.mpr (Disk.stat_of_node? ⟨parent, fits⟩ node)

end Posting

/-! ### Recording events -/

/-- The lines of the events that concern the log. -/
def LogFile.lines (entries : List (Moment × Event)) (f : LogFile) : List (List Char) :=
  (entries.filter fun (now, e) => f ∈ targets now e).map fun (now, e) => Line.ofEvent now e

namespace Trail

def recordAll (t : Trail) (entries : List (Moment × Event)) (d : Disk) : Disk :=
  entries.foldl (fun d (now, e) => t.record now e d) d

/-- The lines that events are written as, one for each log they concern. -/
def postings (entries : List (Moment × Event)) : List Posting :=
  entries.flatMap fun (now, e) => (targets now e).map fun f => (f, Line.ofEvent now e)

theorem recordAll_eq (root : String) (entries : List (Moment × Event)) (d : Disk) :
    recordAll ⟨some root⟩ entries d = (postings entries).foldl (Posting.post root) d := by
  induction entries generalizing d with
  | nil => rfl
  | cons entry entries ih =>
      have step : Trail.record ⟨some root⟩ entry.1 entry.2 d =
          (((targets entry.1 entry.2).map fun f => (f, Line.ofEvent entry.1 entry.2)).foldl
            (Posting.post root) d) := by
        rw [List.foldl_map]
        rfl
      rw [recordAll, List.foldl_cons, postings, List.flatMap_cons, List.foldl_append, ← step]
      exact ih _

theorem nodup_targets (now : Moment) (e : Event) : (targets now e).Nodup := by
  rcases e with ⟨_ | door, _ | _, _ | user, _, _⟩ <;>
    simp [targets, LogFile.ofUser, LogFile.ofDoor]

theorem linesTo_targets (now : Moment) (e : Event) (line : List Char) (f : LogFile) :
    Posting.linesTo f ((targets now e).map fun g => (g, line)) =
      if f ∈ targets now e then [line] else [] := by
  have once : (targets now e).filter (fun g => decide (g = f)) =
      if f ∈ targets now e then [f] else [] := by
    simp only [← beq_eq_decide, List.filter_beq]
    split
    · next mem => rw [List.count_eq_one_of_mem (nodup_targets now e) mem, List.replicate_one]
    · next foreign => rw [List.count_eq_zero.mpr foreign, List.replicate_zero]
  rw [Posting.linesTo, List.filter_map, List.map_map]
  change ((targets now e).filter fun g => decide (g = f)).map (fun _ => line) = _
  rw [once]
  split <;> rfl

theorem linesTo_postings (entries : List (Moment × Event)) (f : LogFile) :
    Posting.linesTo f (postings entries) = f.lines entries := by
  induction entries with
  | nil => rfl
  | cons entry entries ih =>
      have here := linesTo_targets entry.1 entry.2 (Line.ofEvent entry.1 entry.2) f
      simp only [Posting.linesTo] at here ih
      simp only [postings, List.flatMap_cons, Posting.linesTo, List.filter_append, List.map_append,
        here]
      rw [← postings, ih]
      by_cases concerned : f ∈ targets entry.1 entry.2 <;> simp [LogFile.lines, concerned]

/-- What the logs of a folder hold after some events, and what else has become of the disk. -/
structure Tells (root : String) (d d' : Disk) (entries : List (Moment × Event)) : Prop where
  opened : ∀ f : LogFile, f.IsSafe → f.CanOpen root d → (f.place root).read d' =
    if f.lines entries = [] then .error .notFound
    else .ok (Text.Utf8.encode (Line.header ++ (f.lines entries).flatten))
  closed : ∀ f : LogFile, f.IsSafe → ¬ f.CanOpen root d →
    ∀ content, (f.place root).read d' ≠ .ok content
  steady : ∀ f : LogFile, f.IsSafe → (f.CanOpen root d' ↔ f.CanOpen root d)
  stays : ∀ p n, d.node? p = some n → d'.node? p = some n
  /-- There are no new files but the logs. -/
  comes : ∀ p content, d'.node? p = some (.file content) → d.node? p = some (.file content) ∨
    ∃ f : LogFile, f.CanOpen root d ∧ f.lines entries ≠ [] ∧ p = f.location root

theorem tells_recordAll (root : String) (d : Disk) (entries : List (Moment × Event))
    (fresh : ∀ f : LogFile, f.IsSafe → ∀ content, d.node? (f.location root) ≠ some (.file content)) :
    Tells root d (recordAll ⟨some root⟩ entries d) entries := by
  have absent (f : LogFile) (safe : f.IsSafe) (opens : f.CanOpen root d) :
      d.node? (f.location root) = none := by
    cases found : d.node? (f.location root) with
    | none => rfl
    | some n =>
        cases n with
        | file content => exact absurd found (fresh f safe content)
        | directory => exact absurd found ((LogFile.canOpen_iff safe).mp opens).2.2.1
  have safe (x : Posting) (mem : x ∈ postings entries) : x.1.IsSafe := by
    obtain ⟨entry, _, posted⟩ := List.mem_flatMap.mp mem
    obtain ⟨f, target, rfl⟩ := List.mem_map.mp posted
    exact LogFile.isSafe_of_mem_targets target
  have kept := Posting.kept_foldl absent (postings entries) safe
  rw [recordAll_eq]
  generalize (postings entries).foldl (Posting.post root) d = d' at kept
  -- Every path is that of an openable log, where there was nothing, or of none.
  have cover (p : Path) : (∃ f : LogFile, f.IsSafe ∧ f.CanOpen root d ∧ p = f.location root) ∨
      ∀ f : LogFile, f.IsSafe → f.CanOpen root d → p ≠ f.location root := by
    by_cases log : ∃ f : LogFile, f.IsSafe ∧ f.CanOpen root d ∧ p = f.location root
    · exact .inl log
    · exact .inr fun f safe opens here => log ⟨f, safe, opens, here⟩
  refine ⟨fun f safe opens => ?_, fun f safe closed content found => ?_, kept.opens,
    fun p n found => ?_, fun p content found => ?_⟩
  · rw [Posting.read_of_kept kept safe opens, linesTo_postings]
  · rw [LogFile.place_eq root safe] at found
    simp only [FilePlace.read, FilePlace.path?, Option.map_some] at found
    split at found
    · have file := Disk.node?_of_stat (Disk.read_eq_ok.mp found)
      refine fresh f safe content ((kept.others _ fun g _ opens here => ?_).2 content file)
      cases LogFile.location_injective root here
      exact closed opens
    · cases found
  · rcases cover p with ⟨f, safe, opens, rfl⟩ | other
    · rw [absent f safe opens] at found
      cases found
    · exact (kept.others p other).1 n found
  · rcases cover p with ⟨f, safe, opens, rfl⟩ | other
    · refine .inr ⟨f, opens, fun none => ?_, rfl⟩
      rw [kept.log f safe opens, linesTo_postings, none] at found
      cases found
    · exact .inl ((kept.others p other).2 content found)

/-- Whatever events are recorded at whatever times, and whatever is on the disk besides logs: a log
that can be opened has the line of each event that concerns it, once and in their order, below one
header, and is missing if there is none. What stands in the way of a log stays as it is, and so do
the other logs. Every line has six columns, whatever the fields are. -/
theorem logs_tell_events (root : String) (d : Disk) (entries : List (Moment × Event))
    (fresh : ∀ f : LogFile, f.IsSafe → ∀ content, d.node? (f.location root) ≠ some (.file content)) :
    Tells root d (recordAll ⟨some root⟩ entries d) entries ∧
    (∀ f : LogFile, f.IsSafe → Disk.maxNameLength < f.name.utf8ByteSize ∨
      d.node? (f.location root) = some .directory → ¬ f.CanOpen root d) ∧
    (∀ now e f, f ∈ targets now e ↔ f = ⟨.system, now.dayKey⟩ ∨
      (∃ name, e.user = some name ∧ f = .ofUser name) ∨
      ∃ name, e.door = some name ∧ e.isRegistered = true ∧ f = .ofDoor name) ∧
    (∀ now e, ∀ f ∈ targets now e, f.IsSafe) ∧
    (∀ now e, Line.IsRow (Line.ofEvent now e) [now.date.toList, now.time.toList,
      Line.column (e.door.getD "-"), Line.column (e.user.getD "-"), Line.column e.credential,
      Line.column e.access]) ∧
    Line.IsRow Line.header
      (["Date", "Time", "Door", "Name", "UserID", "Access"].map String.toList) := by
  refine ⟨tells_recordAll root d entries fresh, fun f safe obstacle opens => ?_,
    fun now e f => LogFile.mem_targets_iff, fun now e f => LogFile.isSafe_of_mem_targets,
    Line.isRow_ofEvent, Line.isRow_header⟩
  obtain ⟨_, fits, free, _⟩ := (LogFile.canOpen_iff safe).mp opens
  rcases obstacle with long | directory
  · exact absurd (of_decide_eq_true fits) (Nat.not_le.mpr long)
  · exact free directory

/-- A directory stands where the log of a user would be. -/
def obstructed : Disk :=
  ((Disk.empty.set ["logs"] .directory).set ["logs", "userLogs"] .directory).set
    ["logs", "userLogs", "Log_ann.csv"] .directory

/-- Two events of one day, at a door that there is and at one that there is not. -/
theorem logs_tell_events_past_obstacle :
    let entries : List (Moment × Event) :=
      [(⟨2024, 1, 2, 3, 4⟩, ⟨some "hall", true, some "ann", "7", "approved"⟩),
        (⟨2024, 1, 2, 3, 5⟩, ⟨some "a;b", false, none, "7", "unknown_door"⟩)]
    (∀ f : LogFile, f.IsSafe → ∀ content,
      obstructed.node? (f.location "logs") ≠ some (.file content)) ∧
    Tells "logs" obstructed (recordAll ⟨some "logs"⟩ entries obstructed) entries ∧
    ¬ (LogFile.ofUser "ann").CanOpen "logs" obstructed := by
  intro entries
  have fresh (f : LogFile) (_ : f.IsSafe) (content : Bytes) :
      obstructed.node? (f.location "logs") ≠ some (.file content) := by
    simp only [obstructed, Disk.node?_set _ (List.cons_ne_nil _ _)]
    repeat' split
    all_goals simp [Disk.node?, Disk.empty, LogFile.location]
  obtain ⟨tells, obstacle, _⟩ := logs_tell_events "logs" obstructed entries fresh
  exact ⟨fresh, tells, obstacle _ (LogFile.isSafe_safeKey .user "ann") (.inr (by decide +kernel))⟩

example :
    let d := recordAll ⟨some "logs"⟩
      [(⟨2024, 1, 2, 3, 4⟩, ⟨some "hall", true, some "ann", "7", "approved"⟩),
        (⟨2024, 1, 2, 3, 5⟩, ⟨some "a;b", false, none, "7", "unknown_door"⟩)] obstructed
    (LogFile.place "logs" ⟨.system, "2024_01_02"⟩).read d =
        .ok (bytesOf ("Date;Time;Door;Name;UserID;Access\n" ++
          "02/01/2024;03:04;hall;ann;7;approved\n" ++ "02/01/2024;03:05;a_b;-;7;unknown_door\n")) ∧
      ((LogFile.ofUser "ann").place "logs").read d = .error .isADirectory := by
  decide +kernel

end Trail

end DoorAccess.Audit
