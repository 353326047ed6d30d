import DoorAccess.Audit.Trail
import DoorAccess.Proofs.Audit.Line
import DoorAccess.Proofs.Store.Directories
import DoorAccess.Proofs.Store.Path

/-!
Where the logs stand on the disk. An event gives safe keys only, so every log stands in the folder of
its kind under a name of its own; it can be opened when nothing is in its way, and no log stands on
the way to another.
-/
namespace DoorAccess.Audit

theorem LogKind.folder_injective {kind kind' : LogKind} (same : kind.folder = kind'.folder) :
    kind = kind' := by
  cases kind <;> cases kind' <;> first | rfl | exact absurd same (by decide)

namespace LogFile

/-- Whether the key is one that events give: all its characters are safe. -/
def IsSafe (f : LogFile) : Prop := ∀ c ∈ f.key.toList, isSafe c = true

/-- Where the path of the log leads. -/
def place (root : String) (f : LogFile) : FilePlace := .ofText (f.path root)

/-- The directory the log is in. -/
def folder (root : String) (f : LogFile) : Place :=
  ⟨(Place.ofText root).through, (Place.ofText root).path ++ [f.kind.folder]⟩

/-- Where the log stands on the disk. -/
def location (root : String) (f : LogFile) : Path := (f.folder root).path ++ [f.name]

def CanOpen (root : String) (d : Disk) (f : LogFile) : Prop := (f.place root).CanOpen d

theorem isSafe_safeKey (kind : LogKind) (name : String) : IsSafe ⟨kind, safeKey name⟩ := by
  intro c mem
  simp only [safeKey, String.toList_ofList] at mem
  obtain ⟨original, _, kept⟩ := List.mem_map.mp mem
  split at kept
  · next safe => exact kept ▸ safe
  · subst kept
    rfl

theorem isSafe_of_mem_targets {now : Moment} {e : Event} {f : LogFile} (h : f ∈ targets now e) :
    f.IsSafe := by
  simp only [targets, List.mem_cons, List.mem_append, Option.mem_toList, Option.map_eq_some_iff] at h
  rcases h with rfl | ⟨name, _, rfl⟩ | door
  · have digits : Moment.digits.all isSafe = true := by decide
    exact now.dayKey_of_forall (List.all_eq_true.mp digits) (by decide)
  · exact isSafe_safeKey .user name
  · split at door
    · obtain ⟨name, _, rfl⟩ := Option.map_eq_some_iff.mp (Option.mem_toList.mp door)
      exact isSafe_safeKey .door name
    · cases door

theorem mem_targets_iff {now : Moment} {e : Event} {f : LogFile} :
    f ∈ targets now e ↔ f = ⟨.system, now.dayKey⟩ ∨ (∃ name, e.user = some name ∧ f = .ofUser name) ∨
      ∃ name, e.door = some name ∧ e.isRegistered = true ∧ f = .ofDoor name := by
  simp only [targets, List.mem_cons, List.mem_append, Option.mem_toList, Option.map_eq_some_iff]
  refine or_congr_right (or_congr (exists_congr fun _ => and_congr_right fun _ => eq_comm) ?_)
  split
  · next registered =>
      simp only [Option.mem_toList, Option.map_eq_some_iff, registered, true_and, eq_comm (b := f)]
  · next unregistered => simp [unregistered]

theorem isPlain_name {f : LogFile} (safe : f.IsSafe) : Place.IsPlain f.name where
  noSeparator mem := by
    simp only [name, String.toList_append, List.mem_append] at mem
    rcases mem with (front | key) | behind
    · exact absurd front (by decide)
    · exact absurd (safe _ key) (by decide)
    · exact absurd behind (by decide)
  named := by
    have length : 3 ≤ f.name.toList.length := by
      simp only [name, String.toList_append, List.length_append]
      have : "Log_".toList.length = 4 := by decide
      omega
    refine ⟨?_, ?_, ?_⟩ <;> intro same <;> rw [same] at length <;> exact absurd length (by decide)

theorem isPlain_folder (kind : LogKind) : Place.IsPlain kind.folder := by
  cases kind <;> exact ⟨by decide, by decide⟩

theorem place_eq (root : String) {f : LogFile} (safe : f.IsSafe) :
    f.place root = ⟨f.folder root, some f.name⟩ := by
  rw [place, path, FilePlace.ofText_join _ (isPlain_name safe),
    Place.ofText_join root (isPlain_folder f.kind), Place.enter_of_isPlain _ (isPlain_folder f.kind),
    folder]

theorem canOpen_iff {root : String} {d : Disk} {f : LogFile} (safe : f.IsSafe) :
    f.CanOpen root d ↔ (∀ p ∈ (f.folder root).ways, d.Passable p) ∧ Disk.nameFits f.name = true ∧
      d.node? (f.location root) ≠ some .directory ∧
      ∀ p ∈ (f.folder root).ways, ¬ f.location root <+: p := by
  rw [CanOpen, place_eq root safe, FilePlace.canOpen_iff]
  rfl

theorem location_injective (root : String) {f g : LogFile}
    (same : f.location root = g.location root) : f = g := by
  simp only [location, folder, List.append_assoc, List.append_cancel_left_eq, List.cons_append,
    List.nil_append, List.cons.injEq, and_true] at same
  obtain ⟨folder, name⟩ := same
  obtain ⟨kind, key⟩ := f
  obtain ⟨kind', key'⟩ := g
  have kinds := LogKind.folder_injective folder
  have keys : key = key' := by
    have chars := congrArg String.toList name
    simp only [LogFile.name, String.toList_append, List.append_assoc, List.append_cancel_left_eq,
      List.append_cancel_right_eq] at chars
    exact String.toList_injective chars
  exact congrArg₂ LogFile.mk kinds keys

/-- The folder of a log is too short a path to lead through another log. -/
theorem not_prefix_ways {root : String} {f : LogFile} (g : LogFile)
    (free : ∀ p ∈ (f.folder root).ways, ¬ f.location root <+: p) :
    ∀ p ∈ (g.folder root).ways, ¬ f.location root <+: p := by
  intro p mem way
  rcases List.mem_append.mp mem with through | last
  · exact free p (List.mem_append_left _ through) way
  · rw [List.mem_singleton.mp last] at way
    have short := way.length_le
    simp [location, folder] at short

end LogFile

end DoorAccess.Audit
