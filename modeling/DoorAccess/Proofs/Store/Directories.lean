import DoorAccess.Proofs.Store.Tree
import Mathlib.Data.List.Induction

/-!
The directories on the way to a file. They can be made when no file and no name that is too long is
in the way, however many are missing; what is there stays, and nothing but directories is added.
Whether a file can be opened is told by what is there before.
-/
namespace DoorAccess

namespace Disk

/-- The directories of the path are there or can be made. -/
structure Passable (d : Disk) (p : Path) : Prop where
  noFile : ∀ q, q <+: p → ∀ content, d.node? q ≠ some (.file content)
  fits : ∀ name ∈ p, nameFits name

/-- Nothing is added but directories on the way to the paths. -/
def Grown (paths : List Path) (d d' : Disk) : Prop :=
  ∀ q, d'.node? q = d.node? q ∨
    (d.node? q = none ∧ d'.node? q = some .directory ∧ ∃ p ∈ paths, q <+: p)

namespace Grown
variable {paths paths' : List Path} {d d' d'' : Disk}

theorem refl (paths : List Path) (d : Disk) : Grown paths d d := fun _ => .inl rfl

theorem trans (h : Grown paths d d') (h' : Grown paths d' d'') : Grown paths d d'' := by
  intro q
  rcases h q with same | ⟨absent, made, way⟩ <;> rcases h' q with same' | ⟨absent', made', way'⟩
  · exact .inl (same'.trans same)
  · exact .inr ⟨same ▸ absent', made', way'⟩
  · exact .inr ⟨absent, same'.trans made, way⟩
  · rw [made] at absent'
    cases absent'

theorem mono (h : Grown paths d d') (within : paths ⊆ paths') : Grown paths' d d' := by
  intro q
  refine (h q).imp_right fun ⟨absent, made, p, mem, way⟩ => ⟨absent, made, p, within mem, way⟩

theorem kept (h : Grown paths d d') {q : Path} {n : Node} (found : d.node? q = some n) :
    d'.node? q = some n := by
  rcases h q with same | ⟨absent, _⟩
  · rw [same, found]
  · rw [absent] at found
    cases found

theorem file_iff (h : Grown paths d d') {q : Path} {content : Bytes} :
    d'.node? q = some (.file content) ↔ d.node? q = some (.file content) := by
  refine ⟨fun found => ?_, h.kept⟩
  rcases h q with same | ⟨_, made, _⟩
  · rw [← same, found]
  · rw [made] at found
    cases found

theorem isDirectory (h : Grown paths d d') {p : Path} (found : d.isDirectory p = true) :
    d'.isDirectory p = true := by
  obtain ⟨nodes, fits⟩ := (isDirectory_iff d p).mp found
  exact (isDirectory_iff d' p).mpr ⟨fun q way => h.kept (nodes q way), fits⟩

theorem passable_iff (h : Grown paths d d') (p : Path) : d'.Passable p ↔ d.Passable p :=
  ⟨fun way => ⟨fun q before content found => way.noFile q before content (h.file_iff.mpr found),
      way.fits⟩,
    fun way => ⟨fun q before content found => way.noFile q before content (h.file_iff.mp found),
      way.fits⟩⟩

end Grown

theorem grown_set {d : Disk} {p : Path} (nonempty : p ≠ []) (absent : d.node? p = none)
    {paths : List Path} (way : ∃ q ∈ paths, p <+: q) : Grown paths d (d.set p .directory) := by
  intro q
  rw [node?_set d nonempty]
  split
  · next here =>
      subst q
      exact .inr ⟨absent, rfl, way⟩
  · exact .inl rfl

theorem makeDirectoriesFrom_grown (d : Disk) (base names : Path) :
    Grown [base ++ names] d (d.makeDirectoriesFrom base names).2 := by
  induction names generalizing d base with
  | nil => exact .refl _ d
  | cons name names ih =>
      have path : base ++ name :: names = base ++ [name] ++ names := by simp
      rw [path]
      simp only [makeDirectoriesFrom]
      split
      · split
        · exact ih d (base ++ [name])
        · exact .refl _ d
        · next absent =>
            have step : Grown [base ++ [name] ++ names] d (d.set (base ++ [name]) .directory) :=
              grown_set (by simp) absent ⟨_, List.mem_singleton_self _, List.prefix_append _ _⟩
            exact step.trans (ih _ (base ++ [name]))
      · exact .refl _ d

theorem makeDirectoriesFrom_ok_iff {d : Disk} {base : Path} (names : Path)
    (here : d.node? base = some .directory) :
    (d.makeDirectoriesFrom base names).1 = .ok () ↔
      (∀ q, q <+: names → ∀ content, d.node? (base ++ q) ≠ some (.file content)) ∧
        ∀ name ∈ names, nameFits name := by
  induction names generalizing d base with
  | nil => simp [makeDirectoriesFrom, here]
  | cons name names ih =>
      rw [forall_prefix_cons (P := fun q => ∀ content, d.node? q ≠ some (.file content)),
        List.forall_mem_cons, makeDirectoriesFrom]
      have free : ∀ content, d.node? base ≠ some (.file content) := by simp [here]
      by_cases fits : nameFits name
      · simp only [fits, if_true]
        split
        · next found => simp [ih found, free]
        · next content found =>
            simp only [reduceCtorEq, false_iff]
            rintro ⟨⟨_, noFile⟩, _⟩
            exact noFile [] List.nil_prefix content (by simpa using found)
        · next absent =>
            have grown : Grown [base ++ [name]] d (d.set (base ++ [name]) .directory) :=
              grown_set (by simp) absent ⟨_, List.mem_singleton_self _, List.prefix_rfl⟩
            have made : (d.set (base ++ [name]) .directory).node? (base ++ [name]) =
                some .directory := by rw [node?_set d (by simp), if_pos rfl]
            simp only [ih made, ne_eq, grown.file_iff]
            simp [here]
      · simp [fits]

theorem makeDirectories_grown (d : Disk) (p : Path) : Grown [p] d (d.makeDirectories p).2 :=
  d.makeDirectoriesFrom_grown [] p

theorem makeDirectories_ok_iff (d : Disk) (p : Path) :
    (d.makeDirectories p).1 = .ok () ↔ d.Passable p := by
  rw [makeDirectories, makeDirectoriesFrom_ok_iff p d.node?_top]
  exact ⟨fun ⟨noFile, fits⟩ => ⟨noFile, fits⟩, fun ⟨noFile, fits⟩ => ⟨noFile, fits⟩⟩

theorem makeDirectoriesFrom_directory {d : Disk} {base names : Path}
    (here : d.node? base = some .directory)
    (done : (d.makeDirectoriesFrom base names).1 = .ok ()) (q : Path) (way : q <+: names) :
    (d.makeDirectoriesFrom base names).2.node? (base ++ q) = some .directory := by
  induction names generalizing d base q with
  | nil =>
      rw [List.prefix_nil.mp way, List.append_nil]
      exact here
  | cons name names ih =>
      revert q
      rw [forall_prefix_cons (P := fun q => Disk.node? _ q = some .directory)]
      refine ⟨(d.makeDirectoriesFrom_grown base (name :: names)).kept here, fun q way => ?_⟩
      simp only [makeDirectoriesFrom] at done ⊢
      split at done
      · next fits =>
          simp only [fits, if_true]
          split at done
          · next found => exact ih found done q way
          · cases done
          · next absent =>
              exact ih (by rw [node?_set d (by simp), if_pos rfl]) done q way
      · cases done

theorem makeDirectories_isDirectory {d : Disk} {p : Path}
    (done : (d.makeDirectories p).1 = .ok ()) : (d.makeDirectories p).2.isDirectory p = true :=
  (isDirectory_iff _ p).mpr ⟨fun q way => makeDirectoriesFrom_directory d.node?_top done q way,
    ((makeDirectories_ok_iff d p).mp done).fits⟩

theorem stat_of_passable {d : Disk} {p : Path} (h : d.Passable p) :
    d.stat p = .ok .directory ∨ d.stat p = .error .notFound := by
  induction p using List.reverseRecOn with
  | nil => exact .inl rfl
  | append_singleton p name ih =>
      have above : d.Passable p :=
        ⟨fun q way => h.noFile q (way.trans (List.prefix_append p [name])),
          fun part mem => h.fits part (List.mem_append_left _ mem)⟩
      rw [stat_concat]
      rcases ih above with found | lost
      · rw [found]
        simp only [h.fits name (by simp), if_true]
        cases found : d.node? (p ++ [name]) with
        | none => exact .inr rfl
        | some n =>
            cases n with
            | directory => exact .inl rfl
            | file content => exact absurd found (h.noFile _ List.prefix_rfl content)
      · rw [lost]
        exact .inr rfl

/-- Makes the directories of one path after the other, up to the first that fails. -/
def makeAll (d : Disk) : List Path → Except DiskError Unit × Disk
  | [] => (.ok (), d)
  | p :: paths =>
    match d.makeDirectories p with
    | (.ok (), d) => d.makeAll paths
    | (.error e, d) => (.error e, d)

theorem makeAll_grown (d : Disk) (paths : List Path) : Grown paths d (d.makeAll paths).2 := by
  induction paths generalizing d with
  | nil => exact .refl [] d
  | cons p paths ih =>
      have first : Grown (p :: paths) d (d.makeDirectories p).2 :=
        (d.makeDirectories_grown p).mono (by simp)
      rw [makeAll]
      split
      · next d₁ made =>
          rw [made] at first
          exact first.trans ((ih d₁).mono (List.subset_cons_self p paths))
      · next made =>
          rw [made] at first
          exact first

theorem makeAll_ok_iff (d : Disk) (paths : List Path) :
    (d.makeAll paths).1 = .ok () ↔ ∀ p ∈ paths, d.Passable p := by
  induction paths generalizing d with
  | nil => simp [makeAll]
  | cons p paths ih =>
      have first := d.makeDirectories_grown p
      have passes := makeDirectories_ok_iff d p
      rw [makeAll, List.forall_mem_cons]
      split
      · next d₁ made =>
          rw [made] at first passes
          simp only [ih, first.passable_iff, passes.mp rfl, true_and]
      · next e d₁ made =>
          rw [made] at passes
          simp only [reduceCtorEq, false_iff] at passes ⊢
          exact fun all => passes all.1

theorem makeAll_isDirectory {d : Disk} {paths : List Path} (done : (d.makeAll paths).1 = .ok ()) :
    ∀ p ∈ paths, (d.makeAll paths).2.isDirectory p = true := by
  induction paths generalizing d with
  | nil => exact List.forall_mem_nil _
  | cons p paths ih =>
      have here := @makeDirectories_isDirectory d p
      rw [makeAll] at done ⊢
      split at done
      · next d₁ made =>
          rw [made] at here
          rw [List.forall_mem_cons]
          exact ⟨(d₁.makeAll_grown paths).isDirectory (here rfl), ih done⟩
      · cases done

end Disk

namespace Place

/-- All directories that are made for a place. -/
def ways (place : Place) : List Path := place.through ++ [place.path]

theorem foldl_make_error (e : DiskError) (d : Disk) (paths : List Path) : paths.foldl
    (fun (result, d) p =>
      match result with
      | .ok () => d.makeDirectories p
      | .error e => (.error e, d))
    (Except.error e, d) = (.error e, d) := by
  induction paths with
  | nil => rfl
  | cons p paths ih => exact ih

theorem make_eq (place : Place) (d : Disk) : place.make d = d.makeAll place.ways := by
  rw [make, ways]
  generalize place.through ++ [place.path] = paths
  induction paths generalizing d with
  | nil => rfl
  | cons p paths ih =>
      rw [List.foldl_cons, Disk.makeAll]
      dsimp only
      rcases d.makeDirectories p with ⟨_ | ⟨⟩, d₁⟩
      · exact foldl_make_error _ d₁ paths
      · exact ih d₁

theorem make_grown (place : Place) (d : Disk) : Disk.Grown place.ways d (place.make d).2 := by
  rw [make_eq]
  exact d.makeAll_grown place.ways

theorem make_ok_iff (place : Place) (d : Disk) :
    (place.make d).1 = .ok () ↔ ∀ p ∈ place.ways, d.Passable p := by
  rw [make_eq]
  exact d.makeAll_ok_iff place.ways

theorem make_isDirectory {place : Place} {d : Disk} (done : (place.make d).1 = .ok ()) :
    ∀ p ∈ place.ways, (place.make d).2.isDirectory p = true := by
  rw [make_eq] at done ⊢
  exact Disk.makeAll_isDirectory done

/-- A path is a directory once a place is made, when it was one or is on the way. -/
theorem make_directory_iff {place : Place} {d : Disk} (done : (place.make d).1 = .ok ()) (q : Path) :
    (place.make d).2.node? q = some .directory ↔
      d.node? q = some .directory ∨ ∃ p ∈ place.ways, q <+: p := by
  constructor
  · intro found
    rcases make_grown place d q with same | ⟨_, _, way⟩
    · exact .inl (same ▸ found)
    · exact .inr way
  · rintro (found | ⟨p, mem, way⟩)
    · exact (make_grown place d).kept found
    · exact ((Disk.isDirectory_iff _ p).mp (make_isDirectory done p mem)).1 q way

end Place

namespace FilePlace

/-- The directories on the way to the file can be made, and with them the file is there or can be
made. -/
def CanOpen (f : FilePlace) (d : Disk) : Prop :=
  ∃ made p opened, f.directory.make d = (.ok (), made) ∧ f.path? = some p ∧
    made.create p = .ok opened

theorem canOpen_iff {directory : Place} {name : String} {d : Disk} :
    CanOpen ⟨directory, some name⟩ d ↔
      (∀ p ∈ directory.ways, d.Passable p) ∧ Disk.nameFits name = true ∧
        d.node? (directory.path ++ [name]) ≠ some .directory ∧
        ∀ p ∈ directory.ways, ¬ directory.path ++ [name] <+: p := by
  have free_iff (done : (directory.make d).1 = .ok ()) :
      (directory.make d).2.node? (directory.path ++ [name]) ≠ some .directory ↔
        d.node? (directory.path ++ [name]) ≠ some .directory ∧
          ∀ p ∈ directory.ways, ¬ directory.path ++ [name] <+: p := by
    rw [ne_eq, Place.make_directory_iff done, not_or, not_exists]
    simp only [not_and, ne_eq]
  constructor
  · rintro ⟨made, p, opened, makes, path, creates⟩
    have done : (directory.make d).1 = .ok () := by rw [makes]
    cases path
    obtain ⟨_, ⟨_, fits⟩, free⟩ := Disk.create_eq_ok creates
    rw [show made = (directory.make d).2 by rw [makes], free_iff done] at free
    exact ⟨(Place.make_ok_iff directory d).mp done, fits, free⟩
  · rintro ⟨passable, fits, free⟩
    have done := (Place.make_ok_iff directory d).mpr passable
    have parent := Place.make_isDirectory done directory.path (by simp [Place.ways])
    exact ⟨_, _, _, Prod.ext done rfl, rfl,
      Disk.create_of_parent ⟨parent, fits⟩ ((free_iff done).mpr free)⟩

end FilePlace

end DoorAccess
