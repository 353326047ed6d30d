import DoorAccess.Store.Place

/-!
The directory tree through its nodes. Following a path depends only on the nodes on the way, and
whether a path leads to a directory only on which nodes are directories, so a step that touches one
file is seen at that file alone.
-/
namespace DoorAccess.Disk

@[simp] theorem node?_top (d : Disk) : d.node? [] = some .directory := rfl

theorem node?_set (d : Disk) {p : Path} (hp : p ≠ []) (n : Node) (q : Path) :
    (d.set p n).node? q = if q = p then some n else d.node? q := by
  by_cases top : q = []
  · subst q
    simp [Ne.symm hp]
  · simp only [node?, set, top, if_false, Std.TreeMap.getElem?_insert,
      Std.LawfulEqCmp.compare_eq_iff_eq, eq_comm (a := p)]

theorem node?_unset (d : Disk) {p : Path} (hp : p ≠ []) (q : Path) :
    (d.unset p).node? q = if q = p then none else d.node? q := by
  by_cases top : q = []
  · subst q
    simp [Ne.symm hp]
  · simp only [node?, unset, top, if_false, Std.TreeMap.getElem?_erase,
      Std.LawfulEqCmp.compare_eq_iff_eq, eq_comm (a := p)]

theorem follow_congr {d d' : Disk} (base names : Path)
    (h : ∀ q, q <+: names → d'.node? (base ++ q) = d.node? (base ++ q)) :
    d'.follow base names = d.follow base names := by
  induction names generalizing base with
  | nil => simp only [follow, by simpa using h [] (List.prefix_refl [])]
  | cons name names ih =>
      have here : d'.node? base = d.node? base := by simpa using h [] List.nil_prefix
      have deeper := ih (base ++ [name]) fun q hq => by
        simpa using h (name :: q) (List.prefix_cons_inj name |>.mpr hq)
      simp only [follow, here, deeper]

theorem stat_congr {d d' : Disk} (p : Path) (h : ∀ q, q <+: p → d'.node? q = d.node? q) :
    d'.stat p = d.stat p :=
  follow_congr [] p h

theorem node?_of_follow {d : Disk} {base names : Path} {n : Node}
    (h : d.follow base names = .ok n) : d.node? (base ++ names) = some n := by
  induction names generalizing base with
  | nil =>
      simp only [follow] at h
      split at h
      · next found => simpa [found] using h
      · cases h
  | cons name names ih =>
      simp only [follow] at h
      split at h
      · cases h
      · cases h
      · split at h
        · simpa using ih h
        · cases h

theorem node?_of_stat {d : Disk} {p : Path} {n : Node} (h : d.stat p = .ok n) :
    d.node? p = some n :=
  node?_of_follow h

theorem follow_concat (d : Disk) (base names : Path) (name : String) :
    d.follow base (names ++ [name]) =
      match d.follow base names with
      | .error e => .error e
      | .ok (.file _) => .error .notADirectory
      | .ok .directory =>
        if nameFits name then
          match d.node? (base ++ names ++ [name]) with
          | some n => .ok n
          | none => .error .notFound
        else .error .nameTooLong := by
  induction names generalizing base with
  | nil =>
      simp only [List.nil_append, List.append_nil, follow]
      rcases d.node? base with _ | _ | _ <;> rfl
  | cons first names ih =>
      simp only [List.cons_append, follow]
      rcases d.node? base with _ | _ | _
      · rfl
      · rfl
      · by_cases fits : nameFits first
        · simp [fits, ih]
        · simp [fits]

theorem stat_concat (d : Disk) (p : Path) (name : String) :
    d.stat (p ++ [name]) =
      match d.stat p with
      | .error e => .error e
      | .ok (.file _) => .error .notADirectory
      | .ok .directory =>
        if nameFits name then
          match d.node? (p ++ [name]) with
          | some n => .ok n
          | none => .error .notFound
        else .error .nameTooLong :=
  follow_concat d [] p name

/-- The prefixes of a longer path: none of it, or its first name and a prefix behind. -/
theorem forall_prefix_cons {P : Path → Prop} {base names : Path} {name : String} :
    (∀ q, q <+: name :: names → P (base ++ q)) ↔
      P base ∧ ∀ q, q <+: names → P (base ++ [name] ++ q) := by
  simp only [List.prefix_cons_iff, or_imp, forall_and, forall_eq, List.append_nil,
    forall_exists_index, and_imp, List.append_assoc, List.singleton_append]
  refine and_congr_right fun _ => ⟨fun h q hq => h _ q rfl hq, ?_⟩
  rintro h q t rfl ht
  exact h t ht

theorem follow_eq_directory_iff (d : Disk) (base names : Path) :
    d.follow base names = .ok .directory ↔
      (∀ q, q <+: names → d.node? (base ++ q) = some .directory) ∧ ∀ name ∈ names, nameFits name := by
  induction names generalizing base with
  | nil =>
      simp only [follow, List.prefix_nil, forall_eq, List.append_nil, List.not_mem_nil,
        false_implies, implies_true, and_true]
      split <;> simp_all
  | cons name names ih =>
      rw [forall_prefix_cons (P := fun q => d.node? q = some .directory), follow]
      rcases d.node? base with _ | _ | _
      · simp
      · simp
      · by_cases fits : nameFits name
        · simp [fits, ih]
        · simp [fits]

theorem isDirectory_eq_true_iff_stat (d : Disk) (p : Path) :
    d.isDirectory p = true ↔ d.stat p = .ok .directory := by
  rw [isDirectory]
  split <;> simp_all

theorem isDirectory_iff (d : Disk) (p : Path) :
    d.isDirectory p = true ↔
      (∀ q, q <+: p → d.node? q = some .directory) ∧ ∀ name ∈ p, nameFits name := by
  rw [isDirectory_eq_true_iff_stat]
  exact follow_eq_directory_iff d [] p

theorem isDirectory_congr {d d' : Disk}
    (h : ∀ q, d'.node? q = some .directory ↔ d.node? q = some .directory) (p : Path) :
    d'.isDirectory p = d.isDirectory p := by
  rw [Bool.eq_iff_iff, isDirectory_iff, isDirectory_iff]
  simp only [h]

/-- The disks differ at one path at most, and there not in whether it is a directory. -/
structure SameOff (p : Path) (d d' : Disk) : Prop where
  node : ∀ q, q ≠ p → d'.node? q = d.node? q
  directory : d'.node? p = some .directory ↔ d.node? p = some .directory

namespace SameOff
variable {p : Path} {d d' d'' : Disk}

theorem refl (p : Path) (d : Disk) : SameOff p d d := ⟨fun _ _ => rfl, Iff.rfl⟩

theorem trans (h : SameOff p d d') (h' : SameOff p d' d'') : SameOff p d d'' :=
  ⟨fun q hq => (h'.node q hq).trans (h.node q hq), h'.directory.trans h.directory⟩

theorem isDirectory (h : SameOff p d d') (q : Path) : d'.isDirectory q = d.isDirectory q := by
  refine isDirectory_congr (fun t => ?_) q
  by_cases same : t = p
  · subst t
    exact h.directory
  · rw [h.node t same]

theorem stat (h : SameOff p d d') {q : Path} (off : ¬ p <+: q) : d'.stat q = d.stat q :=
  stat_congr q fun t ht => h.node t fun same => off (same ▸ ht)

theorem read (h : SameOff p d d') {q : Path} (off : ¬ p <+: q) : d'.read q = d.read q := by
  simp only [Disk.read, h.stat off]

end SameOff

theorem sameOff_set {d : Disk} {p : Path} (hp : p ≠ []) (h : d.node? p ≠ some .directory)
    (content : Bytes) : SameOff p d (d.set p (.file content)) where
  node q hq := by rw [node?_set d hp, if_neg hq]
  directory := by simp [node?_set d hp, h]

theorem sameOff_unset {d : Disk} {p : Path} (hp : p ≠ []) (h : d.node? p ≠ some .directory) :
    SameOff p d (d.unset p) where
  node q hq := by rw [node?_unset d hp, if_neg hq]
  directory := by simp [node?_unset d hp, h]

theorem parent_of_stat {d : Disk} {directory : Path} {name : String} {n : Node}
    (h : d.stat (directory ++ [name]) = .ok n) :
    d.isDirectory directory = true ∧ nameFits name = true := by
  rw [isDirectory_eq_true_iff_stat]
  rw [stat_concat] at h
  split at h
  · cases h
  · cases h
  · next parent =>
      by_cases fits : nameFits name
      · exact ⟨parent, fits⟩
      · simp [fits] at h

theorem absent_of_stat {d : Disk} {directory : Path} {name : String}
    (h : d.stat (directory ++ [name]) = .error .notFound)
    (parent : d.isDirectory directory = true) :
    nameFits name = true ∧ d.node? (directory ++ [name]) = none := by
  rw [isDirectory_eq_true_iff_stat] at parent
  rw [stat_concat, parent] at h
  by_cases fits : nameFits name
  · cases found : d.node? (directory ++ [name]) with
    | none => exact ⟨fits, rfl⟩
    | some n => simp [fits, found] at h
  · simp [fits] at h

theorem create_eq_ok {d d' : Disk} {directory : Path} {name : String}
    (h : d.create (directory ++ [name]) = .ok d') :
    d' = d.set (directory ++ [name]) (.file []) ∧
      (d.isDirectory directory = true ∧ nameFits name = true) ∧
      d.node? (directory ++ [name]) ≠ some .directory := by
  rw [create] at h
  split at h
  · next found =>
      exact ⟨(Except.ok.inj h).symm, parent_of_stat found, by rw [node?_of_stat found]; simp⟩
  · cases h
  · next lost =>
      rw [List.dropLast_concat] at h
      split at h
      · next parent =>
          obtain ⟨fits, absent⟩ := absent_of_stat lost parent
          exact ⟨(Except.ok.inj h).symm, ⟨parent, fits⟩, by rw [absent]; simp⟩
      · cases h
  · cases h

theorem append_eq_ok {d d' : Disk} {p : Path} {bytes : Bytes} (h : d.append p bytes = .ok d') :
    ∃ content, d.node? p = some (.file content) ∧ d' = d.set p (.file (content ++ bytes)) := by
  rw [append] at h
  split at h
  · next content found => exact ⟨content, node?_of_stat found, (Except.ok.inj h).symm⟩
  · cases h
  · cases h

theorem stat_of_node? {d : Disk} {directory : Path} {name : String} {n : Node}
    (parent : d.isDirectory directory = true ∧ nameFits name = true)
    (found : d.node? (directory ++ [name]) = some n) : d.stat (directory ++ [name]) = .ok n := by
  rw [stat_concat, (isDirectory_eq_true_iff_stat _ _).mp parent.1]
  simp [parent.2, found]

theorem stat_of_absent {d : Disk} {directory : Path} {name : String}
    (parent : d.isDirectory directory = true ∧ nameFits name = true)
    (absent : d.node? (directory ++ [name]) = none) :
    d.stat (directory ++ [name]) = .error .notFound := by
  rw [stat_concat, (isDirectory_eq_true_iff_stat _ _).mp parent.1]
  simp [parent.2, absent]

/-- Where no directory stands, a file of a name that fits can be made. -/
theorem create_of_parent {d : Disk} {directory : Path} {name : String}
    (parent : d.isDirectory directory = true ∧ nameFits name = true)
    (free : d.node? (directory ++ [name]) ≠ some .directory) :
    d.create (directory ++ [name]) = .ok (d.set (directory ++ [name]) (.file [])) := by
  cases found : d.node? (directory ++ [name]) with
  | none => simp [create, stat_of_absent parent found, parent.1]
  | some n =>
      cases n with
      | directory => exact absurd found free
      | file content => simp [create, stat_of_node? parent found]

theorem append_of_file {d : Disk} {directory : Path} {name : String} {content : Bytes}
    (parent : d.isDirectory directory = true ∧ nameFits name = true)
    (found : d.node? (directory ++ [name]) = some (.file content)) (bytes : Bytes) :
    d.append (directory ++ [name]) bytes =
      .ok (d.set (directory ++ [name]) (.file (content ++ bytes))) := by
  simp only [append, stat_of_node? parent found]

theorem read_eq_ok {d : Disk} {p : Path} {content : Bytes} :
    d.read p = .ok content ↔ d.stat p = .ok (.file content) := by
  rw [read]
  split <;> simp_all

theorem read_eq_notFound {d : Disk} {p : Path} :
    d.read p = .error .notFound ↔ d.stat p = .error .notFound := by
  rw [read]
  split <;> simp_all

theorem rename_eq_ok {d d' : Disk} {source directory : Path} {name : String}
    (h : d.rename source (directory ++ [name]) = .ok d') :
    ∃ content, d.node? source = some (.file content) ∧
      d' = (d.unset source).set (directory ++ [name]) (.file content) ∧
      (d.isDirectory directory = true ∧ nameFits name = true) ∧
      d.node? (directory ++ [name]) ≠ some .directory := by
  rw [rename] at h
  split at h
  · cases h
  · cases h
  · next content _ found target =>
      exact ⟨content, node?_of_stat (read_eq_ok.mp found), (Except.ok.inj h).symm,
        parent_of_stat target, by rw [node?_of_stat target]; simp⟩
  · next content found lost =>
      rw [List.dropLast_concat] at h
      split at h
      · next parent =>
          obtain ⟨fits, absent⟩ := absent_of_stat lost parent
          exact ⟨content, node?_of_stat (read_eq_ok.mp found), (Except.ok.inj h).symm,
            ⟨parent, fits⟩, by rw [absent]; simp⟩
      · cases h
  · cases h

/-! ### Writing to one file when no fault strikes -/

section
variable {d : Disk} {directory : Path} {name : String}
  (parent : d.isDirectory directory = true ∧ nameFits name = true)
include parent

theorem node?_performAll_append {content : Bytes}
    (found : d.node? (directory ++ [name]) = some (.file content)) (bytes : Bytes) (q : Path) :
    (d.performAll [.append (directory ++ [name]) bytes]).2.node? q =
      if q = directory ++ [name] then some (.file (content ++ bytes)) else d.node? q := by
  simp only [performAll, performUnder, attempt, perform, append_of_file parent found,
    List.head?_nil, Option.join_none]
  exact node?_set d (by simp) _ q

theorem node?_performAll_create_append (absent : d.node? (directory ++ [name]) = none)
    (bytes : Bytes) (q : Path) :
    (d.performAll [.create (directory ++ [name]), .append (directory ++ [name]) bytes]).2.node? q =
      if q = directory ++ [name] then some (.file bytes) else d.node? q := by
  have free : d.node? (directory ++ [name]) ≠ some .directory := by simp [absent]
  have same := sameOff_set (d := d) (p := directory ++ [name]) (by simp) free []
  have found : (d.set (directory ++ [name]) (.file [])).node? (directory ++ [name]) =
      some (.file []) := by rw [node?_set d (by simp), if_pos rfl]
  have appended := append_of_file ⟨(same.isDirectory directory).trans parent.1, parent.2⟩ found bytes
  simp only [performAll, performUnder, attempt, perform, create_of_parent parent free,
    List.head?_nil, Option.join_none, List.tail_nil, appended, List.nil_append]
  rw [node?_set _ (by simp), node?_set d (by simp)]
  split <;> rfl

end

end DoorAccess.Disk
