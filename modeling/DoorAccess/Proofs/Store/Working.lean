import DoorAccess.Proofs.Store.Write
import Mathlib.Data.Nat.Digits.Defs

/-!
A store that works: whatever is written to it, while no fault strikes, is taken. This is told by the
directory and by what has a name in it, and a write does not change it.
-/
namespace DoorAccess

namespace Disk
variable {d : Disk} {directory : Path} {name : String} {content : Bytes}

theorem performUnder_cons_of_perform {d₁ : Disk} {step : Step} (done : d.perform step = .ok d₁)
    (steps : List Step) : d.performUnder [] (step :: steps) = d₁.performUnder [] steps := by
  simp [performUnder, attempt, done]

theorem perform_create (parent : d.isDirectory directory = true ∧ nameFits name = true)
    (free : d.node? (directory ++ [name]) ≠ some .directory) :
    ∃ d', d.perform (.create (directory ++ [name])) = .ok d' ∧
      SameOff (directory ++ [name]) d d' ∧ d'.node? (directory ++ [name]) = some (.file []) :=
  ⟨_, create_of_parent parent free, sameOff_set (by simp) free [],
    by rw [node?_set d (by simp), if_pos rfl]⟩

theorem perform_append {before : Disk}
    (parent : before.isDirectory directory = true ∧ nameFits name = true)
    (same : SameOff (directory ++ [name]) before d)
    (found : d.node? (directory ++ [name]) = some (.file content)) (bytes : Bytes) :
    ∃ d', d.perform (.append (directory ++ [name]) bytes) = .ok d' ∧
      SameOff (directory ++ [name]) before d' ∧
      d'.node? (directory ++ [name]) = some (.file (content ++ bytes)) := by
  have appended := append_of_file ⟨(same.isDirectory _).trans parent.1, parent.2⟩ found bytes
  exact ⟨_, appended, same.trans (append_sameOff (by simp) appended),
    by rw [node?_set d (by simp), if_pos rfl]⟩

/-- A file can be given any name that fits and is not that of a directory. -/
theorem perform_rename {source : Path}
    (parent : d.isDirectory directory = true ∧ nameFits name = true)
    (free : d.node? (directory ++ [name]) ≠ some .directory) (found : d.read source = .ok content) :
    ∃ d', d.perform (.rename source (directory ++ [name])) = .ok d' := by
  cases here : d.node? (directory ++ [name]) with
  | none => simp [perform, rename, found, stat_of_absent parent here, parent.1]
  | some n =>
      cases n with
      | directory => exact absurd here free
      | file content => simp [perform, rename, found, stat_of_node? parent here]

theorem node?_empty {p : Path} (below : p ≠ []) : empty.node? p = none := by
  simp [node?, empty, below]

end Disk

namespace Store

/-- Every document can be written, under whatever number, as long as no fault strikes. -/
def IsWorking (s : Store) (d : Disk) : Prop :=
  ∀ doc number, (s.writeAtomic doc number d).1 = .ok ()

/-- What it takes to write: the directory of the file, and neither a directory nor a name that is too
long in the way of the file and of the draft beside it. -/
structure Takes (s : Store) (d : Disk) (name draft : String) : Prop where
  named : s.place.name = some name
  reachable : s.place.directory.isReachable d = true
  parent : d.isDirectory s.place.directory.path = true
  fits : Disk.nameFits name = true
  free : d.node? (s.place.directory.path ++ [name]) ≠ some .directory
  draftFits : Disk.nameFits draft = true
  draftFree : d.node? (s.place.directory.path ++ [draft]) ≠ some .directory

variable {s : Store} {d d' : Disk} {name : String}

theorem takes_of_written {doc : Document} {number : UInt32}
    (done : s.writeAtomic doc number d = (.ok (), d')) :
    ∃ name, s.Takes d name (tempName name number) := by
  obtain ⟨name, named, reachable, done⟩ := writeAtomic_eq_ok done
  have drafted := draftSteps_sameOff d [] s.place.directory.path (tempName name number) doc
  rw [writeSteps_eq, Disk.performUnder_append] at done
  split at done
  · next d₁ written =>
      rw [written] at drafted
      obtain ⟨_, created, _⟩ := Disk.performUnder_cons_ok written
      obtain ⟨_, ⟨parent, draftFits⟩, draftFree⟩ := Disk.create_eq_ok created
      obtain ⟨_, renamed, _⟩ := Disk.performUnder_cons_ok done
      obtain ⟨_, _, _, ⟨_, fits⟩, free⟩ := Disk.rename_eq_ok renamed
      rw [drafted.node _ (by simp [(tempName_ne name number).symm])] at free
      exact ⟨name, named, reachable, parent, fits, free, draftFits, draftFree⟩
  · cases done

theorem Takes.written {number : UInt32} (takes : s.Takes d name (tempName name number))
    (doc : Document) : (s.writeAtomic doc number d).1 = .ok () := by
  have parent := And.intro takes.parent takes.draftFits
  obtain ⟨d₁, created, same, found⟩ := Disk.perform_create parent takes.draftFree
  obtain ⟨d₂, appended, same, found⟩ := Disk.perform_append parent same found (content doc)
  obtain ⟨d₃, ended, same, found⟩ := Disk.perform_append parent same found [10]
  have there := same.isDirectory s.place.directory.path
  have read := Disk.read_eq_ok.mpr (Disk.stat_of_node? ⟨there.trans parent.1, parent.2⟩ found)
  have free := takes.free
  rw [← same.node _ (by simp [(tempName_ne name number).symm])] at free
  obtain ⟨d₄, renamed⟩ := Disk.perform_rename ⟨there.trans parent.1, takes.fits⟩ free read
  have steps : d.performUnder [] (writeSteps (s.place.directory.path ++ [tempName name number])
      (s.place.directory.path ++ [name]) doc) = (.ok (), d₄) := by
    rw [writeSteps, Disk.performUnder_cons_of_perform created,
      Disk.performUnder_cons_of_perform appended, Disk.performUnder_cons_of_perform ended,
      Disk.performUnder_cons_of_perform renamed, Disk.performUnder]
  simp only [writeAtomic, takes.named, takes.reachable, if_true, steps]

theorem isWorking_iff :
    s.IsWorking d ↔ ∀ number, ∃ name, s.Takes d name (tempName name number) := by
  constructor
  · exact fun working number => takes_of_written (Prod.ext (working {} number) rfl)
  · intro ready doc number
    obtain ⟨name, takes⟩ := ready number
    exact takes.written doc

/-- A store that has been written to works as before. -/
theorem IsWorking.written {doc : Document} {number : UInt32} (working : s.IsWorking d)
    (done : s.writeAtomic doc number d = (.ok (), d')) : s.IsWorking d' := by
  obtain ⟨name, named, _, steps⟩ := writeAtomic_eq_ok done
  obtain ⟨read, absent, others, directories⟩ := writeSteps_ok (tempName_ne name number) steps
  refine isWorking_iff.mpr fun other => ?_
  obtain ⟨name', takes⟩ := isWorking_iff.mp working other
  obtain rfl : name' = name := Option.some.inj (takes.named.symm.trans named)
  refine ⟨name', named, ?_, ?_, takes.fits, ?_, takes.draftFits, ?_⟩
  · rw [isReachable_congr _ directories, takes.reachable]
  · rw [directories, takes.parent]
  · rw [Disk.node?_of_stat (Disk.read_eq_ok.mp read)]
    simp
  · by_cases here : tempName name' other = tempName name' number
    · rw [here, absent]
      simp
    · rw [others _ (by simpa using here) (by simp [tempName_ne])]
      exact takes.draftFree

/-! ### An empty disk -/

theorem utf8Size_of_isDigit {c : Char} (digit : c.isDigit = true) : c.utf8Size = 1 := by
  simp only [Char.isDigit, Bool.and_eq_true, decide_eq_true_eq] at digit
  exact Char.utf8Size_eq_one_iff.mpr (UInt32.le_trans digit.2 (by decide))

theorem utf8ByteSize_of_digits {cs : List Char} (digits : ∀ c ∈ cs, c.isDigit = true) :
    (String.ofList cs).utf8ByteSize = cs.length := by
  induction cs with
  | nil => rfl
  | cons c cs ih =>
      obtain ⟨digit, rest⟩ := List.forall_mem_cons.mp digits
      simp [String.ofList_cons, ih rest, utf8Size_of_isDigit digit, Nat.add_comm]

/-- The mark and the number take up fifteen bytes at most. -/
theorem nameFits_tempName (short : name.utf8ByteSize ≤ 240) (number : UInt32) :
    Disk.nameFits (tempName name number) = true := by
  have digits : (toString number.toNat).utf8ByteSize = (Nat.toDigits 10 number.toNat).length :=
    utf8ByteSize_of_digits fun c => Nat.isDigit_of_mem_toDigits (by decide) (by decide)
  have few : (Nat.toDigits 10 number.toNat).length ≤ 10 :=
    Nat.toDigits_length 10 _ 10 (by decide) (number.toNat_lt.trans (by decide))
  have mark : ".tmp.".utf8ByteSize = 5 := by decide
  rw [Disk.nameFits, decide_eq_true_iff, tempName, String.utf8ByteSize_append,
    String.utf8ByteSize_append, digits, mark, Disk.maxNameLength]
  omega

theorem isWorking_empty (short : name.utf8ByteSize ≤ 240) :
    (⟨⟨{}, some name⟩⟩ : Store).IsWorking .empty := by
  have free (name : String) : Disk.empty.node? ([] ++ [name]) ≠ some .directory := by
    simp [Disk.node?_empty]
  refine isWorking_iff.mpr fun number => ⟨name, rfl, rfl, rfl, ?_, free _, ?_, free _⟩
  · exact decide_eq_true (short.trans (by decide))
  · exact nameFits_tempName short number

end Store

end DoorAccess
