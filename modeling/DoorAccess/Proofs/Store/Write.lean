import DoorAccess.Proofs.Store.Tree
import DoorAccess.Store.Basic

/-!
What writing a document does to the disk, whatever is on it and whatever fault strikes. A write
that fails leaves the file as it was and nothing under the name of the new one; a write that
succeeds leaves the whole document. Removing the new file after a failure is taken to work.
-/
namespace DoorAccess

namespace Disk

/-- The step concerns the file at the path, and no other. -/
def Step.IsAt (p : Path) : Step → Prop
  | .create q => q = p
  | .append q _ => q = p
  | .rename _ _ | .remove _ => False

theorem attempt_eq_ok {d d' : Disk} {fault : Option Fault} {step : Step}
    (h : d.attempt fault step = (.ok (), d')) : d.perform step = .ok d' := by
  unfold attempt at h
  split at h <;> cases h
  assumption

theorem append_sameOff {d d' : Disk} {p : Path} {bytes : Bytes} (hp : p ≠ [])
    (h : d.append p bytes = .ok d') : SameOff p d d' := by
  obtain ⟨content, found, rfl⟩ := append_eq_ok h
  exact sameOff_set hp (by rw [found]; simp) _

theorem perform_sameOff {d d' : Disk} {directory : Path} {name : String} {step : Step}
    (here : step.IsAt (directory ++ [name])) (h : d.perform step = .ok d') :
    SameOff (directory ++ [name]) d d' := by
  cases step with
  | create q =>
      cases here
      obtain ⟨rfl, _, free⟩ := create_eq_ok h
      exact sameOff_set (by simp) free []
  | append q bytes =>
      cases here
      exact append_sameOff (by simp) h
  | rename | remove => cases here

theorem struckBy_sameOff (d : Disk) (fault : Fault) {directory : Path} {name : String} {step : Step}
    (here : step.IsAt (directory ++ [name])) :
    SameOff (directory ++ [name]) d (d.struckBy fault step) := by
  cases step with
  | create | rename | remove => exact SameOff.refl _ d
  | append q bytes =>
      cases here
      cases landed : d.append (directory ++ [name]) (bytes.take fault.landed) with
      | ok d' => simpa [struckBy, landed, Except.toOption] using append_sameOff (by simp) landed
      | error e => simpa [struckBy, landed, Except.toOption] using SameOff.refl _ d

theorem attempt_sameOff (d : Disk) (fault : Option Fault) {directory : Path} {name : String}
    {step : Step} (here : step.IsAt (directory ++ [name])) :
    SameOff (directory ++ [name]) d (d.attempt fault step).2 := by
  unfold attempt
  split
  · exact SameOff.refl _ d
  · next done => exact perform_sameOff here done
  · exact struckBy_sameOff d _ here

/-- Only an append can leave something behind when it fails. -/
theorem attempt_error {d d' : Disk} {fault : Option Fault} {step : Step} {e : DiskError}
    (whole : ∀ p bytes, step ≠ .append p bytes) (h : d.attempt fault step = (.error e, d')) :
    d' = d := by
  unfold attempt at h
  split at h
  · cases h
    rfl
  · cases h
  · cases step with
    | append p bytes => exact absurd rfl (whole p bytes)
    | create | rename | remove =>
        cases h
        rfl

theorem append_file {d d' : Disk} {p : Path} {bytes : Bytes} (hp : p ≠ [])
    (h : d.append p bytes = .ok d') : ∃ content, d'.node? p = some (.file content) := by
  obtain ⟨content, _, rfl⟩ := append_eq_ok h
  exact ⟨content ++ bytes, by rw [node?_set _ hp, if_pos rfl]⟩

theorem attempt_append_file {d : Disk} {p : Path} (hp : p ≠ []) (fault : Option Fault)
    (bytes : Bytes) (h : ∃ content, d.node? p = some (.file content)) :
    ∃ content, (d.attempt fault (.append p bytes)).2.node? p = some (.file content) := by
  unfold attempt
  split
  · exact h
  · next done => exact append_file hp done
  · next fault _ =>
      cases landed : d.append p (bytes.take fault.landed) with
      | ok d' => simpa [struckBy, landed, Except.toOption] using append_file hp landed
      | error e => simpa [struckBy, landed, Except.toOption] using h

theorem performUnder_sameOff (d : Disk) (faults : Faults) {directory : Path} {name : String}
    (steps : List Step) (here : ∀ step ∈ steps, step.IsAt (directory ++ [name])) :
    SameOff (directory ++ [name]) d (d.performUnder faults steps).2 := by
  induction steps generalizing d faults with
  | nil => exact SameOff.refl _ d
  | cons step steps ih =>
      have first := attempt_sameOff d faults.head?.join (here step (by simp))
      rw [performUnder]
      split
      · next d' done =>
          rw [done] at first
          exact first.trans (ih d' faults.tail fun s hs => here s (by simp [hs]))
      · next done =>
          rw [done] at first
          exact first

theorem performUnder_append (d : Disk) (faults : Faults) (steps rest : List Step) :
    d.performUnder faults (steps ++ rest) =
      match d.performUnder faults steps with
      | (.ok (), d') => d'.performUnder (faults.drop steps.length) rest
      | (.error e, d') => (.error e, d') := by
  induction steps generalizing d faults with
  | nil => rfl
  | cons step steps ih =>
      simp only [List.cons_append, performUnder]
      split
      · simp [ih]
      · rfl

theorem performUnder_cons_ok {d d' : Disk} {faults : Faults} {step : Step} {steps : List Step}
    (h : d.performUnder faults (step :: steps) = (.ok (), d')) :
    ∃ d₁, d.perform step = .ok d₁ ∧ d₁.performUnder faults.tail steps = (.ok (), d') := by
  rw [performUnder] at h
  split at h
  · next d₁ done => exact ⟨d₁, attempt_eq_ok done, h⟩
  · cases h

/-- What a file takes it takes whatever the bytes are. -/
theorem append_any {d d' : Disk} {p : Path} {bytes : Bytes} (h : d.append p bytes = .ok d')
    (piece : Bytes) : ∃ d₁, d.append p piece = .ok d₁ := by
  rw [append] at h
  split at h
  · next content found => exact ⟨d.set p (.file (content ++ piece)), by simp only [append, found]⟩
  · cases h
  · cases h

theorem remove_sameOff {d d' : Disk} {p : Path} (hp : p ≠ []) (h : d.remove p = .ok d') :
    SameOff p d d' ∧ d'.node? p = none := by
  rw [remove] at h
  split at h
  · next content found =>
      cases h
      have file := node?_of_stat (read_eq_ok.mp found)
      exact ⟨sameOff_unset hp (by rw [file]; simp), by simp [node?_unset d hp]⟩
  · cases h

end Disk

namespace Store

/-- The path of the new file that a write begins with. -/
def draftPath? (s : Store) (number : UInt32) : Option Path :=
  s.place.name.map fun name => s.place.directory.path ++ [tempName name number]

theorem tempName_ne (name : String) (number : UInt32) : tempName name number ≠ name := by
  intro same
  have length := congrArg String.length same
  simp only [tempName, String.length_append] at length
  have mark : ".tmp.".length = 5 := by decide
  omega

theorem draft_not_within (directory : Path) (name : String) (number : UInt32) :
    ¬ directory ++ [tempName name number] <+: directory ++ [name] := by
  intro inside
  have same := inside.eq_of_length (by simp)
  simp [tempName_ne] at same

/-- Nothing that was on the disk is touched, apart from what stood under the name of the new
file. -/
structure Spared (s : Store) (number : UInt32) (d d' : Disk) : Prop where
  content : s.place.read d' = s.place.read d
  others : ∀ q, s.draftPath? number ≠ some q → d'.node? q = d.node? q
  clean : ∀ p, s.draftPath? number = some p → d'.node? p = none ∨ d' = d

/-- The file holds the document, and nothing else has changed. -/
structure Replaced (s : Store) (doc : Document) (number : UInt32) (d d' : Disk) : Prop where
  content : s.place.read d' = .ok (Store.content doc ++ [10])
  others : ∀ q, s.draftPath? number ≠ some q → s.place.path? ≠ some q → d'.node? q = d.node? q
  clean : ∀ p, s.draftPath? number = some p → d'.node? p = none

theorem spared_refl (s : Store) (number : UInt32) (d : Disk) : s.Spared number d d :=
  ⟨rfl, fun _ _ => rfl, fun _ _ => .inr rfl⟩

theorem isReachable_congr {d d' : Disk} (place : Place)
    (h : ∀ p, d'.isDirectory p = d.isDirectory p) : place.isReachable d' = place.isReachable d := by
  simp only [Place.isReachable, funext h]

/-- What becomes of the draft is not seen in the file. -/
theorem read_of_sameOff {s : Store} {number : UInt32} {d d' : Disk} {name : String}
    (named : s.place.name = some name)
    (same : Disk.SameOff (s.place.directory.path ++ [tempName name number]) d d') :
    s.place.read d' = s.place.read d := by
  simp only [FilePlace.read, FilePlace.path?, named, Option.map_some,
    isReachable_congr _ same.isDirectory, same.read (draft_not_within _ name number)]

theorem spared_of_sameOff {s : Store} {number : UInt32} {d d' : Disk} {name : String}
    (named : s.place.name = some name)
    (same : Disk.SameOff (s.place.directory.path ++ [tempName name number]) d d')
    (clean : d'.node? (s.place.directory.path ++ [tempName name number]) = none ∨ d' = d) :
    s.Spared number d d' where
  content := read_of_sameOff named same
  others q off := by
    refine same.node q fun here => off ?_
    simp [draftPath?, named, here]
  clean p here := by
    simp only [draftPath?, named, Option.map_some, Option.some.injEq] at here
    exact here ▸ clean

/-- The steps of a write before the new file gets its name. -/
def draftSteps (draft : Path) (doc : Document) : List Disk.Step :=
  [.create draft, .append draft (content doc), .append draft [10]]

theorem writeSteps_eq (draft target : Path) (doc : Document) :
    writeSteps draft target doc = draftSteps draft doc ++ [.rename draft target] := rfl

section Steps
variable {directory : Path} {name : String} {doc : Document} {d d' : Disk} {faults : Disk.Faults}

theorem draftSteps_sameOff (d : Disk) (faults : Disk.Faults) (directory : Path) (name : String)
    (doc : Document) :
    Disk.SameOff (directory ++ [name]) d
      (d.performUnder faults (draftSteps (directory ++ [name]) doc)).2 :=
  d.performUnder_sameOff faults _ (by simp [draftSteps, Disk.Step.IsAt])

theorem draftSteps_ok
    (h : d.performUnder faults (draftSteps (directory ++ [name]) doc) = (.ok (), d')) :
    (d.isDirectory directory = true ∧ Disk.nameFits name = true) ∧
      d'.node? (directory ++ [name]) = some (.file (content doc ++ [10])) := by
  have nonempty : directory ++ [name] ≠ [] := by simp
  obtain ⟨d₁, created, h⟩ := Disk.performUnder_cons_ok h
  obtain ⟨d₂, appended, h⟩ := Disk.performUnder_cons_ok h
  obtain ⟨d₃, ended, h⟩ := Disk.performUnder_cons_ok h
  cases h
  obtain ⟨rfl, place, _⟩ := Disk.create_eq_ok created
  obtain ⟨before, found, rfl⟩ := Disk.append_eq_ok appended
  obtain ⟨body, written, rfl⟩ := Disk.append_eq_ok ended
  simp only [Disk.node?_set _ nonempty, if_true, Option.some.injEq, Node.file.injEq]
    at found written ⊢
  subst before
  subst body
  exact ⟨place, by rw [List.nil_append]⟩

/-- When the draft could be created, it is a file until it gets its name. -/
theorem draftSteps_error {e : DiskError}
    (h : d.performUnder faults (draftSteps (directory ++ [name]) doc) = (.error e, d')) :
    d' = d ∨ ((d.isDirectory directory = true ∧ Disk.nameFits name = true) ∧
      ∃ bytes, d'.node? (directory ++ [name]) = some (.file bytes)) := by
  have nonempty : directory ++ [name] ≠ [] := by simp
  simp only [draftSteps, Disk.performUnder] at h
  split at h
  · next d₁ created =>
      obtain ⟨rfl, place, _⟩ := Disk.create_eq_ok (Disk.attempt_eq_ok created)
      have fresh : ∃ bytes, (d.set (directory ++ [name]) (.file [])).node? (directory ++ [name]) =
          some (.file bytes) := ⟨[], by rw [Disk.node?_set _ nonempty, if_pos rfl]⟩
      have body := Disk.attempt_append_file nonempty faults.tail.head?.join (content doc) fresh
      refine .inr ⟨place, ?_⟩
      split at h
      · next d₂ appended =>
          rw [appended] at body
          have line := Disk.attempt_append_file nonempty faults.tail.tail.head?.join [10] body
          split at h
          · cases h
          · next failed =>
              cases h
              rwa [failed] at line
      · next failed =>
          cases h
          rwa [failed] at body
  · next failed =>
      cases h
      exact .inl (Disk.attempt_error (by simp) failed)

/-- A write that fails has touched the draft only, which can be removed if it is there. -/
theorem writeSteps_error {target : Path} {e : DiskError}
    (h : d.performUnder faults (writeSteps (directory ++ [name]) target doc) = (.error e, d')) :
    Disk.SameOff (directory ++ [name]) d d' ∧
      (d' = d ∨ ((d.isDirectory directory = true ∧ Disk.nameFits name = true) ∧
        ∃ bytes, d'.node? (directory ++ [name]) = some (.file bytes))) := by
  have drafted := draftSteps_sameOff d faults directory name doc
  rw [writeSteps_eq, Disk.performUnder_append] at h
  split at h
  · next done =>
      rw [done] at drafted
      simp only [Disk.performUnder] at h
      split at h
      · cases h
      · next failed =>
          cases h
          cases Disk.attempt_error (by simp) failed
          obtain ⟨place, body⟩ := draftSteps_ok done
          exact ⟨drafted, .inr ⟨place, _, body⟩⟩
  · next failed =>
      cases h
      rw [failed] at drafted
      exact ⟨drafted, draftSteps_error failed⟩

/-- A draft that is given the name of the file takes its place, whatever stood there before. -/
theorem rename_draft {draft : String} {d₁ d₂ : Disk} {bytes : Bytes} (other : draft ≠ name)
    (drafted : Disk.SameOff (directory ++ [draft]) d d₁)
    (body : d₁.node? (directory ++ [draft]) = some (.file bytes))
    (renamed : d₁.rename (directory ++ [draft]) (directory ++ [name]) = .ok d₂) :
    d₂.read (directory ++ [name]) = .ok bytes ∧ d₂.node? (directory ++ [draft]) = none ∧
      (∀ q, q ≠ directory ++ [draft] → q ≠ directory ++ [name] → d₂.node? q = d.node? q) ∧
      ∀ p, d₂.isDirectory p = d.isDirectory p := by
  obtain ⟨moved, found, rfl, ⟨parent, fits⟩, free⟩ := Disk.rename_eq_ok renamed
  rw [body] at found
  cases found
  have apart : directory ++ [name] ≠ directory ++ [draft] := by simp [Ne.symm other]
  have node (q : Path) : ((d₁.unset (directory ++ [draft])).set (directory ++ [name])
      (.file bytes)).node? q =
      if q = directory ++ [name] then some (.file bytes)
      else if q = directory ++ [draft] then none else d₁.node? q := by
    rw [Disk.node?_set _ (by simp), Disk.node?_unset _ (by simp)]
  have directories (p : Path) : _ = d₁.isDirectory p := Disk.isDirectory_congr (fun q => by
    rw [node q]
    split
    · next here => simp [here, free]
    · split
      · next here => simp [here, body]
      · rfl) p
  refine ⟨?_, ?_, ?_, fun p => (directories p).trans (drafted.isDirectory p)⟩
  · rw [Disk.read_eq_ok, Disk.stat_concat,
      (Disk.isDirectory_eq_true_iff_stat _ _).mp ((directories directory).trans parent)]
    simp [fits, node]
  · simp [node, Ne.symm apart]
  · intro q off away
    rw [node q, if_neg away, if_neg off, drafted.node q off]

theorem writeSteps_ok {draft : String} (other : draft ≠ name)
    (h : d.performUnder faults (writeSteps (directory ++ [draft]) (directory ++ [name]) doc) =
      (.ok (), d')) :
    d'.read (directory ++ [name]) = .ok (content doc ++ [10]) ∧
      d'.node? (directory ++ [draft]) = none ∧
      (∀ q, q ≠ directory ++ [draft] → q ≠ directory ++ [name] → d'.node? q = d.node? q) ∧
      ∀ p, d'.isDirectory p = d.isDirectory p := by
  have drafted := draftSteps_sameOff d faults directory draft doc
  rw [writeSteps_eq, Disk.performUnder_append] at h
  split at h
  · next d₁ done =>
      rw [done] at drafted
      obtain ⟨_, body⟩ := draftSteps_ok done
      simp only [Disk.performUnder] at h
      split at h
      · next d₂ renamed =>
          cases h
          exact rename_draft other drafted body (Disk.attempt_eq_ok renamed)
      · cases h
  · cases h

end Steps

theorem writeAtomic_error {s : Store} {doc : Document} {number : UInt32} {d d' : Disk}
    {faults : Disk.Faults} {e : AccessError}
    (h : s.writeAtomic doc number d faults = (.error e, d')) :
    (∃ reason, e = .persistence reason) ∧ s.Spared number d d' := by
  rw [writeAtomic] at h
  split at h
  · cases h
    exact ⟨⟨_, rfl⟩, spared_refl s number d⟩
  · next name named =>
      dsimp only at h
      split at h
      · split at h
        · cases h
        · next d₁ failed =>
            obtain ⟨touched, left⟩ := writeSteps_error failed
            split at h
            · next d₂ removed =>
                cases h
                obtain ⟨gone, absent⟩ := Disk.remove_sameOff (by simp) removed
                exact ⟨⟨_, rfl⟩, spared_of_sameOff named (touched.trans gone) (.inl absent)⟩
            · next stuck =>
                cases h
                refine ⟨⟨_, rfl⟩, spared_of_sameOff named touched (.inr ?_)⟩
                cases left with
                | inl kept => exact kept
                | inr made =>
                    obtain ⟨⟨parent, fits⟩, bytes, body⟩ := made
                    rw [← touched.isDirectory] at parent
                    have read := Disk.read_eq_ok.mpr (Disk.stat_of_node? ⟨parent, fits⟩ body)
                    simp [Disk.remove, read] at stuck
      · cases h
        exact ⟨⟨_, rfl⟩, spared_refl s number d⟩

/-- The draft has got the name of the file. -/
theorem replaced_of_rename {s : Store} {doc : Document} {number : UInt32} {d d' : Disk}
    {name : String} (named : s.place.name = some name)
    (reachable : s.place.directory.isReachable d = true)
    (read : d'.read (s.place.directory.path ++ [name]) = .ok (content doc ++ [10]))
    (absent : d'.node? (s.place.directory.path ++ [tempName name number]) = none)
    (others : ∀ q, q ≠ s.place.directory.path ++ [tempName name number] →
      q ≠ s.place.directory.path ++ [name] → d'.node? q = d.node? q)
    (directories : ∀ p, d'.isDirectory p = d.isDirectory p) : s.Replaced doc number d d' where
  content := by
    simp only [FilePlace.read, FilePlace.path?, named, Option.map_some,
      isReachable_congr _ directories, reachable, if_true, read]
  others q off away :=
    others q (fun here => off (by simp [draftPath?, named, here]))
      (fun here => away (by simp [FilePlace.path?, named, here]))
  clean p here := by
    simp only [draftPath?, named, Option.map_some, Option.some.injEq] at here
    exact here ▸ absent

theorem writeAtomic_eq_ok {s : Store} {doc : Document} {number : UInt32} {d d' : Disk}
    {faults : Disk.Faults} (h : s.writeAtomic doc number d faults = (.ok (), d')) :
    ∃ name, s.place.name = some name ∧ s.place.directory.isReachable d = true ∧
      d.performUnder faults (writeSteps (s.place.directory.path ++ [tempName name number])
        (s.place.directory.path ++ [name]) doc) = (.ok (), d') := by
  rw [writeAtomic] at h
  split at h
  · cases h
  · next name named =>
      dsimp only at h
      split at h
      · next reachable =>
          split at h
          · next d₁ done =>
              cases h
              exact ⟨name, named, reachable, done⟩
          · split at h <;> cases h
      · cases h

theorem writeAtomic_ok {s : Store} {doc : Document} {number : UInt32} {d d' : Disk}
    {faults : Disk.Faults} (h : s.writeAtomic doc number d faults = (.ok (), d')) :
    s.Replaced doc number d d' := by
  obtain ⟨name, named, reachable, done⟩ := writeAtomic_eq_ok h
  obtain ⟨read, absent, others, directories⟩ := writeSteps_ok (tempName_ne name number) done
  exact replaced_of_rename named reachable read absent others directories

end Store

end DoorAccess
