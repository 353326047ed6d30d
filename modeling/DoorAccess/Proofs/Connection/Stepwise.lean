import DoorAccess.Proofs.Connection.Closing

/-!
What a sender of a file does at once, a writer does in single steps. The bytes may come from
anything that can be read from.
-/
namespace DoorAccess

namespace Channel

theorem run_append (c : Channel) (events later : List Event) :
    c.run (events ++ later) = (c.run events).run later :=
  List.foldl_append

/-- The writer can get from one state to another by steps of its own. -/
def Reaches (c c' : Channel) : Prop := ∃ steps : List Step, c.run (steps.map .step) = c'

namespace Reaches
variable {c c' c'' : Channel}

theorem refl (c : Channel) : c.Reaches c := ⟨[], rfl⟩

theorem step (s : Step) (rest : (c.advance s).Reaches c') : c.Reaches c' := by
  obtain ⟨steps, reached⟩ := rest
  exact ⟨s :: steps, reached⟩

theorem trans (first : c.Reaches c') (rest : c'.Reaches c'') : c.Reaches c'' := by
  obtain ⟨steps, rfl⟩ := first
  obtain ⟨more, rfl⟩ := rest
  exact ⟨steps ++ more, by rw [List.map_append, run_append]⟩

end Reaches

variable {b : Outbox} {h : Nat}

/-- The connection once this was put out for an item. -/
def dealtWith (b : Outbox) (h : Nat) (item : Outgoing) (out : Sent) : Channel where
  outbox := { b with sent := b.sent ++ out.bytes }
  handles := h
  task :=
    match out.failure with
    | none => .waiting
    | some failure => .leaving (some (item, failure))

theorem put_reaches (path : String) (bytes : Bytes) (owed : Nat) :
    (⟨b, h, .sending path bytes owed⟩ : Channel).Reaches
      ⟨{ b with sent := b.sent ++ bytes }, h, .sending path [] owed⟩ := by
  refine .step (.put bytes.length) ?_
  simp only [advance, put, List.take_length, List.drop_length]
  exact .refl _

/-- The writer puts out what it is given to read. -/
theorem pump_reaches (path : String) (read : Transfer.Source σ) (s : σ) (owed : Nat) (b : Outbox) :
    (⟨b, h, .sending path [] owed⟩ : Channel).Reaches
      (dealtWith b h (.file path) (Transfer.pump path read s owed)) := by
  -- One turn of the loop is a read and a put; the bytes that are owed become fewer.
  induction owed using Nat.strongRecOn generalizing s b with
  | ind owed ih =>
      rw [Transfer.pump]
      by_cases settled : owed = 0
      · subst settled
        refine .step .settle ?_
        simp only [if_true, dealtWith, List.append_nil]
        exact .refl _
      · rw [if_neg settled]
        dsimp only
        split
        · next failure _ _ =>
            refine .step (.fail failure) ?_
            simp only [dealtWith, List.append_nil]
            exact .refl _
        · next got s' _ =>
            refine .step (.read got) ?_
            simp only [advance, if_neg settled, Channel.read, chunk]
            cases got.take (min owed Transfer.chunkSize) with
            | nil =>
                simp only [dealtWith, List.append_nil]
                exact .refl _
            | cons x xs =>
                refine (put_reaches path (x :: xs) _).trans ?_
                have rest := ih (owed - (xs.length + 1)) (by omega) s'
                  { b with sent := b.sent ++ (x :: xs) }
                simpa only [dealtWith, List.append_assoc] using rest

/-- From a file that is opened as one of this size the writer sends what it is given to read. -/
theorem send_reaches (path : String) (size : Nat) (read : Transfer.Source σ) (s : σ) :
    (⟨b, h, .opening path⟩ : Channel).Reaches
      (dealtWith b h (.file path) (Transfer.send path (fileName path) size read s)) := by
  refine .step (.opened size) ((put_reaches path _ _).trans ?_)
  have body := pump_reaches (h := h) path read s size
    { b with sent := b.sent ++ header path size }
  simpa only [dealtWith, List.append_assoc, Transfer.send, header] using body

end Channel

end DoorAccess
