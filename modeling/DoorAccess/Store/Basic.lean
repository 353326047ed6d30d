import DoorAccess.Registry.DocumentFormat
import DoorAccess.Store.Place

/-!
The file a registry is kept in. It is only ever replaced as a whole: a new file is written beside
it and then given its name.
-/
namespace DoorAccess

/-- What was found where the document should be. -/
inductive DocumentState
  | loaded
  | missing
  | empty
  | corrupt (reason : String)
deriving DecidableEq, Repr

structure Store where
  place : FilePlace
deriving DecidableEq, Repr

namespace Store

def ofText (text : String) : Store := ⟨.ofText text⟩

/-- Reads the document. Whatever cannot be read counts as the empty document. -/
def load (s : Store) (d : Disk) : Document × DocumentState :=
  match s.place.read d with
  | .error .notFound => ({}, .missing)
  | .error e => ({}, .corrupt e.message)
  | .ok bytes =>
    match Text.Utf8.decode? bytes with
    | none => ({}, .corrupt "stream did not contain valid UTF-8")
    | some cs =>
      let text := String.ofList cs
      if Text.isAllBlank text then ({}, .empty)
      else
        match Document.Lenient.parse text with
        | .ok (doc, _) => (doc, .loaded)
        | .error e => ({}, .corrupt e.message)

/-- The name of the new file; the number keeps it apart from others. -/
def tempName (name : String) (number : UInt32) : String :=
  name ++ ".tmp." ++ toString number.toNat

def content (doc : Document) : Bytes := bytesOf doc.render

/-- What writing a document does to the disk, one step after the other. -/
def writeSteps (temp target : Path) (doc : Document) : List Disk.Step :=
  [.create temp, .append temp (content doc), .append temp [10], .rename temp target]

/-- Writes a document. A write that fails removes the new file and leaves the old one alone. -/
def writeAtomic (s : Store) (doc : Document) (number : UInt32) (d : Disk)
    (faults : Disk.Faults := []) : Except AccessError Unit × Disk :=
  match s.place.name with
  | none => (.error (.persistence DiskError.isADirectory.message), d)
  | some name =>
    let directory := s.place.directory
    if directory.isReachable d then
      let temp := directory.path ++ [tempName name number]
      match d.performUnder faults (writeSteps temp (directory.path ++ [name]) doc) with
      | (.ok (), d) => (.ok (), d)
      | (.error e, d) =>
        match d.remove temp with
        | .ok d => (.error (.persistence e.message), d)
        | .error _ => (.error (.persistence e.message), d)
    else
      (.error (.persistence DiskError.notFound.message), d)

end Store

end DoorAccess
