import DoorAccess.Audit.Event
import DoorAccess.Audit.LogFile

/-!
The audit trail. Each event is added at the end of every log it concerns; a log that cannot be
written is passed over and does not keep the others from being written.
-/
namespace DoorAccess.Audit

/-- The folder of all logs, or none if nothing is recorded. -/
structure Trail where
  root : Option String
deriving DecidableEq, Repr

def targets (now : Moment) (e : Event) : List LogFile :=
  ⟨.system, now.dayKey⟩ :: ((e.user.map .ofUser).toList ++
    if e.isRegistered then (e.door.map .ofDoor).toList else [])

namespace Trail

/-- Adds a line to a log. A new or empty log gets the header first. -/
def appendLine (path : String) (line : List Char) (d : Disk) : Except DiskError Unit × Disk :=
  let file := FilePlace.ofText path
  match file.directory.make d with
  | (.error e, d) => (.error e, d)
  | (.ok (), d) =>
    let p := file.path?.getD file.directory.path
    match d.read p with
    | .ok [] => d.performAll [.append p (Text.Utf8.encode (Line.header ++ line))]
    | .ok _ => d.performAll [.append p (Text.Utf8.encode line)]
    | .error .notFound =>
      d.performAll [.create p, .append p (Text.Utf8.encode (Line.header ++ line))]
    | .error e => (.error e, d)

def record (t : Trail) (now : Moment) (e : Event) (d : Disk) : Disk :=
  match t.root with
  | none => d
  | some root =>
    (targets now e).foldl
      (fun d file => (appendLine (file.path root) (Line.ofEvent now e) d).2) d

def find (t : Trail) (kind : LogKind) (key : String) (d : Disk) : Except AccessError String :=
  match t.root with
  | none => .error .logNotFound
  | some root =>
    let path := (LogFile.ofRequest kind key).path root
    match (FilePlace.ofText path).read d with
    | .ok _ => .ok path
    | .error _ => .error .logNotFound

end Trail

end DoorAccess.Audit
