import DoorAccess.Text.Utf8
import Std.Data.TreeMap

/-!
A directory tree as a value, with the operations on files that can fail: a part of the path may be
missing, be a file, or have a name that is too long, and a directory may stand where a file is
wanted. A step that the tree allows may still be struck by a fault of the device.
-/
namespace DoorAccess

abbrev Path := List String

inductive DiskError
  | notFound
  | notADirectory
  | isADirectory
  | nameTooLong
  | alreadyExists
  | device (name text : String)
deriving DecidableEq, Repr

namespace DiskError

def message : DiskError → String
  | notFound => "No such file or directory (os error 2)"
  | notADirectory => "Not a directory (os error 20)"
  | isADirectory => "Is a directory (os error 21)"
  | nameTooLong => "File name too long (os error 36)"
  | alreadyExists => "File exists (os error 17)"
  | device _ text => text

end DiskError

inductive Node
  | file (content : Bytes)
  | directory
deriving DecidableEq, Repr

/-- All nodes below the top directory, each under its path. -/
structure Disk where
  nodes : Std.TreeMap Path Node := ∅

namespace Disk

def empty : Disk := {}

/-- Names are at most this many bytes long. -/
def maxNameLength : Nat := 255

def nameFits (name : String) : Bool := name.utf8ByteSize ≤ maxNameLength

def node? (d : Disk) (p : Path) : Option Node := if p = [] then some .directory else d.nodes[p]?

def set (d : Disk) (p : Path) (n : Node) : Disk := { d with nodes := d.nodes.insert p n }

def unset (d : Disk) (p : Path) : Disk := { d with nodes := d.nodes.erase p }

def follow (d : Disk) (base : Path) : Path → Except DiskError Node
  | [] =>
    match d.node? base with
    | some n => .ok n
    | none => .error .notFound
  | name :: names =>
    match d.node? base with
    | none => .error .notFound
    | some (.file _) => .error .notADirectory
    | some .directory =>
      if nameFits name then follow d (base ++ [name]) names else .error .nameTooLong

def stat (d : Disk) (p : Path) : Except DiskError Node := d.follow [] p

def isDirectory (d : Disk) (p : Path) : Bool := d.stat p matches .ok .directory

def isFile (d : Disk) (p : Path) : Bool := d.stat p matches .ok (.file _)

def exists? (d : Disk) (p : Path) : Bool := d.stat p matches .ok _

def read (d : Disk) (p : Path) : Except DiskError Bytes :=
  match d.stat p with
  | .ok (.file content) => .ok content
  | .ok .directory => .error .isADirectory
  | .error e => .error e

/-- Makes a file empty, or a new empty file in a directory that exists. -/
def create (d : Disk) (p : Path) : Except DiskError Disk :=
  match d.stat p with
  | .ok (.file _) => .ok (d.set p (.file []))
  | .ok .directory => .error .isADirectory
  | .error .notFound =>
    if d.isDirectory p.dropLast then .ok (d.set p (.file [])) else .error .notFound
  | .error e => .error e

def append (d : Disk) (p : Path) (bytes : Bytes) : Except DiskError Disk :=
  match d.stat p with
  | .ok (.file content) => .ok (d.set p (.file (content ++ bytes)))
  | .ok .directory => .error .isADirectory
  | .error e => .error e

/-- Gives a file another path. A file that has that path is replaced, a directory is not. -/
def rename (d : Disk) (source target : Path) : Except DiskError Disk :=
  match d.read source, d.stat target with
  | .error e, _ => .error e
  | .ok _, .ok .directory => .error .isADirectory
  | .ok content, .ok (.file _) => .ok ((d.unset source).set target (.file content))
  | .ok content, .error .notFound =>
    if d.isDirectory target.dropLast then .ok ((d.unset source).set target (.file content))
    else .error .notFound
  | .ok _, .error e => .error e

def remove (d : Disk) (p : Path) : Except DiskError Disk :=
  match d.read p with
  | .ok _ => .ok (d.unset p)
  | .error e => .error e

/-- Removes a file, or a directory with all that is below it. -/
def removeTree (d : Disk) (p : Path) : Except DiskError Disk :=
  match d.stat p with
  | .ok _ => .ok { nodes := d.nodes.filter fun q _ => !p.isPrefixOf q }
  | .error e => .error e

/-- Makes the directories of a path that are missing below a directory. Those made before a
failure stay. -/
def makeDirectoriesFrom (d : Disk) (base : Path) : Path → Except DiskError Unit × Disk
  | [] => (.ok (), d)
  | name :: names =>
    let p := base ++ [name]
    if nameFits name then
      match d.node? p with
      | some .directory => makeDirectoriesFrom d p names
      | some (.file _) => (.error (if names = [] then .alreadyExists else .notADirectory), d)
      | none => makeDirectoriesFrom (d.set p .directory) p names
    else
      (.error .nameTooLong, d)

def makeDirectories (d : Disk) (p : Path) : Except DiskError Unit × Disk :=
  d.makeDirectoriesFrom [] p

def below (d : Disk) (p : Path) : List (Path × Node) :=
  d.nodes.toList.filterMap fun (q, n) =>
    match p.isPrefixOf? q with
    | some (name :: names) => some (name :: names, n)
    | _ => none

inductive Step
  | create (p : Path)
  | append (p : Path) (bytes : Bytes)
  | rename (source target : Path)
  | remove (p : Path)
deriving DecidableEq, Repr

def perform (d : Disk) : Step → Except DiskError Disk
  | .create p => d.create p
  | .append p bytes => d.append p bytes
  | .rename source target => d.rename source target
  | .remove p => d.remove p

/-- Why a step is not carried through although the tree allows it. Of the bytes of an append the
first ones may have landed all the same. -/
structure Fault where
  error : DiskError
  landed : Nat := 0
deriving DecidableEq, Repr

/-- What strikes the steps of a series, in their order. Steps behind the last entry are not
struck. -/
abbrev Faults := List (Option Fault)

/-- What a step that is struck leaves behind. -/
def struckBy (d : Disk) (fault : Fault) : Step → Disk
  | .append p bytes => (d.append p (bytes.take fault.landed)).toOption.getD d
  | _ => d

def attempt (d : Disk) (fault : Option Fault) (step : Step) : Except DiskError Unit × Disk :=
  match d.perform step, fault with
  | .error e, _ => (.error e, d)
  | .ok d', none => (.ok (), d')
  | .ok _, some fault => (.error fault.error, d.struckBy fault step)

/-- Performs steps in order up to the first that fails. What was done before it stays. -/
def performUnder (d : Disk) (faults : Faults) : List Step → Except DiskError Unit × Disk
  | [] => (.ok (), d)
  | step :: steps =>
    match d.attempt faults.head?.join step with
    | (.ok (), d) => performUnder d faults.tail steps
    | (.error e, d) => (.error e, d)

def performAll (d : Disk) (steps : List Step) : Except DiskError Unit × Disk :=
  d.performUnder [] steps

end Disk

end DoorAccess
