import DoorAccess.Store.Disk
import DoorAccess.Text.Blank

/-!
Where a written path leads. The path is read from left to right, and a directory that is named and
then left again by `..` has to exist all the same.
-/
namespace DoorAccess

/-- A directory, and the directories that were entered and left on the way to it. -/
structure Place where
  through : List Path := []
  path : Path := []
deriving DecidableEq, Repr

namespace Place

def enter (place : Place) (part : String) : Place :=
  if part = "" ∨ part = "." then place
  else if part = ".." then
    { through := place.through ++ [place.path], path := place.path.dropLast }
  else { place with path := place.path ++ [part] }

def enterAll (place : Place) (parts : List String) : Place := parts.foldl enter place

def partsOf (text : String) : List String :=
  (Text.splitAt (· == '/') text.toList).map String.ofList

/-- Where an absolute path starts. Other paths start at the top of the tree that is modelled. -/
def start (text : String) : Place := if text.toList.head? = some '/' then { path := ["/"] } else {}

def ofText (text : String) : Place := (start text).enterAll (partsOf text)

def join (directory name : String) : String :=
  match directory.toList.getLast? with
  | none | some '/' => directory ++ name
  | _ => directory ++ "/" ++ name

def isReachable (place : Place) (d : Disk) : Bool := place.through.all d.isDirectory

def exists? (place : Place) (d : Disk) : Bool := place.isReachable d && d.exists? place.path

def make (place : Place) (d : Disk) : Except DiskError Unit × Disk :=
  (place.through ++ [place.path]).foldl
    (fun (result, d) p =>
      match result with
      | .ok () => d.makeDirectories p
      | .error e => (.error e, d))
    (.ok (), d)

/-- Drops separators and single dots at the end, given in reverse. -/
def dropEnd : List Char → List Char
  | ['/'] => ['/']
  | '/' :: cs => dropEnd cs
  | '.' :: '/' :: cs => dropEnd ('/' :: cs)
  | cs => cs
termination_by cs => cs.length

/-- The text of the directory that holds what a path names. None for a path that names nothing or
the top. -/
def parentText? (text : String) : Option String :=
  match dropEnd text.toList.reverse with
  | [] => none
  | ['/'] => none
  | cs => some (String.ofList (dropEnd (cs.dropWhile (· ≠ '/'))).reverse)

end Place

/-- A file by its directory and its name there. What can only be a directory has no name. -/
structure FilePlace where
  directory : Place
  name : Option String
deriving DecidableEq, Repr

namespace FilePlace

def ofText (text : String) : FilePlace :=
  match (Place.partsOf text).reverse with
  | [] => ⟨{}, none⟩
  | last :: parts =>
    let directory := (Place.start text).enterAll parts.reverse
    if last = "" ∨ last = "." ∨ last = ".." then ⟨directory.enter last, none⟩
    else ⟨directory, some last⟩

def path? (f : FilePlace) : Option Path := f.name.map fun name => f.directory.path ++ [name]

def read (f : FilePlace) (d : Disk) : Except DiskError Bytes :=
  if f.directory.isReachable d then
    match f.path? with
    | some p => d.read p
    | none => if d.isFile f.directory.path then .error .notADirectory else d.read f.directory.path
  else .error .notFound

def exists? (f : FilePlace) (d : Disk) : Bool :=
  f.directory.isReachable d &&
    match f.path? with
    | some p => d.exists? p
    | none => d.isDirectory f.directory.path

end FilePlace

end DoorAccess
