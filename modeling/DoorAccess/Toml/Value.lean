/-!
TOML values and tables. A table remembers how it came about, which decides what may still be added
to it.
-/
namespace DoorAccess.Toml

inductive Origin
  /-- Named on the way to another table by a header. -/
  | implied
  /-- Named on the way to a value by a dotted key. -/
  | dotted
  /-- Opened by a header of its own. -/
  | headed
  /-- Written between braces. -/
  | inline
deriving DecidableEq, Repr

inductive Value
  | string (s : String)
  | integer (n : Int)
  | float (text : String)
  | boolean (b : Bool)
  | datetime (text : String)
  | array (items : List Value)
  | table (origin : Origin) (entries : List (String × Value))
  /-- The tables opened by headers in double brackets. -/
  | tables (elements : List (List (String × Value)))
deriving Repr

abbrev Entries := List (String × Value)

namespace Entries

def has (entries : Entries) (key : String) : Bool := entries.any (·.1 = key)

def put (entries : Entries) (key : String) (v : Value) : Entries :=
  entries.map fun (k, w) => if k = key then (k, v) else (k, w)

/-- Changes the table at the end of a path. Tables on the way are made with the given origin if
they are missing. A dotted path does not enter a table that has a header of its own, and no path
enters a table between braces. -/
def update (dotted : Bool) (change : Origin → Entries → Option Entries) :
    List String → Origin → Entries → Option Entries
  | [], origin, entries => change origin entries
  | key :: path, _, entries =>
    match entries.lookup key with
    | none => do
      let origin := if dotted then Origin.dotted else .implied
      let inner ← update dotted change path origin []
      return entries ++ [(key, .table origin inner)]
    | some (.table origin inner) =>
      if origin = .inline ∨ (dotted ∧ origin = .headed) then none
      else do
        let inner ← update dotted change path origin inner
        return entries.put key (.table origin inner)
    | some (.tables elements) => do
      let last ← elements.getLast?
      let last ← update dotted change path .headed last
      return entries.put key (.tables (elements.dropLast ++ [last]))
    | some _ => none

/-- Gives a new key a value. A path leads only into tables that dotted keys have made. -/
def assign (path : List String) (key : String) (v : Value) (entries : Entries) : Option Entries :=
  update true (fun origin inner =>
    if (origin = .dotted ↔ path.isEmpty) ∨ inner.has key then none
    else some (inner ++ [(key, v)])) path .headed entries

/-- Opens the table of a header. It must not have been opened before. -/
def open? (path : List String) (key : String) (entries : Entries) : Option Entries :=
  update false (fun _ inner =>
    match inner.lookup key with
    | none => some (inner ++ [(key, .table .headed [])])
    | some (.table .implied known) => some (inner.put key (.table .headed known))
    | some _ => none) path .headed entries

/-- Opens another table in the list of tables of a header in double brackets. -/
def openNext? (path : List String) (key : String) (entries : Entries) : Option Entries :=
  update false (fun _ inner =>
    match inner.lookup key with
    | none => some (inner ++ [(key, .tables [[]])])
    | some (.tables elements) => some (inner.put key (.tables (elements ++ [[]])))
    | some _ => none) path .headed entries

end Entries

/-- A line of a document. A key is given as the path to its table and its own name. -/
inductive Statement
  | assign (path : List String) (key : String) (v : Value)
  | header (path : List String) (key : String)
  | nextHeader (path : List String) (key : String)
deriving Repr

/-- A document under construction, and the path of the table the last header has opened. -/
structure Draft where
  entries : Entries := []
  current : List String := []

def Draft.add (d : Draft) : Statement → Option Draft
  | .assign path key v => do
    let entries ← d.entries.update false (fun _ inner => inner.assign path key v) d.current .headed
    return { d with entries }
  | .header path key => do return ⟨← d.entries.open? path key, path ++ [key]⟩
  | .nextHeader path key => do return ⟨← d.entries.openNext? path key, path ++ [key]⟩

def ofStatements? (statements : List Statement) : Option Entries :=
  (statements.foldlM Draft.add {}).map (·.entries)

end DoorAccess.Toml
