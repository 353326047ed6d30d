import DoorAccess.Json.Value
import DoorAccess.Toml.Value

/-!
The written form of settings, whatever format they are written in.
-/
namespace DoorAccess

inductive Setting
  | text (s : String)
  | flag (b : Bool)
  | count (n : Nat)
  | items (settings : List Setting)
  | fields (settings : List (String × Setting))
  /-- What no setting can be. -/
  | other
deriving Repr

namespace Setting

mutual

def ofJson : Json.Value → Setting
  | .string units => ((Json.Value.string units).string?.map text).getD other
  | .bool b => flag b
  | .number n => (n.natural?.map count).getD other
  | .array values => items (ofJsonItems values)
  | .object members => fields (ofJsonMembers members)
  | .null => other

def ofJsonItems : List Json.Value → List Setting
  | [] => []
  | v :: vs => ofJson v :: ofJsonItems vs

/-- Of several members with one key only the last counts. -/
def ofJsonMembers : List (List Json.Unit16 × Json.Value) → List (String × Setting)
  | [] => []
  | (key, v) :: members =>
    match Json.Unit16.decode? key with
    | some cs =>
      if members.any (·.1 = key) then ofJsonMembers members
      else (String.ofList cs, ofJson v) :: ofJsonMembers members
    | none => ofJsonMembers members

end

mutual

/-- A point in time is a group without any known field. -/
def ofToml : Toml.Value → Setting
  | .string s => text s
  | .boolean b => flag b
  | .integer n => if 0 ≤ n then count n.toNat else other
  | .float _ => other
  | .datetime _ => fields []
  | .array values => items (ofTomlItems values)
  | .table _ entries => fields (ofTomlEntries entries)
  | .tables elements => items (ofTomlTables elements)

def ofTomlItems : List Toml.Value → List Setting
  | [] => []
  | v :: vs => ofToml v :: ofTomlItems vs

def ofTomlEntries : List (String × Toml.Value) → List (String × Setting)
  | [] => []
  | (key, v) :: entries => (key, ofToml v) :: ofTomlEntries entries

def ofTomlTables : List (List (String × Toml.Value)) → List Setting
  | [] => []
  | entries :: tables => fields (ofTomlEntries entries) :: ofTomlTables tables

end

def text? : Setting → Option String
  | text s => some s
  | _ => none

def flag? : Setting → Option Bool
  | flag b => some b
  | _ => none

def count? (limit : Nat) : Setting → Option Nat
  | count n => if n ≤ limit then some n else none
  | _ => none

def port? (s : Setting) : Option UInt16 := (s.count? 65535).map UInt16.ofNat

end Setting

end DoorAccess
