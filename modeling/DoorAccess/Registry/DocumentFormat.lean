import DoorAccess.Json.Parser
import DoorAccess.Json.Printer
import DoorAccess.Registry.Document

/-!
Documents as JSON text.

An entry is an object with `name`, `lvl` and for a user `uid`, or an array of these in the order
they are written. `accessLevel` is another name of `lvl`. There are two readings. The strict one
takes a text only if all of it is right. The lenient one takes any object, leaves out the entries
it cannot read and counts them.
-/
namespace DoorAccess.Document

open Json (Value Fields)

def level? (v : Value) : Option Level := (v.natural? 255).map UInt8.ofNat

def ofFields? (tidy : Fields → Fields) (v : Value) : Option Fields :=
  match v with
  | .object members => (Fields.ofMembers? members).map tidy
  | _ => none

/-- An entry of a door. What is done about duplicate members is left to the reading. -/
def door? (tidy : Fields → Fields) (v : Value) : Option Door :=
  match v with
  | .array [name, level] => do return ⟨← name.string?, ← level? level⟩
  | v => do
    let fields ← ofFields? tidy v
    return ⟨← (← fields.only? ["name"]).string?, ← level? (← fields.only? ["lvl", "accessLevel"])⟩

def user? (tidy : Fields → Fields) (v : Value) : Option User :=
  match v with
  | .array [name, uid, level] => do return ⟨← name.string?, ← uid.string?, ← level? level⟩
  | v => do
    let fields ← ofFields? tidy v
    return ⟨← (← fields.only? ["name"]).string?, ← (← fields.only? ["uid"]).string?,
      ← level? (← fields.only? ["lvl", "accessLevel"])⟩

namespace Strict

def entries? (item? : Value → Option α) (v : Value) : Option (List α) :=
  match v with
  | .array items => items.mapM item?
  | _ => none

def part? (fields : Fields) (name : String) (item? : Value → Option α) : Option (List α) :=
  match fields.under [name] with
  | [] => some []
  | [(_, v)] => entries? item? v
  | _ => none

def ofValue? (v : Value) : Option Document :=
  match v with
  | .array [] => some {}
  | .array [doors] => do return { doors := ← entries? (door? id) doors }
  | .array [doors, users] => do
    return { doors := ← entries? (door? id) doors, users := ← entries? (user? id) users }
  | v => do
    let fields ← ofFields? id v
    return {
      doors := ← part? fields "doors" (door? id)
      users := ← part? fields "users" (user? id)
    }

def parse? (text : String) : Option Document := do ofValue? (← Json.parse? text)

end Strict

namespace Lenient

/-- The entries that could be read and the number of those that could not. -/
def part (fields : Fields) (name : String) (item? : Value → Option α) : List α × Nat :=
  match fields.only? [name] with
  | some (.array items) =>
    let read := items.filterMap item?
    (read, items.length - read.length)
  | _ => ([], 0)

/-- The document of a text that is a JSON object, and the number of entries left out. -/
def parse (text : String) : Except AccessError (Document × Nat) :=
  match (Json.parse? text).filter (·.isAdmissible) with
  | none => .error .malformedJson
  | some v =>
    match ofFields? Fields.lastWins v with
    | none => .error (.internal "config document is not a JSON object")
    | some fields =>
      let (doors, skippedDoors) := part fields "doors" (door? Fields.lastWins)
      let (users, skippedUsers) := part fields "users" (user? Fields.lastWins)
      .ok (⟨doors, users⟩, skippedDoors + skippedUsers)

end Lenient

def levelValue (level : Level) : Value := .number (.ofNat level.toNat)

def key (name : String) : List Json.Unit16 := name.toList.map .char

def doorValue (d : Door) : Value :=
  .object [(key "name", .ofString d.name), (key "lvl", levelValue d.level)]

def userValue (u : User) : Value :=
  .object [(key "name", .ofString u.name), (key "uid", .ofString u.credential),
    (key "lvl", levelValue u.level)]

def toValue (doc : Document) : Value :=
  .object [(key "doors", .array (doc.doors.map doorValue)),
    (key "users", .array (doc.users.map userValue))]

def render (doc : Document) : String := String.ofList (Json.writeValue 0 doc.toValue)

end DoorAccess.Document
