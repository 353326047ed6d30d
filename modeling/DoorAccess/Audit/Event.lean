import DoorAccess.Audit.Moment
import DoorAccess.Engine

/-!
Events of the audit trail, and the line each is written as: six columns between semicolons. A
character that would end a column or a line is written as an underscore.
-/
namespace DoorAccess.Audit

structure Event where
  door : Option String
  /-- Whether the door is a registered one. The name stands in its column all the same. -/
  isRegistered : Bool
  user : Option String
  credential : String
  /-- What happened: the decision, or the verb of the change. -/
  access : String
deriving DecidableEq, Repr

/-- Stands in a column that has no value. -/
def noValue : String := "-"

namespace Event

def ofDecision (a : Authorization) (credential : String) : Event where
  door := some a.door
  isRegistered := a.decision ≠ .unknownDoor
  user := a.user.map (·.name)
  credential := credential
  access := a.decision.label

def ofChange (verb : String) (door user credential : Option String) : Event where
  door := door
  isRegistered := door.isSome
  user := user
  credential := credential.getD noValue
  access := verb

def ofRecord (verb : String) : Record → Event
  | .door door => ofChange verb (some door.name) none none
  | .user user => ofChange verb none (some user.name) (some user.credential)

end Event

namespace Line

def column (field : String) : List Char :=
  field.toList.map fun c => if c = ';' ∨ c = '\n' ∨ c = '\r' then '_' else c

def columns (now : Moment) (e : Event) : List (List Char) :=
  [now.date.toList, now.time.toList, column (e.door.getD noValue), column (e.user.getD noValue),
    column e.credential, column e.access]

def join : List (List Char) → List Char
  | [] => []
  | [c] => c
  | c :: cs => c ++ ';' :: join cs

def header : List Char := "Date;Time;Door;Name;UserID;Access".toList ++ ['\n']

def ofEvent (now : Moment) (e : Event) : List Char := join (columns now e) ++ ['\n']

end Line

end DoorAccess.Audit
