import DoorAccess.Name
import DoorAccess.Store.Place

/-!
The logs an event is written to: one for each day, one for each user and one for each registered
door. A name becomes part of a file name with every unsafe character replaced, so no name leads
out of the folder of its kind.
-/
namespace DoorAccess.Audit

inductive LogKind
  | system
  | user
  | door
deriving DecidableEq, Repr

def LogKind.folder : LogKind → String
  | system => "systemLogs"
  | user => "userLogs"
  | door => "doorLogs"

def isSafe (c : Char) : Bool := c.isAlphanum || c == '_' || c == '-'

def safeKey (name : String) : String :=
  String.ofList (name.toList.map fun c => if isSafe c then c else '_')

structure LogFile where
  kind : LogKind
  key : String
deriving DecidableEq, Repr

namespace LogFile

def ofUser (name : String) : LogFile := ⟨.user, safeKey name⟩

def ofDoor (name : String) : LogFile := ⟨.door, safeKey name⟩

/-- The log that is asked for. A day may be written with dashes, and a name as it is typed. -/
def ofRequest : LogKind → String → LogFile
  | .system, key =>
    ⟨.system, safeKey (String.ofList (key.toList.map fun c => if c = '-' then '_' else c))⟩
  | .user, key => ofUser (Name.snakeCase key)
  | .door, key => ofDoor (Name.snakeCase key)

def name (f : LogFile) : String := "Log_" ++ f.key ++ ".csv"

def path (root : String) (f : LogFile) : String :=
  Place.join (Place.join root f.kind.folder) f.name

end LogFile

end DoorAccess.Audit
