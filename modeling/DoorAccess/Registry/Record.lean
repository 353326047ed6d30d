/-!
What the registry knows: doors and users, each with a level, and the decision on a request.
-/
namespace DoorAccess

/-- A user may pass a door of at most the user's level. -/
abbrev Level := UInt8

inductive RecordKind
  | door
  | user
deriving DecidableEq, Repr

structure Door where
  name : String
  level : Level
deriving DecidableEq, Repr

structure User where
  name : String
  credential : String
  level : Level
deriving DecidableEq, Repr

inductive Decision
  | approved
  | denied
  | unknownDoor
deriving DecidableEq, Repr

namespace Decision

def reply : Decision → String
  | approved => "approved"
  | denied => "denied"
  | unknownDoor => "Unknown Door"

/-- The word for it in the audit trail and in the metrics. -/
def label : Decision → String
  | approved => "approved"
  | denied => "denied"
  | unknownDoor => "unknown_door"

end Decision

end DoorAccess
