/-!
What can go wrong, as causes, and the one line that is sent for each.
-/
namespace DoorAccess

/-- The class of an input or output failure. Four classes are how a peer normally leaves. -/
inductive IoKind
  | connectionReset
  | brokenPipe
  | unexpectedEof
  | connectionAborted
  | other (name : String)
deriving DecidableEq, Repr

inductive AccessError
  | io (kind : IoKind) (text : String)
  | connectionClosed
  | frameTooLong (limit : Nat)
  | malformedRequest
  | badSyntax
  | unknownCommand (verb : String)
  | doorExists
  | doorNotFound
  | userExists
  | userNotFound
  | credentialInUse
  | logNotFound
  | adminAlreadyBound
  | persistence (reason : String)
  | malformedJson
  | internal (reason : String)
deriving DecidableEq, Repr

namespace AccessError

def message : AccessError → String
  | io _ text => "IO Error: " ++ text
  | connectionClosed => "Connection is closed"
  | frameTooLong limit => "Frame exceeds the maximum length of " ++ toString limit ++ " bytes"
  | malformedRequest => "Invalid Client Package Syntax - Connection Closed"
  | badSyntax => "Operation failed - Incorrect CLI syntax"
  | unknownCommand _ => "Unknown Command"
  | doorExists => "Door already exists"
  | doorNotFound => "Door could not be found"
  | userExists => "User already exists"
  | userNotFound => "User could not be found"
  | credentialInUse => "Credential already assigned"
  | logNotFound => "Log could not be found"
  | adminAlreadyBound => "Another Admin is connected"
  | persistence _ => "Operation failed - Could not persist configuration"
  | malformedJson => "Internal Server Error: JSON serialization/deserialization error"
  | internal reason => "Internal Server Error: " ++ reason

/-- Two failures are the same when they have one cause; of an input or output failure only the
class counts. -/
def same : AccessError → AccessError → Bool
  | io a _, io b _ => a = b
  | a, b => a = b

/-- A peer that left, as opposed to a fault worth noting. -/
def isNormalDisconnect : AccessError → Bool
  | connectionClosed => true
  | io (.other _) _ => false
  | io _ _ => true
  | _ => false

end AccessError

end DoorAccess
