import DoorAccess.Connection.Id
import DoorAccess.Error
import DoorAccess.Text.Blank

/-!
The place of the admin. At most one connection holds it, and only its holder can give it up.
-/
namespace DoorAccess.Console

structure Binding where
  /-- What a connection has to send to be taken for the admin. -/
  name : String
  holder : Option ConnectionId := none
deriving DecidableEq, Repr

namespace Binding

def accepts (b : Binding) (frame : String) : Bool := Text.trimmed frame = b.name

def isHeldByOther (b : Binding) (id : ConnectionId) : Bool := b.holder.any (· ≠ id)

/-- Takes the place if it is free. Its holder may take it again. -/
def take (b : Binding) (id : ConnectionId) : Except AccessError Binding :=
  if b.isHeldByOther id then .error .adminAlreadyBound else .ok { b with holder := some id }

def release (b : Binding) (id : ConnectionId) : Binding :=
  if b.holder = some id then { b with holder := none } else b

end Binding

end DoorAccess.Console
