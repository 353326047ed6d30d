import DoorAccess.Error

/-!
A reader's request: the door, a colon, and the credential that was presented.
-/
namespace DoorAccess.Reader

structure Request where
  door : String
  credential : String
deriving DecidableEq, Repr

/-- Cuts a frame at its first colon. Both parts have to be there. -/
def Request.parse (frame : String) : Except AccessError Request :=
  match frame.toList.span (· ≠ ':') with
  | (c :: cs, _ :: d :: ds) => .ok ⟨String.ofList (c :: cs), String.ofList (d :: ds)⟩
  | _ => .error .malformedRequest

end DoorAccess.Reader
