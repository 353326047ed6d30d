import DoorAccess.Connection.Outgoing
import DoorAccess.Controller
import DoorAccess.Reader.Request

/-!
The service for door readers: each frame is a request and gets one reply. A malformed request ends
the connection.
-/
namespace DoorAccess.Reader

/-- What a frame of a reader brings about. The events are recorded already. -/
structure Step where
  reply : String
  flow : Flow
  events : List Audit.Event
  controller : Controller

def receive (frame : String) (now : Audit.Moment) (c : Controller) : Step :=
  match Request.parse frame with
  | .error e => ⟨e.message, .close, [], c⟩
  | .ok request =>
    let a := c.engine.authorize request.door request.credential
    let events := [Audit.Event.ofDecision a request.credential]
    ⟨a.decision.reply, .stay, events, c.recordAll now events⟩

end DoorAccess.Reader
