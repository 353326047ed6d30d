import DoorAccess.Audit.Trail
import DoorAccess.Config.Basic
import DoorAccess.Console.Binding
import DoorAccess.Engine
import DoorAccess.Failure

/-!
What all connections share: the engine, the audit trail, the admin's place, the request to shut
down, and the disk with the store and the logs.
-/
namespace DoorAccess

/-- What a step takes from outside: the time, and a number for the name of a new file. -/
structure Occasion where
  now : Audit.Moment
  number : UInt32
deriving DecidableEq, Repr

structure Controller where
  engine : Engine
  trail : Audit.Trail
  binding : Console.Binding
  disk : Disk
  /-- What will strike the next write of the store. -/
  faults : Disk.Faults := []
  shutdownRequested : Bool := false

namespace Controller

/-- Opens the store that the settings name. A failure leaves a disk behind all the same. -/
def «open» (config : Config) (number : UInt32) (d : Disk) : Except (Failure × Disk) Controller :=
  match Engine.open (.ofText config.storePath) number d with
  | (.error e, d) =>
    .error ((Failure.mk e.message []).during
      ("Failed to open access configuration at " ++ config.storePath), d)
  | (.ok engine, d) =>
    .ok {
      engine
      trail := ⟨if config.audit.enabled then some config.audit.directory else none⟩
      binding := { name := config.adminName }
      disk := d
    }

def commit (c : Controller) (change : Change) (number : UInt32) :
    Except AccessError Record × Controller :=
  let done := c.engine.commit change number c.disk c.faults
  (done.result, { c with engine := done.engine, disk := done.disk })

def record (c : Controller) (now : Audit.Moment) (e : Audit.Event) : Controller :=
  { c with disk := c.trail.record now e c.disk }

def recordAll (c : Controller) (now : Audit.Moment) (events : List Audit.Event) : Controller :=
  events.foldl (fun c e => c.record now e) c

def release (c : Controller) (id : ConnectionId) : Controller :=
  { c with binding := c.binding.release id }

end Controller

end DoorAccess
