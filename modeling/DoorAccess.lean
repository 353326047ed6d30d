import DoorAccess.Connection.Outbox
import DoorAccess.Main
import DoorAccess.Proofs.Console.Place
import DoorAccess.Proofs.Console.Confirmation
import DoorAccess.Proofs.Engine.Mirror
import DoorAccess.Proofs.Wire.Framing
import DoorAccess.Proofs.Registry.Indices
import DoorAccess.Proofs.Registry.Refinement
import DoorAccess.Proofs.Text.Cut
import DoorAccess.Proofs.Wire.Parcel
import DoorAccess.Proofs.Engine.Interruption
import DoorAccess.Proofs.Console.Course
import DoorAccess.Proofs.Reader.Lobby
import DoorAccess.Proofs.Console.Grammar
import DoorAccess.Proofs.Registry.Storable
import DoorAccess.Proofs.Console.Stages
import DoorAccess.Proofs.Registry.Records
import DoorAccess.Proofs.Audit.Chronicle
import DoorAccess.Proofs.Audit.Line
import DoorAccess.Proofs.Store.Directories
import DoorAccess.Proofs.Store.Path
import DoorAccess.Proofs.Audit.Logs
import DoorAccess.AcceptLoop
import DoorAccess.Proofs.Connection.Departures
import DoorAccess.Proofs.Text.Numeral
import DoorAccess.Proofs.Text.Words
import DoorAccess.Proofs.Console.Spelling
import DoorAccess.Proofs.Registry.Canonical
import DoorAccess.Proofs.Registry.Standing
import DoorAccess.Proofs.Console.Lasting
import DoorAccess.Proofs.Console.Enrolment
import DoorAccess.Connection.Channel
import DoorAccess.Proofs.Connection.Delivery
import DoorAccess.Proofs.Connection.Closing
import DoorAccess.Proofs.Connection.Stepwise
import DoorAccess.Proofs.Registry.Readings
import DoorAccess.Proofs.Engine.Opening
import DoorAccess.Proofs.Registry.Outcomes
import DoorAccess.Proofs.Registry.Padding
import DoorAccess.Proofs.Registry.Editing
import DoorAccess.Proofs.Registry.Additions
import DoorAccess.Proofs.Registry.Claimants
import DoorAccess.Proofs.Store.Working
import DoorAccess.Proofs.Engine.Additions
import DoorAccess.Proofs.Audit.Finding
import DoorAccess.Proofs.Audit.Personal
import DoorAccess.Proofs.Connection.Numbers
import DoorAccess.Proofs.Console.Hosting
import DoorAccess.Proofs.Config.Admission
import DoorAccess.Proofs.Registry.SnakeCase
import DoorAccess.Proofs.Config.Flags
import DoorAccess.Proofs.Connection.Chunks
