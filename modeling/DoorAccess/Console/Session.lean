import DoorAccess.Connection.Outgoing
import DoorAccess.Console.Command
import DoorAccess.Controller

/-!
The console of one admin connection. It has to identify itself before anything else, then runs one
command for each frame. Adding a user, removing and editing take several frames: what is asked for
waits in the stage of the session until it is approved, denied or dropped.
-/
namespace DoorAccess.Console

inductive Stage
  | unidentified
  | ready
  | awaitingCredential (name : String) (level : Level)
  | awaitingConfirmation (change : Change)
deriving DecidableEq, Repr

structure Session where
  id : ConnectionId
  stage : Stage := .unidentified
deriving DecidableEq, Repr

/-- What a step of a session brings about. The events are recorded already. -/
structure Step where
  replies : List Outgoing
  flow : Flow
  events : List Audit.Event := []
  /-- The command that was carried out, if the frame was one. -/
  command : Option Command := none
  /-- The change that the engine was asked to make, whether it was made or not. -/
  change : Option Change := none
  session : Session
  controller : Controller

def awaitingIdentification : String := "Awaiting identification"
def identified : String := "Admin identified"
def scanCredential : String := "Scan credential"
def confirmPrompt : String := "Confirm: approved|denied"
def cancelled : String := "Operation cancelled"
def goodbye : String := "Goodbye"
def shuttingDown : String := "Shutting Down..."

def verbOf : Change → Verb
  | .addDoor _ _ => .newDoor
  | .addUser _ _ _ => .newUser
  | .remove .door _ => .rmDoor
  | .remove .user _ => .rmUser
  | .edit .door _ _ _ => .mvDoor
  | .edit .user _ _ _ => .mvUser

def doneText : Change → String
  | .addDoor _ _ => "Door Added Successfully"
  | .addUser _ _ _ => "User Added Successfully"
  | .remove .door _ => "Door Removed Successfully"
  | .remove .user _ => "User Removed Successfully"
  | .edit .door _ _ _ => "Door Updated Successfully"
  | .edit .user _ _ _ => "User Updated Successfully"

/-- Whether a frame ends the session at any stage. -/
def endsSession (frame : String) : Bool :=
  match Command.parse frame with
  | .ok .exit | .ok .shutdown => true
  | _ => false

/-- Whether the record that a change is about to touch is there. -/
def missing? (r : Registry) (kind : RecordKind) (name : String) : Option AccessError :=
  match kind with
  | .door => if (r.door? name).isNone then some .doorNotFound else none
  | .user => if (r.user? name).isNone then some .userNotFound else none

namespace Session

def answer (s : Session) (c : Controller) (replies : List Outgoing) : Step :=
  { replies, flow := .stay, session := s, controller := c }

def say (s : Session) (c : Controller) (text : String) : Step := s.answer c [.text text]

def sayAndClose (s : Session) (c : Controller) (text : String) : Step :=
  { s.say c text with flow := .close }

def refuse (s : Session) (c : Controller) (e : AccessError) : Step := s.say c e.message

/-- Greets a connection, or turns it away if another one holds the admin's place. -/
def connect (s : Session) (c : Controller) : Step :=
  if c.binding.isHeldByOther s.id then s.sayAndClose c AccessError.adminAlreadyBound.message
  else s.say c awaitingIdentification

def identify (s : Session) (frame : String) (c : Controller) : Step :=
  if c.binding.accepts frame then
    match c.binding.take s.id with
    | .ok binding => { s with stage := .ready }.say { c with binding } identified
    | .error e => { s with stage := .unidentified }.sayAndClose c e.message
  else
    { s with stage := .unidentified }.say c awaitingIdentification

def commit (s : Session) (change : Change) (o : Occasion) (c : Controller) : Step :=
  let s := { s with stage := .ready }
  match c.commit change o.number with
  | (.error e, c) => { s.refuse c e with change := some change }
  | (.ok record, c) =>
    let events := [Audit.Event.ofRecord (verbOf change).text record]
    { s.say (c.recordAll o.now events) (doneText change) with events, change := some change }

/-- Asks for confirmation of a change of a record that is there. -/
def propose (s : Session) (change : Change) (kind : RecordKind) (name : String)
    (c : Controller) : Step :=
  match missing? c.engine.registry kind name with
  | some e => s.refuse c e
  | none => { s with stage := .awaitingConfirmation change }.say c confirmPrompt

def run (s : Session) (command : Command) (o : Occasion) (c : Controller) : Step :=
  let s := { s with stage := .ready }
  match command with
  | .newDoor name level => s.commit (.addDoor name level) o c
  | .newUser name level =>
    if (c.engine.registry.user? name).isSome then s.refuse c .userExists
    else { s with stage := .awaitingCredential name level }.say c scanCredential
  | .remove kind name => s.propose (.remove kind name) kind name c
  | .edit kind old new level => s.propose (.edit kind old new level) kind old c
  | .getLog kind key =>
    match c.trail.find kind key c.disk with
    | .ok path => s.answer c [.file path]
    | .error e => s.refuse c e
  | .help => s.answer c (helpLines.map .text)
  | .exit => s.sayAndClose (c.release s.id) goodbye
  | .shutdown => s.sayAndClose { c.release s.id with shutdownRequested := true } shuttingDown

def dispatch (s : Session) (frame : String) (o : Occasion) (c : Controller) : Step :=
  match Command.parse frame with
  | .error e => { s with stage := .ready }.refuse c e
  | .ok command => { s.run command o c with command := some command }

/-- Takes a frame for the credential of the user that is being added. -/
def readCredential (s : Session) (name : String) (level : Level) (frame : String)
    (o : Occasion) (c : Controller) : Step :=
  let credential := Text.trimmed frame
  if endsSession frame then s.dispatch frame o c
  else if credential = "" then s.refuse c .badSyntax
  else
    { s with stage := .awaitingConfirmation (.addUser name level credential) }.say c confirmPrompt

/-- Takes a frame for the answer to the question whether a change is to be made. -/
def readConfirmation (s : Session) (change : Change) (frame : String) (o : Occasion)
    (c : Controller) : Step :=
  let answer := Text.trimmed frame
  if answer = "approved" then s.commit change o c
  else if answer = "denied" then { s with stage := .ready }.say c cancelled
  else if endsSession frame then s.dispatch frame o c
  else s.refuse c .badSyntax

def receive (s : Session) (frame : String) (o : Occasion) (c : Controller) : Step :=
  match s.stage with
  | .unidentified => s.identify frame c
  | .ready => s.dispatch frame o c
  | .awaitingCredential name level => s.readCredential name level frame o c
  | .awaitingConfirmation change => s.readConfirmation change frame o c

end Session

end DoorAccess.Console
