import DoorAccess.Audit.LogFile
import DoorAccess.Error
import DoorAccess.Registry.Record
import DoorAccess.Text.Blank
import DoorAccess.Text.Decimal

/-!
Commands of the admin console. A command is a verb and fields of fixed classes, separated by
blanks; blanks around it do not count. A known verb with anything else behind it is a syntax
error, any other line an unknown command.
-/
namespace DoorAccess.Console

open Audit (LogKind)

inductive Verb
  | newDoor
  | newUser
  | rmDoor
  | rmUser
  | mvDoor
  | mvUser
  | getSystemLog
  | getUserLog
  | getDoorLog
  | exit
  | shutdown
  | help
deriving DecidableEq, Repr

namespace Verb

def all : List Verb :=
  [newDoor, newUser, rmDoor, rmUser, mvDoor, mvUser, getSystemLog, getUserLog, getDoorLog,
    exit, shutdown, help]

def text : Verb → String
  | newDoor => "newDoor"
  | newUser => "newUser"
  | rmDoor => "rmDoor"
  | rmUser => "rmUser"
  | mvDoor => "mvDoor"
  | mvUser => "mvUser"
  | getSystemLog => "getSystemLog"
  | getUserLog => "getUserLog"
  | getDoorLog => "getDoorLog"
  | exit => "exit"
  | shutdown => "shutdown"
  | help => "help"

def ofText? (s : String) : Option Verb := all.find? (·.text = s)

end Verb

inductive Command
  | newDoor (name : String) (level : Level)
  | newUser (name : String) (level : Level)
  | remove (kind : RecordKind) (name : String)
  | edit (kind : RecordKind) (old new : String) (level : Option Level)
  | getLog (kind : LogKind) (key : String)
  | exit
  | shutdown
  | help
deriving DecidableEq, Repr

namespace Command

def verb : Command → Verb
  | newDoor _ _ => .newDoor
  | newUser _ _ => .newUser
  | remove .door _ => .rmDoor
  | remove .user _ => .rmUser
  | edit .door _ _ _ => .mvDoor
  | edit .user _ _ _ => .mvUser
  | getLog .system _ => .getSystemLog
  | getLog .user _ => .getUserLog
  | getLog .door _ => .getDoorLog
  | exit => .exit
  | shutdown => .shutdown
  | help => .help

def isNameChar (c : Char) : Bool := c.isAlphanum || c == '_'

def isDateChar (c : Char) : Bool := c.isDigit || c == '-' || c == '_'

/-- Reads fields off a text, one of each class in order. Before each stand one or more blanks,
and each is a run of one or more characters of its class. -/
def fields : List (Char → Bool) → List Char → Option (List String)
  | [], [] => some []
  | [], _ :: _ => none
  | _ :: _, [] => none
  | isMember :: classes, c :: cs =>
    if Text.isBlank c then
      let start := Text.trimLeft cs
      let field := start.takeWhile isMember
      if field = [] then none
      else (fields classes (start.dropWhile isMember)).map (String.ofList field :: ·)
    else
      none

def level? (field : String) : Option Level :=
  (Text.Decimal.unsigned? 255 field.toList).map UInt8.ofNat

/-- The day a log is asked for, year, month and day with either separator between them. -/
def dayKey? (field : String) : Option String :=
  match field.toList with
  | [a, b, c, d, s, e, f, t, g, h] =>
    if [a, b, c, d, e, f, g, h].all Char.isDigit ∧ ¬s.isDigit ∧ ¬t.isDigit then
      some (String.ofList [a, b, c, d, '_', e, f, '_', g, h])
    else
      none
  | _ => none

def ofArguments? (verb : Verb) (arguments : List Char) : Option Command :=
  match verb with
  | .newDoor => record .newDoor
  | .newUser => record .newUser
  | .rmDoor => named (.remove .door)
  | .rmUser => named (.remove .user)
  | .mvDoor => change .door
  | .mvUser => change .user
  | .getSystemLog =>
    match fields [isDateChar] arguments with
    | some [day] => (dayKey? day).map (.getLog .system)
    | _ => none
  | .getUserLog => named (.getLog .user)
  | .getDoorLog => named (.getLog .door)
  | .exit => bare .exit
  | .shutdown => bare .shutdown
  | .help => bare .help
where
  record (make : String → Level → Command) : Option Command :=
    match fields [isNameChar, Char.isDigit] arguments with
    | some [name, level] => (level? level).map (make name)
    | _ => none
  named (make : String → Command) : Option Command :=
    match fields [isNameChar] arguments with
    | some [name] => some (make name)
    | _ => none
  change (kind : RecordKind) : Option Command :=
    match fields [isNameChar, isNameChar] arguments with
    | some [old, new] => some (.edit kind old new none)
    | _ =>
      match fields [isNameChar, isNameChar, Char.isDigit] arguments with
      | some [old, new, level] => (level? level).map fun level => .edit kind old new (some level)
      | _ => none
  bare (command : Command) : Option Command :=
    if arguments = [] then some command else none

def parse (frame : String) : Except AccessError Command :=
  let line := Text.trim frame.toList
  let word := String.ofList (line.takeWhile fun c => !Text.isBlank c)
  match Verb.ofText? word with
  | none => .error (.unknownCommand word)
  | some verb =>
    match ofArguments? verb (line.dropWhile fun c => !Text.isBlank c) with
    | some command => .ok command
    | none => .error .badSyntax

end Command

def helpLines : List String :=
  ["Commands:",
    "newDoor <name> <level>          - Add door",
    "newUser <name> <level>          - Add user (scan credential, then confirm)",
    "rmDoor <name>                   - Remove door (confirm)",
    "rmUser <name>                   - Remove user (confirm)",
    "mvDoor <old> <new> [level]      - Rename or re-level door (confirm)",
    "mvUser <old> <new> [level]      - Rename or re-level user (confirm)",
    "getSystemLog <YYYY_MM_DD>       - Download the log for one day",
    "getUserLog <name>               - Download the log for one user",
    "getDoorLog <name>               - Download the log for one door",
    "exit                            - Close this admin session",
    "shutdown                        - Stop the server"]

end DoorAccess.Console
