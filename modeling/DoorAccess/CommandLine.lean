import DoorAccess.Config.Format
import DoorAccess.Server

/-!
The command line: which settings its flags change, and what becomes of a run.
-/
namespace DoorAccess.CommandLine

def version : String := "doorwarden version 0.3.0"

def defaultPath : String := "doorwarden.toml"

def valueOf (flag : String) (args : List String) : Except Failure (Option String) :=
  match args.dropWhile (· ≠ flag) with
  | [] => .ok none
  | [_] => .error ⟨flag ++ " flag requires a value", []⟩
  | _ :: value :: _ => .ok (some value)

def port (value : String) : Except Failure UInt16 :=
  match Text.Decimal.signed? 65535 value.toList with
  | some n => .ok (UInt16.ofNat n)
  | none => .error ⟨"Invalid port number: " ++ value, []⟩

def override (args : List String) (c : Config) : Except Failure Config := do
  let c ← match ← valueOf "--client-port" args with
    | some value => pure { c with readerPort := ← port value }
    | none => pure c
  let c ← match ← valueOf "--admin-port" args with
    | some value => pure { c with adminPort := ← port value }
    | none => pure c
  match ← valueOf "--admin-name" args with
  | some adminName => return { c with adminName }
  | none => return c

inductive Outcome
  | version
  /-- The settings could not be read. -/
  | unreadable (f : Failure)
  | failed (f : Failure)
  | started (config : Config)

def configure (args : List String) (d : Disk) : Outcome :=
  if args.contains "--version" then .version
  else
    match valueOf "--config" args with
    | .error f => .failed f
    | .ok path =>
      let path := path.getD defaultPath
      match Config.loadOrDefault path d with
      | .error f =>
        .unreadable ⟨"Failed to load configuration from \"" ++ path ++ "\": " ++ f.line, []⟩
      | .ok c =>
        match override args c with
        | .error f => .failed f
        | .ok c =>
          match c.checked with
          | .error f => .failed (f.during "Invalid configuration")
          | .ok c => .started c

end DoorAccess.CommandLine
