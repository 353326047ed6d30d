import DoorAccess.Config.Basic
import DoorAccess.Config.Setting
import DoorAccess.Failure
import DoorAccess.Json.Parser
import DoorAccess.Store.Place
import DoorAccess.Toml.Parser

/-!
Reading settings. A group of settings is written as named fields, or as a list of their values in
order. There are two manners. In a file all settings may be left out and surplus items of a list
do not count. In a complete form only the groups and what is in them may be left out.
-/
namespace DoorAccess

inductive Manner
  | file
  | complete
deriving DecidableEq, Repr

namespace Manner

abbrev Group := List (String × Setting)

def required (m : Manner) (group : Group) (name : String) (read : Setting → Option α)
    (default : α) : Option α :=
  match group.lookup name with
  | some s => read s
  | none => if m = .file then some default else none

def optional (group : Group) (name : String) (read : Setting → Option α) (default : α) :
    Option α :=
  match group.lookup name with
  | some s => read s
  | none => some default

/-- The fields of a group, given the names of all of them in order. -/
def group? (m : Manner) (names : List String) : Setting → Option Group
  | .fields fields => some fields
  | .items items =>
    if m = .file ∨ items.length ≤ names.length then some (names.zip items) else none
  | _ => none

def audit? (m : Manner) (s : Setting) : Option AuditSettings := do
  let group ← m.group? ["enabled", "log_dir"] s
  return {
    enabled := ← optional group "enabled" Setting.flag? true
    directory := ← optional group "log_dir" Setting.text? "logs"
  }

def metrics? (m : Manner) (s : Setting) : Option MetricsSettings := do
  let group ← m.group? ["enabled", "port"] s
  return {
    enabled := ← optional group "enabled" Setting.flag? false
    port := ← optional group "port" Setting.port? 9100
  }

def config? (m : Manner) (fields : Group) : Option Config := do
  let d : Config := {}
  return {
    host := ← m.required fields "host" Setting.text? d.host
    readerPort := ← m.required fields "client_port" Setting.port? d.readerPort
    adminPort := ← m.required fields "admin_port" Setting.port? d.adminPort
    adminName := ← m.required fields "admin_name" Setting.text? d.adminName
    workerThreads :=
      ← m.required fields "worker_threads" (Setting.count? Config.maxCount) d.workerThreads
    logLevel := ← m.required fields "log_level" Setting.text? d.logLevel
    storePath := ← m.required fields "store_path" Setting.text? d.storePath
    maxFrameLength :=
      ← m.required fields "max_frame_length" (Setting.count? Config.maxCount) d.maxFrameLength
    audit := ← optional fields "audit" m.audit? d.audit
    metrics := ← optional fields "metrics" m.metrics? d.metrics
  }

end Manner

namespace Config

def Fault.failure (f : Fault) : Failure := ⟨f.message, []⟩

def checked (c : Config) : Except Failure Config :=
  match c.fault? with
  | some f => .error f.failure
  | none => .ok c

def parseFailure : Failure := ⟨"Failed to parse TOML configuration", []⟩

def ofToml (text : String) : Except Failure Config :=
  let config? := do Manner.file.config? (Setting.ofTomlEntries (← Toml.parse? text))
  match config? with
  | none => .error parseFailure
  | some c => c.checked

def load (path : String) (d : Disk) : Except Failure Config :=
  match (FilePlace.ofText path).read d with
  | .error e => .error (unreadable e.message)
  | .ok bytes =>
    match Text.Utf8.decode? bytes with
    | none => .error (unreadable "stream did not contain valid UTF-8")
    | some cs =>
      (ofToml (String.ofList cs)).mapError (·.during ("Invalid config file '" ++ path ++ "'"))
where
  unreadable (reason : String) : Failure :=
    (Failure.mk reason []).during ("Failed to read config file at '" ++ path ++ "'")

/-- The settings of a file, or the defaults if it does not exist. -/
def loadOrDefault (path : String) (d : Disk) : Except Failure Config :=
  if path ≠ "" ∧ (FilePlace.ofText path).exists? d then load path d else .ok {}

end Config

end DoorAccess
