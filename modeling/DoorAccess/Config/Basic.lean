import DoorAccess.Text.Blank

/-!
The settings of a server, their defaults, and the conditions they have to meet together.
-/
namespace DoorAccess

structure AuditSettings where
  enabled : Bool := true
  directory : String := "logs"
deriving DecidableEq, Repr

structure MetricsSettings where
  enabled : Bool := false
  port : UInt16 := 9100
deriving DecidableEq, Repr

structure Config where
  host : String := "0.0.0.0"
  readerPort : UInt16 := 9000
  adminPort : UInt16 := 9001
  adminName : String := "adminReader"
  workerThreads : Nat := 4
  logLevel : String := "info"
  storePath : String := "config.json"
  maxFrameLength : Nat := 8192
  audit : AuditSettings := {}
  metrics : MetricsSettings := {}
deriving DecidableEq, Repr

namespace Config

/-- Counts and lengths are 64-bit numbers. -/
def maxCount : Nat := Nat.pow 2 64 - 1

/-- No more threads than this are ever started. -/
def maxThreads : Nat := 4

def threads (requested : Nat) : Nat := max 1 (min requested maxThreads)

inductive Fault
  | readerPortZero
  | adminPortZero
  | samePorts
  | noHost
  | noAdminName
  | blankInAdminName
  | noThreads
  | noStorePath
  | shortFrames
  | noLogDirectory
  | metricsPortZero
  | metricsPortTaken
deriving DecidableEq, Repr

def Fault.message : Fault → String
  | readerPortZero => "client_port cannot be 0"
  | adminPortZero => "admin_port cannot be 0"
  | samePorts => "client_port and admin_port must differ"
  | noHost => "host cannot be empty"
  | noAdminName => "admin_name cannot be empty"
  | blankInAdminName => "admin_name cannot contain whitespace"
  | noThreads => "worker_threads cannot be 0"
  | noStorePath => "store_path cannot be empty"
  | shortFrames => "max_frame_length must be at least 64 bytes"
  | noLogDirectory => "audit.log_dir cannot be empty when auditing is enabled"
  | metricsPortZero => "metrics.port cannot be 0"
  | metricsPortTaken => "metrics.port cannot be the same as a service port"

def fault? (c : Config) : Option Fault :=
  if c.readerPort = 0 then some .readerPortZero
  else if c.adminPort = 0 then some .adminPortZero
  else if c.readerPort = c.adminPort then some .samePorts
  else if Text.isAllBlank c.host then some .noHost
  else if Text.isAllBlank c.adminName then some .noAdminName
  else if c.adminName.toList.any Text.isBlank then some .blankInAdminName
  else if c.workerThreads = 0 then some .noThreads
  else if Text.isAllBlank c.storePath then some .noStorePath
  else if c.maxFrameLength < 64 then some .shortFrames
  else if c.audit.enabled ∧ Text.isAllBlank c.audit.directory then some .noLogDirectory
  else if c.metrics.enabled ∧ c.metrics.port = 0 then some .metricsPortZero
  else if c.metrics.enabled ∧ (c.metrics.port = c.readerPort ∨ c.metrics.port = c.adminPort) then
    some .metricsPortTaken
  else none

end Config

end DoorAccess
