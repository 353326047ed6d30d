import DoorAccess.Server

/-!
What is counted, as text for a collector: for each family a line of help, a line with its kind, and
a line for each sample. A family without samples is left out.
-/
namespace DoorAccess.Metrics

structure Sample where
  suffix : String := ""
  value : Int

structure Family where
  name : String
  help : String
  kind : String
  samples : List Sample

def Family.lines (f : Family) : List String :=
  if f.samples.isEmpty then []
  else
    ["# HELP " ++ f.name ++ " " ++ f.help, "# TYPE " ++ f.name ++ " " ++ f.kind] ++
      f.samples.map fun s => f.name ++ s.suffix ++ " " ++ toString s.value

def labelled (label value : String) : String :=
  "\x7b" ++ label ++ "=\"" ++ value ++ "\"\x7d"

def tallied (label : String) (t : Tally) : List Sample :=
  t.toList.map fun (word, n) => ⟨labelled label word, n⟩

/-- A sample, if there is anything to count. -/
def counted (n : Nat) : List Sample := if n = 0 then [] else [⟨"", n⟩]

def byPort (s : Server) (value : Listener → Int) : List Sample :=
  [("admin", s.adminPort), ("client", s.readerPort)].filterMap fun (name, port) =>
    if port.accepted = 0 then none else some ⟨labelled "listener" name, value port⟩

/-- Requests that were timed. How long they took is not kept. -/
def timed (n : Nat) : List Sample :=
  if n = 0 then [] else [⟨"_bucket" ++ labelled "le" "+Inf", n⟩, ⟨"_count", n⟩]

/-- All families, in the order of their names. -/
def families (s : Server) : List Family :=
  let e := s.controller.engine
  [⟨"doorwarden_admin_commands_total", "Total number of admin commands, labeled by verb.",
      "counter", tallied "verb" s.commands⟩,
    ⟨"doorwarden_authorization_latency_seconds", "Latency of reader authorization in seconds.",
      "histogram", timed ((s.decisions.toList.map (·.2)).foldl (· + ·) 0)⟩,
    ⟨"doorwarden_authorizations_total",
      "Total number of authorization decisions, labeled by outcome.", "counter",
      tallied "outcome" s.decisions⟩,
    ⟨"doorwarden_config_write_failures_total", "Total number of failed configuration rewrites.",
      "counter", counted e.writeFailures⟩,
    ⟨"doorwarden_config_writes_total", "Total number of successful configuration rewrites.",
      "counter", counted e.writes⟩,
    ⟨"doorwarden_connections_accepted_total",
      "Total number of connections accepted, labeled by listener.", "counter",
      byPort s fun port => port.accepted⟩,
    ⟨"doorwarden_connections_live",
      "Number of currently open connections, labeled by listener.", "gauge",
      byPort s (·.live)⟩,
    ⟨"doorwarden_doors", "Number of registered doors.", "gauge", [⟨"", e.doorGauge⟩]⟩,
    ⟨"doorwarden_users", "Number of registered users.", "gauge", [⟨"", e.userGauge⟩]⟩]

def render (s : Server) : String :=
  String.join (((families s).flatMap Family.lines).map (· ++ "\n"))

end DoorAccess.Metrics
