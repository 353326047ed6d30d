import DoorAccess.CommandLine
import DoorAccess.Connection.Transfer
import DoorAccess.Metrics
import Std.Async.DNS
import Std.Async.Signal
import Std.Async.TCP
import Std.Sync.Mutex
import Std.Time

/-!
The program: files, clocks and sockets around the server. A step of the server is tried first, to
learn which files it needs; then it is made with these files as they are, and what it has changed
is written back.
-/
namespace DoorAccess.Program

open Std.Async (Async background)
open Std.Async.TCP.Socket (Client)

/-! Files -/

def ofByteArray (b : ByteArray) : Bytes := b.toList

def toByteArray (b : Bytes) : ByteArray := ⟨b.toArray⟩

def content? (path : String) (d : Disk) : Option Bytes := ((FilePlace.ofText path).read d).toOption

/-- Copies a file to the modelled disk as it is now. -/
def bring (d : Disk) (path : String) : IO Disk := do
  let place := FilePlace.ofText path
  let some p := place.path? | return d
  let bytes ← try (some ∘ ofByteArray) <$> IO.FS.readBinFile path catch _ => pure none
  match bytes with
  | some bytes => return (place.directory.make d).2.set p (.file bytes)
  | none => return d.unset p

def makeParent (path : String) : IO Unit := do
  match Place.parentText? path with
  | none | some "" => return
  | some parent => IO.FS.createDirAll parent

/-- Gives a file its new content at once. -/
def replace (path : String) (number : UInt32) (bytes : Bytes) : IO Unit := do
  makeParent path
  let temp := Store.tempName path number
  try
    IO.FS.writeBinFile temp (toByteArray bytes)
    IO.FS.rename temp path
  catch e =>
    try IO.FS.removeFile temp catch _ => pure ()
    throw e

def extend (path : String) (before after : Bytes) : IO Unit := do
  makeParent path
  IO.FS.withFile path .append fun h => h.write (toByteArray (after.drop before.length))

/-- Writes the store back if it has changed. Tells whether it could be written. -/
def writeStore (path : String) (number : UInt32) (before after : Disk) : IO Bool := do
  match content? path after with
  | none => return true
  | some bytes =>
    if content? path before = some bytes then return true
    else try replace path number bytes; return true catch _ => return false

/-- Writes a log back if it has grown. A log that cannot be written is passed over. -/
def writeLog (path : String) (before after : Disk) : IO Unit := do
  match content? path after with
  | none => return
  | some bytes =>
    let known := (content? path before).getD []
    if known = bytes then return
    else try extend path known bytes catch _ => return

def moment : IO Audit.Moment := do
  let t ← Std.Time.PlainDateTime.now
  return ⟨Fin.ofNat 10000 t.year.toInt.toNat, Fin.ofNat 13 t.month.val.toNat,
    Fin.ofNat 32 t.day.val.toNat, Fin.ofNat 24 t.hour.val.toNat, Fin.ofNat 60 t.minute.val.toNat⟩

def occasion : IO Occasion := return ⟨← moment, UInt32.ofNat (← IO.rand 0 (Nat.pow 2 32 - 1))⟩

/-! Steps of the server -/

def logsOf (s : Server) (now : Audit.Moment) (step : Server.Step) : List String :=
  match s.controller.trail.root with
  | none => []
  | some root =>
    let written := step.events.flatMap (Audit.targets now)
    let asked := step.commands.filterMap fun
      | .getLog kind key => some (Audit.LogFile.ofRequest kind key)
      | _ => none
    ((written ++ asked).map (·.path root)).eraseDups

/-- A disk on which the store cannot be written. -/
def blocked (path : String) (d : Disk) : Disk :=
  match (FilePlace.ofText path).path? with
  | none => d
  | some p => d.set p .directory

def withDisk (s : Server) (d : Disk) : Server :=
  { s with controller := { s.controller with disk := d } }

def perform (s : Server) (run : Occasion → Server → Server.Step) : IO Server.Step := do
  let o ← occasion
  let store := s.config.storePath
  let logs := logsOf s o.now (run o s)
  let d ← logs.foldlM bring s.controller.disk
  let step := run o (withDisk s d)
  let stored ← writeStore store o.number d step.server.controller.disk
  let step := if stored then step else run o (withDisk s (blocked store d))
  let after := step.server.controller.disk
  for path in logs do
    writeLog path d after
  let kept := if stored then content? store after else content? store d
  let rest := match kept, (FilePlace.ofText store).path? with
    | some bytes, some p => ((FilePlace.ofText store).directory.make .empty).2.set p (.file bytes)
    | _, _ => after
  return { step with server := withDisk step.server rest }

structure Running where
  server : Std.Mutex Server
  ending : IO.Promise Unit

namespace Running

/-- Makes one step while no other is made. -/
def step (r : Running) (run : Occasion → Server → Server.Step) : IO Server.Step := do
  let step ← r.server.atomically do
    let s ← get
    let step ← (perform s run : IO Server.Step)
    set step.server
    return step
  return step

/-- Puts out a reply. A file is read now that its turn has come. -/
def reply (client : Client) (item : Outgoing) : Async Unit := do
  let d ← match item with
    | .text _ => pure Disk.empty
    | .file path => (bring .empty path : IO Disk)
  let out := item.send d
  if !out.bytes.isEmpty then client.send (toByteArray out.bytes)
  if let some e := out.failure then throw (IO.userError e.message)

/-- Puts out what a step gives. Tells whether the connection goes on. -/
def putOut (r : Running) (client : Client) (port : Port) (id : ConnectionId)
    (step : Server.Step) : Async Bool := do
  if !step.output.isEmpty then client.send (toByteArray step.output)
  for item in step.replies do
    reply client item
  if step.server.controller.shutdownRequested then r.ending.resolve ()
  return step.server.isConnected port id

partial def converse (r : Running) (client : Client) (port : Port) (id : ConnectionId) :
    Async Unit := do
  match ← client.recv? 4096 with
  | none =>
    let step ← r.step fun o s => s.finish (fun _ => o) port id
    let _ ← r.putOut client port id step
  | some chunk =>
    let step ← r.step fun o s => s.feed (fun _ => o) port id (ofByteArray chunk)
    if ← r.putOut client port id step then r.converse client port id

def serve (r : Running) (client : Client) (port : Port) : Async Unit := do
  try client.noDelay catch _ => pure ()
  let step ← r.step fun _ s => (s.accept port).2
  let id := match port with
    | .reader => step.server.readerPort.lastId
    | .admin => step.server.adminPort.lastId
  try
    if ← r.putOut client port id step then r.converse client port id
  catch _ =>
    let _ ← r.step fun o s => s.finish (fun _ => o) port id
  try client.shutdown catch _ => pure ()

def report (r : Running) (client : Client) : Async Unit := do
  let some request ← client.recv? 4096 | return
  let line := (textOf (ofByteArray request)).toList.takeWhile (· ≠ '\r')
  let found := (Text.words line).take 2 = ["GET".toList, "/metrics".toList]
  let body ← if found then Metrics.render <$> r.server.atomically get else pure ""
  let head := if found then "200 OK\r\ncontent-type: text/plain; version=0.0.4"
    else "404 Not Found"
  client.send ("HTTP/1.1 " ++ head ++ "\r\nconnection: close\r\ncontent-length: " ++
    toString body.utf8ByteSize ++ "\r\n\r\n" ++ body).toUTF8
  client.shutdown

partial def acceptAll (socket : Std.Async.TCP.Socket.Server) (handle : Client → Async Unit) :
    Async Unit := do
  let client ← socket.accept
  background (try handle client catch _ => pure ())
  acceptAll socket handle

end Running

/-! Starting and ending -/

/-- Listens at a port, or says which port could not be had. -/
def listen (host : String) (port : UInt16) (name : String) :
    IO (Except Failure Std.Async.TCP.Socket.Server) := do
  try
    let addresses ← (Std.Async.DNS.getAddrInfo host "").block
    let some address := addresses[0]? | throw (IO.userError "no address")
    let socket ← Std.Async.TCP.Socket.Server.mk
    socket.bind (match address with
      | .v4 a => .v4 ⟨a, port⟩
      | .v6 a => .v6 ⟨a, port⟩)
    socket.listen 1024
    return .ok socket
  catch e =>
    return .error ((Failure.mk (toString e) []).during
      ("Failed to bind " ++ name ++ " port " ++ toString port.toNat))

def openServer (config : Config) : IO (Except Failure Server) := do
  let d ← bring .empty config.storePath
  let number := (← occasion).number
  match Server.start config number d with
  | .error (f, _) => return .error f
  | .ok s =>
    if ← writeStore config.storePath number d s.controller.disk then return .ok s
    else match Server.start config number (blocked config.storePath d) with
      | .error (f, _) => return .error f
      | .ok s => return .ok s

def awaitSignal (ending : IO.Promise Unit) (signal : Std.Async.Signal) : IO Unit := do
  let waiter ← Std.Async.Signal.Waiter.mk signal false
  let _ ← IO.mapTask (fun _ => ending.resolve ()) (← waiter.wait)

/-- Serves until a signal or an admin ends the program. -/
def serveUntilEnd (config : Config) : IO (Except Failure Unit) := do
  match ← openServer config with
  | .error f => return .error f
  | .ok s =>
    let readers ← match ← listen config.host config.readerPort "client" with
      | .error f => return .error f
      | .ok socket => pure socket
    let admins ← match ← listen config.host config.adminPort "admin" with
      | .error f => return .error f
      | .ok socket => pure socket
    let collectors ← if !config.metrics.enabled then pure none
      else match ← listen config.host config.metrics.port "metrics" with
        | .error f => return .error f
        | .ok socket => pure (some socket)
    let r : Running := ⟨← Std.Mutex.new s, ← IO.Promise.new⟩
    awaitSignal r.ending .sigint
    awaitSignal r.ending .sigterm
    let _ ← (Running.acceptAll readers (r.serve · .reader)).toIO
    let _ ← (Running.acceptAll admins (r.serve · .admin)).toIO
    if let some socket := collectors then
      let _ ← (Running.acceptAll socket r.report).toIO
    let _ ← IO.wait r.ending.result?
    return .ok ()

def run (args : List String) : IO UInt32 := do
  let words := "doorwarden" :: args
  let path := match CommandLine.valueOf "--config" words with
    | .ok (some path) => path
    | _ => CommandLine.defaultPath
  match CommandLine.configure words (← bring .empty path) with
  | .version =>
    IO.println CommandLine.version
    return 0
  | .unreadable f =>
    IO.println f.line
    return 1
  | .failed f =>
    IO.eprintln f.report
    return 1
  | .started config =>
    match ← serveUntilEnd config with
    | .ok () => return 0
    | .error f =>
      IO.eprintln f.report
      return 1

end DoorAccess.Program

def main (args : List String) : IO UInt32 := DoorAccess.Program.run args
