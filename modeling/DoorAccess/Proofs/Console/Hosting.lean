import DoorAccess.Proofs.Console.Course
import DoorAccess.Server

/-!
An admin's connection on a server. Whatever comes in on the ports, the server goes on asking for the
name in its settings; and what it makes of a connection that has just come, with nothing in between,
is what the connection makes of it by itself.
-/
namespace DoorAccess

/-! ### The name that a server asks for -/

namespace Console

theorem Binding.release_name (b : Binding) (id : ConnectionId) : (b.release id).name = b.name := by
  rw [release]
  split <;> rfl

theorem Session.runs_name {s : Session} {o : Occasion} {c : Controller} {command : Command}
    {step : Step} (runs : Runs s o c command step) :
    step.controller.binding.name = c.binding.name := by
  cases runs with
  | door => rw [commit_binding]
  | scan | prompt | refusal | log | help => rfl
  | exit | shutdown => exact Binding.release_name _ _

theorem Session.receive_name (s : Session) (frame : String) (o : Occasion) (c : Controller) :
    (s.receive frame o c).controller.binding.name = c.binding.name := by
  have receives := s.receive_receives frame o c
  generalize s.receive frame o c = step at receives
  cases receives with
  | stranger | turnedAway | identified | unreadable | credential | held | denied => rfl
  | command _ _ _ step runs | left _ _ _ _ step runs =>
      have same := runs_name runs
      exact same
  | approved => rw [commit_binding]

namespace Connection

theorem close_name (s : Served) :
    (close alone s).controller.binding.name = s.controller.binding.name := by
  rw [close]
  split
  · exact Binding.release_name _ _
  · rfl

theorem follow_name (s : Served) (step : Step) :
    (follow alone s step).controller.binding.name = step.controller.binding.name := by
  rw [follow]
  dsimp only
  split
  · exact close_name _
  · rfl

theorem serve_name (clock : Nat → Occasion) (s : Served) (frames : List String) :
    (serve clock alone s frames).controller.binding.name = s.controller.binding.name := by
  induction frames generalizing s with
  | nil => rfl
  | cons frame frames ih =>
      rw [serve]
      split
      · rw [ih, follow_name, Session.receive_name, alone]
      · rfl

theorem serveReading_name (k : Connection) (clock : Nat → Occasion) (c : Controller)
    (r : Wire.Reading) :
    (k.serveReading clock alone c r).controller.binding.name = c.binding.name := by
  rw [serveReading]
  split
  · rw [close_name, serve_name]
  · rw [serve_name]

theorem accept_name (id : ConnectionId) (maxLength : Nat) (c : Controller) :
    (accept alone id maxLength c).controller.binding.name = c.binding.name := by
  rw [accept, follow_name, Session.connect_controller]

theorem feed_name (k : Connection) (clock : Nat → Occasion) (chunk : Bytes) (c : Controller) :
    (k.feed clock alone chunk c).controller.binding.name = c.binding.name := by
  rw [feed]
  split
  · exact serveReading_name k clock c _
  · rfl

theorem finish_name (k : Connection) (clock : Nat → Occasion) (c : Controller) :
    (k.finish clock alone c).controller.binding.name = c.binding.name := by
  rw [finish]
  split
  · rw [close_name, serveReading_name]
  · rfl

end Connection

end Console

namespace Reader

theorem receive_binding (frame : String) (now : Audit.Moment) (c : Controller) :
    (receive frame now c).controller.binding = c.binding := by
  rw [receive]
  split
  · rfl
  · exact c.recordAll_binding now _

namespace Connection

theorem serve_binding (clock : Nat → Occasion) (s : Served) (frames : List String) :
    (serve clock s frames).controller.binding = s.controller.binding := by
  induction frames generalizing s with
  | nil => rfl
  | cons frame frames ih =>
      rw [serve]
      split
      · rw [ih, receive_binding]
      · rfl

theorem serveReading_binding (k : Connection) (clock : Nat → Occasion) (c : Controller)
    (r : Wire.Reading) : (k.serveReading clock c r).controller.binding = c.binding := by
  rw [serveReading]
  split <;> exact serve_binding clock _ r.frames

theorem feed_binding (k : Connection) (clock : Nat → Occasion) (chunk : Bytes) (c : Controller) :
    (k.feed clock chunk c).controller.binding = c.binding := by
  rw [feed]
  split
  · exact serveReading_binding k clock c _
  · rfl

theorem finish_binding (k : Connection) (clock : Nat → Occasion) (c : Controller) :
    (k.finish clock c).controller.binding = c.binding := by
  rw [finish]
  split
  · exact serveReading_binding k clock c _
  · rfl

end Connection

end Reader

namespace Server

/-- What happens on the ports of a server. -/
inductive Event
  | accept (port : Port)
  | feed (clock : Nat → Occasion) (port : Port) (id : ConnectionId) (chunk : Bytes)
  | finish (clock : Nat → Occasion) (port : Port) (id : ConnectionId)

def take (s : Server) : Event → Server
  | .accept port => (s.accept port).2.server
  | .feed clock port id chunk => (s.feed clock port id chunk).server
  | .finish clock port id => (s.finish clock port id).server

def run (s : Server) (events : List Event) : Server := events.foldl take s

/-- The server works with these settings, and the place is taken under the name in them. -/
structure IsNamedBy (s : Server) (config : Config) : Prop where
  settings : s.config = config
  name : s.controller.binding.name = config.adminName

namespace IsNamedBy
variable {s : Server} {config : Config}

theorem of_start {number : UInt32} {d : Disk} (started : start config number d = .ok s) :
    s.IsNamedBy config := by
  rw [start] at started
  split at started
  · cases started
  · next prepared _ =>
      rw [Controller.open] at started
      split at started
      · cases started
      · cases started
        exact ⟨rfl, rfl⟩

theorem followReader (named : s.IsNamedBy config) (id : ConnectionId) {served : Reader.Served}
    (same : served.controller.binding = s.controller.binding) :
    (s.followReader id served).server.IsNamedBy config := by
  rw [Server.followReader, keepReader]
  dsimp only
  split <;> exact ⟨named.settings, (congrArg _ same).trans named.name⟩

theorem followConsole (named : s.IsNamedBy config) (id : ConnectionId) {served : Console.Served}
    (same : served.controller.binding.name = s.controller.binding.name) :
    (s.followConsole id served).server.IsNamedBy config := by
  rw [Server.followConsole, keepConsole]
  dsimp only
  split
  · exact ⟨named.settings, same.trans named.name⟩
  · exact ⟨named.settings, (Console.Binding.release_name _ _).trans (same.trans named.name)⟩

theorem take (named : s.IsNamedBy config) (e : Event) : (s.take e).IsNamedBy config := by
  cases e with
  | accept port =>
      cases port with
      | reader =>
          simp only [Server.take, accept, keepReader]
          split <;> exact ⟨named.settings, named.name⟩
      | admin =>
          have greeted : ({ s with adminPort := s.adminPort.accept.2 } : Server).IsNamedBy config :=
            ⟨named.settings, named.name⟩
          exact greeted.followConsole _ (Console.Connection.accept_name _ _ _)
  | feed clock port id chunk =>
      cases port with
      | reader =>
          simp only [Server.take, feed]
          split
          · exact named
          · exact named.followReader id (Reader.Connection.feed_binding _ _ _ _)
      | admin =>
          simp only [Server.take, feed]
          split
          · exact named
          · exact named.followConsole id (Console.Connection.feed_name _ _ _ _)
  | finish clock port id =>
      cases port with
      | reader =>
          simp only [Server.take, finish]
          split
          · exact named
          · exact named.followReader id (Reader.Connection.finish_binding _ _ _)
      | admin =>
          simp only [Server.take, finish]
          split
          · exact named
          · exact named.followConsole id (Console.Connection.finish_name _ _ _)

theorem run (named : s.IsNamedBy config) (events : List Event) :
    (s.run events).IsNamedBy config := by
  induction events generalizing s with
  | nil => exact named
  | cons e events ih => exact ih (named.take e)

end IsNamedBy

/-! ### An admin's connection on a server -/

/-- The server has an admin's connection in the state in which it would be by itself. -/
structure Hosts (s : Server) (before : Nat) (id : ConnectionId) (k : Console.Served) : Prop where
  connection : s.consoles[id]? = if k.connection.isOpen then some k.connection else none
  controller : s.controller = if k.connection.isOpen then k.controller else k.controller.release id
  frames : s.frames = before + k.frames

theorem hosts_followConsole (s : Server) (id : ConnectionId) (served : Console.Served) :
    (s.followConsole id served).server.Hosts s.frames id served := by
  rw [followConsole, keepConsole]
  dsimp only
  split
  · next isOpen => exact ⟨by simp [isOpen], by simp [isOpen], rfl⟩
  · next closed => exact ⟨by simp [closed], by simp [closed], rfl⟩

theorem hosts_accept (s : Server) :
    (s.take (.accept .admin)).Hosts s.frames (s.accept .admin).1
      (Console.Connection.accept Console.alone (s.accept .admin).1 s.config.maxFrameLength
        s.controller) :=
  hosts_followConsole { s with adminPort := s.adminPort.accept.2 } _ _

theorem Hosts.feed {s : Server} {before : Nat} {id : ConnectionId} {k : Console.Served}
    (hosts : s.Hosts before id k) (clock : Nat → Occasion) (chunk : Bytes) :
    (s.take (.feed clock .admin id chunk)).Hosts before id
      (k.feed (fun n => clock (before + n)) Console.alone chunk) := by
  obtain ⟨connection, controller, frames⟩ := hosts
  cases isOpen : k.connection.isOpen with
  | true =>
      rw [if_pos isOpen] at connection controller
      have later : s.later clock = k.later fun n => clock (before + n) := by
        funext n
        rw [Server.later, Console.Served.later, frames, Nat.add_assoc]
      have step := s.hosts_followConsole id
        (k.connection.feed (k.later fun n => clock (before + n)) Console.alone chunk k.controller)
      simp only [take, Server.feed, connection, later, controller]
      exact ⟨step.connection, step.controller, by rw [step.frames, frames, Nat.add_assoc]; rfl⟩
  | false =>
      have closed : ¬ k.connection.isOpen = true := by simp [isOpen]
      rw [Console.Connection.feed_of_closed _ _ isOpen]
      rw [if_neg closed] at connection
      simp only [take, Server.feed, connection]
      exact ⟨by rw [connection, if_neg closed], controller, frames⟩

/-- What an admin's connection that has just come makes of some chunks, with nothing in between. -/
theorem hosts_run (s : Server) (clock : Nat → Occasion) (chunks : List Bytes) :
    let id := (s.accept .admin).1
    (s.run (.accept .admin :: chunks.map (.feed clock .admin id ·))).Hosts s.frames id
      (Console.Connection.attend id s.config.maxFrameLength s.controller
        (fun n => clock (s.frames + n)) Console.alone chunks false) := by
  intro id
  have fed {k : Console.Served} {s' : Server} (hosts : s'.Hosts s.frames id k)
      (chunks : List Bytes) :
      (s'.run (chunks.map (.feed clock .admin id ·))).Hosts s.frames id
        (chunks.foldl (Console.Served.feed (fun n => clock (s.frames + n)) Console.alone) k) := by
    induction chunks generalizing s' k with
    | nil => exact hosts
    | cons chunk chunks ih => exact ih (hosts.feed clock chunk)
  exact fed s.hosts_accept chunks

end Server

end DoorAccess
