import CraftIp.Client.Client
import CraftIp.Gui.Main
import CraftIp.Infra.Machine

/-!
# `client-gui/src/backend.rs`

`Controller::update` and the tasks it spawns, one for each `Connect`, together with the GUI.
They share the `GuiState` behind its mutex, and every lock is held for one step. What they
send waits in the two channels of the controller.

Of a client it is left open how its connection ends: `connect` and `handle` return any result
at any time, and `handle` sends any statistics before.

A panic is the end: nothing is enabled after the first one.
-/

namespace CraftIp.Gui

open Infra

/-- `Control`. -/
inductive Control
  | Disconnect
  deriving DecidableEq

/-! ## The closures for `set_active_server` -/

namespace ServerPanel

def setClients (clients : UInt16) (s : ServerPanel) : ServerPanel := { s with connected := clients }

def setConnected (s : ServerPanel) : ServerPanel :=
  { s with state := .Connected, connected := 0, error := none }

def setFailed (e : String) (s : ServerPanel) : ServerPanel :=
  { s with error := some ("Error connecting: " ++ e), state := .Disconnected }

def setEnded (err : Except String Unit) (s : ServerPanel) : ServerPanel :=
  let s := match err with
    | .error e => { s with error := some ("Error connecting: " ++ e) }
    | .ok () => s
  { s with state := .Disconnected }

end ServerPanel

/-! ## The task of a client -/

/-- Where the task stands. -/
inductive Phase
  /-- In `client.connect()`. -/
  | connecting
  /-- `connect` returned, and the panel does not know yet. -/
  | connected (result : Except String Unit)
  /-- In `client.handle()`. -/
  | handling
  /-- `handle` returned, and the panel does not know yet. -/
  | handled (result : Except String Unit)
  /-- The panel is disconnected; the client is still there. -/
  | reported
  /-- The task is over, and the receiver of its control channel is gone. -/
  | dropped

/-- A spawned task. -/
structure Session where
  server : Server
  phase : Phase
  /-- What was sent on its control channel. -/
  control : List Control

/-- What a task can do. -/
inductive SessionEvent
  | connect (result : Except String Unit)
  | send (stats : Stats)
  | handle (result : Except String Unit)
  | report
  | drop

/-- The next call of `set_active_server`, and the phase after it. -/
def Phase.report : Phase → Option ((ServerPanel → ServerPanel) × Phase)
  | .connected (.ok ()) => some (.setConnected, .handling)
  | .connected (.error e) => some (.setFailed e, .reported)
  | .handled result => some (.setEnded result, .reported)
  | _ => none

/-- The task has yet to set its panel to `Disconnected`. -/
def Phase.isOpen : Phase → Bool
  | .reported | .dropped => false
  | _ => true

def Phase.isDropped : Phase → Bool
  | .dropped => true
  | _ => false

/-! ## All together -/

/-- Whose `unwrap` it was. -/
inductive Panic
  /-- `set_active_server` in the controller. -/
  | stats
  /-- `control_tx.send` in the controller. -/
  | disconnect
  /-- `set_active_server` in a task. -/
  | session
  deriving DecidableEq

/-- The GUI, the controller and its tasks. -/
structure App where
  state : GuiState
  /-- What waits in `gui_rx` and in `stats_rx`, the oldest first. -/
  events : List GuiTriggeredEvent
  stats : List Stats
  /-- The task at the other end of `control_tx`. -/
  controlTx : Option Nat
  sessions : List Session
  panicked : Option Panic

/-- What can happen. -/
inductive AppEvent
  | click (i : Nat)
  | edit (i : Nat) (e : Edit)
  /-- The two arms of the `select!` of the controller. -/
  | stats
  | event
  | session (i : Nat) (e : SessionEvent)

namespace App

/-- `MyApp::new`, with the servers from the storage. -/
def new (servers : List Server) : App :=
  { state := { servers := some (servers.map .ofServer) }, events := [], stats := [],
    controlTx := none, sessions := [], panicked := none }

/-- `state.lock().unwrap().set_active_server(closure).unwrap()`. -/
def setActiveServer (self : App) (closure : ServerPanel → ServerPanel) (panic : Panic) : App :=
  match self.state.setActiveServer closure with
  | .ok state => { self with state := state }
  | .error _ => { self with panicked := some panic }

/-- The arm for a message of a client. -/
def onStats (self : App) : Stats → App
  | .ClientsConnected clients => self.setActiveServer (.setClients clients) .stats
  | .Connected => self
  | .Ping _ => self

/-- `control_tx.send(Control::Disconnect).unwrap()`. -/
def sendDisconnect (self : App) (i : Nat) : App :=
  match self.sessions[i]? with
  | none => self
  | some session =>
    if session.phase.isDropped then { self with panicked := some .disconnect }
    else { self with
      sessions := self.sessions.set i { session with control := session.control ++ [.Disconnect] } }

/-- The arm for an event of the GUI. -/
def onEvent (self : App) : GuiTriggeredEvent → App
  | .Connect server =>
    let server := if server.localAddr.toList.contains ':' then server
      else { server with server := server.server ++ ":" ++ server.localAddr }
    { self with
      controlTx := some self.sessions.length,
      sessions := self.sessions ++ [{ server := server, phase := .connecting, control := [] }] }
  | .Disconnect =>
    match self.controlTx with
    | some i => self.sendDisconnect i
    | none => self

/-- A step of a task. -/
def onSession (self : App) (i : Nat) (session : Session) : SessionEvent → Option App
  | .connect result =>
    match session.phase with
    | .connecting =>
      -- a connected client says so on the channel for statistics, before `connect` returns
      let stats := match result with
        | .ok () => self.stats ++ [.Connected]
        | .error _ => self.stats
      some { self with
        stats := stats, sessions := self.sessions.set i { session with phase := .connected result } }
    | _ => none
  | .send stats =>
    match session.phase with
    | .handling => some { self with stats := self.stats ++ [stats] }
    | _ => none
  | .handle result =>
    match session.phase with
    | .handling =>
      some { self with sessions := self.sessions.set i { session with phase := .handled result } }
    | _ => none
  | .report =>
    match session.phase.report with
    | some (closure, phase) =>
      some ({ self with sessions := self.sessions.set i { session with phase := phase } }
        |>.setActiveServer closure .session)
    | none => none
  | .drop =>
    match session.phase with
    | .reported =>
      some { self with sessions := self.sessions.set i { session with phase := .dropped } }
    | _ => none

def step (self : App) (e : AppEvent) : Option App :=
  if self.panicked.isSome then none
  else
    match e with
    | .click i => do
      let (state, event) ← self.state.click i
      return { self with state := state, events := self.events ++ [event] }
    | .edit i e => do
      let state ← self.state.edit i e
      return { self with state := state }
    | .stats =>
      match self.stats with
      | [] => none
      | stats :: rest => some ({ self with stats := rest }.onStats stats)
    | .event =>
      match self.events with
      | [] => none
      | event :: rest => some ({ self with events := rest }.onEvent event)
    | .session i e => do
      let session ← self.sessions[i]?
      self.onSession i session e

end App

/-- The application with these servers in its storage. -/
def appMachine (servers : List Server) : Machine App AppEvent where
  init := .new servers
  step := App.step

end CraftIp.Gui
