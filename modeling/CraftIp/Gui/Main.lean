import CraftIp.Infra.Bytes

/-!
# `client-gui/src/main.rs` and `client-gui/src/gui_channel.rs`

The state the GUI shares with the controller, and what a click changes in it. Of `render`
only the parts that can be clicked are here.

`egui` denies all interaction with what was disabled once, so a button is enabled when
everything around it is.
-/

namespace CraftIp.Gui

open Infra

/-- `ServerAuthentication` of `client/src/structs.rs`, with a `ServerPrivateKey`. -/
inductive ServerAuthentication
  | Key (key : Bytes)
  deriving DecidableEq

/-- `Server` of `client/src/structs.rs`. -/
structure Server where
  server : String
  localAddr : String
  auth : ServerAuthentication
  deriving DecidableEq

/-- `ServerState`. -/
inductive ServerState
  | Disconnected
  | Connecting
  | Connected
  | Disconnecting
  deriving DecidableEq

/-- `GuiTriggeredEvent`. -/
inductive GuiTriggeredEvent
  | Connect (server : Server)
  | Disconnect
  deriving DecidableEq

/-- `ServerPanel`. -/
structure ServerPanel where
  server : String
  auth : ServerAuthentication
  connected : UInt16
  localAddr : String
  editLocal : Option String
  state : ServerState
  error : Option String
  deriving DecidableEq

/-- The value of decimal digits, highest first. -/
def decimalValue (digits : List Char) : Nat :=
  digits.foldl (fun n c => n * 10 + (c.toNat - '0'.toNat)) 0

/-- `str::parse::<u16>`: decimal digits, with a sign or without. -/
def parseU16 (s : String) : Option Nat :=
  let digits := match s.toList with
    | '+' :: rest => rest
    | cs => cs
  if digits ≠ [] ∧ digits.all Char.isDigit ∧ decimalValue digits < 65536 then
    some (decimalValue digits)
  else none

namespace ServerPanel

/-- `ServerPanel::from`. -/
def ofServer (server : Server) : ServerPanel :=
  { server := server.server, auth := server.auth, connected := 0, localAddr := server.localAddr,
    editLocal := none, state := .Disconnected, error := none }

/-- `Server::from`. -/
def toServer (self : ServerPanel) : Server :=
  { server := self.server, localAddr := self.localAddr, auth := self.auth }

/-- `s.state != ServerState::Disconnected`. -/
def isActive (self : ServerPanel) : Bool := self.state ≠ .Disconnected

/-- What the button at the bottom of the panel asks for when `enabled` holds of the panel. -/
def buttonEnabled (self : ServerPanel) (enabled : Bool) : Bool :=
  enabled && self.state ≠ .Disconnecting && self.editLocal.isNone

/-- The server of a `Connect`: a port stands for this computer. -/
def connectServer (self : ServerPanel) : Server :=
  match parseU16 self.localAddr with
  | some port => { self.toServer with localAddr := "localhost:" ++ toString port }
  | none => self.toServer

/-- A click on this button. `none` is `unreachable!`. -/
def click (self : ServerPanel) : Option (ServerPanel × GuiTriggeredEvent) :=
  let self := { self with error := none }
  match self.state with
  | .Connected | .Connecting => some ({ self with state := .Disconnecting }, .Disconnect)
  | .Disconnected => some ({ self with state := .Connecting }, .Connect self.connectServer)
  | .Disconnecting => none

end ServerPanel

/-- What can be done with the local address of a panel. -/
inductive Edit
  /-- The button that starts it. -/
  | start
  /-- Typing. -/
  | type (text : String)
  | accept
  | cancel

/-- The widgets of the local address, when they are enabled. -/
def ServerPanel.edit (self : ServerPanel) : Edit → Option ServerPanel
  | .start =>
    if self.editLocal = none ∧ self.state = .Disconnected then
      some { self with editLocal := some self.localAddr }
    else none
  | .type text => self.editLocal.map fun _ => { self with editLocal := some text }
  | .accept => self.editLocal.map fun text => { self with localAddr := text, editLocal := none }
  | .cancel => self.editLocal.map fun _ => { self with editLocal := none }

/-- `GuiState`. -/
structure GuiState where
  servers : Option (List ServerPanel)
  deriving DecidableEq

namespace GuiState

/-- `.iter_mut().find(|s| s.state != Disconnected).map(closure)`. -/
def modifyActive (closure : ServerPanel → ServerPanel) :
    List ServerPanel → Option (List ServerPanel)
  | [] => none
  | s :: rest =>
    if s.isActive then some (closure s :: rest) else (modifyActive closure rest).map (s :: ·)

/-- `GuiState::set_active_server`. -/
def setActiveServer (self : GuiState) (closure : ServerPanel → ServerPanel) :
    Except String GuiState :=
  match self.servers with
  | none => .error "no servers found"
  | some servers =>
    match modifyActive closure servers with
    | none => .error "no active server found"
    | some servers => .ok { self with servers := some servers }

/-- Whether the panel of a server can be used at all: `enabled` in `App::update`. -/
def panelEnabled (servers : List ServerPanel) (server : ServerPanel) : Bool :=
  let alreadyConnected := servers.any ServerPanel.isActive
  !alreadyConnected || server.isActive

/-- A click on the button of the `i`-th server. -/
def click (self : GuiState) (i : Nat) : Option (GuiState × GuiTriggeredEvent) := do
  let servers ← self.servers
  let server ← servers[i]?
  if server.buttonEnabled (panelEnabled servers server) then
    let (server, event) ← server.click
    return ({ self with servers := some (servers.set i server) }, event)
  else none

/-- The widgets of the local address of the `i`-th server. -/
def edit (self : GuiState) (i : Nat) (e : Edit) : Option GuiState := do
  let servers ← self.servers
  let server ← servers[i]?
  if panelEnabled servers server then
    let server ← server.edit e
    return { self with servers := some (servers.set i server) }
  else none

end GuiState

end CraftIp.Gui
