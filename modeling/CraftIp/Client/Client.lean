import CraftIp.Infra.Table
import CraftIp.Shared.SocketPacket

/-!
# `client/src/structs.rs` and `client/src/client.rs`

The table of the proxy client and the arms of the loop of `Client::handle`.

The channel of a local connection is named by the number of the connection. The channel for
the statistics is what was sent on it; its receiver is there for as long as the client is.
-/

namespace CraftIp

open Infra

/-- `Stats`. -/
inductive Stats
  | Connected
  | ClientsConnected (clients : UInt16)
  | Ping (ping : UInt16)
  deriving DecidableEq

/-- `State`. -/
structure State where
  connections : Table UInt16 Nat
  statsTx : Option (List Stats)

namespace State

/-- `State::default`. -/
def new : State := { connections := ∅, statsTx := none }

/-- `State::set_stats_tx`, with a channel on which this was sent. -/
def setStatsTx (self : State) (sent : List Stats) : State := { self with statsTx := some sent }

/-- `tx.send(stats)`, if there is a channel. -/
def sendStats (self : State) (stats : Stats) : State :=
  { self with statsTx := self.statsTx.map fun sent => sent ++ [stats] }

/-- `Stats::ClientsConnected(self.connections.len() as u16)`. -/
def clientsConnected (self : State) : Stats :=
  .ClientsConnected (UInt16.ofNat self.connections.keys.length)

/-- `State::add_connection`. -/
def addConnection (self : State) (id : UInt16) (tx : Nat) : State :=
  let self := { self with connections := self.connections.insert id tx }
  self.sendStats self.clientsConnected

/-- `State::remove_connection`. -/
def removeConnection (self : State) (id : UInt16) : State :=
  let self := { self with connections := self.connections.erase id }
  self.sendStats self.clientsConnected

/-- The derived `Debug` of a `MinecraftDataPacket`. -/
def debug (msg : MinecraftDataPacket) : String :=
  "MinecraftDataPacket \x7b data: " ++ toString (msg.data.map UInt8.toNat) ++ " \x7d"

/--
`State::send_to`: the channel that got the message, if it was still open.

`closed` are the channels whose receiver is gone.
-/
def sendTo (self : State) (closed : Nat → Bool) (id : UInt16) (msg : MinecraftDataPacket) :
    Except String (State × Option Nat) :=
  match self.connections.lookup id with
  | none => .error ("could not find client id " ++ toString id.toNat ++ ", " ++ debug msg)
  | some channel =>
    if closed channel then .ok ({ self with connections := self.connections.erase id }, none)
    else .ok (self, some channel)

@[simp] theorem addConnection_connections (self : State) (id : UInt16) (tx : Nat) :
    (self.addConnection id tx).connections = self.connections.insert id tx := rfl

@[simp] theorem removeConnection_connections (self : State) (id : UInt16) :
    (self.removeConnection id).connections = self.connections.erase id := rfl

section
variable {self : State} {closed : Nat → Bool} {id : UInt16} {msg : MinecraftDataPacket} {tx : Nat}

theorem sendTo_unknown (h : self.connections.lookup id = none) : self.sendTo closed id msg
    = .error ("could not find client id " ++ toString id.toNat ++ ", " ++ debug msg) := by
  rw [sendTo, h]

theorem sendTo_open (h : self.connections.lookup id = some tx) (ho : closed tx = false) :
    self.sendTo closed id msg = .ok (self, some tx) := by
  rw [sendTo, h]
  exact if_neg (by rw [ho]; decide)

/-- A connection whose channel is closed is taken out, and nothing is sent about it. -/
theorem sendTo_closed (h : self.connections.lookup id = some tx) (ho : closed tx = true) :
    self.sendTo closed id msg
      = .ok ({ self with connections := self.connections.erase id }, none) := by
  rw [sendTo, h]
  exact if_pos ho

end

end State

namespace Client

/-- `ClientToProxy` of the client: what the local connections tell the loop. -/
inductive ClientToProxy
  | Packet (id : UInt16) (pkg : MinecraftDataPacket)
  | RemoveMinecraftClient (id : UInt16)
  | Death (msg : String)
  deriving DecidableEq

/-- How the loop of `Client::handle` was left. -/
inductive Ended
  | returned (result : Except String Unit)
  | panicked (message : String)

/-- The milliseconds since 1970 as a `u16`. -/
def stamp (millis : Nat) : UInt16 := UInt16.ofNat millis

/-- `saturating_sub`. -/
def saturatingSub (a b : UInt16) : UInt16 := if b ≤ a then a - b else 0

/-- The arms for a message from a local connection: the table after it and the packet for the proxy. -/
def onConnection (state : State) : ClientToProxy → Except Ended (State × SocketPacket)
  | .Packet id pkg => .ok (state, .ProxyData (.new pkg id))
  | .RemoveMinecraftClient id => .ok (state.removeConnection id, .ProxyDisconnect id)
  | .Death msg => .error (.returned (.error msg))

/--
The arms for a packet from the proxy: the table after it, and what goes to a local connection.

A new connection gets the channel `k`.
-/
def onProxy (state : State) (closed : Nat → Bool) (k millis : Nat) :
    SocketPacket → Except Ended (State × Option (Nat × MinecraftDataPacket))
  | .ProxyJoin clientId => .ok (state.addConnection clientId k, none)
  | .ProxyData packet =>
    match state.sendTo closed packet.clientId packet.packet with
    | .error e => .error (.returned (.error e))
    | .ok (state, channel) => .ok (state, channel.map fun tx => (tx, packet.packet))
  | .ProxyDisconnect clientId => .ok (state.removeConnection clientId, none)
  | .ProxyPong ping => .ok (state.sendStats (.Ping (saturatingSub (stamp millis) ping)), none)
  | _ => .error (.panicked "not implemented: Message not implemented!")

end Client

end CraftIp
