import CraftIp.Infra.Busy
import CraftIp.Tunnel

/-!
# A tunnel whose sends take their time

The two loops of a tunnel await their sends in the arm that sends. Meanwhile a loop does nothing
else, so it takes no packet from the connection, either. Here an arm that a loop has started stays
with it until it is finished, which a connection without room puts off.

The other tasks wait, too: a Minecraft client for its peer when it writes, a local connection for
the local server when it connects or writes. Nothing else waits for them, since their channels have
no bounds.

A loop can end at any time here, also in a send; in the code this is so for a send that fails.
-/

namespace CraftIp

open Infra

deriving instance DecidableEq for TunnelEvent

/-- The two loops of a tunnel. -/
inductive Side
  | server
  | client
  deriving DecidableEq

def Side.other : Side → Side
  | .server => .client
  | .client => .server

/-- The loop that has an arm for it. -/
def TunnelEvent.side : TunnelEvent → Option Side
  | .server .take | .toServer => some .server
  | .client .send | .client (.ping _) | .toClient _ => some .client
  | _ => none

/-- A tunnel, and the arm that each loop has started. -/
abbrev Flow := Busy Side Tunnel TunnelEvent

/-- A session and its proxy client, with sends that take their time. -/
def flowMachine : Machine Flow (Busy.Event TunnelEvent) := tunnelMachine.busy TunnelEvent.side

/-- What a step sends on the connection. -/
def Tunnel.sent (t : Tunnel) : TunnelEvent → List (Nat × SocketPacket)
  | .server e => (t.server.step e).elim [] Prod.snd
  | .client e => (t.client.step e).elim [] Prod.snd
  | .toServer =>
    match t.toServer with
    | (k, packet) :: _ => (t.server.step (.packet k packet)).elim [] Prod.snd
    | [] => []
  | .toClient millis =>
    match t.toClient with
    | (k, packet) :: _ => (t.client.step (.packet k packet millis)).elim [] Prod.snd
    | [] => []

/-- The loop of this side runs. -/
def Tunnel.Runs (t : Tunnel) : Side → Prop
  | .server => t.server.result = none
  | .client => t.client.result = none

/-- What takes data from a tunnel. -/
structure Network where
  /-- There is room for one more packet behind those that are on their way. -/
  room : List (Nat × SocketPacket) → Bool
  /-- The peer of Minecraft client `k` takes what is written to it. -/
  player : Nat → Bool
  /-- The local server answers connection `k`, and takes what is written to it. -/
  localServer : Nat → Bool

/-- A connection that holds `n` packets in each direction, and ends that take everything. -/
def Network.holding (n : Nat) : Network where
  room packets := packets.length < n
  player _ := true
  localServer _ := true

/-- What the tasks of a tunnel do by themselves, when nobody they wait for is missing. -/
def Tunnel.isOwn (net : Network) (t : Tunnel) : TunnelEvent → Bool
  | .server (.hello _) | .server (.drop _) | .server .take => true
  | .server (.receive k) => !t.server.writing k || net.player k
  | .client (.drop _) | .client (.close _) | .client .send => true
  | .client (.connected k) | .client (.take k) => !t.client.waits k || net.localServer k
  | .toServer | .toClient _ => true
  | _ => false

namespace Flow

/-- What is on its way from one side: no longer the packet that the other one has taken. -/
def inFlight (f : Flow) : Side → List (Nat × SocketPacket)
  | .server =>
    match f.hand .client with
    | some (.toClient _) => f.state.toClient.tail
    | _ => f.state.toClient
  | .client =>
    match f.hand .server with
    | some .toServer => f.state.toServer.tail
    | _ => f.state.toServer

/--
The arm of this side need not wait for its send: it sends nothing, or there is room, or nothing is
on its way and the other side reads.
-/
def sends (net : Network) (f : Flow) (side : Side) (e : TunnelEvent) : Bool :=
  f.state.sent e = [] || net.room (f.inFlight side) ||
    ((f.inFlight side).isEmpty && (f.hand side.other).isNone)

/-- A loop finishes a send only if it need not wait. -/
def fits (net : Network) (f : Flow) : Busy.Event TunnelEvent → Bool
  | .start _ => true
  | .finish e => e.side.all fun side => f.sends net side e

/-- The steps of the two ends, when nobody they wait for is missing. -/
def isOwn (net : Network) (f : Flow) : Busy.Event TunnelEvent → Bool
  | .start e => f.state.isOwn net e
  | .finish e =>
    match e.side with
    | some side => f.sends net side e
    | none => f.state.isOwn net e

/-- Neither end can go on. -/
def Rests (net : Network) (f : Flow) : Prop :=
  ∀ e, f.isOwn net e = true → flowMachine.step f e = none

/-- The loop of this side waits for room on the connection. -/
def Blocked (net : Network) (f : Flow) (side : Side) : Prop :=
  ∃ e, f.hand side = some e ∧ f.state.sent e ≠ [] ∧ net.room (f.inFlight side) = false

end Flow

/-- The tunnels whose connection holds `n` packets in each direction. -/
def heldMachine (n : Nat) : Machine Flow (Busy.Event TunnelEvent) :=
  flowMachine.restrict fun f e => f.fits (.holding n) e = true

end CraftIp
