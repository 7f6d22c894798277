import CraftIp.Gui.Main
import CraftIp.Shared.Crypto
import CraftIp.Shared.SocketPacket

/-!
# `client/src/client.rs`: `Client::connect`

The steps of `Client::connect` in their order. A `Dialing` is a place in that function where
it waits, and a `DialEvent` is what ends the waiting.
-/

namespace CraftIp

open Infra

/--
`ClientError`. An error of `io`, of the codec or of `anyhow` is its debug text.

`UnexpectedPacket` holds the debug text of what was read; here it is what was read.
-/
inductive ClientError
  | Io (error : String)
  | ProtocolError (error : String)
  | ProxyClosedConnection
  | UserClosedConnection
  | Timeout
  | ProxyError (message : String)
  | MinecraftServerNotFound
  | UnexpectedPacket (read : Option (Except String SocketPacket))
  | Other (error : String)
  deriving DecidableEq

/-- Where `Client::connect` is. -/
inductive Dialing
  /-- Connecting to the local Minecraft server. -/
  | probing
  /-- Connecting to the proxy. -/
  | dialing
  /-- Sending the `ProxyHello`. -/
  | greeting
  /-- Waiting for the `ProxyAuthRequest`. -/
  | awaiting
  /-- Sending the `ProxyAuthResponse`. -/
  | answering
  /-- In the `select!`. -/
  | choosing
  /-- Sending `Stats::Connected`. -/
  | reporting
  | done (result : Except ClientError Unit)
  /-- The key pair could not be read. -/
  | panicked
  deriving DecidableEq

/-- What `Client::connect` was waiting for. -/
inductive DialEvent
  /-- `TcpStream::connect`. -/
  | connected (result : Except String Unit)
  /-- The socket took what was sent, or failed to. -/
  | flushed (result : Except String Unit)
  /-- `proxy.next()`. -/
  | next (packet : Option (Except String SocketPacket))
  /-- The 10 s for the `ProxyAuthRequest` are over. -/
  | timeout
  /-- `control_rx.recv()`. -/
  | control
  /-- `stats_tx.send`. -/
  | reported (result : Except String Unit)
  deriving DecidableEq

/-- `Server::new_from_key` of `client/src/structs.rs`. -/
def Gui.Server.newFromKey (ring : Ed25519) (sha256 : Bytes → Vector UInt8 32)
    (encode : String → Bytes → String) (key : ServerPrivateKey) : Outcome Gui.Server := do
  let publicKey ← key.getPublicKey ring
  let id ← publicKey.getHost sha256 encode
  return { server := id ++ KEY_SERVER_SUFFIX, localAddr := "25565", auth := .Key key.key }

namespace Client

variable (ring : Ed25519) (server : Gui.Server)

/-- The private key of `server.auth`. -/
def privateKey : ServerPrivateKey :=
  match server.auth with
  | .Key key => ⟨key⟩

/-- The first packet. -/
def hello : Outcome ProxyHelloPacket := do
  let publicKey ← (privateKey server).getPublicKey ring
  return { version := PROTOCOL_VERSION, hostname := server.server, auth := .PublicKey publicKey }

end Client

namespace Dialing

variable (ring : Ed25519) (server : Gui.Server)

/-- A step of `Client::connect`, and the packets for the proxy. -/
def step : Dialing → DialEvent → Option (Dialing × List SocketPacket)
  | .probing, .connected (.ok ()) => some (.dialing, [])
  | .probing, .connected (.error _) => some (.done (.error .MinecraftServerNotFound), [])
  | .dialing, .connected (.ok ()) =>
    match Client.hello ring server with
    | .ok packet => some (.greeting, [.ProxyHello packet])
    | .error _ => some (.panicked, [])
  | .dialing, .connected (.error e) => some (.done (.error (.Io e)), [])
  | .greeting, .flushed (.ok ()) => some (.awaiting, [])
  | .greeting, .flushed (.error e) => some (.done (.error (.Io e)), [])
  | .awaiting, .next (some (.ok (.ProxyAuthRequest challenge))) =>
    match (Client.privateKey server).sign ring challenge with
    | .ok signature => some (.answering, [.ProxyAuthResponse signature])
    | .error _ => some (.panicked, [])
  | .awaiting, .next read => some (.done (.error (.UnexpectedPacket read)), [])
  | .awaiting, .timeout => some (.done (.error .Timeout), [])
  | .answering, .flushed (.ok ()) => some (.choosing, [])
  | .answering, .flushed (.error e) => some (.done (.error (.Io e)), [])
  | .choosing, .next (some (.ok (.ProxyHelloResponse _))) => some (.reporting, [])
  | .choosing, .next (some (.ok (.ProxyError e))) => some (.done (.error (.ProxyError e)), [])
  | .choosing, .next none => some (.done (.error .ProxyClosedConnection), [])
  | .choosing, .next (some (.error e)) => some (.done (.error (.ProtocolError e)), [])
  | .choosing, .next read => some (.done (.error (.UnexpectedPacket read)), [])
  | .choosing, .control => some (.done (.error .UserClosedConnection), [])
  | .reporting, .reported (.ok ()) => some (.done (.ok ()), [])
  | .reporting, .reported (.error e) => some (.done (.error (.Other e)), [])
  | _, _ => none

end Dialing

end CraftIp
