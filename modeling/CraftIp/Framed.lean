import CraftIp.Shared.PacketCodec
import CraftIp.Tunnel

/-!
# The tunnel over its socket

A session and its proxy client as in `CraftIp.Tunnel`, with the control connection as it is:
each side writes its packets as frames into a stream of bytes, and reads the other stream
through a `Framed`, which has a buffer and a codec of its own. The codec of the session has
seen the `ProxyHello`; that of the client stays in the state in which it was created.

The numbers of the Minecraft clients are kept beside the stream.
-/

namespace CraftIp

open Infra

/-- One direction of the control connection: the end that reads it, and what was written. -/
structure Lane where
  codec : PacketCodec
  /-- The read buffer of the `Framed`. -/
  buf : Bytes
  /-- Written, and not yet read. -/
  stream : Bytes
  /-- Whom the packets in the buffer and in the stream are about. -/
  numbers : List Nat

namespace Lane

variable (bincode : Codec SocketPacket)

def new (codec : PacketCodec) : Lane := { codec := codec, buf := [], stream := [], numbers := [] }

/-- `Framed::send`, packet by packet. -/
def send : Lane → List (Nat × SocketPacket) → Except PacketError Lane
  | lane, [] => .ok lane
  | lane, (k, packet) :: packets => do
    let data ← PacketCodec.encode bincode packet
    send { lane with stream := lane.stream ++ data, numbers := lane.numbers ++ [k] } packets

/-- A read from the socket takes `n` bytes. It happens only when the codec asks for more. -/
def fill (lane : Lane) (n : Nat) : Option Lane :=
  match lane.codec.decode bincode lane.buf with
  | (.ok none, codec, buf) =>
    if n ≠ 0 ∧ n ≤ lane.stream.length then
      some { lane with
        codec := codec, buf := buf ++ lane.stream.take n, stream := lane.stream.drop n }
    else none
  | _ => none

/-- `Framed::next`, when it has something to return. -/
def next (lane : Lane) : Option (Outcome (Nat × SocketPacket) × Lane) :=
  match lane.codec.decode bincode lane.buf with
  | (.ok (some packet), codec, buf) =>
    some (.ok (lane.numbers.headD 0, packet),
      { lane with codec := codec, buf := buf, numbers := lane.numbers.tail })
  | (.ok none, _, _) => none
  | (.error e, codec, buf) => some (.error e, { lane with codec := codec, buf := buf })

end Lane

/-- The `io::Error` of `Encoder::encode`, as its debug text. -/
def encodingDebug : String := "Custom { kind: Other, error: EncodingError }"

/-- The `io::Error` of `Encoder::encode`, as its text. -/
def encodingText : String := "There has been an error during encoding"

structure FramedTunnel where
  server : Session
  client : Client
  /-- What the session writes. -/
  toClient : Lane
  /-- What the client writes. -/
  toServer : Lane

/-- What can happen in a tunnel over its socket. -/
inductive FramedEvent
  /-- Something in the session that is no packet from the client. -/
  | server (e : SessionEvent)
  /-- Something in the client that is no packet from the server. -/
  | client (e : ClientEvent)
  /-- `n` bytes reach the buffer of the session. -/
  | serverFills (n : Nat)
  /-- `n` bytes reach the buffer of the client. -/
  | clientFills (n : Nat)
  /-- `framed.next()` returns in the session. -/
  | toServer
  /-- `proxy.next()` returns in the client; with the text of the error, if it is one. -/
  | toClient (millis : Nat) (error : String)

namespace FramedTunnel

variable (bincode : Codec SocketPacket)

/-- Both sides enter their loops; the client has said that it speaks `version`. -/
def new (version : UInt32) : FramedTunnel :=
  { server := .new
    client := .new
    toClient := .new (.new (1024 * 4))
    toServer := .new { PacketCodec.new (1024 * 8) with protocol := .Proxy version } }

/--
The session has done something and sends its packets. If one of them cannot be encoded,
`handle` returns the error instead.
-/
def serverSends (t : FramedTunnel) (after : Session) (out : List (Nat × SocketPacket)) :
    FramedTunnel :=
  match t.toClient.send bincode out with
  | .ok toClient => { t with server := after, toClient := toClient }
  | .error _ => { t with server := t.server.finish (.error (.IoError encodingDebug)) }

/-- The client has done something and sends its packets, or fails to. -/
def clientSends (t : FramedTunnel) (after : Client) (out : List (Nat × SocketPacket)) :
    FramedTunnel :=
  match t.toServer.send bincode out with
  | .ok toServer => { t with client := after, toServer := toServer }
  | .error _ => { t with client := t.client.finish (.returned (.error encodingText)) }

def step (t : FramedTunnel) : FramedEvent → Option FramedTunnel
  | .server e =>
    match e with
    | .packet _ _ => none
    | e => do
      let (server, out) ← t.server.step e
      return t.serverSends bincode server out
  | .client e =>
    match e with
    | .packet _ _ _ => none
    | e => do
      let (client, out) ← t.client.step e
      return t.clientSends bincode client out
  | .serverFills n =>
    if t.server.result.isNone then do
      let toServer ← t.toServer.fill bincode n
      return { t with toServer := toServer }
    else none
  | .clientFills n =>
    if t.client.result.isNone then do
      let toClient ← t.toClient.fill bincode n
      return { t with toClient := toClient }
    else none
  | .toServer => do
    let (result, toServer) ← t.toServer.next bincode
    let t := { t with toServer := toServer }
    match result with
    | .ok (k, packet) =>
      let (server, out) ← t.server.step (.packet k packet)
      return t.serverSends bincode server out
    | .error _ =>
      -- "Connection will be closed"; `decode` does not panic
      let (server, out) ← t.server.step .leave
      return t.serverSends bincode server out
  | .toClient millis error => do
    let (result, toClient) ← t.toClient.next bincode
    let t := { t with toClient := toClient }
    match result with
    | .ok (k, packet) =>
      let (client, out) ← t.client.step (.packet k packet millis)
      return t.clientSends bincode client out
    | .error _ =>
      let (client, out) ← t.client.step (.broken error)
      return t.clientSends bincode client out

end FramedTunnel

/-- A session and its proxy client, over a socket. -/
def framedMachine (bincode : Codec SocketPacket) (version : UInt32) :
    Machine FramedTunnel FramedEvent where
  init := .new version
  step := FramedTunnel.step bincode

end CraftIp
