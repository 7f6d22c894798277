import CraftIp.Client.Connect
import CraftIp.Server.ProcessSocket

/-!
# A client logs in

`Client::connect` at one end of a connection, and at the other end its task of the server,
among all the other connections of that server.

What one end sends waits for the other end, and is read in its order. A connection that
breaks is a read without a packet, or a send that fails, at either end at any time.
-/

namespace CraftIp

open Infra

/-- What a connection received and sent. -/
def Server.wireOf (s : Server) (i : Nat) : List Wire :=
  match s.connections[i]? with
  | some c => c.wire
  | none => []

/-- The packets that were sent, the oldest first. -/
def sentOf (wire : List Wire) : List SocketPacket :=
  wire.filterMap fun
    | .sent packet => some packet
    | .received _ => none

/-- The packets that were received, the oldest first. -/
def receivedOf (wire : List Wire) : List SocketPacket :=
  wire.filterMap fun
    | .received packet => some packet
    | .sent _ => none

/-- A client in `Client::connect`, and the server. -/
structure Login where
  server : Server
  dialing : Dialing
  /-- The connection of the client at the server. -/
  connection : Option Nat
  /-- What is on its way, the oldest first. -/
  toServer : List SocketPacket
  toClient : List SocketPacket

/-- What can happen. -/
inductive LoginEvent
  /-- Another connection of the server. -/
  | other (i : Nat) (e : Event)
  /-- The task of the connection, where it does not read a packet. -/
  | own (e : Event)
  /-- The task reads a packet of the client. -/
  | receive
  /-- The loop of `handle` sends a packet. -/
  | loop (packet : SocketPacket)
  /-- `Client::connect`, where it does not read a packet. -/
  | dial (e : DialEvent)
  /-- `Client::connect` reads a packet of the server. -/
  | reply
  deriving DecidableEq

/-- What was read. -/
def Event.packets : Event → List SocketPacket
  | .next (some (.ok packet)) => [packet]
  | _ => []

/-- What was read. -/
def DialEvent.packets : DialEvent → List SocketPacket
  | .next (some (.ok packet)) => [packet]
  | _ => []

namespace Login

variable (ring : Ed25519) (getHostname : ServerPublicKey → String) (config : Gui.Server)

/-- What the server calls of `crypto.rs`. -/
def crypto : Crypto := ⟨ServerPublicKey.verify ring, getHostname⟩

def new : Login :=
  { server := .new, dialing := .probing, connection := none, toServer := [], toClient := [] }

/-- What connection `i` has sent since `s`. -/
def sentSince (s server : Server) (i : Nat) : List SocketPacket :=
  (sentOf (server.wireOf i)).drop (sentOf (s.wireOf i)).length

/-- A step of the task of connection `i`. -/
def onTask (s : Login) (i : Nat) (e : Event) : Option Login := do
  let server ← s.server.step (crypto ring getHostname) (i, e)
  return { s with server := server, toClient := s.toClient ++ sentSince s.server server i }

/-- A step of `Client::connect`. -/
def onDial (s : Login) (e : DialEvent) : Option Login := do
  let (d, packets) ← s.dialing.step ring config e
  return { s with dialing := d, toServer := s.toServer ++ packets }

/-- The server accepts the connection. -/
def accept (s : Login) : Option Login := do
  let i := s.server.connections.length
  let server ← s.server.step (crypto ring getHostname) (i, .accepted)
  return { s with server := server, connection := some i }

def step (s : Login) : LoginEvent → Option Login
  | .other i e =>
    if s.connection = some i then none
    else (s.server.step (crypto ring getHostname) (i, e)).map fun server => { s with server := server }
  | .own e => do
    let i ← s.connection
    if e.packets = [] then s.onTask ring getHostname i e else none
  | .receive => do
    let i ← s.connection
    match s.toServer with
    | packet :: rest =>
      let s := { s with toServer := rest }
      s.onTask ring getHostname i (.next (some (.ok packet)))
    | [] => none
  | .loop packet => do
    let i ← s.connection
    let c ← s.server.connections[i]?
    match c.task with
    | .serving _ => some { s with toClient := s.toClient ++ [packet] }
    | _ => none
  | .dial e =>
    if e.packets = [] then
      match s.dialing, e with
      -- the stream to the proxy
      | .dialing, .connected (.ok ()) => do
        let s ← s.accept ring getHostname
        s.onDial ring config e
      | _, _ => s.onDial ring config e
    else none
  | .reply =>
    match s.toClient with
    | packet :: rest =>
      let s := { s with toClient := rest }
      s.onDial ring config (.next (some (.ok packet)))
    | [] => none

end Login

/-- A client that logs in at the server. -/
def loginMachine (ring : Ed25519) (getHostname : ServerPublicKey → String) (config : Gui.Server) :
    Machine Login LoginEvent where
  init := .new
  step := Login.step ring getHostname config

/-- The connection holds, the time suffices, and the user waits. -/
def LoginEvent.calm : LoginEvent → Bool
  | .own e =>
    match e with
    | .challenge none | .flushed (.error _) | .timeout | .next _ | .left (.error _) => false
    | _ => true
  | .dial e =>
    match e with
    | .connected (.ok ()) | .flushed (.ok ()) | .reported (.ok ()) => true
    | _ => false
  | _ => true

/-- One of the two ends of the connection. -/
def LoginEvent.isOwn : LoginEvent → Bool
  | .other _ _ => false
  | _ => true

end CraftIp
