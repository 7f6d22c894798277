import CraftIp.Infra.Machine
import CraftIp.Shared.Addressing
import CraftIp.Shared.SocketPacket

/-!
# `server/src/process_socket.rs`

The tasks of the server: every accepted connection runs `process_socket_connection`, and
all of them share the register.

A `Task` is a place in that function where it waits: for a packet, for the socket to take
what was sent, for the lock of the register, for the loop of `ProxyClient::handle` to
end. An `Event` is what ends the waiting. The loop of `handle` itself is in
`CraftIp.Server.ProxyHandler`; here it may be left at any time, since a lost connection
or the 60 s without a packet ends it.

What goes over the wire of a connection is kept in its `wire`, and `history` remembers
which connections registered, the newest first.
-/

namespace CraftIp

open Infra

/-- The functions of `crypto.rs` that the server calls. They are not looked into. -/
structure Crypto where
  /-- `ServerPublicKey::verify`. -/
  verify : ServerPublicKey → ChallengeDataType → SignatureDataType → Bool
  /-- `ServerPublicKey::get_hostname`. -/
  getHostname : ServerPublicKey → String

/-- Where `process_socket_connection` is. -/
inductive Task
  /-- Waiting for the first packet. -/
  | reading
  /-- `authenticate`, before `create_challange`. -/
  | challenging (packet : ProxyHelloPacket)
  /-- Sending the `ProxyAuthRequest`. -/
  | requesting (packet : ProxyHelloPacket) (challenge : ChallengeDataType)
  /-- Waiting for the `ProxyAuthResponse`. -/
  | awaiting (packet : ProxyHelloPacket) (challenge : ChallengeDataType)
  /-- `authenticate` ran out of its 10 s; sending the `ProxyError`. -/
  | timedOut (packet : ProxyHelloPacket)
  /-- `authenticate` failed; sending the `ProxyError`. -/
  | rejected (e : DistributorError)
  /-- `handle`, waiting for the lock of the register. -/
  | entering (hostname : String)
  /-- Registered; sending the `ProxyHelloResponse`. -/
  | greeting (hostname : String)
  /-- In the loop of `handle`. -/
  | serving (hostname : String)
  /-- `close_connection`, waiting for the lock of the register. -/
  | closing (hostname : String) (response : Except DistributorError Unit)
  /-- A Minecraft client, waiting for the lock of the register. -/
  | looking (packet : MinecraftHelloPacket)
  /-- `MCClient::handle`. -/
  | minecraft (proxyTx : Tx)
  | finished (result : Except DistributorError Unit)
  deriving DecidableEq

/-- What a connection received and sent. -/
inductive Wire
  | received (packet : SocketPacket)
  | sent (packet : SocketPacket)
  deriving DecidableEq

structure Connection where
  task : Task
  wire : List Wire
  deriving DecidableEq

/-- What a task was waiting for. -/
inductive Event
  /-- A new connection. -/
  | accepted
  /-- `frames.next()`. -/
  | next (packet : Option (Except String SocketPacket))
  /-- `create_challange`, which may fail. -/
  | challenge (challenge : Option ChallengeDataType)
  /-- The socket took what was sent, or failed to. -/
  | flushed (result : Except String Unit)
  /-- The 10 s of `authenticate` are over. -/
  | timeout
  /-- `register.lock()` in `handle`. -/
  | register
  /-- The loop ended. -/
  | left (result : Except DistributorError Unit)
  /-- The loop ended because `rx.recv()` returned `None`. -/
  | channelClosed
  /-- `register.lock()` in `close_connection`. -/
  | close
  /-- `register.lock()` for a Minecraft client. -/
  | lookup
  deriving DecidableEq

namespace ProxyClient

/-- The end of `authenticate`, from the answer of the client on. -/
def checkResponse (crypto : Crypto) (packet : ProxyHelloPacket) (challenge : ChallengeDataType)
    (answer : Option (Except String SocketPacket)) : Except DistributorError Unit :=
  match packet.auth, answer with
  | .PublicKey publicKey, some (.ok (.ProxyAuthResponse signature)) =>
    if crypto.verify publicKey challenge signature
        && crypto.getHostname publicKey = packet.hostname then .ok ()
    else .error .AuthError
  | _, _ => .error .WrongPacket

end ProxyClient

namespace Task

/-- `Ok(Err(e))`: the error goes to the client. -/
def reject (e : DistributorError) : Task × List Wire :=
  (.rejected e, [.sent (.ProxyError ("Error authenticating: " ++ e.debug))])

/-- The first packet decides what the connection is. -/
def dispatch : SocketPacket → Task
  | .MCHello packet => .looking packet
  | .ProxyHello packet => .challenging packet
  -- "Unknown protocol"
  | _ => .finished (.ok ())

/-- The log of a read. -/
def readLog : Option (Except String SocketPacket) → List Wire
  | some (.ok packet) => [.received packet]
  | _ => []

/-- The steps of a task that do not look at the register. -/
def step (crypto : Crypto) : Task → Event → Option (Task × List Wire)
  | .reading, .next (some (.ok packet)) => some (dispatch packet, [.received packet])
  | .reading, .next (some (.error e)) =>
    some (.finished (.error
      (distributorError "server/src/process_socket.rs" 29 "could not read packet" e)), [])
  | .reading, .next none =>
    some (.finished (.error (.UnknownError "could not read first packet")), [])
  | .challenging packet, .challenge (some challenge) =>
    some (.requesting packet challenge, [.sent (.ProxyAuthRequest challenge)])
  | .challenging _, .challenge none => some (reject .AuthError)
  -- the peer has no address
  | .challenging _, .left (.error e) => some (.finished (.error e), [])
  | .requesting packet challenge, .flushed (.ok ()) => some (.awaiting packet challenge, [])
  | .requesting _ _, .flushed (.error e) => some (reject (.IoError e))
  | .requesting packet _, .timeout => some (.timedOut packet, [.sent (.ProxyError "Timeout")])
  | .awaiting packet challenge, .next answer =>
    match ProxyClient.checkResponse crypto packet challenge answer with
    | .ok () => some (.entering packet.hostname, readLog answer)
    | .error e => some ((reject e).1, readLog answer ++ (reject e).2)
  | .awaiting packet _, .timeout => some (.timedOut packet, [.sent (.ProxyError "Timeout")])
  -- the arm `Err(_)` does not return
  | .timedOut packet, .flushed (.ok ()) => some (.entering packet.hostname, [])
  | .timedOut _, .flushed (.error e) => some (.finished (.error (.IoError e)), [])
  | .rejected e, .flushed (.ok ()) => some (.finished (.error e), [])
  | .rejected _, .flushed (.error e) => some (.finished (.error (.IoError e)), [])
  | .greeting hostname, .flushed (.ok ()) => some (.serving hostname, [])
  | .greeting hostname, .flushed (.error e) => some (.closing hostname (.error (.IoError e)), [])
  | .serving hostname, .left result => some (.closing hostname result, [])
  | .minecraft _, .left result => some (.finished result, [])
  | _, _ => none

end Task

structure Server where
  register : Register
  connections : List Connection
  history : List (Nat × String)

namespace Server

def new : Server := { register := .new, connections := [], history := [] }

/-- Connection `i` goes on as `task`, and `log` went over its wire. -/
def goOn (s : Server) (i : Nat) (c : Connection) (task : Task) (log : List Wire) : Server :=
  { s with connections := s.connections.set i ⟨task, c.wire ++ log⟩ }

/-- Some sender of the channel of session `i` is left: in the register or at a Minecraft client. -/
def hasSender (s : Server) (i : Nat) : Bool :=
  s.register.servers.entries.any (fun e => e.2 = i) ||
    s.connections.any fun c => c.task = .minecraft i

/-- One step of connection `i`. -/
def step (crypto : Crypto) (s : Server) : Nat × Event → Option Server
  | (i, .accepted) =>
    if i = s.connections.length then
      some { s with connections := s.connections ++ [⟨.reading, []⟩] }
    else none
  | (i, .register) => do
    let c ← s.connections[i]?
    match c.task with
    | .entering hostname =>
      let s := s.goOn i c (.greeting hostname) [.sent (.ProxyHelloResponse ⟨PROTOCOL_VERSION⟩)]
      some { s with register := ⟨s.register.servers.insert hostname i⟩
                    history := (i, hostname) :: s.history }
    | _ => none
  | (i, .channelClosed) => do
    let c ← s.connections[i]?
    match c.task with
    | .serving hostname =>
      if s.hasSender i then none else some (s.goOn i c (.closing hostname (.ok ())) [])
    | _ => none
  | (i, .close) => do
    let c ← s.connections[i]?
    match c.task with
    | .closing hostname response =>
      let s := s.goOn i c (.finished response) []
      some { s with register := ⟨s.register.servers.erase hostname⟩ }
    | _ => none
  | (i, .lookup) => do
    let c ← s.connections[i]?
    match c.task with
    | .looking packet =>
      match s.register.servers.lookup packet.hostname with
      | some proxyTx => some (s.goOn i c (.minecraft proxyTx) [])
      | none => some (s.goOn i c (.finished (.error (.ServerNotFound packet.hostname))) [])
    | _ => none
  | (i, e) => do
    let c ← s.connections[i]?
    let (task, log) ← c.task.step crypto e
    some (s.goOn i c task log)

end Server

/-! ## The steps one by one -/

theorem Server.goOn_get {s : Server} {i j : Nat} {c c' : Connection} {task : Task} {log : List Wire}
    (h : (s.goOn i c task log).connections[j]? = some c') :
    (j = i ∧ c' = ⟨task, c.wire ++ log⟩) ∨ (j ≠ i ∧ s.connections[j]? = some c') := by
  rw [goOn, List.getElem?_set] at h
  split at h
  · next hij =>
    split at h
    · cases h; exact Or.inl ⟨hij.symm, rfl⟩
    · cases h
  · next hij => exact Or.inr ⟨fun heq => hij heq.symm, h⟩

theorem Server.goOn_self {s : Server} {i : Nat} {c : Connection} (hc : s.connections[i]? = some c)
    (task : Task) (log : List Wire) :
    (s.goOn i c task log).connections[i]? = some ⟨task, c.wire ++ log⟩ := by
  rw [goOn, List.getElem?_set, if_pos rfl, if_pos (List.getElem?_eq_some_iff.mp hc).1]

theorem Server.goOn_other {s : Server} {i j : Nat} {c : Connection} (task : Task) (log : List Wire)
    (h : j ≠ i) : (s.goOn i c task log).connections[j]? = s.connections[j]? := by
  rw [goOn, List.getElem?_set_ne (fun heq => h heq.symm)]

/-- A step that does not look at the register. -/
theorem Server.step_task (crypto : Crypto) {s : Server} {i : Nat} {c : Connection} {e : Event}
    {task : Task} {log : List Wire} (hc : s.connections[i]? = some c)
    (hs : c.task.step crypto e = some (task, log)) :
    s.step crypto (i, e) = some (s.goOn i c task log) := by
  cases e with
  | next answer => simp [Server.step, hc, hs]
  | challenge challenge => simp [Server.step, hc, hs]
  | flushed result => simp [Server.step, hc, hs]
  | timeout => simp [Server.step, hc, hs]
  | left result => simp [Server.step, hc, hs]
  | _ => cases ht : c.task <;> simp [ht, Task.step] at hs

/-- What a step of connection `i` can do. -/
inductive Server.Step (crypto : Crypto) (s : Server) : Nat → Event → Server → Prop
  | accepted : Step crypto s s.connections.length .accepted
      { s with connections := s.connections ++ [⟨.reading, []⟩] }
  | task {i : Nat} {c : Connection} {e : Event} {task : Task} {log : List Wire}
      (hc : s.connections[i]? = some c) (ht : c.task.step crypto e = some (task, log)) :
      Step crypto s i e (s.goOn i c task log)
  | register {i : Nat} {c : Connection} {hostname : String} (hc : s.connections[i]? = some c)
      (ht : c.task = .entering hostname) :
      Step crypto s i .register
        { s.goOn i c (.greeting hostname) [.sent (.ProxyHelloResponse ⟨PROTOCOL_VERSION⟩)] with
          register := ⟨s.register.servers.insert hostname i⟩
          history := (i, hostname) :: s.history }
  | channelClosed {i : Nat} {c : Connection} {hostname : String}
      (hc : s.connections[i]? = some c) (ht : c.task = .serving hostname)
      (hs : s.hasSender i = false) :
      Step crypto s i .channelClosed (s.goOn i c (.closing hostname (.ok ())) [])
  | close {i : Nat} {c : Connection} {hostname : String} {response : Except DistributorError Unit}
      (hc : s.connections[i]? = some c) (ht : c.task = .closing hostname response) :
      Step crypto s i .close
        { s.goOn i c (.finished response) [] with
          register := ⟨s.register.servers.erase hostname⟩ }
  | found {i : Nat} {c : Connection} {packet : MinecraftHelloPacket} {proxyTx : Tx}
      (hc : s.connections[i]? = some c) (ht : c.task = .looking packet)
      (hl : s.register.servers.lookup packet.hostname = some proxyTx) :
      Step crypto s i .lookup (s.goOn i c (.minecraft proxyTx) [])
  | notFound {i : Nat} {c : Connection} {packet : MinecraftHelloPacket}
      (hc : s.connections[i]? = some c) (ht : c.task = .looking packet) :
      Step crypto s i .lookup
        (s.goOn i c (.finished (.error (.ServerNotFound packet.hostname))) [])

theorem Server.step_cases {crypto : Crypto} {s s' : Server} {i : Nat} {e : Event}
    (h : s.step crypto (i, e) = some s') : Server.Step crypto s i e s' := by
  unfold Server.step at h
  split at h
  · next heq =>
    cases heq
    split at h
    · next hi => cases h; subst hi; exact .accepted
    · cases h
  · next heq =>
    cases heq
    obtain ⟨c, hc, h⟩ := Option.bind_eq_some_iff.mp h
    split at h
    · next ht => cases h; exact .register hc ht
    · cases h
  · next heq =>
    cases heq
    obtain ⟨c, hc, h⟩ := Option.bind_eq_some_iff.mp h
    split at h
    · next ht =>
      split at h
      · cases h
      · next hs => cases h; exact .channelClosed hc ht (by simpa using hs)
    · cases h
  · next heq =>
    cases heq
    obtain ⟨c, hc, h⟩ := Option.bind_eq_some_iff.mp h
    split at h
    · next ht => cases h; exact .close hc ht
    · cases h
  · next heq =>
    cases heq
    obtain ⟨c, hc, h⟩ := Option.bind_eq_some_iff.mp h
    split at h
    · next ht =>
      split at h
      · next hl => cases h; exact .found hc ht hl
      · cases h; exact .notFound hc ht
    · cases h
  · next heq =>
    cases heq
    obtain ⟨c, hc, h⟩ := Option.bind_eq_some_iff.mp h
    obtain ⟨⟨task, log⟩, ht, h⟩ := Option.bind_eq_some_iff.mp h
    cases h
    exact .task hc ht

/-- The server, with connections that come and go. -/
def serverMachine (crypto : Crypto) : Machine Server (Nat × Event) where
  init := .new
  step := Server.step crypto

end CraftIp
