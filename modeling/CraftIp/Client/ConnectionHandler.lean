import CraftIp.Client.Client
import CraftIp.Infra.Machine

/-!
# `client/src/connection_handler.rs` and the proxy client

A proxy client is the loop of `Client::handle` together with the local connections it has
spawned. The connections are tasks of their own: they share the queue the loop reads from,
and the loop holds the channels it writes to. A step of the client is one step of the loop
or of one connection, in any order.

A step has its effect when its task has finished it. The code awaits what it sends to the server,
and a local connection until it is connected and what it writes, without a limit of time; so
whether such a step comes is up to the peer, see `Client.waits` and `Flow`.

A connection has the number of the Minecraft client whose `ProxyJoin` spawned it. The
packets for the server leave the client with that number, and the packets from the server
arrive with it; the code does not see it.
-/

namespace CraftIp

open Infra

/-- Where the task of a local connection is. -/
inductive ConnectionPhase
  /-- Connecting to the local Minecraft server. -/
  | connecting
  /-- In the loop of `handle_client`. -/
  | running
  /-- Behind the loop, before the drop. -/
  | ended
  /-- Behind `drop`, with its channel still open. -/
  | dropped
  | gone
  deriving DecidableEq

/-- `ClientConnection`, with what is in its channel and what it has taken from it. -/
structure ClientConnection where
  clientId : UInt16
  phase : ConnectionPhase
  needForClose : Bool
  clientRx : List MinecraftDataPacket
  taken : List MinecraftDataPacket
  deriving DecidableEq

/-- `ClientConnection::new`. -/
def ClientConnection.new (clientId : UInt16) : ClientConnection :=
  { clientId := clientId, phase := .connecting, needForClose := true, clientRx := [], taken := [] }

/-- What can happen in a proxy client. -/
inductive ClientEvent
  /-- Connection `k` has connected to the local server. -/
  | connected (k : Nat)
  /-- It could not. -/
  | failed (k : Nat) (mcServer : String)
  /-- `client_rx.recv()` returns. -/
  | take (k : Nat)
  /-- It reads data from the local server. -/
  | read (k : Nat) (data : Bytes)
  /-- The local server closes the connection, or it fails. -/
  | stop (k : Nat)
  /-- It is dropped. -/
  | drop (k : Nat)
  /-- Its fields are dropped, too. -/
  | close (k : Nat)
  /-- The loop takes a message from its queue. -/
  | send
  /-- The loop takes a packet from the proxy, about Minecraft client `k`. -/
  | packet (k : Nat) (packet : SocketPacket) (millis : Nat)
  /-- A second has passed. -/
  | ping (millis : Nat)
  /-- The user disconnects. -/
  | disconnect
  /-- The connection to the proxy is over, or fails. -/
  | broken (error : String)
  deriving DecidableEq

structure Client where
  state : State
  toProxy : List (Nat × Client.ClientToProxy)
  spawned : Table Nat ClientConnection
  /-- How `handle` ended. -/
  result : Option Client.Ended
  /-- The ids that were joined, and for whom; the newest first. -/
  joins : List (Nat × UInt16)
  /-- Whose `RemoveMinecraftClient` removed whom. -/
  removed : List (Nat × Nat)
  /-- The ids the client removed on its own, since they were joined. -/
  freed : List UInt16

namespace Client

/-- `Client::new`, at the loop of `handle`. -/
def new : Client :=
  { state := State.new.setStatsTx [], toProxy := [], spawned := ∅, result := none, joins := [],
    removed := [], freed := [] }

/-- `handle` returns and the client is dropped, with its table and the receiver of its queue. -/
def finish (c : Client) (result : Ended) : Client :=
  { c with state := { c.state with connections := ∅ }, toProxy := [], result := some result }

def modify (c : Client) (k : Nat) (f : ClientConnection → ClientConnection) : Client :=
  { c with
    spawned :=
      match c.spawned.lookup k with
      | some l => c.spawned.insert k (f l)
      | none => c.spawned }

/-- Send a message to the loop, whose receiver is there. -/
def enqueue (c : Client) (k : Nat) (msg : ClientToProxy) : Client :=
  { c with toProxy := c.toProxy ++ [(k, msg)] }

/-- The sender of the channel of connection `k` is in the table. -/
def hasSender (c : Client) (k : Nat) : Bool := c.state.connections.entries.any fun e => e.2 = k

/-- Local connection `k` waits for the local server: to connect, or to take its data. -/
def waits (c : Client) (k : Nat) : Bool :=
  (c.spawned.lookup k).any fun l =>
    l.phase = .connecting || (l.phase = .running && l.clientRx ≠ [])

/-- The receiver of the channel of connection `k` is gone. -/
def closed (c : Client) (k : Nat) : Bool := (c.spawned.lookup k).any fun l => l.phase = .gone

/-- The loop takes the head of its queue. -/
def sendStep (c : Client) (k : Nat) (msg : ClientToProxy) (toProxy : List (Nat × ClientToProxy)) :
    Client × List (Nat × SocketPacket) :=
  match onConnection c.state msg with
  | .error e => (c.finish e, [])
  | .ok (state, packet) =>
    let c' := { c with state := state, toProxy := toProxy }
    match msg with
    | .RemoveMinecraftClient id =>
      match c.state.connections.lookup id with
      | some tx => ({ c' with removed := (k, tx) :: c.removed, freed := id :: c.freed }, [(k, packet)])
      | none => (c', [(k, packet)])
    | _ => (c', [(k, packet)])

/-- The loop takes a packet. -/
def packetStep (c : Client) (k : Nat) (packet : SocketPacket) (millis : Nat) : Client :=
  match onProxy c.state c.closed k millis packet with
  | .error e => c.finish e
  | .ok (state, out) =>
    let c' := { c with state := state }
    match packet, out with
    | .ProxyJoin id, _ =>
      { c' with
        spawned := c.spawned.insert k (.new id)
        joins := (k, id) :: c.joins
        freed := c.freed.filter (· ≠ id) }
    | .ProxyData _, some (tx, pkg) =>
      c'.modify tx fun l => { l with clientRx := l.clientRx ++ [pkg] }
    | .ProxyData d, none => { c' with freed := d.clientId :: c.freed }
    | _, _ => c'

/-- One step: the client after it, and the packets for the server. -/
def step (c : Client) : ClientEvent → Option (Client × List (Nat × SocketPacket))
  | .connected k => do
    let l ← c.spawned.lookup k
    if l.phase = .connecting then some (c.modify k fun l => { l with phase := .running }, [])
    else none
  | .failed k mcServer => do
    let l ← c.spawned.lookup k
    if l.phase = .connecting then
      let c' := c.modify k fun l => { l with phase := .ended }
      if c.result.isNone then some (c'.enqueue k (.Death ("could not connect to " ++ mcServer)), [])
      else some (c', [])
    else none
  | .take k => do
    let l ← c.spawned.lookup k
    if l.phase = .running then
      match l.clientRx with
      | pkg :: rx =>
        some (c.modify k fun l => { l with clientRx := rx, taken := l.taken ++ [pkg] }, [])
      | [] =>
        if c.hasSender k then none
        else some (c.modify k fun l => { l with phase := .ended, needForClose := false }, [])
    else none
  | .read k data => do
    let l ← c.spawned.lookup k
    -- the buffer has 1024 bytes, and nothing to read is the end of the stream
    if l.phase = .running && data.length ≠ 0 && data.length ≤ 1024 then
      if c.result.isNone then some (c.enqueue k (.Packet l.clientId ⟨data⟩), [])
      else some (c.modify k fun l => { l with phase := .ended, needForClose := true }, [])
    else none
  | .stop k => do
    let l ← c.spawned.lookup k
    if l.phase = .running then
      some (c.modify k fun l => { l with phase := .ended, needForClose := true }, [])
    else none
  | .drop k => do
    let l ← c.spawned.lookup k
    if l.phase = .ended then
      let c' := c.modify k fun l => { l with phase := .dropped }
      if l.needForClose && c.result.isNone then
        some (c'.enqueue k (.RemoveMinecraftClient l.clientId), [])
      else some (c', [])
    else none
  | .close k => do
    let l ← c.spawned.lookup k
    if l.phase = .dropped then
      some (c.modify k fun l => { l with phase := .gone, clientRx := [] }, [])
    else none
  | .send =>
    match c.result, c.toProxy with
    | none, (k, msg) :: toProxy => some (c.sendStep k msg toProxy)
    | _, _ => none
  | .packet k packet millis =>
    if c.result.isNone then some (c.packetStep k packet millis, []) else none
  | .ping millis => if c.result.isNone then some (c, [(0, .ProxyPing (stamp millis))]) else none
  | .disconnect => if c.result.isNone then some (c.finish (.returned (.ok ())), []) else none
  | .broken e => if c.result.isNone then some (c.finish (.returned (.error e)), []) else none

/-! ## The steps one by one -/

/-- The packets the loop has an arm for. -/
def implemented : SocketPacket → Bool
  | .ProxyJoin _ | .ProxyData _ | .ProxyDisconnect _ | .ProxyPong _ => true
  | _ => false

/-- What a step can do, what it sends, and when it is possible. -/
inductive Step (c : Client) : ClientEvent → Client → List (Nat × SocketPacket) → Prop
  | connected {k l} (hl : c.spawned.lookup k = some l) (hp : l.phase = .connecting) :
      Step c (.connected k) (c.modify k fun l => { l with phase := .running }) []
  | failed {k l mcServer} (hl : c.spawned.lookup k = some l) (hp : l.phase = .connecting)
      (hr : c.result = none) :
      Step c (.failed k mcServer)
        ((c.modify k fun l => { l with phase := .ended }).enqueue k
          (.Death ("could not connect to " ++ mcServer))) []
  | failedClosed {k l mcServer} (hl : c.spawned.lookup k = some l) (hp : l.phase = .connecting)
      (hr : c.result ≠ none) :
      Step c (.failed k mcServer) (c.modify k fun l => { l with phase := .ended }) []
  | take {k l pkg rx} (hl : c.spawned.lookup k = some l) (hp : l.phase = .running)
      (hx : l.clientRx = pkg :: rx) :
      Step c (.take k) (c.modify k fun l => { l with clientRx := rx, taken := l.taken ++ [pkg] }) []
  | takeClosed {k l} (hl : c.spawned.lookup k = some l) (hp : l.phase = .running)
      (hx : l.clientRx = []) (hs : c.hasSender k = false) :
      Step c (.take k) (c.modify k fun l => { l with phase := .ended, needForClose := false }) []
  | read {k l data} (hl : c.spawned.lookup k = some l) (hp : l.phase = .running)
      (hd : data.length ≠ 0 ∧ data.length ≤ 1024) (hr : c.result = none) :
      Step c (.read k data) (c.enqueue k (.Packet l.clientId ⟨data⟩)) []
  | readClosed {k l data} (hl : c.spawned.lookup k = some l) (hp : l.phase = .running)
      (hr : c.result ≠ none) :
      Step c (.read k data) (c.modify k fun l => { l with phase := .ended, needForClose := true }) []
  | stop {k l} (hl : c.spawned.lookup k = some l) (hp : l.phase = .running) :
      Step c (.stop k) (c.modify k fun l => { l with phase := .ended, needForClose := true }) []
  | drop {k l} (hl : c.spawned.lookup k = some l) (hp : l.phase = .ended)
      (hn : l.needForClose = true) (hr : c.result = none) :
      Step c (.drop k)
        ((c.modify k fun l => { l with phase := .dropped }).enqueue k
          (.RemoveMinecraftClient l.clientId)) []
  | dropSilent {k l} (hl : c.spawned.lookup k = some l) (hp : l.phase = .ended)
      (hn : l.needForClose = false ∨ c.result ≠ none) :
      Step c (.drop k) (c.modify k fun l => { l with phase := .dropped }) []
  | close {k l} (hl : c.spawned.lookup k = some l) (hp : l.phase = .dropped) :
      Step c (.close k) (c.modify k fun l => { l with phase := .gone, clientRx := [] }) []
  | forward {k id pkg toProxy} (hr : c.result = none) (hq : c.toProxy = (k, .Packet id pkg) :: toProxy) :
      Step c .send { c with toProxy := toProxy } [(k, .ProxyData (.new pkg id))]
  | remove {k id tx toProxy} (hr : c.result = none)
      (hq : c.toProxy = (k, .RemoveMinecraftClient id) :: toProxy)
      (hc : c.state.connections.lookup id = some tx) :
      Step c .send
        { c with
          state := c.state.removeConnection id, toProxy := toProxy, removed := (k, tx) :: c.removed,
          freed := id :: c.freed }
        [(k, .ProxyDisconnect id)]
  | removeNone {k id toProxy} (hr : c.result = none)
      (hq : c.toProxy = (k, .RemoveMinecraftClient id) :: toProxy)
      (hc : c.state.connections.lookup id = none) :
      Step c .send { c with state := c.state.removeConnection id, toProxy := toProxy }
        [(k, .ProxyDisconnect id)]
  | death {k msg toProxy} (hr : c.result = none) (hq : c.toProxy = (k, .Death msg) :: toProxy) :
      Step c .send (c.finish (.returned (.error msg))) []
  | join {k id millis} (hr : c.result = none) :
      Step c (.packet k (.ProxyJoin id) millis)
        { c with
          state := c.state.addConnection id k, spawned := c.spawned.insert k (.new id),
          joins := (k, id) :: c.joins, freed := c.freed.filter (· ≠ id) } []
  | deliver {k d tx millis} (hr : c.result = none)
      (hc : c.state.connections.lookup d.clientId = some tx) (ho : c.closed tx = false) :
      Step c (.packet k (.ProxyData d) millis)
        (c.modify tx fun l => { l with clientRx := l.clientRx ++ [d.packet] }) []
  | lost {k d tx millis} (hr : c.result = none)
      (hc : c.state.connections.lookup d.clientId = some tx) (ho : c.closed tx = true) :
      Step c (.packet k (.ProxyData d) millis)
        { c with
          state := { c.state with connections := c.state.connections.erase d.clientId },
          freed := d.clientId :: c.freed } []
  | unknown {k d millis text} (hr : c.result = none)
      (hc : c.state.connections.lookup d.clientId = none) :
      Step c (.packet k (.ProxyData d) millis) (c.finish (.returned (.error text))) []
  | disconnected {k id millis} (hr : c.result = none) :
      Step c (.packet k (.ProxyDisconnect id) millis)
        { c with state := c.state.removeConnection id } []
  | pong {k n millis stats} (hr : c.result = none) :
      Step c (.packet k (.ProxyPong n) millis) { c with state := c.state.sendStats stats } []
  | unimplemented {k p millis msg} (hr : c.result = none) (hp : implemented p = false) :
      Step c (.packet k p millis) (c.finish (.panicked msg)) []
  | ping {millis} (hr : c.result = none) : Step c (.ping millis) c [(0, .ProxyPing (stamp millis))]
  | disconnect (hr : c.result = none) : Step c .disconnect (c.finish (.returned (.ok ()))) []
  | broken {e} (hr : c.result = none) : Step c (.broken e) (c.finish (.returned (.error e))) []

theorem sendStep_cases {c : Client} {k : Nat} {msg : ClientToProxy}
    {toProxy : List (Nat × ClientToProxy)} (hr : c.result = none)
    (hq : c.toProxy = (k, msg) :: toProxy) :
    Step c .send (c.sendStep k msg toProxy).1 (c.sendStep k msg toProxy).2 := by
  cases msg with
  | Packet id pkg => exact .forward hr hq
  | RemoveMinecraftClient id =>
    cases hc : c.state.connections.lookup id with
    | none =>
      have hstep := Step.removeNone hr hq hc
      simp only [sendStep, onConnection, hc]
      exact hstep
    | some tx =>
      have hstep := Step.remove hr hq hc
      simp only [sendStep, onConnection, hc]
      exact hstep
  | Death msg => exact .death hr hq

theorem packetStep_cases {c : Client} (k : Nat) (packet : SocketPacket) (millis : Nat)
    (hr : c.result = none) : Step c (.packet k packet millis) (c.packetStep k packet millis) [] := by
  cases packet with
  | ProxyJoin id => exact .join hr
  | ProxyData d =>
    cases hc : c.state.connections.lookup d.clientId with
    | none =>
      simp only [packetStep, onProxy, State.sendTo_unknown hc]
      exact .unknown hr hc
    | some tx =>
      cases ho : c.closed tx with
      | true =>
        have hstep : Step c (.packet k (.ProxyData d) millis) _ _ := .lost hr hc ho
        simp only [packetStep, onProxy, State.sendTo_closed hc ho, Option.map_none]
        exact hstep
      | false =>
        have hstep : Step c (.packet k (.ProxyData d) millis) _ _ := .deliver hr hc ho
        simp only [packetStep, onProxy, State.sendTo_open hc ho, Option.map_some]
        exact hstep
  | ProxyDisconnect id => exact .disconnected hr
  | ProxyPong n => exact .pong hr
  | _ => exact .unimplemented hr rfl

theorem step_cases {c c' : Client} {e : ClientEvent} {out : List (Nat × SocketPacket)}
    (h : c.step e = some (c', out)) : Step c e c' out := by
  cases e with
  | connected k =>
    obtain ⟨l, hl, h⟩ := Option.bind_eq_some_iff.mp h
    split at h
    · next hp => cases h; exact .connected hl hp
    · cases h
  | failed k mcServer =>
    obtain ⟨l, hl, h⟩ := Option.bind_eq_some_iff.mp h
    split at h
    · next hp =>
      split at h
      · next hr => cases h; exact .failed hl hp (Option.isNone_iff_eq_none.mp hr)
      · next hr => cases h; exact .failedClosed hl hp (by simpa using hr)
    · cases h
  | take k =>
    obtain ⟨l, hl, h⟩ := Option.bind_eq_some_iff.mp h
    split at h
    · next hp =>
      split at h
      · next hx => cases h; exact .take hl hp hx
      · next hx =>
        split at h
        · cases h
        · next hs => cases h; exact .takeClosed hl hp hx (by simpa using hs)
    · cases h
  | read k data =>
    obtain ⟨l, hl, h⟩ := Option.bind_eq_some_iff.mp h
    split at h
    · next hp =>
      simp only [Bool.and_eq_true, decide_eq_true_eq] at hp
      split at h
      · next hr =>
        cases h
        exact .read hl hp.1.1 ⟨hp.1.2, hp.2⟩ (Option.isNone_iff_eq_none.mp hr)
      · next hr => cases h; exact .readClosed hl hp.1.1 (by simpa using hr)
    · cases h
  | stop k =>
    obtain ⟨l, hl, h⟩ := Option.bind_eq_some_iff.mp h
    split at h
    · next hp => cases h; exact .stop hl hp
    · cases h
  | drop k =>
    obtain ⟨l, hl, h⟩ := Option.bind_eq_some_iff.mp h
    split at h
    · next hp =>
      split at h
      · next hn =>
        rw [Bool.and_eq_true, Option.isNone_iff_eq_none] at hn
        cases h
        exact .drop hl hp hn.1 hn.2
      · next hn =>
        cases h
        refine .dropSilent hl hp ?_
        by_cases hc : l.needForClose = true
        · exact Or.inr fun hr => hn (by rw [hc, hr]; rfl)
        · exact Or.inl (by simpa using hc)
    · cases h
  | close k =>
    obtain ⟨l, hl, h⟩ := Option.bind_eq_some_iff.mp h
    split at h
    · next hp => cases h; exact .close hl hp
    · cases h
  | send =>
    simp only [step] at h
    split at h
    · next hr hq =>
      have hstep := sendStep_cases hr hq
      rw [Option.some.inj h] at hstep
      exact hstep
    · cases h
  | packet k packet millis =>
    simp only [step] at h
    split at h
    · next hr =>
      cases h
      exact packetStep_cases k packet millis (Option.isNone_iff_eq_none.mp hr)
    · cases h
  | ping millis =>
    simp only [step] at h
    split at h
    · next hr => cases h; exact .ping (Option.isNone_iff_eq_none.mp hr)
    · cases h
  | disconnect =>
    simp only [step] at h
    split at h
    · next hr => cases h; exact .disconnect (Option.isNone_iff_eq_none.mp hr)
    · cases h
  | broken e =>
    simp only [step] at h
    split at h
    · next hr => cases h; exact .broken (Option.isNone_iff_eq_none.mp hr)
    · cases h

/-- A loop that runs has been running. -/
theorem result_of_step {c c' : Client} {e : ClientEvent} {out : List (Nat × SocketPacket)}
    (hs : Step c e c' out) (h : c'.result = none) : c.result = none := by
  cases hs <;> assumption

end Client

end CraftIp
