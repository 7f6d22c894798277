import CraftIp.Infra.Machine
import CraftIp.Server.ProxyHandler

/-!
# `server/src/client_handler.rs` and one session of the server

A session is the loop of `ProxyClient::handle` together with the Minecraft clients that
found it in the register. The clients are tasks of their own: they share the queue the loop
reads from, and the loop holds the channels it writes to. A step of the session is one step
of the loop or of one client, in any order.

A step has its effect when its task has finished it. The code awaits what it sends to the proxy
client, and a Minecraft client what it writes to its socket, without a limit of time; so whether
such a step comes is up to the peer, see `Session.writing` and `Flow`.

The packets for the proxy client leave the session with the number of the Minecraft client
they are about. The same numbers stand at the messages of the queue and at the packets that
arrive; the code does not see them.
-/

namespace CraftIp

open Infra

/-- Where the task of a Minecraft client is. -/
inductive MCPhase
  /-- In `MCClient::new`, between its two sends. -/
  | joining (hello : MinecraftDataPacket)
  /-- In the loop of `MCClient::handle`. -/
  | running
  /-- Behind the loop, before the drop. -/
  | ended
  | gone
  deriving DecidableEq

/-- `MCClient`, with what is in its channel and what it has read from its socket. -/
structure MCClient where
  addr : SocketAddr
  phase : MCPhase
  needForClose : Bool
  rx : List MinecraftDataPacket
  read : List MinecraftDataPacket
  deriving DecidableEq

/-- What can happen in a session. -/
inductive SessionEvent
  /-- A Minecraft client found the session and sends `AddMinecraftClient`. -/
  | join (addr : SocketAddr) (hello : MinecraftDataPacket)
  /-- It sends its hello. -/
  | hello (k : Nat)
  /-- It reads data from its socket. -/
  | read (k : Nat) (pkg : MinecraftDataPacket)
  /-- `rx.recv()` returns. -/
  | receive (k : Nat)
  /-- Its stream is exhausted, or its socket fails. -/
  | stop (k : Nat)
  /-- It is dropped. -/
  | drop (k : Nat)
  /-- The loop takes a message from its queue. -/
  | take
  /-- The loop takes a packet, sent by the local connection of client `src`. -/
  | packet (src : Nat) (packet : SocketPacket)
  /-- Sending to the proxy client fails. -/
  | broken (error : String)
  /-- No packet for 60 s, the connection to the proxy client is over, or the queue is closed. -/
  | leave
  deriving DecidableEq

structure Session where
  distributor : Distribiutor
  queue : List (Nat × ClientToProxy)
  clients : List MCClient
  /-- What `handle` returned. -/
  result : Option (Except DistributorError Unit)
  /-- The ids that were handed out, and to whom; the newest first. -/
  joined : List (Nat × UInt16)
  /-- Whose packet was sent to whom. -/
  delivered : List (Nat × Nat)
  /-- Whose `ProxyDisconnect` removed whom. -/
  evicted : List (Nat × Nat)

namespace Session

/-- `handle` enters its loop. -/
def new : Session :=
  { distributor := .new, queue := [], clients := [], result := none, joined := [],
    delivered := [], evicted := [] }

/-- `handle` returns: its tables and the receiver of its queue are dropped. -/
def finish (s : Session) (result : Except DistributorError Unit) : Session :=
  { s with distributor := .new, queue := [], result := some result }

def modify (s : Session) (k : Nat) (f : MCClient → MCClient) : Session :=
  { s with clients := s.clients.modify k f }

/-- Send a message to the session, whose receiver is there. -/
def enqueue (s : Session) (k : Nat) (msg : ClientToProxy) : Session :=
  { s with queue := s.queue ++ [(k, msg)] }

/-- Some sender of the channel of client `k` is left: in the tables or in the queue. -/
def hasSender (s : Session) (k : Nat) : Bool :=
  s.distributor.clientsAddr.entries.any (fun e => e.2.tx = k) ||
    s.queue.any fun e => match e.2 with
      | .AddMinecraftClient _ tx => tx = k
      | _ => false

/-- Client `k` has data to write to its socket, and waits until its peer takes them. -/
def writing (s : Session) (k : Nat) : Bool :=
  s.clients[k]?.any fun m => m.phase = .running && m.rx ≠ []

/--
The address belongs to no open connection.

The code does not check it: a `SocketAddr` is that of one peer, which can connect from it again
only when the connection before is closed. That the task of this connection has been dropped by
then is an assumption on the network.
-/
def addrFree (s : Session) (addr : SocketAddr) : Bool :=
  s.clients.all fun m => m.phase = .gone || m.addr ≠ addr

/-- Put a packet into the channel of a client, unless the client has dropped it. -/
def deliver (pkg : MinecraftDataPacket) (m : MCClient) : MCClient :=
  if m.phase = .gone then m else { m with rx := m.rx ++ [pkg] }

@[simp] theorem deliver_addr (pkg : MinecraftDataPacket) (m : MCClient) :
    (deliver pkg m).addr = m.addr := by
  unfold deliver
  split <;> rfl

@[simp] theorem deliver_phase (pkg : MinecraftDataPacket) (m : MCClient) :
    (deliver pkg m).phase = m.phase := by
  unfold deliver
  split <;> rfl

@[simp] theorem deliver_needForClose (pkg : MinecraftDataPacket) (m : MCClient) :
    (deliver pkg m).needForClose = m.needForClose := by
  unfold deliver
  split <;> rfl

@[simp] theorem deliver_read (pkg : MinecraftDataPacket) (m : MCClient) :
    (deliver pkg m).read = m.read := by
  unfold deliver
  split <;> rfl

/-- The ids in these packets. -/
def joins (k : Nat) (packets : List SocketPacket) : List (Nat × UInt16) :=
  packets.filterMap fun
    | .ProxyJoin id => some (k, id)
    | _ => none

/-- A step of the loop on the head of its queue. -/
def takeStep (s : Session) (k : Nat) (msg : ClientToProxy) (queue : List (Nat × ClientToProxy)) :
    Session × List (Nat × SocketPacket) :=
  match ProxyClient.onClient s.distributor msg with
  | .error e => (s.finish (.error e), [])
  | .ok none => (s.finish (.ok ()), [])
  | .ok (some (distributor, packets)) =>
    ({ s with distributor := distributor, queue := queue, joined := joins k packets ++ s.joined },
      packets.map fun p => (k, p))

/-- A step of the loop on a packet. -/
def packetStep (s : Session) (src : Nat) (packet : SocketPacket) :
    Session × List (Nat × SocketPacket) :=
  let (distributor, packets, out) := ProxyClient.onProxy s.distributor packet
  let s' := { s with distributor := distributor }
  let s' :=
    match packet with
    | .ProxyDisconnect id =>
      match s.distributor.getById id with
      | some client => { s' with evicted := (src, client.tx) :: s.evicted }
      | none => s'
    | _ => s'
  let s' :=
    match out with
    | some (tx, pkg) => { s'.modify tx (deliver pkg) with delivered := (src, tx) :: s.delivered }
    | none => s'
  (s', packets.map fun p => (src, p))

/--
One step: the session after it, and the packets for the proxy client.

A Minecraft client joins from an address that is free, see `addrFree`.
-/
def step (s : Session) : SessionEvent → Option (Session × List (Nat × SocketPacket))
  | .join addr hello =>
    if s.result.isNone && s.addrFree addr then
      let k := s.clients.length
      let client : MCClient := ⟨addr, .joining hello, true, [], []⟩
      some (({ s with clients := s.clients ++ [client] }).enqueue k (.AddMinecraftClient addr k), [])
    else none
  | .hello k => do
    let m ← s.clients[k]?
    match m.phase with
    | .joining hello =>
      if s.result.isNone then
        let s := s.modify k fun m => { m with phase := .running, read := m.read ++ [hello] }
        some (s.enqueue k (.Packet m.addr hello), [])
      else
        -- `new` returns an error, and there is no `MCClient` to drop
        some (s.modify k fun m => { m with phase := .gone }, [])
    | _ => none
  | .read k pkg => do
    let m ← s.clients[k]?
    if m.phase = .running then
      if s.result.isNone then
        let s := s.modify k fun m => { m with read := m.read ++ [pkg] }
        some (s.enqueue k (.Packet m.addr pkg), [])
      else some (s.modify k fun m => { m with phase := .ended, read := m.read ++ [pkg] }, [])
    else none
  | .receive k => do
    let m ← s.clients[k]?
    if m.phase = .running then
      match m.rx with
      | _ :: rx => some (s.modify k fun m => { m with rx := rx }, [])
      | [] =>
        if s.hasSender k then none
        else some (s.modify k fun m => { m with phase := .ended, needForClose := false }, [])
    else none
  | .stop k => do
    let m ← s.clients[k]?
    if m.phase = .running then some (s.modify k fun m => { m with phase := .ended }, []) else none
  | .drop k => do
    let m ← s.clients[k]?
    if m.phase = .ended then
      let s' := s.modify k fun m => { m with phase := .gone, rx := [] }
      if m.needForClose && s.result.isNone then
        some (s'.enqueue k (.RemoveMinecraftClient m.addr), [])
      else some (s', [])
    else none
  | .take =>
    match s.result, s.queue with
    | none, (k, msg) :: queue => some (s.takeStep k msg queue)
    | _, _ => none
  | .packet src packet => if s.result.isNone then some (s.packetStep src packet) else none
  | .broken e => if s.result.isNone then some (s.finish (.error (.IoError e)), []) else none
  | .leave => if s.result.isNone then some (s.finish (.ok ()), []) else none

/-! ## The steps one by one -/

/-- The packets the loop has an arm for; the others are logged. -/
def handled : SocketPacket → Bool
  | .ProxyDisconnect _ | .ProxyData _ | .ProxyPing _ => true
  | _ => false

/-- What a step can do, what it sends, and when it is possible. -/
inductive Step (s : Session) : SessionEvent → Session → List (Nat × SocketPacket) → Prop
  | join {addr hello} (hr : s.result = none) (ha : s.addrFree addr = true) :
      Step s (.join addr hello)
        (enqueue { s with clients := s.clients ++ [⟨addr, .joining hello, true, [], []⟩] }
          s.clients.length (.AddMinecraftClient addr s.clients.length)) []
  | hello {k m hello} (hm : s.clients[k]? = some m) (hp : m.phase = .joining hello)
      (hr : s.result = none) :
      Step s (.hello k)
        ((s.modify k fun m => { m with phase := .running, read := m.read ++ [hello] }).enqueue k
          (.Packet m.addr hello)) []
  | helloClosed {k m hello} (hm : s.clients[k]? = some m) (hp : m.phase = .joining hello)
      (hr : s.result ≠ none) :
      Step s (.hello k) (s.modify k fun m => { m with phase := .gone }) []
  | read {k m pkg} (hm : s.clients[k]? = some m) (hp : m.phase = .running) (hr : s.result = none) :
      Step s (.read k pkg)
        ((s.modify k fun m => { m with read := m.read ++ [pkg] }).enqueue k (.Packet m.addr pkg)) []
  | readClosed {k m pkg} (hm : s.clients[k]? = some m) (hp : m.phase = .running)
      (hr : s.result ≠ none) :
      Step s (.read k pkg)
        (s.modify k fun m => { m with phase := .ended, read := m.read ++ [pkg] }) []
  | receive {k m pkg rx} (hm : s.clients[k]? = some m) (hp : m.phase = .running)
      (hx : m.rx = pkg :: rx) : Step s (.receive k) (s.modify k fun m => { m with rx := rx }) []
  | receiveClosed {k m} (hm : s.clients[k]? = some m) (hp : m.phase = .running) (hx : m.rx = [])
      (hs : s.hasSender k = false) :
      Step s (.receive k) (s.modify k fun m => { m with phase := .ended, needForClose := false }) []
  | stop {k m} (hm : s.clients[k]? = some m) (hp : m.phase = .running) :
      Step s (.stop k) (s.modify k fun m => { m with phase := .ended }) []
  | drop {k m} (hm : s.clients[k]? = some m) (hp : m.phase = .ended) (hn : m.needForClose = true)
      (hr : s.result = none) :
      Step s (.drop k)
        ((s.modify k fun m => { m with phase := .gone, rx := [] }).enqueue k
          (.RemoveMinecraftClient m.addr)) []
  | dropSilent {k m} (hm : s.clients[k]? = some m) (hp : m.phase = .ended)
      (hn : m.needForClose = false ∨ s.result ≠ none) :
      Step s (.drop k) (s.modify k fun m => { m with phase := .gone, rx := [] }) []
  | close {k queue} (hr : s.result = none) (hq : s.queue = (k, .Close) :: queue) :
      Step s .take (s.finish (.ok ())) []
  | add {k addr tx queue c d} (hr : s.result = none)
      (hq : s.queue = (k, .AddMinecraftClient addr tx) :: queue)
      (hi : s.distributor.insert addr tx = .ok (c, d)) :
      Step s .take
        { s with distributor := d, queue := queue, joined := (k, c.id) :: s.joined }
        [(k, .ProxyJoin c.id)]
  | tooMany {k addr tx queue} (hr : s.result = none)
      (hq : s.queue = (k, .AddMinecraftClient addr tx) :: queue)
      (hi : s.distributor.freeId = none) :
      Step s .take (s.finish (.error .TooManyClients)) []
  | forward {k addr pkg queue c} (hr : s.result = none)
      (hq : s.queue = (k, .Packet addr pkg) :: queue)
      (hc : s.distributor.clientsAddr.lookup addr = some c) :
      Step s .take { s with queue := queue } [(k, .ProxyData (.new pkg c.id))]
  | wrongPacket {k addr pkg queue} (hr : s.result = none)
      (hq : s.queue = (k, .Packet addr pkg) :: queue)
      (hc : s.distributor.clientsAddr.lookup addr = none) :
      Step s .take (s.finish (.error .WrongPacket)) []
  | remove {k addr queue} (hr : s.result = none)
      (hq : s.queue = (k, .RemoveMinecraftClient addr) :: queue) :
      Step s .take { s with distributor := s.distributor.removeByAddr addr, queue := queue }
        ((s.distributor.clientsAddr.lookup addr).toList.map fun c => (k, .ProxyDisconnect c.id))
  | evict {src id c} (hr : s.result = none) (hc : s.distributor.getById id = some c) :
      Step s (.packet src (.ProxyDisconnect id))
        { s with distributor := s.distributor.removeById id, evicted := (src, c.tx) :: s.evicted } []
  | evictNone {src id} (hr : s.result = none) (hc : s.distributor.getById id = none) :
      Step s (.packet src (.ProxyDisconnect id))
        { s with distributor := s.distributor.removeById id } []
  | deliver {src d c} (hr : s.result = none) (hc : s.distributor.getById d.clientId = some c) :
      Step s (.packet src (.ProxyData d))
        { s.modify c.tx (deliver d.packet) with delivered := (src, c.tx) :: s.delivered } []
  | deliverNone {src d} (hr : s.result = none) (hc : s.distributor.getById d.clientId = none) :
      Step s (.packet src (.ProxyData d)) s []
  | pong {src n} (hr : s.result = none) :
      Step s (.packet src (.ProxyPing n)) s [(src, .ProxyPong n)]
  | ignored {src p} (hr : s.result = none) (hp : handled p = false) : Step s (.packet src p) s []
  | broken {e} (hr : s.result = none) : Step s (.broken e) (s.finish (.error (.IoError e))) []
  | leave (hr : s.result = none) : Step s .leave (s.finish (.ok ())) []

theorem takeStep_cases {s : Session} {k : Nat} {msg : ClientToProxy}
    {queue : List (Nat × ClientToProxy)} (hr : s.result = none) (hq : s.queue = (k, msg) :: queue) :
    Step s .take (s.takeStep k msg queue).1 (s.takeStep k msg queue).2 := by
  cases msg with
  | Close => exact .close hr hq
  | AddMinecraftClient addr tx =>
    cases hi : s.distributor.insert addr tx with
    | error e =>
      obtain ⟨hf, rfl⟩ := Distribiutor.insert_eq_error.mp hi
      have hstep := Step.tooMany hr hq hf
      simp only [takeStep, ProxyClient.onClient, hi]
      exact hstep
    | ok v =>
      obtain ⟨c, d⟩ := v
      have hstep := Step.add hr hq hi
      simp only [takeStep, ProxyClient.onClient, hi]
      exact hstep
  | Packet addr pkg =>
    cases hc : s.distributor.clientsAddr.lookup addr with
    | none =>
      have hstep := Step.wrongPacket hr hq hc
      simp only [takeStep, ProxyClient.onClient, Distribiutor.getByAddr, hc]
      exact hstep
    | some c =>
      have hstep := Step.forward hr hq hc
      simp only [takeStep, ProxyClient.onClient, Distribiutor.getByAddr, hc]
      exact hstep
  | RemoveMinecraftClient addr =>
    have hstep := Step.remove hr hq
    cases hc : s.distributor.clientsAddr.lookup addr with
    | none =>
      rw [hc] at hstep
      simp only [takeStep, ProxyClient.onClient, Distribiutor.getByAddr, hc]
      exact hstep
    | some c =>
      rw [hc] at hstep
      simp only [takeStep, ProxyClient.onClient, Distribiutor.getByAddr, hc]
      exact hstep

theorem packetStep_cases {s : Session} (src : Nat) (packet : SocketPacket) (hr : s.result = none) :
    Step s (.packet src packet) (s.packetStep src packet).1 (s.packetStep src packet).2 := by
  cases packet with
  | ProxyDisconnect id =>
    cases hc : s.distributor.getById id with
    | none =>
      have hstep : Step s (.packet src (.ProxyDisconnect id)) _ _ := .evictNone hr hc
      simp only [packetStep, ProxyClient.onProxy, hc]
      exact hstep
    | some c =>
      have hstep : Step s (.packet src (.ProxyDisconnect id)) _ _ := .evict hr hc
      simp only [packetStep, ProxyClient.onProxy, hc]
      exact hstep
  | ProxyData d =>
    cases hc : s.distributor.getById d.clientId with
    | none =>
      have hstep : Step s (.packet src (.ProxyData d)) _ _ := .deliverNone hr hc
      simp only [packetStep, ProxyClient.onProxy, hc]
      exact hstep
    | some c =>
      have hstep : Step s (.packet src (.ProxyData d)) _ _ := .deliver hr hc
      simp only [packetStep, ProxyClient.onProxy, hc]
      exact hstep
  | ProxyPing n => exact .pong hr
  | _ => exact .ignored hr rfl

theorem step_cases {s s' : Session} {e : SessionEvent} {out : List (Nat × SocketPacket)}
    (h : s.step e = some (s', out)) : Step s e s' out := by
  cases e with
  | join addr hello =>
    simp only [step] at h
    split at h
    · next hc =>
      rw [Bool.and_eq_true, Option.isNone_iff_eq_none] at hc
      cases h
      exact .join hc.1 hc.2
    · cases h
  | hello k =>
    obtain ⟨m, hm, h⟩ := Option.bind_eq_some_iff.mp h
    split at h
    · next hp =>
      split at h
      · next hr => cases h; exact .hello hm hp (Option.isNone_iff_eq_none.mp hr)
      · next hr => cases h; exact .helloClosed hm hp (by simpa using hr)
    · cases h
  | read k pkg =>
    obtain ⟨m, hm, h⟩ := Option.bind_eq_some_iff.mp h
    split at h
    · next hp =>
      split at h
      · next hr => cases h; exact .read hm hp (Option.isNone_iff_eq_none.mp hr)
      · next hr => cases h; exact .readClosed hm hp (by simpa using hr)
    · cases h
  | receive k =>
    obtain ⟨m, hm, h⟩ := Option.bind_eq_some_iff.mp h
    split at h
    · next hp =>
      split at h
      · next hx => cases h; exact .receive hm hp hx
      · next hx =>
        split at h
        · cases h
        · next hs => cases h; exact .receiveClosed hm hp hx (by simpa using hs)
    · cases h
  | stop k =>
    obtain ⟨m, hm, h⟩ := Option.bind_eq_some_iff.mp h
    split at h
    · next hp => cases h; exact .stop hm hp
    · cases h
  | drop k =>
    obtain ⟨m, hm, h⟩ := Option.bind_eq_some_iff.mp h
    split at h
    · next hp =>
      split at h
      · next hn =>
        rw [Bool.and_eq_true, Option.isNone_iff_eq_none] at hn
        cases h
        exact .drop hm hp hn.1 hn.2
      · next hn =>
        cases h
        refine .dropSilent hm hp ?_
        by_cases hc : m.needForClose = true
        · exact Or.inr fun hr => hn (by rw [hc, hr]; rfl)
        · exact Or.inl (by simpa using hc)
    · cases h
  | take =>
    simp only [step] at h
    split at h
    · next hr hq =>
      have hstep := takeStep_cases hr hq
      rw [Option.some.inj h] at hstep
      exact hstep
    · cases h
  | packet src p =>
    simp only [step] at h
    split at h
    · next hr =>
      have hstep := packetStep_cases src p (Option.isNone_iff_eq_none.mp hr)
      rw [Option.some.inj h] at hstep
      exact hstep
    · cases h
  | broken e =>
    simp only [step] at h
    split at h
    · next hr => cases h; exact .broken (Option.isNone_iff_eq_none.mp hr)
    · cases h
  | leave =>
    simp only [step] at h
    split at h
    · next hr => cases h; exact .leave (Option.isNone_iff_eq_none.mp hr)
    · cases h

/-- A loop that runs has been running. -/
theorem result_of_step {s s' : Session} {e : SessionEvent} {out : List (Nat × SocketPacket)}
    (hs : Step s e s' out) (h : s'.result = none) : s.result = none := by
  cases hs <;> assumption

end Session

/-- A session on its own: any packets may arrive. -/
def sessionMachine : Machine Session SessionEvent where
  init := .new
  step s e := (s.step e).map Prod.fst

end CraftIp
