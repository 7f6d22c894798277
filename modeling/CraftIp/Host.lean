import CraftIp.Server.ClientHandler
import CraftIp.Server.ProcessSocket

/-!
# The whole server

The tasks of the server, and behind each registered one the session of its
`ProxyClient::handle`. A task that is a Minecraft client has found the session of one of the
others, and becomes one of its clients.

Nothing is assumed of the two kinds of clients: a proxy client may send any packet at any
time.
-/

namespace CraftIp

open Infra

/-- What the task of a Minecraft client is to the session it found. -/
inductive Guest
  /-- Before `MCClient::new`, with the data of its hello. -/
  | arriving (hello : MinecraftDataPacket)
  /-- Client `k` of session `i`. -/
  | inside (i k : Nat)
  deriving DecidableEq

structure Host where
  server : Server
  /-- The session of a connection, from its registration on. -/
  sessions : Table Nat Session
  guests : Table Nat Guest

/-- What a Minecraft client does in its session. -/
inductive GuestEvent
  | hello
  | read (pkg : MinecraftDataPacket)
  | receive
  | stop
  /-- It is dropped, and this is what `MCClient::handle` returned. -/
  | drop (result : Except DistributorError Unit)
  deriving DecidableEq

/-- What can happen in the server. -/
inductive HostEvent
  /-- A task, without its session. -/
  | task (i : Nat) (e : Event)
  /-- The loop of `ProxyClient::handle`. -/
  | loop (i : Nat) (e : SessionEvent)
  /-- `MCClient::new` sends `AddMinecraftClient`. -/
  | join (j : Nat) (addr : SocketAddr)
  /-- A Minecraft client in its session. -/
  | guest (j : Nat) (e : GuestEvent)
  deriving DecidableEq

/-- The step of the session, for its client `k`. -/
def GuestEvent.toSession (k : Nat) : GuestEvent → SessionEvent
  | .hello => .hello k
  | .read pkg => .read k pkg
  | .receive => .receive k
  | .stop => .stop k
  | .drop _ => .drop k

/-- `MCClient::new` could not send. -/
def addFailed : DistributorError := .UnknownError "could not add minecraft client"

/-- What the task returns when the Minecraft client is gone. -/
def GuestEvent.result : GuestEvent → Except DistributorError Unit
  | .drop result => result
  | _ => .error addFailed

/-- The steps of the loop. -/
def SessionEvent.isLoop : SessionEvent → Bool
  | .take | .packet _ _ | .broken _ | .leave => true
  | _ => false

namespace Host

variable (crypto : Crypto)

def new : Host := { server := .new, sessions := ∅, guests := ∅ }

/-- A step of the task of connection `i`. -/
def onTask (s : Host) (i : Nat) (e : Event) : Option Host := do
  let server ← s.server.step crypto (i, e)
  return { s with server := server }

/-- A step of session `i`. -/
def onSession (s : Host) (i : Nat) (e : SessionEvent) : Option Host := do
  let session ← s.sessions.lookup i
  let (session, _) ← session.step e
  return { s with sessions := s.sessions.insert i session }

/-- What the loop of session `i` returned. -/
def resultOf (s : Host) (i : Nat) : Option (Except DistributorError Unit) :=
  (s.sessions.lookup i).bind Session.result

/-- Client `k` of session `i` is gone. -/
def isGone (s : Host) (i k : Nat) : Bool :=
  ((s.sessions.lookup i).bind fun session => session.clients[k]?).any fun m => m.phase = .gone

/-- A step of the task of connection `i` that has to do with its session. -/
def taskStep (s : Host) (i : Nat) (task : Task) : Event → Option Host
  | .register => do
    let s ← s.onTask crypto i .register
    return { s with sessions := s.sessions.insert i .new }
  | .channelClosed => do
    let session ← s.sessions.lookup i
    if session.queue = [] then
      let s ← s.onSession i .leave
      s.onTask crypto i .channelClosed
    else none
  | .lookup =>
    match task with
    | .looking packet => do
      let found := (s.server.register.servers.lookup packet.hostname).isSome
      let s ← s.onTask crypto i .lookup
      if found then return { s with guests := s.guests.insert i (.arriving ⟨packet.data⟩) }
      else return s
    | _ => none
  | .flushed (.error e) =>
    match task with
    | .greeting _ => do
      -- `handle` returns before its loop
      let s ← s.onSession i (.broken e)
      s.onTask crypto i (.flushed (.error e))
    | _ => s.onTask crypto i (.flushed (.error e))
  | .left result =>
    match task with
    | .serving _ => none
    | .minecraft _ =>
      match s.guests.lookup i with
      -- the peer has no address
      | some (.arriving _) =>
        ({ s with guests := s.guests.erase i } : Host).onTask crypto i (.left result)
      | _ => none
    | _ => s.onTask crypto i (.left result)
  | e => s.onTask crypto i e

def step (s : Host) : HostEvent → Option Host
  | .task i e =>
    match s.server.connections[i]? with
    | some c => s.taskStep crypto i c.task e
    | none => s.onTask crypto i e
  | .loop i e => do
    let c ← s.server.connections[i]?
    match c.task with
    | .serving _ =>
      if e.isLoop then do
        let s ← s.onSession i e
        match s.resultOf i with
        | some result => s.onTask crypto i (.left result)
        | none => return s
      else none
    | _ => none
  | .join j addr => do
    let c ← s.server.connections[j]?
    match c.task, s.guests.lookup j with
    | .minecraft i, some (.arriving hello) => do
      let session ← s.sessions.lookup i
      if session.result.isNone then
        let s ← s.onSession i (.join addr hello)
        return { s with guests := s.guests.insert j (.inside i session.clients.length) }
      else
        -- the channel is closed
        ({ s with guests := s.guests.erase j } : Host).onTask crypto j (.left (.error addFailed))
    | _, _ => none
  | .guest j e =>
    match s.guests.lookup j with
    | some (.inside i k) => do
      let s ← s.onSession i (e.toSession k)
      if s.isGone i k then s.onTask crypto j (.left e.result) else return s
    | _ => none

/-! ## The steps one by one -/

/-- A step of a task that leaves the sessions and their clients alone. -/
def Plain (s : Host) (c : Connection) : Event → Prop
  | .register | .channelClosed => False
  | .lookup => ∀ packet, c.task = .looking packet →
      s.server.register.servers.lookup packet.hostname = none
  | .flushed (.error _) => ∀ hostname, c.task ≠ .greeting hostname
  | .left _ => (∀ hostname, c.task ≠ .serving hostname) ∧ ∀ proxyTx, c.task ≠ .minecraft proxyTx
  | _ => True

/-- What a step can do. -/
inductive Step (s : Host) : HostEvent → Host → Prop
  | task {i e server} (h : s.server.step crypto (i, e) = some server)
      (hp : ∀ c, s.server.connections[i]? = some c → s.Plain c e) :
      Step s (.task i e) { s with server := server }
  | register {i server} (h : s.server.step crypto (i, .register) = some server) :
      Step s (.task i .register) { s with server := server, sessions := s.sessions.insert i .new }
  /-- A Minecraft client finds a session. -/
  | found {j i c packet server} (h : s.server.step crypto (j, .lookup) = some server)
      (hc : s.server.connections[j]? = some c) (ht : c.task = .looking packet)
      (hl : s.server.register.servers.lookup packet.hostname = some i) :
      Step s (.task j .lookup)
        { s with server := server, guests := s.guests.insert j (.arriving ⟨packet.data⟩) }
  /-- `MCClient::new` returns an error before it has sent anything. -/
  | dismissed {j i c hello result server l} (h : s.server.step crypto (j, .left result) = some server)
      (hc : s.server.connections[j]? = some c) (ht : c.task = .minecraft i)
      (hg : s.guests.lookup j = some (.arriving hello))
      (hl : l = .task j (.left result) ∨ ∃ addr, l = .join j addr) :
      Step s l { s with server := server, guests := s.guests.erase j }
  | goes {i e c hostname session session' out} (hc : s.server.connections[i]? = some c)
      (ht : c.task = .serving hostname) (he : e.isLoop = true)
      (hs : s.sessions.lookup i = some session) (hstep : session.step e = some (session', out))
      (hr : session'.result = none) :
      Step s (.loop i e) { s with sessions := s.sessions.insert i session' }
  /-- `handle` returns. -/
  | ends {i e c hostname session session' out result e' server l}
      (h : s.server.step crypto (i, e') = some server) (hc : s.server.connections[i]? = some c)
      (ht : (c.task = .greeting hostname ∨ c.task = .serving hostname) ∧
        server = s.server.goOn i c (.closing hostname result) []) (he : e.isLoop = true)
      (hs : s.sessions.lookup i = some session) (hstep : session.step e = some (session', out))
      (hr : session'.result = some result)
      (hl : l = .loop i e ∨ ((e = .leave ∨ ∃ x, e = .broken x) ∧ l = .task i e')) :
      Step s l { s with server := server, sessions := s.sessions.insert i session' }
  | join {j i c hello addr session session' out} (hc : s.server.connections[j]? = some c)
      (ht : c.task = .minecraft i) (hg : s.guests.lookup j = some (.arriving hello))
      (hs : s.sessions.lookup i = some session)
      (hstep : session.step (.join addr hello) = some (session', out)) :
      Step s (.join j addr)
        { s with sessions := s.sessions.insert i session'
                 guests := s.guests.insert j (.inside i session.clients.length) }
  | guest {j i k e session session' out} (hg : s.guests.lookup j = some (.inside i k))
      (hs : s.sessions.lookup i = some session)
      (hstep : session.step (e.toSession k) = some (session', out))
      (hm : (session'.clients[k]?.any fun m => m.phase = .gone) = false) :
      Step s (.guest j e) { s with sessions := s.sessions.insert i session' }
  /-- The task of a Minecraft client returns. -/
  | left {j i k e session session' out server}
      (h : s.server.step crypto (j, .left e.result) = some server)
      (hg : s.guests.lookup j = some (.inside i k)) (hs : s.sessions.lookup i = some session)
      (hstep : session.step (e.toSession k) = some (session', out))
      (hm : (session'.clients[k]?.any fun m => m.phase = .gone) = true) :
      Step s (.guest j e) { s with server := server, sessions := s.sessions.insert i session' }

variable {crypto}

theorem onTask_eq {s s' : Host} {i : Nat} {e : Event} :
    s.onTask crypto i e = some s' ↔
      ∃ server, s.server.step crypto (i, e) = some server ∧ s' = { s with server := server } := by
  unfold onTask
  constructor
  · intro h
    obtain ⟨server, hs, h⟩ := Option.bind_eq_some_iff.mp h
    cases h
    exact ⟨server, hs, rfl⟩
  · rintro ⟨server, hs, rfl⟩
    rw [hs]
    rfl

theorem onSession_eq {s s' : Host} {i : Nat} {e : SessionEvent}
    (h : s.onSession i e = some s') :
    ∃ session session' out, s.sessions.lookup i = some session ∧
      session.step e = some (session', out) ∧
      s' = { s with sessions := s.sessions.insert i session' } := by
  obtain ⟨session, hs, h⟩ := Option.bind_eq_some_iff.mp h
  obtain ⟨⟨session', out⟩, hstep, h⟩ := Option.bind_eq_some_iff.mp h
  cases h
  exact ⟨session, session', out, hs, hstep, rfl⟩

/-- A channel is closed in the loop only. -/
theorem channelClosed_eq {s server : Server} {i : Nat}
    (h : s.step crypto (i, .channelClosed) = some server) :
    ∃ c hostname, s.connections[i]? = some c ∧ c.task = .serving hostname ∧
      server = s.goOn i c (.closing hostname (.ok ())) [] := by
  cases Server.step_cases h with
  | channelClosed hc ht hs => exact ⟨_, _, hc, ht, rfl⟩
  | @task _ c _ task log hc ht => cases htask : c.task <;> simp [htask, Task.step] at ht

/-- A step of the task that is known. -/
theorem server_eq {s server : Server} {i : Nat} {c : Connection} {e : Event} {task : Task}
    {log : List Wire} (h : s.step crypto (i, e) = some server) (hc : s.connections[i]? = some c)
    (ht : c.task.step crypto e = some (task, log)) : server = s.goOn i c task log :=
  Option.some.inj (h.symm.trans (Server.step_task crypto hc ht))

theorem taskStep_cases {s s' : Host} {i : Nat} {c : Connection} {e : Event}
    (hc : s.server.connections[i]? = some c) (h : s.taskStep crypto i c.task e = some s') :
    Step crypto s (.task i e) s' := by
  have hplain (hp : s.Plain c e) (h : s.onTask crypto i e = some s') :
      Step crypto s (.task i e) s' := by
    obtain ⟨server, hs, rfl⟩ := onTask_eq.mp h
    refine .task hs ?_
    intro c' hc'
    cases hc.symm.trans hc'
    exact hp
  cases e with
  | register =>
    obtain ⟨t, ht, h⟩ := Option.bind_eq_some_iff.mp h
    obtain ⟨server, hs, rfl⟩ := onTask_eq.mp ht
    cases h
    exact .register hs
  | channelClosed =>
    obtain ⟨session, hs, h⟩ := Option.bind_eq_some_iff.mp h
    split at h
    · obtain ⟨t, ht, h⟩ := Option.bind_eq_some_iff.mp h
      obtain ⟨session, session', out, hs, hstep, rfl⟩ := onSession_eq ht
      obtain ⟨server, hserver, rfl⟩ := onTask_eq.mp h
      obtain ⟨c, hostname, hc, htask, rfl⟩ := channelClosed_eq hserver
      refine .ends hserver hc ⟨Or.inr htask, rfl⟩ rfl hs hstep ?_
        (Or.inr ⟨Or.inl rfl, rfl⟩)
      cases Session.step_cases hstep
      rfl
    · cases h
  | lookup =>
    simp only [taskStep] at h
    split at h
    · next packet htask =>
      obtain ⟨t, ht, h⟩ := Option.bind_eq_some_iff.mp h
      split at h
      · next hfound =>
        obtain ⟨proxyTx, hl⟩ := Option.isSome_iff_exists.mp hfound
        obtain ⟨server, hserver, rfl⟩ := onTask_eq.mp ht
        cases h
        exact .found hserver hc htask hl
      · next hfound =>
        cases h
        refine hplain ?_ ht
        intro packet' htask'
        cases htask.symm.trans htask'
        simpa using hfound
    · cases h
  | flushed result =>
    cases result with
    | ok _ => exact hplain trivial h
    | error x =>
      simp only [taskStep] at h
      split at h
      · next hostname htask =>
        obtain ⟨t, ht, h⟩ := Option.bind_eq_some_iff.mp h
        obtain ⟨session, session', out, hs, hstep, rfl⟩ := onSession_eq ht
        obtain ⟨server, hserver, rfl⟩ := onTask_eq.mp h
        have heq := server_eq hserver hc (by rw [htask]; rfl)
        refine .ends hserver hc ⟨Or.inl htask, heq⟩ rfl hs hstep ?_
          (Or.inr ⟨Or.inr ⟨_, rfl⟩, rfl⟩)
        cases Session.step_cases hstep
        rfl
      · next hne => exact hplain hne h
  | left result =>
    simp only [taskStep] at h
    split at h
    · cases h
    · next proxyTx htask =>
      split at h
      · next hello hg =>
        obtain ⟨server, hserver, rfl⟩ := onTask_eq.mp h
        exact .dismissed hserver hc htask hg (Or.inl rfl)
      · cases h
    · next hserving hminecraft => exact hplain ⟨hserving, hminecraft⟩ h
  | accepted | next | challenge | timeout | close => exact hplain trivial h

theorem step_cases {s s' : Host} {l : HostEvent} (h : s.step crypto l = some s') :
    Step crypto s l s' := by
  cases l with
  | task i e =>
    simp only [step] at h
    split at h
    · next c hc => exact taskStep_cases hc h
    · next hnone =>
      obtain ⟨server, hs, rfl⟩ := onTask_eq.mp h
      refine .task hs ?_
      intro c hc
      cases hnone.symm.trans hc
  | loop i e =>
    obtain ⟨c, hc, h⟩ := Option.bind_eq_some_iff.mp h
    split at h
    · next hostname htask =>
      split at h
      · next he =>
        obtain ⟨t, ht, h⟩ := Option.bind_eq_some_iff.mp h
        obtain ⟨session, session', out, hs, hstep, rfl⟩ := onSession_eq ht
        simp only [resultOf, Table.lookup_insert, if_true, Option.bind_some] at h
        split at h
        · next result hr =>
          obtain ⟨server, hserver, rfl⟩ := onTask_eq.mp h
          have heq := server_eq hserver hc (by rw [htask]; rfl)
          exact .ends hserver hc ⟨Or.inr htask, heq⟩ he hs hstep hr (Or.inl rfl)
        · next hr =>
          cases h
          exact .goes hc htask he hs hstep hr
      · cases h
    · cases h
  | join j addr =>
    obtain ⟨c, hc, h⟩ := Option.bind_eq_some_iff.mp h
    split at h
    · next i hello htask hg =>
      obtain ⟨session, hs, h⟩ := Option.bind_eq_some_iff.mp h
      split at h
      · obtain ⟨t, ht, h⟩ := Option.bind_eq_some_iff.mp h
        obtain ⟨session₁, session', out, hs₁, hstep, rfl⟩ := onSession_eq ht
        cases hs.symm.trans hs₁
        cases h
        exact .join hc htask hg hs hstep
      · obtain ⟨server, hserver, rfl⟩ := onTask_eq.mp h
        exact .dismissed hserver hc htask hg (Or.inr ⟨addr, rfl⟩)
    · cases h
  | guest j e =>
    simp only [step] at h
    split at h
    · next i k hg =>
      obtain ⟨t, ht, h⟩ := Option.bind_eq_some_iff.mp h
      obtain ⟨session, session', out, hs, hstep, rfl⟩ := onSession_eq ht
      simp only [isGone, Table.lookup_insert, if_true, Option.bind_some] at h
      split at h
      · next hm =>
        obtain ⟨server, hserver, rfl⟩ := onTask_eq.mp h
        exact .left hserver hg hs hstep hm
      · next hm =>
        cases h
        exact .guest hg hs hstep (Bool.eq_false_iff.mpr hm)
    · cases h

end Host

/-- The server with its sessions. -/
def hostMachine (crypto : Crypto) : Machine Host HostEvent where
  init := .new
  step := Host.step crypto

end CraftIp
