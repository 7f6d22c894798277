import CraftIp.Properties.Distribution
import CraftIp.Properties.Session

/-!
# A join over the limit

`AddMinecraftClient` passes the error of `insert` on with `?`: `handle` returns, and its
tables are dropped with the entries of all clients.

* `distributor_reachable` — the tables of a session come from a run of calls
* `never_only_refuses` — a join that `insert` refuses ends the loop, in every session
-/

namespace CraftIp

open Infra Distribiutor

namespace Session

/-! ## The tables of a session -/

/-- **The tables of a session come from a run of calls.** -/
theorem distributor_reachable {s : Session} (h : sessionMachine.Reachable s) :
    distribiutorMachine.Reachable s.distributor := by
  refine h.invariant_of_reachable (I := fun s => distribiutorMachine.Reachable s.distributor)
    (.init _) fun s e s' hreach hd he => ?_
  obtain ⟨⟨s1, out⟩, hstep, rfl⟩ := Option.map_eq_some_iff.mp he
  cases step_cases hstep with
  | @add k addr tx queue c d hr hq hi =>
    exact hd.step (step_insert ((reachable_inv hreach).fresh_add hr hq) hi)
  | @remove k addr queue hr hq => exact hd.step (l := .removeByAddr addr) rfl
  | @evict src id c hr hc => exact hd.step (l := .removeById id) rfl
  | @evictNone src id hr hc => exact hd.step (l := .removeById id) rfl
  | close | tooMany | wrongPacket | broken | leave => exact .init _
  | _ => exact hd

/-! ## Refusals -/

/-- The packets that tell the proxy client about a Minecraft client. -/
def aboutClient : SocketPacket → Bool
  | .ProxyJoin _ | .ProxyData _ | .ProxyDisconnect _ => true
  | _ => false

/--
From `s` to `s'` the loop goes on, the entries of all addresses but `addr` stay as they are,
and the packets `out` are about no Minecraft client.
-/
structure Tolerates (s s' : Session) (addr : SocketAddr) (out : List (Nat × SocketPacket)) :
    Prop where
  running : s'.result = none
  addrs : ∀ a, a ≠ addr →
    s'.distributor.clientsAddr.lookup a = s.distributor.clientsAddr.lookup a
  ids : ∀ i a, a ≠ addr →
    (s'.distributor.clientsId.lookup i = some a ↔ s.distributor.clientsId.lookup i = some a)
  silent : ∀ e ∈ out, aboutClient e.2 = false

/--
Client `k` of `addr` is refused, and nothing else happens: whatever comes in between, the
loop tolerates each of its messages.
-/
def OnlyRefuses (s : Session) (k : Nat) (addr : SocketAddr) : Prop :=
  ∀ es t t' out msg queue, sessionMachine.run s es = some t → t.queue = (k, msg) :: queue →
    t.step .take = some (t', out) → t.Tolerates t' addr out

theorem take_tooMany {s : Session} {k tx : Nat} {addr : SocketAddr}
    {queue : List (Nat × ClientToProxy)} (hr : s.result = none)
    (hq : s.queue = (k, .AddMinecraftClient addr tx) :: queue)
    (hf : s.distributor.insert addr tx = .error .TooManyClients) :
    s.step .take = some (s.finish (.error .TooManyClients), []) := by
  simp only [step, hr, hq, takeStep, ProxyClient.onClient, hf]
  rfl

/-- A message of the client that ends the loop is not tolerated. -/
theorem not_onlyRefuses {s s' : Session} {k : Nat} {addr : SocketAddr} {msg : ClientToProxy}
    {queue : List (Nat × ClientToProxy)} {out : List (Nat × SocketPacket)}
    (hq : s.queue = (k, msg) :: queue) (hs : s.step .take = some (s', out))
    (hr : s'.result ≠ none) : ¬s.OnlyRefuses k addr :=
  fun h => hr (h [] s s' out msg queue rfl hq hs).running

/-- **A join that `insert` refuses ends the loop.** -/
theorem never_only_refuses {s : Session} {k tx : Nat} {addr : SocketAddr}
    {queue : List (Nat × ClientToProxy)} (hr : s.result = none)
    (hq : s.queue = (k, .AddMinecraftClient addr tx) :: queue)
    (hf : s.distributor.insert addr tx = .error .TooManyClients) : ¬s.OnlyRefuses k addr :=
  not_onlyRefuses hq (take_tooMany hr hq hf) nofun

/-! ## A full session -/

/-- `n` guests connect, and the loop takes their joins. -/
def visits (n : Nat) : List SessionEvent :=
  (List.range n).flatMap fun i => [.join (guest i) ⟨[16]⟩, .take]

/-- `n` guests are there, and the queue is empty. -/
structure Visited (s : Session) (n : Nat) : Prop where
  running : s.result = none
  idle : s.queue = []
  hosts : s.distributor.Hosts n
  sockets : ∀ m ∈ s.clients, ∃ i < n, m.addr = guest i

theorem step_join {s : Session} {addr : SocketAddr} {hello : MinecraftDataPacket}
    (hr : s.result = none) (ha : s.addrFree addr = true) :
    s.step (.join addr hello) = some (s.connect addr hello, []) := by
  rw [step, if_pos (by rw [hr, ha]; rfl)]
  rfl

theorem step_add {s : Session} {k tx : Nat} {addr : SocketAddr} {queue : List (Nat × ClientToProxy)}
    {c : MinecraftClient} {d : Distribiutor} (hr : s.result = none)
    (hq : s.queue = (k, .AddMinecraftClient addr tx) :: queue)
    (hi : s.distributor.insert addr tx = .ok (c, d)) :
    s.step .take = some
      ({ s with distributor := d, queue := queue, joined := (k, c.id) :: s.joined },
        [(k, .ProxyJoin c.id)]) := by
  simp only [step, hr, hq, takeStep, ProxyClient.onClient, hi]
  rfl

theorem Visited.addrFree {s : Session} {n : Nat} (h : s.Visited n) (hn : n < 2 ^ 32) :
    s.addrFree (guest n) = true := by
  refine List.all_eq_true.mpr ?_
  intro m hm
  obtain ⟨i, hi, haddr⟩ := h.sockets m hm
  have hne : m.addr ≠ guest n := fun heq =>
    Nat.ne_of_lt hi (guest_inj (by omega) hn (haddr.symm.trans heq))
  simp [hne]

/-- While there is a number left, the next guest gets it. -/
theorem Visited.next {s : Session} {n : Nat} (h : s.Visited n)
    (hd : distribiutorMachine.Reachable s.distributor) (hn : n ≤ MAXIMUM_CLIENTS.toNat) :
    ∃ s', sessionMachine.run s [.join (guest n) ⟨[16]⟩, .take] = some s' ∧ s'.Visited (n + 1) := by
  have hmax : MAXIMUM_CLIENTS.toNat = 255 := rfl
  obtain ⟨c, d, -, hi, hosts⟩ := h.hosts.insert hd hn s.clients.length
  have hjoin : s.step (.join (guest n) ⟨[16]⟩) = _ := step_join h.running (h.addrFree (by omega))
  have hq : (s.connect (guest n) ⟨[16]⟩).queue
      = [(s.clients.length, .AddMinecraftClient (guest n) s.clients.length)] := by
    show s.queue ++ _ = _
    rw [h.idle]
    rfl
  have htake := step_add (s := s.connect (guest n) ⟨[16]⟩) h.running hq hi
  refine ⟨{ s.connect (guest n) ⟨[16]⟩ with
    distributor := d, queue := [], joined := (s.clients.length, c.id) :: s.joined }, ?_, ?_⟩
  · simp only [Machine.run, sessionMachine, hjoin, htake, Option.map_some, Option.bind_some]
    rfl
  · refine ⟨h.running, rfl, hosts, ?_⟩
    intro m hm
    rcases List.mem_append.mp hm with hm | hm
    · obtain ⟨i, hi, heq⟩ := h.sockets m hm
      exact ⟨i, Nat.lt_succ_of_lt hi, heq⟩
    · rw [List.mem_singleton] at hm
      exact ⟨n, Nat.lt_succ_self n, by rw [hm]⟩

theorem run_visits {n : Nat} (hn : n ≤ MAXIMUM_CLIENTS.toNat + 1) :
    ∃ s, sessionMachine.run .new (visits n) = some s ∧ s.Visited n := by
  induction n with
  | zero => exact ⟨.new, rfl, rfl, rfl, hosts_new, fun _ h => by cases h⟩
  | succ n ih =>
    obtain ⟨s, hs, hv⟩ := ih (Nat.le_of_succ_le hn)
    have hd := distributor_reachable ⟨visits n, hs⟩
    obtain ⟨s', hs', hv'⟩ := hv.next hd (Nat.le_of_succ_le_succ hn)
    refine ⟨s', ?_, hv'⟩
    rw [visits, List.range_succ, List.flatMap_append, List.flatMap_singleton, Machine.run_append]
    show (sessionMachine.run .new (visits n)).bind _ = _
    rw [hs, Option.bind_some, hs']

/-- With 256 guests there, the next one is refused. -/
theorem exists_refused : ∃ s k addr tx, sessionMachine.Reachable s ∧ s.result = none ∧
    s.queue = [(k, .AddMinecraftClient addr tx)] ∧ s.distributor.registered = 256 ∧
    s.distributor.insert addr tx = .error .TooManyClients := by
  obtain ⟨s, hs, hv⟩ := run_visits (n := 256) (by decide)
  have hreach : sessionMachine.Reachable s := ⟨visits 256, hs⟩
  have hd := distributor_reachable hreach
  have hfree := (freeId_eq_none_iff_registered (consistent_of_reachable hd)
    (numbered_of_reachable hd)).mpr hv.hosts.registered
  have hjoin : s.step (.join (guest 256) ⟨[16]⟩) = _ :=
    step_join hv.running (hv.addrFree (by decide))
  refine ⟨s.connect (guest 256) ⟨[16]⟩, s.clients.length, guest 256, s.clients.length,
    hreach.step (l := .join (guest 256) ⟨[16]⟩) ?_, hv.running, ?_, hv.hosts.registered,
    insert_eq_error.mpr ⟨hfree, rfl⟩⟩
  · simp only [sessionMachine, hjoin, Option.map_some]
  · show s.queue ++ _ = _
    rw [hv.idle]
    rfl

theorem never_only_refuses_guest : ∃ s k addr, sessionMachine.Reachable s ∧
    s.distributor.registered = 256 ∧ ¬s.OnlyRefuses k addr := by
  obtain ⟨s, k, addr, tx, hreach, hr, hq, hlen, hf⟩ := exists_refused
  exact ⟨s, k, addr, hreach, hlen, never_only_refuses hr hq hf⟩

/-- **The 257th guest ends the session for the 256 others.** -/
theorem refusal_ends_session : ∃ s k addr s', sessionMachine.Reachable s ∧
    s.distributor.registered = 256 ∧ s.step .take = some (s', []) ∧
    s'.result = some (.error .TooManyClients) ∧ s'.distributor.registered = 0 ∧
    ¬s.OnlyRefuses k addr := by
  obtain ⟨s, k, addr, tx, hreach, hr, hq, hlen, hf⟩ := exists_refused
  have htake := take_tooMany hr hq hf
  exact ⟨s, k, addr, _, hreach, hlen, htake, rfl, rfl, not_onlyRefuses hq htake nofun⟩

end Session

end CraftIp
