import CraftIp.Properties.AtRest
import CraftIp.Properties.Shutdown

/-!
# Nothing is left behind

* `session_drained` — between two messages the tables of a session hold exactly the clients that
  are there, but for those a `ProxyDisconnect` removed; without clients they are empty
* `client_drained` — the connections in the table of a client are there, or on their way out
* `tunnel_drained` — a tunnel at rest without Minecraft clients has empty tables at both ends,
  so its local connections end
-/

namespace CraftIp

open Infra

/-! ## The session -/

namespace Session

/-- When the queue is empty, the owner of an address is the client that is there. -/
theorem Inv.owner_iff {s : Session} (h : s.Inv) (hr : s.result = none) (hq : s.queue = [])
    (addr : SocketAddr) (k : Nat) : s.owner addr = some k ↔ s.Live k addr ∧ ¬s.Evicted k := by
  obtain ⟨o, hpath, ho⟩ := h.settled hr addr
  rw [hq] at hpath
  cases hpath
  exact ho k

/-- No Minecraft client is there. -/
def Deserted (s : Session) : Prop := ∀ m ∈ s.clients, m.phase = .gone

theorem deserted_of_phases {s : Session} (h : s.clients.map MCClient.phase = [.gone]) :
    s.Deserted := by
  intro m hm
  have hmem := List.mem_map_of_mem (f := MCClient.phase) hm
  rw [h] at hmem
  exact List.mem_singleton.mp hmem

theorem Deserted.not_live {s : Session} (h : s.Deserted) (k : Nat) (addr : SocketAddr) :
    ¬s.Live k addr := by
  rintro ⟨m, hm, hp, -⟩
  exact hp (h m (List.mem_of_getElem? hm))

/-- Both tables are empty. -/
def Empty (s : Session) : Prop :=
  s.distributor.clientsAddr.entries = [] ∧ s.distributor.clientsId.entries = []

theorem empty_of_no_owner {s : Session} (h : s.Inv) (hn : ∀ addr, s.owner addr = none) :
    s.Empty := by
  have haddr (addr : SocketAddr) : s.distributor.clientsAddr.lookup addr = none :=
    Option.map_eq_none_iff.mp (hn addr)
  constructor
  · refine List.eq_nil_iff_forall_not_mem.mpr ?_
    rintro ⟨addr, c⟩ hmem
    cases (haddr addr).symm.trans (AList.mem_lookup_iff.mpr hmem)
  · refine List.eq_nil_iff_forall_not_mem.mpr ?_
    rintro ⟨id, addr⟩ hmem
    obtain ⟨c, hc, -⟩ := h.tables.byId (AList.mem_lookup_iff.mpr hmem)
    cases (haddr addr).symm.trans hc

theorem Inv.empty {s : Session} (h : s.Inv) (hr : s.result = none) (hq : s.queue = [])
    (hd : s.Deserted) : s.Empty := by
  refine empty_of_no_owner h ?_
  intro addr
  cases ho : s.owner addr with
  | none => rfl
  | some k => exact absurd ((h.owner_iff hr hq addr k).mp ho).1 (hd.not_live k addr)

/-- Taking a message moves no Minecraft client. -/
theorem takeStep_clients (s : Session) (k : Nat) (msg : ClientToProxy)
    (queue : List (Nat × ClientToProxy)) :
    (s.takeStep k msg queue).1.clients = s.clients ∧
      ((s.takeStep k msg queue).1.result = none → (s.takeStep k msg queue).1.queue = queue) := by
  unfold takeStep
  split
  · exact ⟨rfl, fun h => by cases h⟩
  · exact ⟨rfl, fun h => by cases h⟩
  · exact ⟨rfl, fun _ => rfl⟩

theorem step_take {s : Session} {k : Nat} {msg : ClientToProxy}
    {queue : List (Nat × ClientToProxy)} (hr : s.result = none) (hq : s.queue = (k, msg) :: queue) :
    sessionMachine.step s .take = some (s.takeStep k msg queue).1 := by
  simp [sessionMachine, Session.step, hr, hq]

/-- The loop takes all that is queued, or ends before; either way the tables are empty then. -/
theorem takes_to_empty : ∀ (n : Nat) {s : Session}, sessionMachine.Reachable s → s.result = none →
    s.queue.length = n → s.Deserted →
    ∃ i s', i ≤ n ∧ sessionMachine.run s (List.replicate i .take) = some s' ∧ s'.Empty ∧
      (s'.result = none → i = n ∧ s'.queue = []) := by
  intro n
  induction n with
  | zero =>
    intro s h hr hq hd
    have hnil := List.length_eq_zero_iff.mp hq
    exact ⟨0, s, Nat.le_refl 0, rfl, (reachable_inv h).empty hr hnil hd, fun _ => ⟨rfl, hnil⟩⟩
  | succ n ih =>
    intro s h hr hlen hd
    obtain ⟨⟨k, msg⟩, queue, hq⟩ := List.exists_cons_of_length_eq_add_one hlen
    have hstep := step_take hr hq
    obtain ⟨hclients, hqueue⟩ := takeStep_clients s k msg queue
    generalize hs' : (s.takeStep k msg queue).1 = s' at hstep hclients hqueue
    by_cases hr' : s'.result = none
    · have hd' : s'.Deserted := by
        intro m hm
        exact hd m (hclients ▸ hm)
      have hlen' : s'.queue.length = n := by
        rw [hqueue hr']
        rw [hq] at hlen
        simpa using hlen
      obtain ⟨i, t, hi, hrun, hempty, hall⟩ := ih (h.step hstep) hr' hlen' hd'
      refine ⟨i + 1, t, Nat.succ_le_succ hi, ?_, hempty, ?_⟩
      · rw [List.replicate_succ, Machine.run, hstep, Option.bind_some, hrun]
      · intro ht
        exact ⟨congrArg Nat.succ (hall ht).1, (hall ht).2⟩
    · refine ⟨1, s', by omega, ?_, ?_, fun ht => absurd ht hr'⟩
      · rw [List.replicate_one, Machine.run, hstep]
        rfl
      · have hover := reachable_over (h.step hstep) hr'
        rw [Empty, hover.tables]
        exact ⟨rfl, rfl⟩

end Session

/--
**A session forgets the clients that have left.** In every reachable state of a session whose
loop runs,

* when its queue is empty, the owner of an address is the Minecraft client that is connected
  from there, unless a `ProxyDisconnect` has removed it, and
* when no Minecraft client is connected, the loop takes the messages in its queue, all of them
  unless it ends before, and then both tables are empty.
-/
theorem session_drained {s : Session} (h : sessionMachine.Reachable s) (hr : s.result = none) :
    (s.queue = [] → ∀ addr k, s.owner addr = some k ↔ s.Live k addr ∧ ¬s.Evicted k) ∧
    (s.Deserted → ∃ i s', i ≤ s.queue.length ∧
      sessionMachine.run s (List.replicate i .take) = some s' ∧ s'.Empty ∧
      (s'.result = none → i = s.queue.length ∧ s'.queue = [])) :=
  ⟨fun hq => (Session.reachable_inv h).owner_iff hr hq,
    fun hd => Session.takes_to_empty s.queue.length h hr rfl hd⟩

/-- A Minecraft client comes and leaves. -/
def shortVisit : List SessionEvent :=
  [.join (.V4 0 1) ⟨[]⟩, .hello 0, .take, .take, .stop 0, .drop 0]

theorem session_drained_shortVisit : ∃ s, sessionMachine.Reachable s ∧
    s.distributor.clientsId.keys = [0] ∧
    ∃ i s', i ≤ 1 ∧ sessionMachine.run s (List.replicate i .take) = some s' ∧ s'.Empty ∧
      (s'.result = none → i = 1 ∧ s'.queue = []) := by
  obtain ⟨s, hrun, hr, hlen, hphase, hkeys⟩ : ∃ s, sessionMachine.run .new shortVisit = some s ∧
      s.result = none ∧ s.queue.length = 1 ∧ s.clients.map (·.phase) = [.gone] ∧
      s.distributor.clientsId.keys = [0] := ⟨_, rfl, rfl, rfl, rfl, rfl⟩
  have hdrained := (session_drained ⟨shortVisit, hrun⟩ hr).2 (Session.deserted_of_phases hphase)
  exact ⟨s, ⟨shortVisit, hrun⟩, hkeys, hlen ▸ hdrained⟩

/-! ## The client -/

namespace Client

/-- The task of a local connection has yet to say that it is over. -/
def Busy (l : ClientConnection) : Prop :=
  l.phase = .connecting ∨ l.phase = .running ∨ l.phase = .ended

/-- Every connection in the table is there, or its removal is queued. -/
def Tracked (c : Client) : Prop :=
  ∀ i k, c.state.connections.lookup i = some k → ∃ l, c.spawned.lookup k = some l ∧
    l.clientId = i ∧ (Busy l ∨ (k, .RemoveMinecraftClient i) ∈ c.toProxy)

/-- Connection `k` goes on, and the queue may grow. -/
theorem Tracked.modify {c c' : Client} (h : c.Tracked) {k : Nat} {l : ClientConnection}
    {f : ClientConnection → ClientConnection} (hl : c.spawned.lookup k = some l)
    (hspawned : c'.spawned = (c.modify k f).spawned)
    (htable : c'.state.connections = c.state.connections) (hqueue : c.toProxy ⊆ c'.toProxy)
    (hid : (f l).clientId = l.clientId)
    (hf : (∃ i, c.state.connections.lookup i = some k) →
      Busy (f l) ∨ ¬Busy l ∨ (k, .RemoveMinecraftClient l.clientId) ∈ c'.toProxy) :
    c'.Tracked := by
  intro i j hj
  rw [htable] at hj
  obtain ⟨lj, hlj, hclient, hbusy⟩ := h i j hj
  rw [hspawned, spawned_modify]
  by_cases hjk : j = k
  · subst hjk
    cases hl.symm.trans hlj
    refine ⟨f l, by rw [if_pos rfl, hl]; rfl, hid.trans hclient, ?_⟩
    rcases hf ⟨i, hj⟩ with hb | hb | hb
    · exact Or.inl hb
    · exact Or.inr (hqueue (hbusy.resolve_left hb))
    · exact Or.inr (hclient ▸ hb)
  · exact ⟨lj, by rw [if_neg hjk, hlj], hclient, hbusy.imp id fun hq => hqueue hq⟩

/-- The table has no more entries than before, and the queue has lost nothing about them. -/
theorem Tracked.shrink {c c' : Client} (h : c.Tracked) (hspawned : c'.spawned = c.spawned)
    (hsub : ∀ {i k}, c'.state.connections.lookup i = some k →
      c.state.connections.lookup i = some k ∧
        ((k, .RemoveMinecraftClient i) ∈ c.toProxy → (k, .RemoveMinecraftClient i) ∈ c'.toProxy)) :
    c'.Tracked := by
  intro i k hk
  obtain ⟨hold, hqueue⟩ := hsub hk
  obtain ⟨l, hl, hid, hbusy⟩ := h i k hold
  exact ⟨l, hspawned ▸ hl, hid, hbusy.imp id hqueue⟩

/-- **Every step keeps the table in order**, when no connection is spawned twice. -/
theorem Tracked.step {c c' : Client} {e : ClientEvent} {out : List (Nat × SocketPacket)}
    (h : c.result = none → c.Tracked) (hi : c.Inv) (hs : Step c e c' out)
    (hfresh : ∀ {k id millis}, e = .packet k (.ProxyJoin id) millis → ∀ i, (k, i) ∉ c.joins) :
    c'.result = none → c'.Tracked := by
  intro hr
  -- a connection whose channel was closed is in the table no more
  have hclosed {k l} (hl : c.spawned.lookup k = some l)
      (hk : ∃ i, c.state.connections.lookup i = some k) : l.needForClose = true := by
    obtain ⟨i, hk⟩ := hk
    refine Bool.eq_true_of_not_eq_false ?_
    exact fun hn => (hi.closed hl hn).2 i hk
  -- the message that is taken speaks of an id that is no longer in the table
  have htaken {k j : Nat} {id i : UInt16} {toProxy : List (Nat × ClientToProxy)}
      (hq : c.toProxy = (k, .RemoveMinecraftClient id) :: toProxy)
      (hj : (c.state.removeConnection id).connections.lookup i = some j)
      (hmem : (j, .RemoveMinecraftClient i) ∈ c.toProxy) :
      (j, .RemoveMinecraftClient i) ∈ toProxy := by
    rw [hq] at hmem
    rcases List.mem_cons.mp hmem with heq | hmem
    · cases heq
      rw [State.removeConnection_connections, Table.lookup_erase, if_pos rfl] at hj
      cases hj
    · exact hmem
  cases hs with
  | connected hl hp =>
    exact (h hr).modify hl rfl rfl (fun _ h => h) rfl fun _ => Or.inl (Or.inr (Or.inl rfl))
  | failed hl hp hr' =>
    refine (h hr').modify hl rfl rfl (List.subset_append_left _ _) rfl ?_
    exact fun _ => Or.inl (Or.inr (Or.inr rfl))
  | failedClosed hl hp hr' => exact absurd hr hr'
  | take hl hp hx =>
    exact (h hr).modify hl rfl rfl (fun _ h => h) rfl fun _ => Or.inl (Or.inr (Or.inl hp))
  | takeClosed hl hp hx hsender =>
    refine (h hr).modify hl rfl rfl (fun _ h => h) rfl ?_
    rintro ⟨i, hk⟩
    exact absurd hk (not_entry_of_noSender hsender i)
  | read hl hp hd hr' =>
    exact (h hr').shrink rfl fun hk => ⟨hk, fun hq => List.mem_append_left _ hq⟩
  | readClosed hl hp hr' => exact absurd hr hr'
  | stop hl hp =>
    exact (h hr).modify hl rfl rfl (fun _ h => h) rfl fun _ => Or.inl (Or.inr (Or.inr rfl))
  | drop hl hp hn hr' =>
    refine (h hr').modify hl rfl rfl (List.subset_append_left _ _) rfl ?_
    exact fun _ => Or.inr (Or.inr (List.mem_append_right _ List.mem_cons_self))
  | dropSilent hl hp hn =>
    refine (h hr).modify hl rfl rfl (fun _ h => h) rfl ?_
    intro hk
    rcases hn with hn | hn
    · rw [hclosed hl hk] at hn
      cases hn
    · exact absurd hr hn
  | close hl hp =>
    refine (h hr).modify hl rfl rfl (fun _ h => h) rfl fun _ => Or.inr (Or.inl ?_)
    simp [Busy, hp]
  | @forward k id pkg toProxy hr' hq =>
    refine (h hr').shrink rfl fun hk => ⟨hk, ?_⟩
    rw [hq]
    intro hmem
    simpa using hmem
  | remove hr' hq hc => exact (h hr').shrink rfl fun hk => ⟨erase_sub hk, htaken hq hk⟩
  | removeNone hr' hq hc => exact (h hr').shrink rfl fun hk => ⟨erase_sub hk, htaken hq hk⟩
  | @join k id millis hr' =>
    intro i j hj
    rw [State.addConnection_connections, Table.lookup_insert] at hj
    show ∃ l, (c.spawned.insert k (.new id)).lookup j = some l ∧ _
    rw [Table.lookup_insert]
    split at hj
    · next heq =>
      cases hj
      subst heq
      exact ⟨_, by rw [if_pos rfl], rfl, Or.inl (Or.inl rfl)⟩
    · -- an older entry is of another connection
      have hne : j ≠ k := by
        rintro rfl
        exact hfresh rfl i (newest_mem (hi.entry hj))
      obtain ⟨l, hl, hrest⟩ := h hr' i j hj
      exact ⟨l, by rw [if_neg hne, hl], hrest⟩
  | @deliver k d tx millis hr' hc ho =>
    obtain ⟨l, hl⟩ := hi.joined (newest_mem (hi.entry hc))
    refine (h hr').modify hl rfl rfl (fun _ h => h) rfl ?_
    intro _
    by_cases hb : Busy l
    · exact Or.inl hb
    · exact Or.inr (Or.inl hb)
  | lost hr' hc ho => exact (h hr').shrink rfl fun hk => ⟨erase_sub hk, id⟩
  | disconnected hr' => exact (h hr').shrink rfl fun hk => ⟨erase_sub hk, id⟩
  | pong hr' => exact (h hr').shrink rfl fun hk => ⟨hk, id⟩
  | ping hr' => exact h hr'
  | _ => cases hr

end Client

theorem Tunnel.reachable_tracked {t : Tunnel} (h : tunnelMachine.Reachable t) :
    t.client.result = none → t.client.Tracked := by
  refine Machine.Reachable.invariant_of_reachable (m := tunnelMachine)
    (I := fun t => t.client.result = none → t.client.Tracked) ?_ ?_ h
  · intro _ i k hk
    cases hk
  · intro t e t' hreach ht hl
    have hinv := Tunnel.reachable_inv hreach
    cases Tunnel.step_cases hl with
    | server he hs => exact ht
    | toServer hq hs => exact ht
    | client he hs =>
      refine Client.Tracked.step ht hinv.client hs ?_
      intro k id millis heq
      exact absurd heq (he _ _ _)
    | @toClient k packet toClient millis client out hq hs =>
      refine Client.Tracked.step ht hinv.client hs ?_
      intro j id millis' heq
      cases heq
      have hjoin : (k, .ProxyJoin id) ∈ t.toClient := by
        rw [hq]
        exact List.mem_cons_self
      exact hinv.fresh hjoin

/--
**A client forgets the connections that have ended.** In every reachable state of a tunnel whose
client runs, a connection in the table of the client is there, or its removal is queued. So
when all local connections are over and the queue is empty, the table is empty.
-/
theorem client_drained {t : Tunnel} (h : tunnelMachine.Reachable t) (hr : t.client.result = none) :
    (∀ i k, t.client.state.connections.lookup i = some k →
      ∃ l, t.client.spawned.lookup k = some l ∧ l.clientId = i ∧
        (Client.Busy l ∨ (k, .RemoveMinecraftClient i) ∈ t.client.toProxy)) ∧
    ((∀ k l, t.client.spawned.lookup k = some l → ¬Client.Busy l) → t.client.toProxy = [] →
      t.client.state.connections.entries = []) := by
  have htracked := Tunnel.reachable_tracked h hr
  refine ⟨htracked, ?_⟩
  intro hover hq
  refine List.eq_nil_iff_forall_not_mem.mpr ?_
  rintro ⟨i, k⟩ hmem
  obtain ⟨l, hl, -, hbusy | hqueued⟩ := htracked i k (AList.mem_lookup_iff.mpr hmem)
  · exact hover k l hl hbusy
  · rw [hq] at hqueued
    cases hqueued

theorem client_drained_visit : ∃ t, tunnelMachine.Reachable t ∧ t.client.result = none ∧
    t.client.state.connections.keys = [0] ∧
    ∃ l, t.client.spawned.lookup 0 = some l ∧ l.clientId = 0 := by
  obtain ⟨t, hrun, hr, hkeys, hl⟩ : ∃ t, tunnelMachine.run .new
      (arrival 0 (.V4 0 40000) ++ [.toClient 0, .toClient 0]) = some t ∧ t.client.result = none ∧
      t.client.state.connections.keys = [0] ∧ t.client.state.connections.lookup 0 = some 0 :=
    ⟨_, rfl, rfl, rfl, rfl⟩
  obtain ⟨l, hspawned, hid, -⟩ := (client_drained ⟨_, hrun⟩ hr).1 0 0 hl
  exact ⟨t, ⟨_, hrun⟩, hr, hkeys, l, hspawned, hid⟩

/-! ## Both ends -/

/--
**A deserted tunnel is empty.** When the two sides have never crossed, nothing is in flight and
no Minecraft client is connected, then the tables at both ends are empty. No local connection
has a sender, so each of them that is open finds its channel closed when it has taken what is
in it.
-/
theorem tunnel_drained {t : Tunnel}
    (h : (tunnelMachine.restrict fun t e => t.uncrossed e = true).Reachable t)
    (hs : t.server.result = none) (hc : t.client.result = none) (hrest : t.AtRest)
    (hd : t.server.Deserted) :
    t.server.Empty ∧ t.client.state.connections.entries = [] ∧
      ∀ k, t.client.hasSender k = false := by
  have hin : t.InStep :=
    Machine.Reachable.restrict_invariant (I := Tunnel.InStep)
      (fun _ _ i => Tunnel.agrees_new i)
      (fun _ _ _ hr hin hc hs => hin.step (Tunnel.reachable_inv hr) hc (Tunnel.step_cases hs)) h
  have hempty := (Tunnel.reachable_inv h.of_restrict).server.empty hs hrest.queue hd
  have hentries : t.client.state.connections.entries = [] := by
    refine List.eq_nil_iff_forall_not_mem.mpr ?_
    rintro ⟨i, k⟩ hmem
    have hquiet : ¬t.Told i := by
      rintro ⟨k, hk⟩
      rw [hrest.toServer] at hk
      cases hk
    have hwill : t.willHave i = true := by
      rw [Tunnel.willHave, hrest.toClient, Tunnel.clientHas, AList.mem_lookup_iff.mpr hmem]
      rfl
    -- the server has the id, but its table is empty
    obtain ⟨addr, haddr⟩ := Option.isSome_iff_exists.mp ((hin hs hc i).client hquiet hwill)
    have hmem' := AList.mem_lookup_iff.mp haddr
    rw [hempty.2] at hmem'
    cases hmem'
  refine ⟨hempty, hentries, ?_⟩
  intro k
  rw [Client.hasSender, hentries]
  rfl

/-- A Minecraft client comes and leaves, and both sides take what there is to take. -/
def wholeVisit : List TunnelEvent :=
  arrival 0 (.V4 0 40000) ++ [.toClient 0, .toClient 0, .client (.connected 0), .server (.stop 0),
    .server (.drop 0), .server .take, .toClient 0]

theorem tunnel_drained_wholeVisit : ∃ t,
    (tunnelMachine.restrict fun t e => t.uncrossed e = true).Reachable t ∧
    t.server.Empty ∧ t.client.hasSender 0 = false ∧
    ∃ l, t.client.spawned.lookup 0 = some l ∧ l.phase = .running := by
  obtain ⟨t, hrun, hs, hc, hrest, hphase, hl⟩ : ∃ t,
      (tunnelMachine.restrict fun t e => t.uncrossed e = true).run .new wholeVisit = some t ∧
      t.server.result = none ∧ t.client.result = none ∧ t.AtRest ∧
      t.server.clients.map (·.phase) = [.gone] ∧
      ∃ l, t.client.spawned.lookup 0 = some l ∧ l.phase = .running :=
    ⟨_, rfl, rfl, rfl, ⟨rfl, rfl, rfl, rfl, by decide, by decide⟩, rfl, _, rfl, rfl⟩
  obtain ⟨hempty, -, hsender⟩ := tunnel_drained ⟨wholeVisit, hrun⟩ hs hc hrest
    (Session.deserted_of_phases hphase)
  exact ⟨t, ⟨wholeVisit, hrun⟩, hempty, hsender 0, hl⟩

end CraftIp
