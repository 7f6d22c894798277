import CraftIp.Properties.Tunnel

/-!
# From a Minecraft client to the local server

The data of one Minecraft client goes through the queue of the session, the control
connection and the channel of its local connection. At every place it is marked with the
number of the client, so what has arrived and what is still to come can be put together
again: as long as both loops run and the local connection is not given up, it is everything
that was read; and what has arrived is a prefix of it in any case.

* `upstream_fidelity` — what a local connection takes is a prefix of what its Minecraft
  client sent, and all of it when the queues are empty
-/

namespace CraftIp

open Infra

/-- The bytes of some packets. -/
def bytesOf (packets : List MinecraftDataPacket) : Bytes := packets.flatMap (·.data)

/-- The local server has neither closed the connection nor failed. -/
def ClientConnection.Steady (l : ClientConnection) : Prop :=
  l.phase = .connecting ∨ l.phase = .running ∨ l.needForClose = false

namespace Tunnel

/-! ## The data of one client -/

/-- What is in the queue of the session. -/
def queuedOf (k : Nat) (queue : List (Nat × ClientToProxy)) : List MinecraftDataPacket :=
  queue.filterMap fun
    | (j, .Packet _ pkg) => if j = k then some pkg else none
    | _ => none

/-- What is on its way to the client. -/
def dataOf (k : Nat) (packets : List (Nat × SocketPacket)) : List MinecraftDataPacket :=
  packets.filterMap fun
    | (j, .ProxyData d) => if j = k then some d.packet else none
    | _ => none

/-- What has reached the local connection. -/
def arrived (c : Client) (k : Nat) : List MinecraftDataPacket :=
  ((c.spawned.lookup k).map fun l => l.taken ++ l.clientRx).getD []

/-- What the Minecraft client has read. -/
def readOf (s : Session) (k : Nat) : List MinecraftDataPacket :=
  (s.clients[k]?.map MCClient.read).getD []

/-- The local connection has not given up its channel while it could be sent to. -/
def Intact (c : Client) (k : Nat) : Prop :=
  ∀ l, c.spawned.lookup k = some l → l.phase = .gone → l.needForClose = false

theorem queuedOf_append (k : Nat) (p q : List (Nat × ClientToProxy)) :
    queuedOf k (p ++ q) = queuedOf k p ++ queuedOf k q := List.filterMap_append

theorem dataOf_append (k : Nat) (p q : List (Nat × SocketPacket)) :
    dataOf k (p ++ q) = dataOf k p ++ dataOf k q := List.filterMap_append

/-- What is known of the data of client `k`. -/
structure Flows (t : Tunnel) (k : Nat) : Prop where
  arrived : arrived t.client k <+: readOf t.server k
  sent : t.client.result = none → Intact t.client k →
    Tunnel.arrived t.client k ++ dataOf k t.toClient <+: readOf t.server k
  all : t.server.result = none → t.client.result = none → Intact t.client k →
    Tunnel.arrived t.client k ++ dataOf k t.toClient ++ queuedOf k t.server.queue
      = readOf t.server k

theorem flows_new (k : Nat) : new.Flows k := by
  refine ⟨?_, fun _ _ => ?_, fun _ _ _ => ?_⟩ <;> simp [new, Tunnel.arrived, readOf, dataOf,
    queuedOf, Session.new, Client.new]

/-! ## The session -/

theorem readOf_modify {s : Session} {k j : Nat} {m : MCClient} {f : MCClient → MCClient}
    (hm : s.clients[j]? = some m) :
    readOf (s.modify j f) k = if j = k then (f m).read else readOf s k := by
  unfold readOf
  rw [Session.clients_modify]
  by_cases h : j = k
  · subst h
    rw [if_pos rfl, if_pos rfl, hm]
    rfl
  · rw [if_neg h, if_neg h]

theorem queuedOf_packet (k j : Nat) (addr : SocketAddr) (pkg : MinecraftDataPacket) :
    queuedOf k [(j, .Packet addr pkg)] = if j = k then [pkg] else [] := by
  unfold queuedOf
  by_cases h : j = k <;> simp [h]

theorem dataOf_data (k j : Nat) (d : ProxyDataPacket) :
    dataOf k [(j, .ProxyData d)] = if j = k then [d.packet] else [] := by
  unfold dataOf
  by_cases h : j = k <;> simp [h]

/-- A client that reads as much as before. -/
theorem readOf_modify_eq {s : Session} {j : Nat} {m : MCClient} {f : MCClient → MCClient}
    (hm : s.clients[j]? = some m) (hf : (f m).read = m.read) (k : Nat) :
    readOf (s.modify j f) k = readOf s k := by
  rw [readOf_modify hm]
  split
  · next h => subst h; rw [hf, readOf, hm]; rfl
  · rfl

/-- A client that reads one packet more. -/
theorem readOf_modify_snoc {s : Session} {j : Nat} {m : MCClient} {f : MCClient → MCClient}
    {pkg : MinecraftDataPacket} (hm : s.clients[j]? = some m) (hf : (f m).read = m.read ++ [pkg])
    (k : Nat) : readOf (s.modify j f) k = readOf s k ++ if j = k then [pkg] else [] := by
  rw [readOf_modify hm]
  split
  · next h => subst h; rw [hf, readOf, hm]; rfl
  · rw [List.append_nil]

/--
What a step of the session does to the data of client `k`: it reads some more, `x`, and
moves data from its queue into the control connection.
-/
theorem session_flow {s s' : Session} {e : SessionEvent} {out : List (Nat × SocketPacket)}
    (h : s.Inv) (hs : Session.Step s e s' out) (k : Nat) :
    ∃ x, readOf s' k = readOf s k ++ x ∧
      (s'.result = none → s.result = none ∧
        dataOf k out ++ queuedOf k s'.queue = queuedOf k s.queue ++ x) ∧
      (s'.result ≠ none → dataOf k out = []) := by
  -- nothing is read, and nothing of a client's data moves
  have hidle : ∀ {s' : Session}, readOf s' k = readOf s k → s'.result = s.result →
      queuedOf k s'.queue = queuedOf k s.queue →
      ∃ x, readOf s' k = readOf s k ++ x ∧
        (s'.result = none → s.result = none ∧
          dataOf k [] ++ queuedOf k s'.queue = queuedOf k s.queue ++ x) ∧
        (s'.result ≠ none → dataOf k [] = []) :=
    fun hread hr hq => ⟨[], by rw [hread, List.append_nil],
      fun hr' => ⟨hr ▸ hr', by rw [hq, List.append_nil]; rfl⟩, fun _ => rfl⟩
  have hended : ∀ result, ∃ x, readOf (s.finish result) k = readOf s k ++ x ∧
      ((s.finish result).result = none → s.result = none ∧
        dataOf k [] ++ queuedOf k (s.finish result).queue = queuedOf k s.queue ++ x) ∧
      ((s.finish result).result ≠ none → dataOf k [] = []) :=
    fun result => ⟨[], (List.append_nil _).symm, fun hr => (by cases hr), fun _ => rfl⟩
  cases hs with
  | @join addr hello hr ha =>
    refine hidle ?_ rfl ((queuedOf_append _ _ _).trans (List.append_nil _))
    show ((s.clients ++ [_])[k]?.map MCClient.read).getD [] = _
    unfold readOf
    rcases Nat.lt_trichotomy k s.clients.length with hk | rfl | hk
    · rw [List.getElem?_append_left hk]
    · rw [List.getElem?_concat_length, List.getElem?_eq_none (Nat.le_refl _)]
      rfl
    · rw [List.getElem?_eq_none (by rw [List.length_append]; exact hk),
        List.getElem?_eq_none hk.le]
  | @hello j m hello hm hp hr =>
    refine ⟨if j = k then [hello] else [], readOf_modify_snoc hm rfl k, fun _ => ⟨hr, ?_⟩,
      fun _ => rfl⟩
    show queuedOf k (s.queue ++ [_]) = _
    rw [queuedOf_append, queuedOf_packet]
  | helloClosed hm hp hr => exact hidle (readOf_modify_eq hm rfl k) rfl rfl
  | @read j m pkg hm hp hr =>
    refine ⟨if j = k then [pkg] else [], readOf_modify_snoc hm rfl k, fun _ => ⟨hr, ?_⟩,
      fun _ => rfl⟩
    show queuedOf k (s.queue ++ [_]) = _
    rw [queuedOf_append, queuedOf_packet]
  | @readClosed j m pkg hm hp hr =>
    exact ⟨if j = k then [pkg] else [], readOf_modify_snoc hm rfl k, fun hr' => absurd hr' hr,
      fun _ => rfl⟩
  | receive hm hp hx => exact hidle (readOf_modify_eq hm rfl k) rfl rfl
  | receiveClosed hm hp hx hs => exact hidle (readOf_modify_eq hm rfl k) rfl rfl
  | stop hm hp => exact hidle (readOf_modify_eq hm rfl k) rfl rfl
  | drop hm hp hn hr =>
    exact hidle (readOf_modify_eq hm rfl k) rfl ((queuedOf_append _ _ _).trans (List.append_nil _))
  | dropSilent hm hp hn => exact hidle (readOf_modify_eq hm rfl k) rfl rfl
  | close hr hq => exact hended _
  | add hr hq hi => exact hidle rfl rfl (by rw [hq]; rfl)
  | tooMany hr hq hi => exact hended _
  | @forward j addr pkg queue c hr hq hc =>
    refine ⟨[], (List.append_nil _).symm, fun _ => ⟨hr, ?_⟩, fun hr' => absurd hr hr'⟩
    have hsplit := queuedOf_append k [(j, .Packet addr pkg)] queue
    rw [List.singleton_append, queuedOf_packet] at hsplit
    rw [hq, hsplit, dataOf_data, List.append_nil]
    rfl
  | wrongPacket hr hq hc => exact hended _
  | @remove j addr queue hr hq =>
    have hdata : dataOf k ((s.distributor.clientsAddr.lookup addr).toList.map fun c =>
        (j, .ProxyDisconnect c.id)) = [] := by
      cases s.distributor.clientsAddr.lookup addr <;> rfl
    refine ⟨[], (List.append_nil _).symm, fun _ => ⟨hr, ?_⟩, fun _ => hdata⟩
    rw [hdata, hq, List.append_nil]
    rfl
  | evict hr hc => exact hidle rfl rfl rfl
  | evictNone hr hc => exact hidle rfl rfl rfl
  | @deliver src d c hr hc =>
    obtain ⟨addr, hc, -⟩ := h.tables.getById_iff.mp hc
    obtain ⟨m, hm, -⟩ := (h.entry hc).2
    exact hidle (readOf_modify_eq hm (Session.deliver_read d.packet m) k) rfl rfl
  | deliverNone hr hc => exact hidle rfl rfl rfl
  | pong hr => exact ⟨[], (List.append_nil _).symm, fun _ => ⟨hr, (List.append_nil _).symm⟩, fun _ => rfl⟩
  | ignored hr hp => exact hidle rfl rfl rfl
  | broken hr => exact hended _
  | leave hr => exact hended _

/-! ## The client -/

theorem arrived_of {c : Client} {k : Nat} {l : ClientConnection} (hl : c.spawned.lookup k = some l) :
    arrived c k = l.taken ++ l.clientRx := by
  rw [arrived, hl]
  rfl

/-- Another connection is changed, or what has reached this one is as before. -/
theorem arrived_modify {c : Client} {k j : Nat} {l : ClientConnection}
    {f : ClientConnection → ClientConnection} (hl : c.spawned.lookup j = some l)
    (hf : (f l).taken ++ (f l).clientRx = l.taken ++ l.clientRx) :
    arrived (c.modify j f) k = arrived c k := by
  unfold arrived
  rw [Client.spawned_modify]
  split
  · next h => subst h; rw [hl]; exact hf
  · rfl

/-- A connection that is intact, after one of them was changed but not closed. -/
theorem intact_modify {c : Client} {k j : Nat} {l : ClientConnection}
    {f : ClientConnection → ClientConnection} (hl : c.spawned.lookup j = some l)
    (hf : l.phase ≠ .gone) (h : Intact (c.modify j f) k) : Intact c k := by
  intro lk hlk hp
  by_cases hj : k = j
  · subst hj
    cases hl.symm.trans hlk
    exact absurd hp hf
  · refine h lk ?_ hp
    rw [Client.spawned_modify, if_neg hj]
    exact hlk

/-- What a step of the client that takes no packet does to what has reached connection `k`. -/
theorem client_flow {c c' : Client} {e : ClientEvent} {out : List (Nat × SocketPacket)} (h : c.Inv)
    (he : ∀ k packet millis, e ≠ .packet k packet millis) (hs : Client.Step c e c' out) (k : Nat) :
    arrived c' k <+: arrived c k ∧
      (c'.result = none → c.result = none) ∧
      (Intact c' k → Intact c k ∧ arrived c' k = arrived c k) := by
  -- a connection that is not yet gone is changed
  have hmod : ∀ {j l} {f : ClientConnection → ClientConnection}, c.spawned.lookup j = some l →
      (f l).taken ++ (f l).clientRx = l.taken ++ l.clientRx → l.phase ≠ .gone →
      arrived (c.modify j f) k <+: arrived c k ∧ ((c.modify j f).result = none → c.result = none) ∧
        (Intact (c.modify j f) k → Intact c k ∧ arrived (c.modify j f) k = arrived c k) := by
    intro j l f hl hf hp
    rw [arrived_modify hl hf]
    exact ⟨List.prefix_rfl, id, fun hi => ⟨intact_modify hl hp hi, rfl⟩⟩
  have hsame : arrived c k <+: arrived c k ∧ (c.result = none → c.result = none) ∧
      (Intact c k → Intact c k ∧ arrived c k = arrived c k) :=
    ⟨List.prefix_rfl, id, fun hi => ⟨hi, rfl⟩⟩
  have hphase : ∀ {p q : ConnectionPhase}, p = q → q ≠ .gone → p ≠ .gone := fun h hq => h ▸ hq
  cases hs with
  | connected hl hp => exact hmod hl rfl (hphase hp ConnectionPhase.noConfusion)
  | failed hl hp hr => exact hmod hl rfl (hphase hp ConnectionPhase.noConfusion)
  | failedClosed hl hp hr => exact hmod hl rfl (hphase hp ConnectionPhase.noConfusion)
  | take hl hp hx =>
    refine hmod hl ?_ (hphase hp ConnectionPhase.noConfusion)
    simp [hx]
  | takeClosed hl hp hx hs => exact hmod hl rfl (hphase hp ConnectionPhase.noConfusion)
  | read hl hp hd hr => exact hsame
  | readClosed hl hp hr => exact hmod hl rfl (hphase hp ConnectionPhase.noConfusion)
  | stop hl hp => exact hmod hl rfl (hphase hp ConnectionPhase.noConfusion)
  | drop hl hp hn hr => exact hmod hl rfl (hphase hp ConnectionPhase.noConfusion)
  | dropSilent hl hp hn => exact hmod hl rfl (hphase hp ConnectionPhase.noConfusion)
  | @close j l hl hp =>
    -- what is left in the channel is lost, unless the channel was closed before
    by_cases hj : k = j
    · subst hj
      have hl' : (c.modify k fun l => { l with phase := .gone, clientRx := [] }).spawned.lookup k
          = some { l with phase := .gone, clientRx := [] } := by
        rw [Client.spawned_modify, if_pos rfl, hl]
        rfl
      rw [arrived_of hl', arrived_of hl, List.append_nil]
      refine ⟨List.prefix_append _ _, id, fun hi => ⟨?_, ?_⟩⟩
      · intro lk hlk hpk
        cases hl.symm.trans hlk
        rw [hp] at hpk
        cases hpk
      · have hn := hi _ hl' rfl
        rw [(h.closed hl hn).1, List.append_nil]
    · have harr : arrived (c.modify j fun l => { l with phase := .gone, clientRx := [] }) k
          = arrived c k := by
        unfold arrived
        rw [Client.spawned_modify, if_neg hj]
      rw [harr]
      exact ⟨List.prefix_rfl, id, fun hi =>
        ⟨intact_modify hl (hphase hp ConnectionPhase.noConfusion) hi, rfl⟩⟩
  | forward hr hq => exact hsame
  | remove hr hq hc => exact hsame
  | removeNone hr hq hc => exact hsame
  | death hr hq => exact ⟨List.prefix_rfl, fun _ => hr, fun hi => ⟨hi, rfl⟩⟩
  | ping hr => exact hsame
  | disconnect hr => exact ⟨List.prefix_rfl, fun _ => hr, fun hi => ⟨hi, rfl⟩⟩
  | broken hr => exact ⟨List.prefix_rfl, fun _ => hr, fun hi => ⟨hi, rfl⟩⟩
  | join hr => exact absurd rfl (he _ _ _)
  | deliver hr hc ho => exact absurd rfl (he _ _ _)
  | lost hr hc ho => exact absurd rfl (he _ _ _)
  | unknown hr hc => exact absurd rfl (he _ _ _)
  | disconnected hr => exact absurd rfl (he _ _ _)
  | pong hr => exact absurd rfl (he _ _ _)
  | unimplemented hr hp => exact absurd rfl (he _ _ _)

/-- What a packet does to what has reached connection `k`: its own data goes there. -/
theorem take_flow {t : Tunnel} (h : t.Inv) {c : Client} {j millis : Nat} {p : SocketPacket}
    {toClient out : List (Nat × SocketPacket)} (hq : t.toClient = (j, p) :: toClient)
    (hs : Client.Step t.client (.packet j p millis) c out) (k : Nat) :
    (arrived c k = arrived t.client k ∨
        Intact t.client k ∧ arrived c k = arrived t.client k ++ dataOf k [(j, p)]) ∧
      (c.result = none → Intact c k →
        Intact t.client k ∧ arrived c k = arrived t.client k ++ dataOf k [(j, p)]) := by
  have hsame : dataOf k [(j, p)] = [] →
      (arrived t.client k = arrived t.client k ∨ Intact t.client k ∧
        arrived t.client k = arrived t.client k ++ dataOf k [(j, p)]) ∧
      (t.client.result = none → Intact t.client k →
        Intact t.client k ∧ arrived t.client k = arrived t.client k ++ dataOf k [(j, p)]) :=
    fun hd => ⟨Or.inl rfl, fun _ hi => ⟨hi, by rw [hd, List.append_nil]⟩⟩
  cases hs with
  | @join _ id _ hr =>
    -- the connection is new, so nothing had reached one of this number
    have hnone : t.client.spawned.lookup j = none := by
      rw [Option.eq_none_iff_forall_not_mem]
      exact fun l hl => h.fresh (hq ▸ List.mem_cons_self) _ (h.client.spawned hl)
    have harr : arrived { t.client with
        state := t.client.state.addConnection id j, spawned := t.client.spawned.insert j (.new id),
        joins := (j, id) :: t.client.joins, freed := t.client.freed.filter (· ≠ id) } k
          = arrived t.client k := by
      unfold arrived
      rw [Table.lookup_insert]
      split
      · next heq => rw [heq, hnone]; rfl
      · rfl
    refine ⟨Or.inl harr, fun _ hi => ⟨?_, harr.trans (List.append_nil _).symm⟩⟩
    intro l hl hp
    refine hi l ?_ hp
    rw [Table.lookup_insert, if_neg (fun heq => by rw [heq, hnone] at hl; cases hl)]
    exact hl
  | @deliver _ d tx _ hr hc ho =>
    obtain rfl := h.data hq hc
    obtain ⟨l, hl⟩ := h.client.joined (newest_mem (h.client.entry hc))
    have hp : l.phase ≠ .gone := by
      intro hg
      rw [Client.closed, hl, Option.any_some, hg] at ho
      cases ho
    rw [dataOf_data]
    by_cases hk : tx = k
    · subst hk
      have harr : arrived (t.client.modify tx fun l =>
          { l with clientRx := l.clientRx ++ [d.packet] }) tx = arrived t.client tx ++ [d.packet] := by
        unfold arrived
        rw [Client.spawned_modify, if_pos rfl, hl]
        exact (List.append_assoc _ _ _).symm
      have hi : Intact t.client tx := fun lk hlk hpk => by
        cases hl.symm.trans hlk
        exact absurd hpk hp
      rw [if_pos rfl]
      exact ⟨Or.inr ⟨hi, harr⟩, fun _ _ => ⟨hi, harr⟩⟩
    · have harr : arrived (t.client.modify tx fun l =>
          { l with clientRx := l.clientRx ++ [d.packet] }) k = arrived t.client k := by
        unfold arrived
        rw [Client.spawned_modify, if_neg (Ne.symm hk)]
      rw [if_neg hk, List.append_nil]
      exact ⟨Or.inl harr, fun _ hi => ⟨intact_modify hl hp hi, harr⟩⟩
  | @lost _ d tx _ hr hc ho =>
    obtain rfl := h.data hq hc
    rw [dataOf_data]
    by_cases hk : tx = k
    · subst hk
      refine ⟨Or.inl rfl, ?_⟩
      intro _ hi
      -- the channel was given up while the connection was in the table
      obtain ⟨l, hl⟩ := h.client.joined (newest_mem (h.client.entry hc))
      rw [Client.closed, hl, Option.any_some, decide_eq_true_eq] at ho
      exact absurd hc ((h.client.closed hl (hi l hl ho)).2 d.clientId)
    · rw [if_neg hk, List.append_nil]
      exact ⟨Or.inl rfl, fun _ hi => ⟨hi, rfl⟩⟩
  | unknown hr hc => exact ⟨Or.inl rfl, fun hr' => by cases hr'⟩
  | disconnected hr => exact hsame rfl
  | pong hr => exact hsame rfl
  | unimplemented hr hp => exact ⟨Or.inl rfl, fun hr' => by cases hr'⟩

/-! ## Every step -/

theorem Flows.session {t : Tunnel} {k : Nat} (h : t.Flows k) (ht : t.Inv) {e : SessionEvent}
    {s : Session} {out toServer : List (Nat × SocketPacket)} (hs : Session.Step t.server e s out) :
    Flows { t with server := s, toServer := toServer, toClient := t.toClient ++ out } k := by
  obtain ⟨x, hread, hrun, hend⟩ := session_flow ht.server hs k
  have hall : s.result = none → t.client.result = none → Intact t.client k →
      Tunnel.arrived t.client k ++ dataOf k (t.toClient ++ out) ++ queuedOf k s.queue
        = readOf s k := by
    intro hr hc hi
    obtain ⟨hr, hmove⟩ := hrun hr
    rw [dataOf_append, List.append_assoc, List.append_assoc, hmove, hread, ← h.all hr hc hi]
    simp only [List.append_assoc]
  refine ⟨?_, ?_, hall⟩
  · rw [hread]
    exact h.arrived.trans (List.prefix_append _ _)
  · intro hc hi
    cases hr : s.result with
    | none =>
      rw [← hall hr hc hi]
      exact List.prefix_append _ _
    | some result =>
      rw [dataOf_append, hend (by rw [hr]; exact Option.some_ne_none _), List.append_nil, hread]
      exact (h.sent hc hi).trans (List.prefix_append _ _)

theorem Flows.step {t t' : Tunnel} {e : TunnelEvent} {k : Nat} (h : t.Flows k) (ht : t.Inv)
    (hs : Step t e t') : t'.Flows k := by
  cases hs with
  | server he hs => exact h.session ht hs
  | toServer hq hs => exact h.session ht hs
  | client he hs =>
    obtain ⟨hfront, hr, hi⟩ := client_flow ht.client he hs k
    refine ⟨hfront.trans h.arrived, ?_, ?_⟩
    · intro hc hi'
      obtain ⟨hi, heq⟩ := hi hi'
      rw [heq]
      exact h.sent (hr hc) hi
    · intro hrs hc hi'
      obtain ⟨hi, heq⟩ := hi hi'
      rw [heq]
      exact h.all hrs (hr hc) hi
  | @toClient j p toClient millis c out hq hs =>
    obtain ⟨hor, hgo⟩ := take_flow ht hq hs k
    have hr : t.client.result = none := by cases hs <;> assumption
    have hsplit := dataOf_append k [(j, p)] toClient
    rw [List.singleton_append] at hsplit
    refine ⟨?_, ?_, ?_⟩
    · rcases hor with heq | ⟨hi, heq⟩
      · rw [heq]
        exact h.arrived
      · have hsent := h.sent hr hi
        rw [hq, hsplit, ← List.append_assoc, ← heq] at hsent
        exact (List.prefix_append _ _).trans hsent
    · intro hc hi'
      obtain ⟨hi, heq⟩ := hgo hc hi'
      have hsent := h.sent hr hi
      rw [hq, hsplit, ← List.append_assoc, ← heq] at hsent
      exact hsent
    · intro hrs hc hi'
      obtain ⟨hi, heq⟩ := hgo hc hi'
      have hall := h.all hrs hr hi
      rw [hq, hsplit, ← List.append_assoc, ← heq] at hall
      exact hall

theorem reachable_flows {t : Tunnel} (h : tunnelMachine.Reachable t) (k : Nat) : t.Flows k :=
  h.invariant_of_reachable (I := fun t => t.Flows k) (flows_new k) fun _ _ _ hr ht hs =>
    ht.step (reachable_inv hr) (step_cases hs)

end Tunnel

theorem bytesOf_prefix {p q : List MinecraftDataPacket} (h : p <+: q) : bytesOf p <+: bytesOf q := by
  obtain ⟨r, rfl⟩ := h
  exact ⟨bytesOf r, List.flatMap_append.symm⟩

/--
**What a local connection takes from its channel is a prefix of what its Minecraft client
sent**, for every `ProxyJoin`, although ids are used again. While both loops run and the
local server does not close, it is all of it once the queues are empty.
-/
theorem upstream_fidelity {t : Tunnel} (h : tunnelMachine.Reachable t) {k : Nat}
    {l : ClientConnection} (hl : t.client.spawned.lookup k = some l) :
    (k, l.clientId) ∈ t.server.joined ∧ ∃ m, t.server.clients[k]? = some m ∧
      bytesOf l.taken <+: bytesOf m.read ∧
      (t.server.result = none → t.client.result = none → l.Steady →
        t.server.queue = [] → t.toClient = [] → l.clientRx = [] →
        bytesOf l.taken = bytesOf m.read) := by
  have hinv := Tunnel.reachable_inv h
  have hflows := Tunnel.reachable_flows h k
  have hjoined : (k, l.clientId) ∈ t.server.joined := by
    rw [hinv.joins]
    exact List.mem_append_right _ (hinv.client.spawned hl)
  have hlt := hinv.server.known (List.mem_map.mpr ⟨_, hjoined, rfl⟩)
  have hread : Tunnel.readOf t.server k = t.server.clients[k].read := by
    rw [Tunnel.readOf, List.getElem?_eq_getElem hlt]
    rfl
  refine ⟨hjoined, _, List.getElem?_eq_getElem hlt, ?_, fun hs hc hsteady hqueue hwire hrx => ?_⟩
  · have harr := hflows.arrived
    rw [Tunnel.arrived_of hl, hread] at harr
    exact bytesOf_prefix ((List.prefix_append _ _).trans harr)
  · have hintact : Tunnel.Intact t.client k := by
      intro l' hl' hp
      cases hl.symm.trans hl'
      rcases hsteady with hc | hr | hn
      · rw [hp] at hc
        cases hc
      · rw [hp] at hr
        cases hr
      · exact hn
    have hall := hflows.all hs hc hintact
    rw [Tunnel.arrived_of hl, hrx, hwire, hqueue, hread] at hall
    rw [← hall]
    simp [Tunnel.dataOf, Tunnel.queuedOf]

/-- A Minecraft client that sends its hello and some data, and leaves. -/
def upstream : List TunnelEvent :=
  [.server (.join (.V4 0 40000) ⟨[16]⟩), .server .take, .server (.hello 0), .server .take,
    .toClient 0, .client (.connected 0), .server (.read 0 ⟨[1, 2]⟩), .server (.stop 0),
    .server (.drop 0), .server .take, .server .take, .toClient 0, .toClient 0, .toClient 0,
    .client (.take 0), .client (.take 0)]

theorem upstream_fidelity_leave : ∃ t l, tunnelMachine.Reachable t ∧
    t.client.spawned.lookup 0 = some l ∧ bytesOf l.taken = [16, 1, 2] ∧
    ∃ m, t.server.clients[0]? = some m ∧ bytesOf l.taken = bytesOf m.read := by
  have h : tunnelMachine.Reachable _ := ⟨upstream, rfl⟩
  obtain ⟨-, m, hm, -, hall⟩ := upstream_fidelity h (k := 0) rfl
  exact ⟨_, _, h, rfl, rfl, m, hm, hall rfl rfl (Or.inr (Or.inl rfl)) rfl rfl rfl⟩

end CraftIp
