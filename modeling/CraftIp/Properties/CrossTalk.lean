import CraftIp.Properties.Tunnel

/-!
# From the local server to a Minecraft client

In this direction an id is resolved when the session takes the packet, and the session may
have handed it out again in the meantime. Then the data of the old connection goes to the
new client, and a `ProxyDisconnect` removes it.

* `no_cross_talk` — as long as no id is handed out while its last holder can still be
  heard, everything reaches the client it is meant for
* `stale_packets_reach_successor` — otherwise it does not
-/

namespace CraftIp

open Infra

namespace Tunnel

/-! ## The condition -/

/-- The id that a packet for the session is about. -/
def packetId : SocketPacket → Option UInt16
  | .ProxyData d => some d.clientId
  | .ProxyDisconnect id => some id
  | _ => none

/-- The id that a message for the loop of the client is about. -/
def messageId : Client.ClientToProxy → Option UInt16
  | .Packet id _ => some id
  | .RemoveMinecraftClient id => some id
  | .Death _ => none

/-- The ids that something on its way to the session is about. -/
def pendingIds (t : Tunnel) : List UInt16 :=
  (t.toServer.filterMap fun e => packetId e.2) ++
    t.client.toProxy.filterMap fun e => messageId e.2

/-- Connection `k` still has the id it was spawned with. -/
def holdsId (t : Tunnel) (k : Nat) : Bool :=
  (t.client.spawned.lookup k).all fun l => newest t.server.joined l.clientId = some k

/--
The session hands out no id that something on its way is about, and a connection speaks
only while it still has its id.
-/
def unmistakable (t : Tunnel) : TunnelEvent → Bool
  | .server .take =>
    match t.server.queue, t.server.distributor.freeId with
    | (_, .AddMinecraftClient _ _) :: _, some id => !decide (id ∈ t.pendingIds)
    | _, _ => true
  | .client (.read k _) => t.holdsId k
  | .client (.drop k) =>
    (t.client.spawned.lookup k).all (fun l => !l.needForClose) || t.holdsId k
  | _ => true

/-- Nothing has reached, or removed, anybody else. -/
structure NoCrossTalk (t : Tunnel) : Prop where
  /-- Data that was sent to a Minecraft client is from its own connection. -/
  delivered : ∀ src dst, (src, dst) ∈ t.server.delivered → src = dst
  /-- A Minecraft client was removed by the `ProxyDisconnect` of its own connection. -/
  evicted : ∀ src dst, (src, dst) ∈ t.server.evicted → src = dst
  /-- A connection was removed by its own `RemoveMinecraftClient`. -/
  removed : ∀ src dst, (src, dst) ∈ t.client.removed → src = dst

/-- What is on its way to the session is from the last holder of its id. -/
structure Unmistaken (t : Tunnel) : Prop extends NoCrossTalk t where
  packets : ∀ {k p id}, (k, p) ∈ t.toServer → packetId p = some id →
    newest t.server.joined id = some k
  messages : ∀ {k msg id}, (k, msg) ∈ t.client.toProxy → messageId msg = some id →
    newest t.server.joined id = some k ∧ (k, id) ∈ t.client.joins

theorem unmistaken_new : new.Unmistaken where
  delivered _ _ h := by cases h
  evicted _ _ h := by cases h
  removed _ _ h := by cases h
  packets h := by cases h
  messages h := by cases h

/-! ## The session -/

/-- What a step of the session without a packet leaves as it is. -/
theorem session_logs {s s' : Session} {e : SessionEvent} {out : List (Nat × SocketPacket)}
    (he : ∀ k packet, e ≠ .packet k packet) (hs : Session.Step s e s' out) :
    s'.delivered = s.delivered ∧ s'.evicted = s.evicted := by
  cases hs with
  | evict hr hc => exact absurd rfl (he _ _)
  | evictNone hr hc => exact absurd rfl (he _ _)
  | deliver hr hc => exact absurd rfl (he _ _)
  | deliverNone hr hc => exact absurd rfl (he _ _)
  | pong hr => exact absurd rfl (he _ _)
  | ignored hr hp => exact absurd rfl (he _ _)
  | _ => exact ⟨rfl, rfl⟩

/-- An id is handed out only if it is free, and only when an `AddMinecraftClient` is taken. -/
theorem session_joined {s s' : Session} {e : SessionEvent} {out : List (Nat × SocketPacket)}
    (hs : Session.Step s e s' out) :
    s'.joined = s.joined ∨ ∃ k addr tx queue id, e = .take ∧
      s.queue = (k, .AddMinecraftClient addr tx) :: queue ∧ s.distributor.freeId = some id ∧
      s'.joined = (k, id) :: s.joined := by
  cases hs with
  | @add k addr tx queue c d hr hq hi =>
    exact Or.inr ⟨k, addr, tx, queue, c.id, rfl, hq, (Distribiutor.insert_eq_ok hi).2.1, rfl⟩
  | _ => exact Or.inl rfl

/-- Ids that something is on its way about keep their holder. -/
theorem newest_kept {t : Tunnel} {e : SessionEvent} {s : Session} {out : List (Nat × SocketPacket)}
    {id : UInt16} (hc : t.unmistakable (.server e) = true) (hs : Session.Step t.server e s out)
    (hid : id ∈ t.pendingIds) : newest s.joined id = newest t.server.joined id := by
  rcases session_joined hs with heq | ⟨k, addr, tx, queue, id', rfl, hq, hf, heq⟩
  · rw [heq]
  · simp only [unmistakable, hq, hf, Bool.not_eq_true', decide_eq_false_iff_not] at hc
    rw [heq, newest_cons, if_neg (fun h : id' = id => hc (h ▸ hid))]

theorem mem_pendingIds_packet {t : Tunnel} {k : Nat} {p : SocketPacket} {id : UInt16}
    (h : (k, p) ∈ t.toServer) (hp : packetId p = some id) : id ∈ t.pendingIds :=
  List.mem_append_left _ (List.mem_filterMap.mpr ⟨_, h, hp⟩)

theorem mem_pendingIds_message {t : Tunnel} {k : Nat} {msg : Client.ClientToProxy} {id : UInt16}
    (h : (k, msg) ∈ t.client.toProxy) (hm : messageId msg = some id) : id ∈ t.pendingIds :=
  List.mem_append_right _ (List.mem_filterMap.mpr ⟨_, h, hm⟩)

theorem Unmistaken.session {t : Tunnel} (h : t.Unmistaken) {e : SessionEvent} {s : Session}
    {out toClient : List (Nat × SocketPacket)} (he : ∀ k packet, e ≠ .packet k packet)
    (hc : t.unmistakable (.server e) = true) (hs : Session.Step t.server e s out) :
    Unmistaken { t with server := s, toClient := toClient } where
  delivered := (session_logs he hs).1 ▸ h.delivered
  evicted := (session_logs he hs).2 ▸ h.evicted
  removed := h.removed
  packets hmem hp :=
    (newest_kept hc hs (mem_pendingIds_packet hmem hp)).trans (h.packets hmem hp)
  messages hmem hm :=
    ⟨(newest_kept hc hs (mem_pendingIds_message hmem hm)).trans (h.messages hmem hm).1,
      (h.messages hmem hm).2⟩

/-- The session takes a packet of client `k`, which is still the last holder of its id. -/
theorem Unmistaken.receive {t : Tunnel} (h : t.Unmistaken) (ht : t.Inv) {k : Nat} {p : SocketPacket}
    {s : Session} {toServer out toClient : List (Nat × SocketPacket)}
    (hq : t.toServer = (k, p) :: toServer) (hs : Session.Step t.server (.packet k p) s out) :
    Unmistaken { t with server := s, toServer := toServer, toClient := toClient } := by
  have hpackets : ∀ {j q id}, (j, q) ∈ toServer → packetId q = some id →
      newest t.server.joined id = some j := fun hmem hp => h.packets (hq ▸ .tail _ hmem) hp
  have hhead : ∀ {id}, packetId p = some id → newest t.server.joined id = some k :=
    fun hp => h.packets (hq ▸ List.mem_cons_self) hp
  have hsame : Unmistaken { t with toServer := toServer, toClient := toClient } :=
    ⟨⟨h.delivered, h.evicted, h.removed⟩, hpackets, h.messages⟩
  have hown : ∀ {id c}, t.server.distributor.getById id = some c → packetId p = some id →
      k = c.tx := by
    intro id c hg hp
    obtain ⟨addr, hc, rfl⟩ := ht.server.tables.getById_iff.mp hg
    have hnew := hhead hp
    rw [(ht.server.entry hc).1] at hnew
    exact (Option.some.inj hnew).symm
  cases hs with
  | evict hr hc =>
    refine ⟨⟨h.delivered, ?_, h.removed⟩, hpackets, h.messages⟩
    intro src dst hmem
    rcases List.mem_cons.mp hmem with heq | hmem
    · cases heq
      exact hown hc rfl
    · exact h.evicted src dst hmem
  | evictNone hr hc => exact ⟨⟨h.delivered, h.evicted, h.removed⟩, hpackets, h.messages⟩
  | deliver hr hc =>
    refine ⟨⟨?_, h.evicted, h.removed⟩, hpackets, h.messages⟩
    intro src dst hmem
    rcases List.mem_cons.mp hmem with heq | hmem
    · cases heq
      exact hown hc rfl
    · exact h.delivered src dst hmem
  | deliverNone hr hc => exact hsame
  | pong hr => exact hsame
  | ignored hr hp => exact hsame

/-! ## The client -/

/-- The last holder of an id, if it has been joined, is the last one that was joined with it. -/
theorem Inv.newest_client {t : Tunnel} (ht : t.Inv) {k : Nat} {id : UInt16}
    (hnew : newest t.server.joined id = some k) (hmem : (k, id) ∈ t.client.joins) :
    newest t.client.joins id = some k := by
  rw [ht.joins, newest_append, Option.or_eq_some_iff] at hnew
  rcases hnew with hnew | ⟨-, hnew⟩
  · have hnodup := ht.server.fresh.of_append_right
    rw [ht.joins, List.map_append] at hnodup
    have hleft : k ∈ (joinsOf t.toClient).reverse.map Prod.fst :=
      List.mem_map.mpr ⟨_, newest_mem hnew, rfl⟩
    exact absurd rfl
      ((List.nodup_append.mp hnodup).2.2 k hleft k (List.mem_map.mpr ⟨_, hmem, rfl⟩))
  · exact hnew

/-- What a step of the client puts into its queue is from a connection that speaks. -/
theorem Unmistaken.spoken {t : Tunnel} (h : t.Unmistaken) (ht : t.Inv) {k : Nat}
    {l : ClientConnection} (hl : t.client.spawned.lookup k = some l) (hk : t.holdsId k = true)
    {msg : Client.ClientToProxy} (hm : messageId msg = some l.clientId) {j : Nat}
    {m : Client.ClientToProxy} {id : UInt16} (hmem : (j, m) ∈ t.client.toProxy ++ [(k, msg)])
    (hid : messageId m = some id) :
    newest t.server.joined id = some j ∧ (j, id) ∈ t.client.joins := by
  rcases List.mem_append.mp hmem with hmem | hmem
  · exact h.messages hmem hid
  · cases List.mem_singleton.mp hmem
    cases hm.symm.trans hid
    rw [holdsId, hl, Option.all_some, decide_eq_true_eq] at hk
    exact ⟨hk, ht.client.spawned hl⟩

theorem Unmistaken.client {t : Tunnel} (h : t.Unmistaken) (ht : t.Inv) {e : ClientEvent} {c : Client}
    {out : List (Nat × SocketPacket)} (he : ∀ k packet millis, e ≠ .packet k packet millis)
    (hc : t.unmistakable (.client e) = true) (hs : Client.Step t.client e c out) :
    Unmistaken { t with client := c, toServer := t.toServer ++ out } := by
  -- nothing is sent, and what is in the queue was there before
  have hquiet : ∀ {c : Client}, c.removed = t.client.removed → c.joins = t.client.joins →
      c.toProxy ⊆ t.client.toProxy → Unmistaken { t with client := c, toServer := t.toServer ++ [] } :=
    fun hr hj hq => ⟨⟨h.delivered, h.evicted, hr ▸ h.removed⟩,
      fun hmem hp => h.packets (by simpa using hmem) hp,
      fun hmem hm => hj ▸ h.messages (hq hmem) hm⟩
  have hfinish : ∀ result, Unmistaken
      { t with client := t.client.finish result, toServer := t.toServer ++ [] } :=
    fun result => hquiet rfl rfl (List.nil_subset _)
  -- the head of the queue becomes a packet
  have hsend : ∀ {k msg p toProxy j q id}, t.client.toProxy = (k, msg) :: toProxy →
      packetId p = messageId msg → (j, q) ∈ t.toServer ++ [(k, p)] → packetId q = some id →
      newest t.server.joined id = some j := by
    intro k msg p toProxy j q id hq hp hmem hid
    rcases List.mem_append.mp hmem with hmem | hmem
    · exact h.packets hmem hid
    · cases List.mem_singleton.mp hmem
      exact (h.messages (hq ▸ List.mem_cons_self) (hp ▸ hid)).1
  cases hs with
  | connected hl hp => exact hquiet rfl rfl (List.Subset.refl _)
  | @failed k l mcServer hl hp hr =>
    refine ⟨⟨h.delivered, h.evicted, h.removed⟩, fun hmem hp => h.packets (by simpa using hmem) hp,
      fun hmem hm => ?_⟩
    rcases List.mem_append.mp hmem with hmem | hmem
    · exact h.messages hmem hm
    · cases List.mem_singleton.mp hmem
      cases hm
  | failedClosed hl hp hr => exact hquiet rfl rfl (List.Subset.refl _)
  | take hl hp hx => exact hquiet rfl rfl (List.Subset.refl _)
  | takeClosed hl hp hx hs => exact hquiet rfl rfl (List.Subset.refl _)
  | read hl hp hd hr =>
    exact ⟨⟨h.delivered, h.evicted, h.removed⟩, fun hmem hp => h.packets (by simpa using hmem) hp,
      fun hmem hm => h.spoken ht hl hc rfl hmem hm⟩
  | readClosed hl hp hr => exact hquiet rfl rfl (List.Subset.refl _)
  | stop hl hp => exact hquiet rfl rfl (List.Subset.refl _)
  | @drop k l hl hp hn hr =>
    have hk : t.holdsId k = true := by
      simpa only [unmistakable, hl, Option.all_some, hn, Bool.not_true, Bool.false_or] using hc
    exact ⟨⟨h.delivered, h.evicted, h.removed⟩, fun hmem hp => h.packets (by simpa using hmem) hp,
      fun hmem hm => h.spoken ht hl hk rfl hmem hm⟩
  | dropSilent hl hp hn => exact hquiet rfl rfl (List.Subset.refl _)
  | close hl hp => exact hquiet rfl rfl (List.Subset.refl _)
  | forward hr hq =>
    exact ⟨⟨h.delivered, h.evicted, h.removed⟩, hsend hq rfl,
      fun hmem hm => h.messages (hq ▸ .tail _ hmem) hm⟩
  | @remove k id tx toProxy hr hq hl =>
    refine ⟨⟨h.delivered, h.evicted, fun src dst hmem => ?_⟩, hsend hq rfl,
      fun hmem hm => h.messages (hq ▸ .tail _ hmem) hm⟩
    rcases List.mem_cons.mp hmem with heq | hmem
    · cases heq
      obtain ⟨hnew, hjoin⟩ := h.messages (hq ▸ List.mem_cons_self) rfl
      have hown := ht.newest_client hnew hjoin
      rw [ht.client.entry hl] at hown
      exact (Option.some.inj hown).symm
    · exact h.removed src dst hmem
  | removeNone hr hq hc =>
    exact ⟨⟨h.delivered, h.evicted, h.removed⟩, hsend hq rfl,
      fun hmem hm => h.messages (hq ▸ .tail _ hmem) hm⟩
  | death hr hq => exact hfinish _
  | ping hr =>
    refine ⟨⟨h.delivered, h.evicted, h.removed⟩, fun hmem hp => ?_, h.messages⟩
    rcases List.mem_append.mp hmem with hmem | hmem
    · exact h.packets hmem hp
    · cases List.mem_singleton.mp hmem
      cases hp
  | disconnect hr => exact hfinish _
  | broken hr => exact hfinish _
  | join hr => exact absurd rfl (he _ _ _)
  | deliver hr hc ho => exact absurd rfl (he _ _ _)
  | lost hr hc ho => exact absurd rfl (he _ _ _)
  | unknown hr hc => exact absurd rfl (he _ _ _)
  | disconnected hr => exact absurd rfl (he _ _ _)
  | pong hr => exact absurd rfl (he _ _ _)
  | unimplemented hr hp => exact absurd rfl (he _ _ _)

/-- The client takes a packet. -/
theorem Unmistaken.take {t : Tunnel} (h : t.Unmistaken) {k millis : Nat} {p : SocketPacket}
    {c : Client} {toClient out : List (Nat × SocketPacket)}
    (hs : Client.Step t.client (.packet k p millis) c out) :
    Unmistaken { t with client := c, toClient := toClient, toServer := t.toServer ++ out } := by
  obtain ⟨rfl, hjoins⟩ := client_joins hs
  have hlogs : c.removed = t.client.removed ∧ c.toProxy ⊆ t.client.toProxy := by
    cases hs with
    | unknown hr hc => exact ⟨rfl, List.nil_subset _⟩
    | unimplemented hr hp => exact ⟨rfl, List.nil_subset _⟩
    | _ => exact ⟨rfl, List.Subset.refl _⟩
  refine ⟨⟨h.delivered, h.evicted, hlogs.1 ▸ h.removed⟩,
    fun hmem hp => h.packets (by simpa using hmem) hp, fun hmem hm => ?_⟩
  obtain ⟨hnew, hmem⟩ := h.messages (hlogs.2 hmem) hm
  exact ⟨hnew, hjoins ▸ List.mem_append_right _ hmem⟩

theorem Unmistaken.step {t t' : Tunnel} {e : TunnelEvent} (h : t.Unmistaken) (ht : t.Inv)
    (hc : t.unmistakable e = true) (hs : Step t e t') : t'.Unmistaken := by
  cases hs with
  | server he hs => exact h.session he hc hs
  | client he hs => exact h.client ht he hc hs
  | toServer hq hs => exact h.receive ht hq hs
  | toClient hq hs => exact h.take hs

end Tunnel

/-- **No cross-talk**, in every run that hands out no id while its last holder can be heard. -/
theorem no_cross_talk {t : Tunnel}
    (h : (tunnelMachine.restrict fun t e => t.unmistakable e = true).Reachable t) :
    t.NoCrossTalk := by
  have hu : t.Unmistaken :=
    Machine.Reachable.restrict_invariant (I := Tunnel.Unmistaken) Tunnel.unmistaken_new
      (fun _ _ _ hr hu hc hs => hu.step (Tunnel.reachable_inv hr) hc (Tunnel.step_cases hs)) h
  exact hu.toNoCrossTalk

/-- Minecraft client `k` comes from `addr`, its connection is opened and sends a byte. -/
def visit (k : Nat) (addr : SocketAddr) : List TunnelEvent :=
  [.server (.join addr ⟨[16]⟩), .server .take, .toClient 0, .client (.connected k),
    .client (.read k [7]), .client .send]

/-- Minecraft client `k` sends its hello and leaves. -/
def leaves (k : Nat) : List TunnelEvent :=
  [.server (.hello k), .server .take, .server (.stop k), .server (.drop k), .server .take]

/-- A client leaves, everything about it is over, and another one gets its id. -/
def overBeforeReuse : List TunnelEvent :=
  visit 0 (.V4 0 40000) ++ .toServer :: leaves 0 ++ .toClient 0 :: .toClient 0 ::
    .client (.take 0) :: .client (.take 0) :: .client (.drop 0) :: visit 1 (.V4 0 40001) ++
    [.toServer]

theorem no_cross_talk_reuse : ∃ t,
    (tunnelMachine.restrict fun t e => t.unmistakable e = true).Reachable t ∧
    t.server.delivered = [(1, 1), (0, 0)] ∧ t.server.joined = [(1, 0), (0, 0)] ∧ t.NoCrossTalk :=
  ⟨_, ⟨overBeforeReuse, rfl⟩, rfl, rfl, no_cross_talk ⟨overBeforeReuse, rfl⟩⟩

/-- A client leaves, and another one gets its id before the packets of its connection arrive. -/
def lateForSuccessor : List TunnelEvent :=
  visit 0 (.V4 0 40000) ++ .client (.stop 0) :: .client (.drop 0) :: .client .send :: leaves 0 ++
    [.server (.join (.V4 0 40001) ⟨[16]⟩), .server .take, .toServer, .toServer]

theorem stale_packets_reach_successor : ∃ t, tunnelMachine.Reachable t ∧
    t.server.delivered = [(0, 1)] ∧ t.server.evicted = [(0, 1)] ∧ ¬t.NoCrossTalk := by
  refine ⟨_, ⟨lateForSuccessor, rfl⟩, rfl, rfl, ?_⟩
  intro hno
  have heq := hno.delivered 0 1 List.mem_cons_self
  cases heq

end CraftIp
