import CraftIp.Properties.Distribution
import CraftIp.Properties.Session

/-!
# Minecraft clients that leave

`handle` leaves its loop with an error in two arms: when there is no id for a new client,
and when it takes a packet of a client that is not in its tables. The first does not happen
while there are no more clients than ids: a client that waits in the queue behind the
removal of another one finds the id of that client. The second happens to a client that
was removed by a `ProxyDisconnect` while a packet of it was in the queue.

* `handle_never_errs` — as long as no such packet is taken, no departure ends the loop
* `evicted_ends_handle` — with one it does
-/

namespace CraftIp

open Infra

namespace Session

/-! ## The condition -/

/-- The clients with an open connection. -/
def liveClients (s : Session) : List Nat :=
  (List.range s.clients.length).filter fun k => s.clients[k]?.any fun m => m.phase ≠ .gone

/-- No failure of the network, and no more clients than ids. -/
def ordinary (s : Session) : SessionEvent → Bool
  | .join _ _ => s.liveClients.length < MAXIMUM_CLIENTS.toNat + 1
  | .broken _ => false
  | _ => true

/-- The loop does not take a packet of a client that was evicted. -/
def tolerant (s : Session) : SessionEvent → Bool
  | .take =>
    match s.queue with
    | (k, .Packet _ _) :: _ => !decide (s.Evicted k)
    | _ => true
  | _ => true

/-! ## The clients behind the queue -/

/--
What a message means for the clients that have an id. A client is added only while an id is
left.
-/
def Room (clients : List Nat) (e : Nat × ClientToProxy) (clients' : List Nat) : Prop :=
  match e.2 with
  | .AddMinecraftClient _ _ => clients.length < 256 ∧ clients' = e.1 :: clients
  | .RemoveMinecraftClient _ => clients' = clients.filter (· ≠ e.1)
  | .Packet _ _ => clients' = clients
  | .Close => clients' = clients

/-- Along the queue there is always an id, and only live clients have one in the end. -/
def HasRoom (s : Session) : Prop :=
  ∃ holders holders', (∀ {addr c}, s.distributor.clientsAddr.lookup addr = some c → c.tx ∈ holders) ∧
    Path Room holders s.queue holders' ∧ holders'.Nodup ∧
    ∀ k ∈ holders', (∃ addr, s.Live k addr) ∧ ¬ s.Evicted k

theorem mem_liveClients {s : Session} {k : Nat} {addr : SocketAddr} (h : s.Live k addr) :
    k ∈ s.liveClients := by
  obtain ⟨m, hm, hp, -⟩ := h
  refine List.mem_filter.mpr ⟨List.mem_range.mpr (List.getElem?_eq_some_iff.mp hm).1, ?_⟩
  rw [hm, Option.any_some, decide_eq_true_eq]
  exact hp

/-- One that has an id already gives it back, now and in the end. -/
theorem room_evict {holders holders' : List Nat} {queue : List (Nat × ClientToProxy)} {k : Nat}
    (hk : k ∉ adds queue) (h : Path Room holders queue holders') :
    Path Room (holders.filter (· ≠ k)) queue (holders'.filter (· ≠ k)) := by
  have hstep : ∀ l e l1 l', e ∈ queue → Room l e l1 → l' = l.filter (· ≠ k) →
      ∃ l1', Room l' e l1' ∧ l1' = l1.filter (· ≠ k) := by
    rintro l ⟨j, msg⟩ l1 _ hmem he rfl
    refine ⟨_, ?_, rfl⟩
    cases msg with
    | AddMinecraftClient a tx =>
      have hj : j ≠ k := fun heq => hk (mem_adds.mpr ⟨a, tx, heq ▸ hmem⟩)
      obtain ⟨hlt, rfl⟩ := he
      refine ⟨Nat.lt_of_le_of_lt (List.length_filter_le _ _) hlt, ?_⟩
      rw [List.filter_cons_of_pos (by simpa using hj)]
    | RemoveMinecraftClient a =>
      cases he
      show _ = (l.filter _).filter _
      rw [List.filter_comm]
    | Packet a pkg => cases he; rfl
    | Close => cases he; rfl
  obtain ⟨u, hpath, rfl⟩ := h.simulate hstep rfl
  exact hpath

/-- As many ids are taken as clients have one. -/
theorem Ledger.exists_freeId {s : Session} (h : s.Ledger) {holders : List Nat}
    (hmem : ∀ {addr c}, s.distributor.clientsAddr.lookup addr = some c → c.tx ∈ holders)
    (hlt : holders.length < 256) : ∃ id, s.distributor.freeId = some id := by
  -- every address in the tables is the one its holder came from
  have hle : s.distributor.registered
      ≤ (holders.filterMap fun k => s.clients[k]?.map MCClient.addr).length := by
    refine Table.keys_length_le fun {addr c} hc => List.mem_filterMap.mpr ⟨c.tx, hmem hc, ?_⟩
    obtain ⟨m, hm, rfl⟩ := (h.entry hc).2
    rw [hm, Option.map_some]
  have hholders := List.length_filterMap_le (fun k => s.clients[k]?.map MCClient.addr) holders
  rw [h.tables.registered_eq] at hle
  exact Distribiutor.freeId_isSome (by omega)

/-! ## Every step -/

theorem HasRoom.modify {s : Session} (h : s.HasRoom) {k : Nat} {m : MCClient}
    {f : MCClient → MCClient} (hm : s.clients[k]? = some m) (haddr : (f m).addr = m.addr)
    (hopen : (f m).phase ≠ .gone → m.phase ≠ .gone)
    (hgone : m.phase ≠ .gone → (f m).phase = .gone → s.Evicted k) : (s.modify k f).HasRoom := by
  obtain ⟨holders, holders', hmem, hpath, hnodup, hlive⟩ := h
  refine ⟨holders, holders', hmem, hpath, hnodup, ?_⟩
  intro j hj
  obtain ⟨⟨addr, hj⟩, hev⟩ := hlive j hj
  refine ⟨⟨addr, (live_modify hm haddr hopen).mpr ⟨hj, ?_⟩⟩, hev⟩
  intro heq hg
  subst heq
  obtain ⟨mj, hmj, hp, -⟩ := hj
  cases hm.symm.trans hmj
  exact hev (hgone hp hg)

/-- A packet takes no room. -/
theorem HasRoom.enqueuePacket {s : Session} (h : s.HasRoom) (k : Nat) (addr : SocketAddr)
    (pkg : MinecraftDataPacket) : (s.enqueue k (.Packet addr pkg)).HasRoom := by
  obtain ⟨holders, holders', hmem, hpath, hnodup, hlive⟩ := h
  exact ⟨holders, holders', hmem, hpath.snoc rfl, hnodup, hlive⟩

/-- What is done with the head of the queue. -/
theorem HasRoom.head {s : Session} (h : s.HasRoom) {e : Nat × ClientToProxy}
    {queue : List (Nat × ClientToProxy)} (hq : s.queue = e :: queue) :
    ∃ holders next holders',
      (∀ {addr c}, s.distributor.clientsAddr.lookup addr = some c → c.tx ∈ holders) ∧
      Room holders e next ∧ Path Room next queue holders' ∧ holders'.Nodup ∧
      ∀ k ∈ holders', (∃ addr, s.Live k addr) ∧ ¬ s.Evicted k := by
  obtain ⟨holders, holders', hmem, hpath, hnodup, hlive⟩ := h
  rw [hq] at hpath
  obtain ⟨next, he, hpath⟩ := Path.cons_iff.mp hpath
  exact ⟨holders, next, holders', hmem, he, hpath, hnodup, hlive⟩

theorem HasRoom.connect {s : Session} (h : s.HasRoom) {addr : SocketAddr} {hello : MinecraftDataPacket}
    (hs : s.Inv) (hlt : s.liveClients.length < 256) :
    (s.connect addr hello).HasRoom := by
  obtain ⟨holders, holders', hmem, hpath, hnodup, hlive⟩ := h
  have hsub : holders' ⊆ s.liveClients := fun k hk =>
    (hlive k hk).1.elim fun _ hk => mem_liveClients hk
  have hroom := Nat.lt_of_le_of_lt (List.subperm_of_subset hnodup hsub).length_le hlt
  refine ⟨holders, s.clients.length :: holders', hmem, hpath.snoc ⟨hroom, rfl⟩,
    List.nodup_cons.mpr ⟨fun hk => ?_, hnodup⟩, fun k hk => ?_⟩
  · have hrange := (List.mem_filter.mp (hsub hk)).1
    exact Nat.lt_irrefl _ (List.mem_range.mp hrange)
  · rcases List.mem_cons.mp hk with rfl | hk
    · refine ⟨⟨addr, _, List.getElem?_concat_length, MCPhase.noConfusion, rfl⟩, fun hev => ?_⟩
      exact Nat.lt_irrefl _ (hs.known (hs.evicted hev))
    · obtain ⟨⟨a, m, hm, hp, hma⟩, hev⟩ := hlive k hk
      exact ⟨⟨a, m, getElem?_concat_iff.mpr (Or.inl hm), hp, hma⟩, hev⟩

theorem HasRoom.dropped {s : Session} (h : s.HasRoom) {k : Nat} {m : MCClient}
    {f : MCClient → MCClient} (hm : s.clients[k]? = some m) (haddr : (f m).addr = m.addr)
    (hopen : (f m).phase ≠ .gone → m.phase ≠ .gone) (addr : SocketAddr) :
    ((s.modify k f).enqueue k (.RemoveMinecraftClient addr)).HasRoom := by
  obtain ⟨holders, holders', hmem, hpath, hnodup, hlive⟩ := h
  refine ⟨holders, holders'.filter (· ≠ k), hmem, hpath.snoc rfl, hnodup.filter _, ?_⟩
  intro j hj
  obtain ⟨hj, hne⟩ := List.mem_filter.mp hj
  obtain ⟨⟨a, hj⟩, hev⟩ := hlive j hj
  exact ⟨⟨a, (live_modify hm haddr hopen).mpr ⟨hj, fun heq => by simp [heq] at hne⟩⟩, hev⟩

theorem HasRoom.remove {s : Session} (h : s.HasRoom) (hs : s.Inv) (hr : s.result = none) {k : Nat}
    {addr : SocketAddr} {queue : List (Nat × ClientToProxy)}
    (hq : s.queue = (k, .RemoveMinecraftClient addr) :: queue) :
    HasRoom { s with distributor := s.distributor.removeByAddr addr, queue := queue } := by
  obtain ⟨holders, next, holders', hmem, rfl, hpath, hnodup, hlive⟩ := h.head hq
  refine ⟨_, holders', fun {a c} hc => List.mem_filter.mpr ⟨?_, ?_⟩, hpath, hnodup, hlive⟩
  · rw [Distribiutor.removeByAddr_lookup] at hc
    split at hc
    · cases hc
    · exact hmem hc
  · rw [Distribiutor.removeByAddr_lookup] at hc
    split at hc
    · cases hc
    · next hne =>
      obtain ⟨o, o', he, -, -⟩ := hs.head hr hq addr
      simp only [Settles, if_true] at he
      rw [decide_eq_true_eq]
      intro htx
      rcases he.2 with hown | ⟨-, hev⟩
      · obtain ⟨c', hc', htx'⟩ := Option.map_eq_some_iff.mp hown
        exact hne (hs.entry_unique hc hc' (htx.trans htx'.symm))
      · exact hs.present hc (htx ▸ hev)

theorem HasRoom.evict {s : Session} (h : s.HasRoom) (hs : s.Inv) {src : Nat} {id : UInt16}
    {c : MinecraftClient} (hg : s.distributor.getById id = some c) :
    HasRoom { s with
      distributor := s.distributor.removeById id, evicted := (src, c.tx) :: s.evicted } := by
  obtain ⟨addr, hc, rfl⟩ := hs.tables.getById_iff.mp hg
  obtain ⟨holders, holders', hmem, hpath, hnodup, hlive⟩ := h
  have hadds : c.tx ∉ adds s.queue := fun hadd =>
    (List.nodup_append.mp hs.fresh).2.2 _ hadd _
      (List.mem_map.mpr ⟨_, newest_mem (hs.entry hc).1, rfl⟩) rfl
  refine ⟨_, _, fun {a c'} hc' => ?_, room_evict hadds hpath, hnodup.filter _, ?_⟩
  · rw [hs.tables.removeById_lookup, Option.filter_eq_some_iff] at hc'
    refine List.mem_filter.mpr ⟨hmem hc'.1, ?_⟩
    rw [decide_eq_true_eq]
    intro htx
    cases hs.entry_unique hc'.1 hc htx
    cases hc.symm.trans hc'.1
    simp at hc'
  · intro k hk
    obtain ⟨hk, hne⟩ := List.mem_filter.mp hk
    obtain ⟨hk, hev⟩ := hlive k hk
    refine ⟨hk, ?_⟩
    intro hev'
    rcases List.mem_cons.mp hev' with heq | hev'
    · simp [heq] at hne
    · exact hev hev'

/-- The loop is in its place, or was left without an error. -/
structure Undisturbed (s : Session) : Prop where
  room : s.result = none → s.HasRoom
  noError : ∀ e, s.result ≠ some (.error e)

theorem Undisturbed.step {s s' : Session} {e : SessionEvent} {out : List (Nat × SocketPacket)}
    (h : s.Undisturbed) (hs : s.Inv) (ho : s.ordinary e = true) (ht : s.tolerant e = true)
    (hstep : Step s e s' out) : s'.Undisturbed := by
  cases hstep with
  | join hr ha =>
    simp only [ordinary, decide_eq_true_eq] at ho
    exact ⟨fun _ => (h.room hr).connect hs ho, h.noError⟩
  | @hello k m hello hm hp hr =>
    have hopen : m.phase ≠ .gone := fun hg => by rw [hp] at hg; cases hg
    exact ⟨fun _ => ((h.room hr).modify hm rfl (fun _ => hopen) fun _ hg => (by cases hg)).enqueuePacket
      k m.addr hello, h.noError⟩
  | helloClosed hm hp hr => exact ⟨fun hr' => absurd hr' hr, h.noError⟩
  | @read k m pkg hm hp hr =>
    exact ⟨fun _ => ((h.room hr).modify hm rfl id fun hne hg => absurd hg hne).enqueuePacket
      k m.addr pkg, h.noError⟩
  | readClosed hm hp hr => exact ⟨fun hr' => absurd hr' hr, h.noError⟩
  | receive hm hp hx =>
    exact ⟨fun hr => (h.room hr).modify hm rfl id fun hne hg => absurd hg hne, h.noError⟩
  | receiveClosed hm hp hx hs' =>
    exact ⟨fun hr => (h.room hr).modify hm rfl (fun _ hg => by rw [hp] at hg; cases hg)
      fun _ hg => (by cases hg), h.noError⟩
  | stop hm hp =>
    exact ⟨fun hr => (h.room hr).modify hm rfl (fun _ hg => by rw [hp] at hg; cases hg)
      fun _ hg => (by cases hg), h.noError⟩
  | drop hm hp hn hr =>
    exact ⟨fun _ => (h.room hr).dropped hm rfl (fun hg => absurd rfl hg) _, h.noError⟩
  | dropSilent hm hp hn =>
    refine ⟨fun hr => (h.room hr).modify hm rfl (fun hg => absurd rfl hg) ?_, h.noError⟩
    intro _ _
    exact hs.closed hr hm (hn.resolve_right fun hne => hne hr)
  | close hr hq => exact ⟨fun hr' => (by cases hr'), fun e he => (by cases he)⟩
  | @add k addr tx queue c d hr hq hi =>
    obtain ⟨holders, next, holders', hmem, ⟨-, rfl⟩, hpath, hnodup, hlive⟩ := (h.room hr).head hq
    obtain ⟨hctx, -, haddr, -⟩ := Distribiutor.insert_eq_ok hi
    obtain ⟨rfl, -⟩ := hs.added (k := k) (hq ▸ List.mem_cons_self)
    refine ⟨fun _ => ⟨_, holders', fun {a c'} hc' => ?_, hpath, hnodup, hlive⟩, h.noError⟩
    rw [haddr] at hc'
    split at hc'
    · cases hc'
      rw [hctx]
      exact List.mem_cons_self
    · exact .tail _ (hmem hc')
  | tooMany hr hq hi =>
    obtain ⟨holders, next, holders', hmem, ⟨hlt, -⟩, -⟩ := (h.room hr).head hq
    obtain ⟨id, hid⟩ := hs.exists_freeId hmem hlt
    rw [hi] at hid
    cases hid
  | forward hr hq hc =>
    obtain ⟨holders, next, holders', hmem, rfl, hpath, hnodup, hlive⟩ := (h.room hr).head hq
    exact ⟨fun _ => ⟨_, holders', hmem, hpath, hnodup, hlive⟩, h.noError⟩
  | wrongPacket hr hq hc =>
    -- nobody has the address, so the sender was evicted
    have hown := hs.owner_of_packet hr hq
    rw [owner, hc] at hown
    simp only [tolerant, hq, Bool.not_eq_true', decide_eq_false_iff_not] at ht
    rcases hown with hown | ⟨-, hev⟩
    · cases hown
    · exact absurd hev ht
  | remove hr hq => exact ⟨fun _ => (h.room hr).remove hs hr hq, h.noError⟩
  | evict hr hc => exact ⟨fun _ => (h.room hr).evict hs hc, h.noError⟩
  | @evictNone src id hr hc =>
    obtain ⟨holders, holders', hmem, hpath, hnodup, hlive⟩ := h.room hr
    refine ⟨fun _ => ⟨holders, holders', fun {a c} hc' => ?_, hpath, hnodup, hlive⟩, h.noError⟩
    rw [hs.tables.removeById_lookup, Option.filter_eq_some_iff] at hc'
    exact hmem hc'.1
  | @deliver src d c hr hc =>
    obtain ⟨addr, hc, -⟩ := hs.tables.getById_iff.mp hc
    obtain ⟨m, hm, -⟩ := (hs.entry hc).2
    have hmod : (s.modify c.tx (Session.deliver d.packet)).HasRoom := by
      refine (h.room hr).modify hm (deliver_addr d.packet m) ?_ ?_ <;> rw [deliver_phase]
      · exact id
      · exact fun hne hg => absurd hg hne
    obtain ⟨holders, holders', hmem, hpath, hnodup, hlive⟩ := hmod
    exact ⟨fun _ => ⟨holders, holders', hmem, hpath, hnodup, hlive⟩, h.noError⟩
  | deliverNone hr hc => exact h
  | pong hr => exact h
  | ignored hr hp => exact h
  | broken hr => cases ho
  | leave hr => exact ⟨fun hr' => (by cases hr'), fun e he => (by cases he)⟩

end Session

/-- **No departure ends the loop with an error**, unless a packet of an evicted client is taken. -/
theorem handle_never_errs {s : Session}
    (h : (sessionMachine.restrict fun s e => (s.ordinary e && s.tolerant e) = true).Reachable s)
    (e : DistributorError) : s.result ≠ some (.error e) := by
  have hu : s.Undisturbed := by
    refine Machine.Reachable.restrict_invariant (I := Session.Undisturbed) ?_ ?_ h
    · refine ⟨fun _ => ⟨[], [], ?_, .nil [], List.nodup_nil, ?_⟩, fun e he => by cases he⟩
      · exact fun hc => by cases hc
      · exact fun k hk => by cases hk
    · intro s e s' hr hu hc hs
      obtain ⟨⟨s1, out⟩, hstep, rfl⟩ := Option.map_eq_some_iff.mp hs
      rw [Bool.and_eq_true] at hc
      exact hu.step (Session.reachable_inv hr) hc.1 hc.2 (Session.step_cases hstep)
  exact hu.noError e

/-- A Minecraft client whose local connection closes before it has left. -/
def departure : List SessionEvent :=
  let addr : SocketAddr := .V4 0 40000
  [.join addr ⟨[16]⟩, .take, .hello 0, .take, .packet 0 (.ProxyDisconnect 0), .receive 0, .drop 0]

theorem handle_never_errs_departure : ∃ s,
    (sessionMachine.restrict fun s e => (s.ordinary e && s.tolerant e) = true).Reachable s ∧
    s.evicted = [(0, 0)] ∧ s.clients.map (·.phase) = [.gone] ∧
    s.result ≠ some (.error .WrongPacket) :=
  ⟨_, ⟨departure, rfl⟩, rfl, rfl, handle_never_errs ⟨departure, rfl⟩ .WrongPacket⟩

/-- The client had sent a packet before it noticed. -/
theorem evicted_ends_handle : ∃ s,
    (sessionMachine.restrict fun s e => s.ordinary e = true).Reachable s ∧
    s.result = some (.error .WrongPacket) :=
  ⟨_, ⟨[.join (.V4 0 40000) ⟨[16]⟩, .take, .hello 0, .take, .read 0 ⟨[1]⟩,
    .packet 0 (.ProxyDisconnect 0), .take], rfl⟩, rfl⟩

end CraftIp
