import CraftIp.Infra.Path
import CraftIp.Server.ClientHandler

/-!
# What holds in every session

Three things know the Minecraft clients of a session: the clients themselves, the messages
they have put into its queue, and its two tables. `Session.Inv` ties them together. Its
main part is read along the queue, for each address: the client that owns the address in
the tables now, the messages about it that are still to come, and the client that has it in
the end.

* `Session.reachable_inv` — the invariant holds in every reachable state
* `Session.Inv.owner_of_packet` — whose entry a packet in the queue will find
-/

namespace CraftIp

open Infra

namespace Session

/-! ## Notions -/

/-- Client `k` came from `addr`. -/
def From (s : Session) (k : Nat) (addr : SocketAddr) : Prop :=
  ∃ m, s.clients[k]? = some m ∧ m.addr = addr

/-- Client `k` has an open connection, from `addr`. -/
def Live (s : Session) (k : Nat) (addr : SocketAddr) : Prop :=
  ∃ m, s.clients[k]? = some m ∧ m.phase ≠ .gone ∧ m.addr = addr

/-- A `ProxyDisconnect` removed client `k`. -/
def Evicted (s : Session) (k : Nat) : Prop := k ∈ s.evicted.map Prod.snd

instance (s : Session) (k : Nat) : Decidable (s.Evicted k) := inferInstanceAs (Decidable (_ ∈ _))

/-- The client that has the address in the tables. -/
def owner (s : Session) (addr : SocketAddr) : Option Nat :=
  (s.distributor.clientsAddr.lookup addr).map MinecraftClient.tx

/-- The clients whose `AddMinecraftClient` is in the queue. -/
def adds (queue : List (Nat × ClientToProxy)) : List Nat :=
  queue.filterMap fun
    | (k, .AddMinecraftClient _ _) => some k
    | _ => none

/--
What a message means for the owner of `addr`. A packet and a removal come from the owner,
or from a client that was evicted.
-/
def Settles (evicted : Nat → Prop) (addr : SocketAddr) (o : Option Nat) (e : Nat × ClientToProxy)
    (o' : Option Nat) : Prop :=
  match e.2 with
  | .AddMinecraftClient a _ => if a = addr then o = none ∧ o' = some e.1 else o' = o
  | .Packet a _ => o' = o ∧ (a = addr → o = some e.1 ∨ o = none ∧ evicted e.1)
  | .RemoveMinecraftClient a =>
    if a = addr then o' = none ∧ (o = some e.1 ∨ o = none ∧ evicted e.1) else o' = o
  | .Close => o' = o

/-- Along the queue, each address ends with the live client that has it. -/
def Settled (s : Session) : Prop :=
  ∀ addr, ∃ o, Path (Settles s.Evicted addr) (s.owner addr) s.queue o ∧
    ∀ k, o = some k ↔ s.Live k addr ∧ ¬ s.Evicted k

/-- What the numbers of the clients mean. -/
structure Ledger (s : Session) : Prop where
  tables : s.distributor.Consistent
  /-- Each client joins once. -/
  fresh : (adds s.queue ++ s.joined.map Prod.fst).Nodup
  known : ∀ {k}, k ∈ s.joined.map Prod.fst → k < s.clients.length
  added : ∀ {k addr tx}, (k, .AddMinecraftClient addr tx) ∈ s.queue → tx = k ∧ s.From k addr
  /-- The client of an entry is the last one that was given its id. -/
  entry : ∀ {addr c}, s.distributor.clientsAddr.lookup addr = some c →
    newest s.joined c.id = some c.tx ∧ s.From c.tx addr
  evicted : ∀ {k}, s.Evicted k → k ∈ s.joined.map Prod.fst
  present : ∀ {addr c}, s.distributor.clientsAddr.lookup addr = some c → ¬ s.Evicted c.tx
  unique : ∀ {k k' addr}, s.Live k addr → s.Live k' addr → k = k'

/-- What holds while the session runs. -/
structure Inv (s : Session) : Prop extends Ledger s where
  settled : s.result = none → s.Settled
  /-- A client that sends no `RemoveMinecraftClient` has been evicted. -/
  closed : s.result = none → ∀ {k m}, s.clients[k]? = some m → m.needForClose = false → s.Evicted k

theorem inv_new : new.Inv where
  tables := Distribiutor.consistent_new
  fresh := List.nodup_nil
  known h := by cases h
  added h := by cases h
  entry h := by cases h
  evicted h := by cases h
  present h := by cases h
  unique h := by obtain ⟨m, hm, -⟩ := h; cases hm
  settled _ := fun addr =>
    ⟨none, .nil none, fun k => ⟨fun h => (by cases h), fun ⟨⟨m, hm, _⟩, _⟩ => (by cases hm)⟩⟩
  closed _ := fun hm => by cases hm

/-! ## Lookups -/

theorem clients_modify (s : Session) (k j : Nat) (f : MCClient → MCClient) :
    (s.modify k f).clients[j]? = if k = j then s.clients[j]?.map f else s.clients[j]? := by
  show (s.clients.modify k f)[j]? = _
  rw [List.getElem?_modify]
  split <;> simp

theorem adds_snoc {queue : List (Nat × ClientToProxy)} {k : Nat} {msg : ClientToProxy} :
    adds (queue ++ [(k, msg)]) = adds queue ++ adds [(k, msg)] := List.filterMap_append

theorem mem_adds {queue : List (Nat × ClientToProxy)} {k : Nat} :
    k ∈ adds queue ↔ ∃ addr tx, (k, .AddMinecraftClient addr tx) ∈ queue := by
  unfold adds
  rw [List.mem_filterMap]
  constructor
  · rintro ⟨⟨j, msg⟩, he, hk⟩
    cases msg with
    | AddMinecraftClient addr tx => cases hk; exact ⟨addr, tx, he⟩
    | _ => cases hk
  · rintro ⟨addr, tx, h⟩
    exact ⟨_, h, rfl⟩

/-- An address that is owned in the end is owned already, or by one that is being added. -/
theorem path_some {evicted : Nat → Prop} {addr : SocketAddr} {k : Nat} {o o' : Option Nat}
    {queue : List (Nat × ClientToProxy)} (h : Path (Settles evicted addr) o queue o')
    (ho : o' = some k) : o = some k ∨ k ∈ adds queue := by
  induction h with
  | nil => exact Or.inl ho
  | @cons o o1 o2 e queue he _ ih =>
    obtain ⟨j, msg⟩ := e
    rcases ih ho with h1 | h1
    · cases msg with
      | AddMinecraftClient a tx =>
        simp only [Settles] at he
        split at he
        · rw [he.2] at h1
          exact Or.inr (mem_adds.mpr ⟨a, tx, by rw [Option.some.inj h1]; exact List.mem_cons_self⟩)
        · exact Or.inl (he ▸ h1)
      | Packet a pkg => exact Or.inl (he.1 ▸ h1)
      | RemoveMinecraftClient a =>
        simp only [Settles] at he
        split at he
        · rw [he.1] at h1; cases h1
        · exact Or.inl (he ▸ h1)
      | Close => exact Or.inl (he ▸ h1)
    · obtain ⟨a, tx, hmem⟩ := mem_adds.mp h1
      exact Or.inr (mem_adds.mpr ⟨a, tx, .tail _ hmem⟩)

/-! ## What the clients do -/

/-- Client `k` is changed to `f m`, which has the same address and is not opened again. -/
theorem From.modify {s : Session} {k j : Nat} {m : MCClient} {f : MCClient → MCClient}
    {addr : SocketAddr} (hm : s.clients[k]? = some m) (haddr : (f m).addr = m.addr)
    (h : s.From j addr) : (s.modify k f).From j addr := by
  obtain ⟨mj, hmj, rfl⟩ := h
  by_cases heq : k = j
  · subst heq
    cases hm.symm.trans hmj
    exact ⟨f m, by rw [clients_modify, if_pos rfl, hm]; rfl, haddr⟩
  · exact ⟨mj, by rw [clients_modify, if_neg heq]; exact hmj, rfl⟩

/-- Who is live after a change of client `k`. -/
theorem live_modify {s : Session} {k j : Nat} {m : MCClient} {f : MCClient → MCClient}
    {addr : SocketAddr} (hm : s.clients[k]? = some m) (haddr : (f m).addr = m.addr)
    (hopen : (f m).phase ≠ .gone → m.phase ≠ .gone) :
    (s.modify k f).Live j addr ↔ s.Live j addr ∧ (j = k → (f m).phase ≠ .gone) := by
  by_cases heq : k = j
  · subst heq
    constructor
    · rintro ⟨mj, hmj, hp, ha⟩
      rw [clients_modify, if_pos rfl, hm] at hmj
      cases hmj
      exact ⟨⟨m, hm, hopen hp, haddr ▸ ha⟩, fun _ => hp⟩
    · rintro ⟨⟨mj, hmj, -, ha⟩, hp⟩
      cases hm.symm.trans hmj
      exact ⟨f m, by rw [clients_modify, if_pos rfl, hm]; rfl, hp rfl, haddr ▸ ha⟩
  · unfold Live
    rw [clients_modify, if_neg heq]
    exact ⟨fun h => ⟨h, fun hj => absurd hj.symm heq⟩, fun h => h.1⟩

theorem Ledger.modify {s : Session} (h : s.Ledger) {k : Nat} {m : MCClient}
    {f : MCClient → MCClient} (hm : s.clients[k]? = some m) (haddr : (f m).addr = m.addr)
    (hopen : (f m).phase ≠ .gone → m.phase ≠ .gone) : (s.modify k f).Ledger where
  tables := h.tables
  fresh := h.fresh
  known hj := by
    show _ < (s.clients.modify k f).length
    rw [List.length_modify]
    exact h.known hj
  added hmem := ⟨(h.added hmem).1, (h.added hmem).2.modify hm haddr⟩
  entry hc := ⟨(h.entry hc).1, (h.entry hc).2.modify hm haddr⟩
  evicted := h.evicted
  present := h.present
  unique h1 h2 :=
    h.unique ((live_modify hm haddr hopen).mp h1).1 ((live_modify hm haddr hopen).mp h2).1

/-- A message that adds nobody. -/
theorem Ledger.enqueue {s : Session} (h : s.Ledger) (k : Nat) {msg : ClientToProxy}
    (hmsg : adds [(k, msg)] = []) : (s.enqueue k msg).Ledger where
  tables := h.tables
  fresh := by
    show (adds (s.queue ++ [(k, msg)]) ++ s.joined.map Prod.fst).Nodup
    rw [adds_snoc, hmsg, List.append_nil]
    exact h.fresh
  known := h.known
  added hmem := by
    rcases List.mem_append.mp hmem with hmem | hmem
    · exact h.added hmem
    · rw [← List.mem_singleton.mp hmem] at hmsg
      cases hmsg
  entry := h.entry
  evicted := h.evicted
  present := h.present
  unique := h.unique

/-- Client `k` is changed, and closes its connection only after it was evicted. -/
theorem Inv.modify {s : Session} (h : s.Inv) {k : Nat} {m : MCClient} {f : MCClient → MCClient}
    (hm : s.clients[k]? = some m) (haddr : (f m).addr = m.addr)
    (hopen : (f m).phase ≠ .gone → m.phase ≠ .gone)
    (hgone : s.result = none → m.phase ≠ .gone → (f m).phase = .gone → s.Evicted k)
    (hclosed : s.result = none → (f m).needForClose = false →
      m.needForClose = false ∨ s.Evicted k) : (s.modify k f).Inv where
  toLedger := h.toLedger.modify hm haddr hopen
  settled hr addr := by
    obtain ⟨o, hpath, ho⟩ := h.settled hr addr
    refine ⟨o, hpath, fun j => (ho j).trans ?_⟩
    rw [live_modify hm haddr hopen]
    constructor
    · rintro ⟨hlive, hev⟩
      refine ⟨⟨hlive, ?_⟩, hev⟩
      intro heq hg
      subst heq
      obtain ⟨mj, hmj, hp, -⟩ := hlive
      cases hm.symm.trans hmj
      exact hev (hgone hr hp hg)
    · exact fun hj => ⟨hj.1.1, hj.2⟩
  closed hr j mj hmj hn := by
    rw [clients_modify] at hmj
    split at hmj
    · next heq =>
      subst heq
      rw [hm] at hmj
      cases hmj
      rcases hclosed hr hn with hn | hev
      · exact h.closed hr hm hn
      · exact hev
    · exact h.closed hr hmj hn

/-- Only the owner of an address, or an evicted client, has a live connection from it. -/
theorem Inv.owner_or_evicted {s : Session} (h : s.Inv) {k : Nat} {addr : SocketAddr}
    {o : Option Nat} (hk : s.Live k addr) (ho : ∀ j, o = some j ↔ s.Live j addr ∧ ¬ s.Evicted j) :
    o = some k ∨ o = none ∧ s.Evicted k := by
  by_cases hev : s.Evicted k
  · cases ho' : o with
    | none => exact Or.inr ⟨rfl, hev⟩
    | some j =>
      obtain ⟨hj, hjev⟩ := (ho j).mp ho'
      cases h.unique hj hk
      exact absurd hev hjev
  · exact Or.inl ((ho k).mpr ⟨hk, hev⟩)

/-- A live client sends a packet. -/
theorem Inv.enqueuePacket {s : Session} (h : s.Inv) {k : Nat} {addr : SocketAddr}
    {pkg : MinecraftDataPacket} (hk : s.Live k addr) : (s.enqueue k (.Packet addr pkg)).Inv where
  toLedger := h.toLedger.enqueue k rfl
  settled hr a := by
    obtain ⟨o, hpath, ho⟩ := h.settled hr a
    exact ⟨o, hpath.snoc ⟨rfl, fun heq => h.owner_or_evicted (heq ▸ hk) ho⟩, ho⟩
  closed := h.closed

/-- A live client is dropped and sends its removal. -/
theorem Inv.dropped {s : Session} (h : s.Inv) {k : Nat} {m : MCClient}
    {f : MCClient → MCClient} (hm : s.clients[k]? = some m) (haddr : (f m).addr = m.addr)
    (hp : m.phase ≠ .gone) (hgone : (f m).phase = .gone)
    (hn : (f m).needForClose = m.needForClose) :
    ((s.modify k f).enqueue k (.RemoveMinecraftClient m.addr)).Inv where
  toLedger := (h.toLedger.modify hm haddr fun h' => absurd hgone h').enqueue k rfl
  settled hr a := by
    obtain ⟨o, hpath, ho⟩ := h.settled hr a
    have hlive : s.Live k m.addr := ⟨m, hm, hp, rfl⟩
    have hiff : ∀ j, (s.modify k f).Live j a ↔ s.Live j a ∧ (j = k → (f m).phase ≠ .gone) :=
      fun j => live_modify hm haddr fun h' => absurd hgone h'
    by_cases ha : m.addr = a
    · subst ha
      have hset : Settles s.Evicted m.addr o (k, .RemoveMinecraftClient m.addr) none := by
        simp only [Settles, if_true, true_and]
        exact h.owner_or_evicted hlive ho
      refine ⟨none, hpath.snoc hset, fun j => ⟨fun hj => (by cases hj), ?_⟩⟩
      intro hj
      obtain ⟨hj, hne⟩ := (hiff j).mp hj.1
      exact absurd hgone (hne (h.unique hj hlive))
    · refine ⟨o, hpath.snoc (by simp only [Settles, if_neg ha]), fun j => (ho j).trans ?_⟩
      constructor
      · rintro ⟨hj, hev⟩
        refine ⟨(hiff j).mpr ⟨hj, ?_⟩, hev⟩
        intro heq
        subst heq
        obtain ⟨mj, hmj, -, haj⟩ := hj
        cases hm.symm.trans hmj
        exact absurd haj ha
      · exact fun hj => ⟨((hiff j).mp hj.1).1, hj.2⟩
  closed hr j mj hmj hnj := by
    have hmj' : (s.modify k f).clients[j]? = some mj := hmj
    rw [clients_modify] at hmj'
    split at hmj'
    · next heq =>
      subst heq
      rw [hm] at hmj'
      cases hmj'
      exact h.closed hr hm (hn ▸ hnj)
    · exact h.closed hr hmj' hnj

/-- A session in which `addr` is free has nobody live from there. -/
theorem not_live_of_addrFree {s : Session} {addr : SocketAddr} (ha : s.addrFree addr = true)
    (k : Nat) : ¬ s.Live k addr := by
  rintro ⟨m, hm, hp, hma⟩
  have hall := List.all_eq_true.mp ha m (List.mem_of_getElem? hm)
  rw [Bool.or_eq_true, decide_eq_true_eq, decide_eq_true_eq] at hall
  rcases hall with hg | hne
  · exact hp hg
  · exact hne hma

section
variable {s : Session} {addr : SocketAddr} {hello : MinecraftDataPacket}

/-- A client connects and finds the session. -/
def connect (s : Session) (addr : SocketAddr) (hello : MinecraftDataPacket) : Session :=
  enqueue { s with clients := s.clients ++ [⟨addr, .joining hello, true, [], []⟩] }
    s.clients.length (.AddMinecraftClient addr s.clients.length)

theorem From.connect {k : Nat} {a : SocketAddr} (h : s.From k a) : (s.connect addr hello).From k a := by
  obtain ⟨m, hm, hma⟩ := h
  exact ⟨m, getElem?_concat_iff.mpr (Or.inl hm), hma⟩

theorem live_connect {k : Nat} {a : SocketAddr} :
    (s.connect addr hello).Live k a ↔ s.Live k a ∨ k = s.clients.length ∧ a = addr := by
  constructor
  · rintro ⟨m, hm, hp, hma⟩
    rcases getElem?_concat_iff.mp hm with hm | ⟨rfl, rfl⟩
    · exact Or.inl ⟨m, hm, hp, hma⟩
    · exact Or.inr ⟨rfl, hma.symm⟩
  · rintro (⟨m, hm, hp, hma⟩ | ⟨rfl, rfl⟩)
    · exact ⟨m, getElem?_concat_iff.mpr (Or.inl hm), hp, hma⟩
    · exact ⟨_, List.getElem?_concat_length, MCPhase.noConfusion, rfl⟩

/-- Who is in the queue or has joined has a number. -/
theorem Ledger.lt_length (h : s.Ledger) {k : Nat} (hk : k ∈ adds s.queue ++ s.joined.map Prod.fst) :
    k < s.clients.length := by
  rcases List.mem_append.mp hk with hk | hk
  · obtain ⟨a, tx, hmem⟩ := mem_adds.mp hk
    obtain ⟨-, m, hm, -⟩ := h.added hmem
    exact (List.getElem?_eq_some_iff.mp hm).1
  · exact h.known hk

theorem Ledger.connect (h : s.Ledger) (ha : s.addrFree addr = true) :
    (s.connect addr hello).Ledger where
  tables := h.tables
  fresh := by
    show (adds (s.queue ++ [_]) ++ s.joined.map Prod.fst).Nodup
    rw [adds_snoc, List.append_assoc]
    refine List.nodup_middle.mpr (List.nodup_cons.mpr ⟨?_, h.fresh⟩)
    intro hmem
    exact absurd (h.lt_length hmem) (Nat.lt_irrefl _)
  known hk := by
    show _ < (s.clients ++ [_]).length
    rw [List.length_append]
    exact Nat.lt_add_right _ (h.known hk)
  added hmem := by
    rcases List.mem_append.mp hmem with hmem | hmem
    · exact ⟨(h.added hmem).1, (h.added hmem).2.connect⟩
    · cases List.mem_singleton.mp hmem
      exact ⟨rfl, _, List.getElem?_concat_length, rfl⟩
  entry hc := ⟨(h.entry hc).1, (h.entry hc).2.connect⟩
  evicted := h.evicted
  present := h.present
  unique hk hk' := by
    rcases live_connect.mp hk with h1 | ⟨rfl, rfl⟩ <;> rcases live_connect.mp hk' with h2 | ⟨rfl, h2⟩
    · exact h.unique h1 h2
    · exact absurd (h2 ▸ h1) (not_live_of_addrFree ha _)
    · exact absurd h2 (not_live_of_addrFree ha _)
    · rfl

/-- A client finds the session; its address belongs to nobody. -/
theorem Inv.connect (h : s.Inv) (ha : s.addrFree addr = true) : (s.connect addr hello).Inv where
  toLedger := h.toLedger.connect ha
  settled hr a := by
    obtain ⟨o, hpath, ho⟩ := h.settled hr a
    by_cases haddr : addr = a
    · subst haddr
      have hnone : o = none := by
        cases ho' : o with
        | none => rfl
        | some j => exact absurd ((ho j).mp ho').1 (not_live_of_addrFree ha j)
      refine ⟨some s.clients.length, hpath.snoc ?_, ?_⟩
      · simp only [Settles, if_true, hnone, and_self]
      · intro j
        rw [live_connect]
        constructor
        · intro hj
          cases hj
          exact ⟨Or.inr ⟨rfl, rfl⟩, fun hev => Nat.lt_irrefl _ (h.known (h.evicted hev))⟩
        · rintro ⟨hj | ⟨rfl, -⟩, -⟩
          · exact absurd hj (not_live_of_addrFree ha j)
          · rfl
    · refine ⟨o, hpath.snoc (by simp only [Settles, if_neg haddr]), fun j => (ho j).trans ?_⟩
      rw [live_connect]
      constructor
      · exact fun hj => ⟨Or.inl hj.1, hj.2⟩
      · rintro ⟨hj | ⟨-, heq⟩, hev⟩
        · exact ⟨hj, hev⟩
        · exact absurd heq.symm haddr
  closed hr j m hm hn := by
    rcases getElem?_concat_iff.mp hm with hm | ⟨-, rfl⟩
    · exact h.closed hr hm hn
    · cases hn

end

/-! ## What the loop does -/

theorem Inv.finish {s : Session} (h : s.Inv) (result : Except DistributorError Unit) :
    (s.finish result).Inv where
  tables := Distribiutor.consistent_new
  fresh := h.fresh.of_append_right
  known := h.known
  added hmem := by cases hmem
  entry hc := by cases hc
  evicted := h.evicted
  present hc := by cases hc
  unique := h.unique
  settled hr := by cases hr
  closed hr := by cases hr

/-- The head of the queue, in front of the rest of it. -/
theorem Inv.head {s : Session} (h : s.Inv) (hr : s.result = none) {e : Nat × ClientToProxy}
    {queue : List (Nat × ClientToProxy)} (hq : s.queue = e :: queue) (addr : SocketAddr) :
    ∃ o o', Settles s.Evicted addr (s.owner addr) e o ∧ Path (Settles s.Evicted addr) o queue o' ∧
      ∀ k, o' = some k ↔ s.Live k addr ∧ ¬ s.Evicted k := by
  obtain ⟨o', hpath, ho⟩ := h.settled hr addr
  rw [hq] at hpath
  obtain ⟨o, he, hpath⟩ := Path.cons_iff.mp hpath
  exact ⟨o, o', he, hpath, ho⟩

/-- A packet in front of the queue finds the entry of its sender, or none if that was evicted. -/
theorem Inv.owner_of_packet {s : Session} (h : s.Inv) (hr : s.result = none) {k : Nat}
    {addr : SocketAddr} {pkg : MinecraftDataPacket} {queue : List (Nat × ClientToProxy)}
    (hq : s.queue = (k, .Packet addr pkg) :: queue) :
    s.owner addr = some k ∨ s.owner addr = none ∧ s.Evicted k := by
  obtain ⟨o, o', he, -, -⟩ := h.head hr hq addr
  exact he.2 rfl

theorem Inv.forward {s : Session} (h : s.Inv) (hr : s.result = none) {k : Nat} {addr : SocketAddr}
    {pkg : MinecraftDataPacket} {queue : List (Nat × ClientToProxy)}
    (hq : s.queue = (k, .Packet addr pkg) :: queue) : Inv { s with queue := queue } where
  tables := h.tables
  fresh := by
    have hfresh := h.fresh
    rw [hq] at hfresh
    exact hfresh
  known := h.known
  added hmem := h.added (hq ▸ .tail _ hmem)
  entry := h.entry
  evicted := h.evicted
  present := h.present
  unique := h.unique
  settled _ a := by
    obtain ⟨o, o', he, hpath, ho⟩ := h.head hr hq a
    exact ⟨o', he.1 ▸ hpath, ho⟩
  closed := h.closed

/-- The address of a new client is not in the tables. -/
theorem Inv.fresh_add {s : Session} (h : s.Inv) (hr : s.result = none) {k tx : Nat}
    {addr : SocketAddr} {queue : List (Nat × ClientToProxy)}
    (hq : s.queue = (k, .AddMinecraftClient addr tx) :: queue) :
    s.distributor.clientsAddr.lookup addr = none := by
  obtain ⟨o, o', he, -, -⟩ := h.head hr hq addr
  simp only [Settles, if_true] at he
  exact Option.map_eq_none_iff.mp he.1

theorem Inv.add {s : Session} (h : s.Inv) (hr : s.result = none) {k tx : Nat} {addr : SocketAddr}
    {queue : List (Nat × ClientToProxy)} {c : MinecraftClient} {d : Distribiutor}
    (hq : s.queue = (k, .AddMinecraftClient addr tx) :: queue)
    (hi : s.distributor.insert addr tx = .ok (c, d)) :
    Inv { s with distributor := d, queue := queue, joined := (k, c.id) :: s.joined } := by
  obtain ⟨hctx, hfreeId, haddr, hid⟩ := Distribiutor.insert_eq_ok hi
  have hfree := Distribiutor.freeId_free hfreeId
  obtain ⟨htx, hfrom⟩ := h.added (hq ▸ List.mem_cons_self)
  have hfresh := h.fresh
  rw [hq] at hfresh
  constructor
  · constructor
    · exact h.tables.insert hi (h.fresh_add hr hq)
    · exact List.nodup_middle.mpr hfresh
    · intro j hj
      rcases List.mem_cons.mp hj with rfl | hj
      · obtain ⟨m, hm, -⟩ := hfrom
        exact (List.getElem?_eq_some_iff.mp hm).1
      · exact h.known hj
    · exact fun hmem => h.added (hq ▸ .tail _ hmem)
    · intro a c' hc'
      rw [haddr] at hc'
      rw [newest_cons]
      split at hc'
      · next heq =>
        cases hc'
        rw [if_pos rfl, hctx, htx]
        exact ⟨rfl, heq ▸ hfrom⟩
      · have hne : c.id ≠ c'.id := fun heq => by
          rw [heq, h.tables.byAddr hc'] at hfree
          cases hfree
        rw [if_neg hne]
        exact h.entry hc'
    · exact fun hev => .tail _ (h.evicted hev)
    · intro a c' hc' hev
      rw [haddr] at hc'
      split at hc'
      · cases hc'
        rw [hctx, htx] at hev
        exact (List.nodup_cons.mp hfresh).1 (List.mem_append_right _ (h.evicted hev))
      · exact h.present hc' hev
    · exact h.unique
  · intro _ a
    obtain ⟨o, o', he, hpath, ho⟩ := h.head hr hq a
    refine ⟨o', ?_, ho⟩
    have howner : owner { s with distributor := d, queue := queue, joined := (k, c.id) :: s.joined } a
        = o := by
      show (d.clientsAddr.lookup a).map MinecraftClient.tx = o
      rw [haddr]
      simp only [Settles] at he
      split at he
      · next heq => rw [if_pos heq.symm, he.2, ← htx, ← hctx]; rfl
      · next hne => rw [if_neg (Ne.symm hne), he]; rfl
    rw [howner]
    exact hpath
  · exact h.closed

theorem Inv.remove {s : Session} (h : s.Inv) (hr : s.result = none) {k : Nat} {addr : SocketAddr}
    {queue : List (Nat × ClientToProxy)} (hq : s.queue = (k, .RemoveMinecraftClient addr) :: queue) :
    Inv { s with distributor := s.distributor.removeByAddr addr, queue := queue } where
  tables := h.tables.removeByAddr addr
  fresh := by
    have hfresh := h.fresh
    rw [hq] at hfresh
    exact hfresh
  known := h.known
  added hmem := h.added (hq ▸ .tail _ hmem)
  entry hc := by
    rw [Distribiutor.removeByAddr_lookup] at hc
    split at hc
    · cases hc
    · exact h.entry hc
  evicted := h.evicted
  present hc := by
    rw [Distribiutor.removeByAddr_lookup] at hc
    split at hc
    · cases hc
    · exact h.present hc
  unique := h.unique
  settled _ a := by
    obtain ⟨o, o', he, hpath, ho⟩ := h.head hr hq a
    refine ⟨o', ?_, ho⟩
    have howner : owner { s with distributor := s.distributor.removeByAddr addr, queue := queue } a
        = o := by
      show ((s.distributor.removeByAddr addr).clientsAddr.lookup a).map MinecraftClient.tx = o
      rw [Distribiutor.removeByAddr_lookup]
      simp only [Settles] at he
      split at he
      · next heq => rw [if_pos heq.symm, he.1]; rfl
      · next hne => rw [if_neg (Ne.symm hne), he]; rfl
    rw [howner]
    exact hpath
  closed := h.closed

/-- An eviction takes the client out of the future of the queue, too. -/
theorem path_evict {evicted : Nat → Prop} {addr : SocketAddr} {k : Nat} {o o' : Option Nat}
    {queue : List (Nat × ClientToProxy)} (hk : k ∉ adds queue)
    (h : Path (Settles evicted addr) o queue o') :
    Path (Settles (fun j => j = k ∨ evicted j) addr) (o.filter (· ≠ k)) queue
      (o'.filter (· ≠ k)) := by
  have hfilter : ∀ {o : Option Nat} {j : Nat}, o = some j ∨ o = none ∧ evicted j →
      o.filter (· ≠ k) = some j ∨ o.filter (· ≠ k) = none ∧ (j = k ∨ evicted j) := by
    rintro o j (rfl | ⟨rfl, hev⟩)
    · by_cases hj : j = k
      · exact Or.inr ⟨by simp [hj], Or.inl hj⟩
      · exact Or.inl (by simp [hj])
    · exact Or.inr ⟨rfl, Or.inr hev⟩
  have hstep : ∀ o e o1 o', e ∈ queue → Settles evicted addr o e o1 → o' = o.filter (· ≠ k) →
      ∃ o1', Settles (fun j => j = k ∨ evicted j) addr o' e o1' ∧ o1' = o1.filter (· ≠ k) := by
    rintro o ⟨j, msg⟩ o1 _ hmem he rfl
    refine ⟨_, ?_, rfl⟩
    cases msg with
    | AddMinecraftClient a tx =>
      have hj : j ≠ k := fun heq => hk (mem_adds.mpr ⟨a, tx, heq ▸ hmem⟩)
      simp only [Settles] at he ⊢
      split at he
      · next heq => rw [if_pos heq, he.1, he.2]; simp [hj]
      · next hne => rw [if_neg hne, he]
    | Packet a pkg => exact ⟨by rw [he.1], fun heq => hfilter (he.2 heq)⟩
    | RemoveMinecraftClient a =>
      simp only [Settles] at he ⊢
      split at he
      · next heq => rw [if_pos heq, he.1]; exact ⟨rfl, hfilter he.2⟩
      · next hne => rw [if_neg hne, he]
    | Close => exact congrArg _ he
  obtain ⟨u, hpath, rfl⟩ := h.simulate hstep rfl
  exact hpath

/-- An entry is found by its client, too. -/
theorem Ledger.entry_unique {s : Session} (h : s.Ledger) {a a' : SocketAddr}
    {c c' : MinecraftClient} (hc : s.distributor.clientsAddr.lookup a = some c)
    (hc' : s.distributor.clientsAddr.lookup a' = some c') (htx : c.tx = c'.tx) : a = a' := by
  obtain ⟨m, hm, rfl⟩ := (h.entry hc).2
  obtain ⟨m', hm', rfl⟩ := (h.entry hc').2
  rw [htx] at hm
  cases hm.symm.trans hm'
  rfl

section
variable {s : Session} {src : Nat} {addr : SocketAddr} {c : MinecraftClient}

/-- The entry of client `c` is removed, and its channel is closed. -/
def evict (s : Session) (src : Nat) (c : MinecraftClient) : Session :=
  { s with
    distributor := s.distributor.removeById c.id, evicted := (src, c.tx) :: s.evicted }

theorem evicted_evict {k : Nat} : (s.evict src c).Evicted k ↔ k = c.tx ∨ s.Evicted k :=
  List.mem_cons

/-- The ids of the entries tell their clients apart. -/
theorem Ledger.id_eq_iff (h : s.Ledger) {a a' : SocketAddr} {c c' : MinecraftClient}
    (hc : s.distributor.clientsAddr.lookup a = some c)
    (hc' : s.distributor.clientsAddr.lookup a' = some c') : c.id = c'.id ↔ c.tx = c'.tx := by
  constructor
  · intro heq
    cases h.tables.addr_eq hc hc' heq
    cases hc.symm.trans hc'
    rfl
  · intro heq
    cases h.entry_unique hc hc' heq
    cases hc.symm.trans hc'
    rfl

theorem Ledger.owner_evict (h : s.Ledger) (hc : s.distributor.clientsAddr.lookup addr = some c)
    (a : SocketAddr) : (s.evict src c).owner a = (s.owner a).filter (· ≠ c.tx) := by
  show ((s.distributor.removeById c.id).clientsAddr.lookup a).map MinecraftClient.tx = _
  rw [h.tables.removeById_lookup]
  unfold owner
  cases hc' : s.distributor.clientsAddr.lookup a with
  | none => rfl
  | some c' =>
    have hiff := h.id_eq_iff hc' hc
    by_cases heq : c'.tx = c.tx
    · simp [Option.filter_some, heq, hiff.mpr heq]
    · simp [Option.filter_some, heq, mt hiff.mp heq]

theorem Ledger.joined_of_entry (h : s.Ledger)
    (hc : s.distributor.clientsAddr.lookup addr = some c) : c.tx ∈ s.joined.map Prod.fst :=
  List.mem_map.mpr ⟨_, newest_mem (h.entry hc).1, rfl⟩

theorem Ledger.evict (h : s.Ledger) (hc : s.distributor.clientsAddr.lookup addr = some c) :
    (s.evict src c).Ledger where
  tables := h.tables.removeById c.id
  fresh := h.fresh
  known := h.known
  added := h.added
  entry hc' := by
    rw [Session.evict, h.tables.removeById_lookup, Option.filter_eq_some_iff] at hc'
    exact h.entry hc'.1
  evicted hk := by
    rcases evicted_evict.mp hk with rfl | hk
    · exact h.joined_of_entry hc
    · exact h.evicted hk
  present hc' hk := by
    rw [Session.evict, h.tables.removeById_lookup, Option.filter_eq_some_iff] at hc'
    rcases evicted_evict.mp hk with htx | hk
    · simp [(h.id_eq_iff hc'.1 hc).mpr htx] at hc'
    · exact h.present hc'.1 hk
  unique := h.unique

theorem Inv.evict (h : s.Inv) (hc : s.distributor.clientsAddr.lookup addr = some c) :
    (s.evict src c).Inv where
  toLedger := h.toLedger.evict hc
  settled hr a := by
    obtain ⟨o, hpath, ho⟩ := h.settled hr a
    have hadds : c.tx ∉ adds s.queue := fun hadd =>
      (List.nodup_append.mp h.fresh).2.2 _ hadd _ (h.joined_of_entry hc) rfl
    refine ⟨o.filter (· ≠ c.tx), ?_, ?_⟩
    · rw [h.owner_evict hc]
      refine (path_evict hadds hpath).mono ?_
      intro o1 e o2 _ he
      simpa only [Settles, evicted_evict] using he
    · intro k
      rw [evicted_evict, Option.filter_eq_some_iff, ho k, decide_eq_true_eq]
      constructor
      · exact fun hk => ⟨hk.1.1, fun hor => hor.elim hk.2 hk.1.2⟩
      · exact fun hk => ⟨⟨hk.1, fun h' => hk.2 (Or.inr h')⟩, fun h' => hk.2 (Or.inl h')⟩
  closed hr _ _ hm hn := evicted_evict.mpr (Or.inr (h.closed hr hm hn))

end

/-- A `ProxyDisconnect` with an id that nobody has. -/
theorem Inv.evictNone {s : Session} (h : s.Inv) {id : UInt16}
    (hc : s.distributor.getById id = none) :
    Inv { s with distributor := s.distributor.removeById id } := by
  have hlookup : ∀ a, (s.distributor.removeById id).clientsAddr.lookup a
      = s.distributor.clientsAddr.lookup a := by
    intro a
    rw [h.tables.removeById_lookup]
    cases ha : s.distributor.clientsAddr.lookup a with
    | none => rfl
    | some c =>
      have hne : c.id ≠ id := fun heq => by
        rw [h.tables.getById_iff.mpr ⟨a, ha, heq⟩] at hc
        cases hc
      simp [hne]
  constructor
  · exact ⟨h.tables.removeById id, h.fresh, h.known, h.added, fun hc' => h.entry (hlookup _ ▸ hc'),
      h.evicted, fun hc' => h.present (hlookup _ ▸ hc'), h.unique⟩
  · intro hr a
    obtain ⟨o, hpath, ho⟩ := h.settled hr a
    refine ⟨o, ?_, ho⟩
    show Path _ (((s.distributor.removeById id).clientsAddr.lookup a).map _) _ _
    rw [hlookup]
    exact hpath
  · exact h.closed

theorem Inv.deliver {s : Session} (h : s.Inv) {src : Nat} {addr : SocketAddr} {c : MinecraftClient}
    {pkg : MinecraftDataPacket} (hc : s.distributor.clientsAddr.lookup addr = some c) :
    Inv { s.modify c.tx (deliver pkg) with delivered := (src, c.tx) :: s.delivered } := by
  obtain ⟨m, hm, -⟩ := (h.entry hc).2
  have hmod : (s.modify c.tx (Session.deliver pkg)).Inv := by
    refine h.modify hm (deliver_addr pkg m) ?_ ?_ ?_
    · rw [deliver_phase]
      exact id
    · rw [deliver_phase]
      exact fun _ hp hg => absurd hg hp
    · rw [deliver_needForClose]
      exact fun _ hn => Or.inl hn
  exact ⟨⟨hmod.tables, hmod.fresh, hmod.known, hmod.added, hmod.entry, hmod.evicted,
    hmod.present, hmod.unique⟩, hmod.settled, hmod.closed⟩

/-! ## Every step -/

/-- A running client whose channel is closed has been evicted. -/
theorem Inv.evicted_of_noSender {s : Session} (h : s.Inv) (hr : s.result = none) {k : Nat}
    {m : MCClient} (hm : s.clients[k]? = some m) (hp : m.phase ≠ .gone)
    (hs : s.hasSender k = false) : s.Evicted k := by
  by_contra hev
  obtain ⟨o, hpath, ho⟩ := h.settled hr m.addr
  unfold hasSender at hs
  rw [Bool.or_eq_false_iff] at hs
  rcases path_some hpath ((ho k).mpr ⟨⟨m, hm, hp, rfl⟩, hev⟩) with hown | hadd
  · obtain ⟨c, hc, htx⟩ := Option.map_eq_some_iff.mp hown
    have hany := List.any_eq_false.mp hs.1 _ (AList.mem_lookup_iff.mp hc)
    rw [decide_eq_true_eq] at hany
    exact hany htx
  · obtain ⟨a, tx, hmem⟩ := mem_adds.mp hadd
    have hany := List.any_eq_false.mp hs.2 _ hmem
    rw [decide_eq_true_eq] at hany
    exact hany (h.added hmem).1

/-- **Every step keeps the invariant.** -/
theorem Inv.step {s s' : Session} {e : SessionEvent} {out : List (Nat × SocketPacket)} (h : s.Inv)
    (hs : Step s e s' out) : s'.Inv := by
  cases hs with
  | join hr ha => exact h.connect ha
  | @hello k m hello hm hp hr =>
    have hopen : m.phase ≠ .gone := fun hg => by rw [hp] at hg; cases hg
    refine (h.modify hm rfl (fun _ => hopen) (fun _ _ hg => by cases hg)
      fun _ hn => Or.inl hn).enqueuePacket ?_
    exact (live_modify hm rfl fun _ => hopen).mpr ⟨⟨m, hm, hopen, rfl⟩, fun _ hg => by cases hg⟩
  | helloClosed hm hp hr =>
    exact h.modify hm rfl (fun hg => absurd rfl hg) (fun hr' => absurd hr' hr)
      fun hr' => absurd hr' hr
  | @read k m pkg hm hp hr =>
    have hopen : m.phase ≠ .gone := fun hg => by rw [hp] at hg; cases hg
    refine (h.modify hm rfl id (fun _ _ hg => absurd hg hopen) fun _ hn => Or.inl hn).enqueuePacket ?_
    exact (live_modify hm rfl id).mpr ⟨⟨m, hm, hopen, rfl⟩, fun _ => hopen⟩
  | readClosed hm hp hr =>
    exact h.modify hm rfl (fun _ hg => by rw [hp] at hg; cases hg) (fun hr' => absurd hr' hr)
      fun hr' => absurd hr' hr
  | receive hm hp hx =>
    exact h.modify hm rfl id (fun _ hne hg => absurd hg hne) fun _ hn => Or.inl hn
  | @receiveClosed k m hm hp hx hs =>
    have hopen : m.phase ≠ .gone := fun hg => by rw [hp] at hg; cases hg
    exact h.modify hm rfl (fun _ => hopen) (fun _ _ hg => by cases hg)
      fun hr _ => Or.inr (h.evicted_of_noSender hr hm hopen hs)
  | stop hm hp =>
    exact h.modify hm rfl (fun _ hg => by rw [hp] at hg; cases hg) (fun _ _ hg => by cases hg)
      fun _ hn => Or.inl hn
  | drop hm hp hn hr => exact h.dropped hm rfl (fun hg => by rw [hp] at hg; cases hg) rfl rfl
  | dropSilent hm hp hn =>
    refine h.modify hm rfl (fun hg => absurd rfl hg) ?_ fun _ hn => Or.inl hn
    intro hr _ _
    exact h.closed hr hm (hn.resolve_right fun hne => hne hr)
  | close hr hq => exact h.finish _
  | add hr hq hi => exact h.add hr hq hi
  | tooMany hr hq hi => exact h.finish _
  | forward hr hq hc => exact h.forward hr hq
  | wrongPacket hr hq hc => exact h.finish _
  | remove hr hq => exact h.remove hr hq
  | evict hr hg =>
    obtain ⟨addr, hc, rfl⟩ := h.tables.getById_iff.mp hg
    exact h.evict hc
  | evictNone hr hc => exact h.evictNone hc
  | deliver hr hc =>
    obtain ⟨addr, hc, -⟩ := h.tables.getById_iff.mp hc
    exact h.deliver hc
  | deliverNone hr hc => exact h
  | pong hr => exact h
  | ignored hr hp => exact h
  | broken hr => exact h.finish _
  | leave hr => exact h.finish _

/-- **The invariant holds in every reachable state.** -/
theorem reachable_inv {s : Session} (h : sessionMachine.Reachable s) : s.Inv := by
  refine h.invariant inv_new ?_
  intro s e s' hs he
  obtain ⟨⟨s1, out⟩, hstep, rfl⟩ := Option.map_eq_some_iff.mp he
  exact hs.step (step_cases hstep)

end Session

end CraftIp
