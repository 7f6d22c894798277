import CraftIp.Shared.Addressing
import CraftIp.Shared.SocketPacket

/-!
# `server/src/proxy_handler.rs`

The tables of a session and the two halves of the loop of `ProxyClient::handle`: what a
message from a Minecraft client does, and what a packet from the proxy client does.

The channel of a Minecraft client is named by the number of the client.
-/

namespace CraftIp

open Infra

/-- `ClientToProxy` of the server: what the Minecraft clients tell the session. -/
inductive ClientToProxy
  | Packet (addr : SocketAddr) (pkg : MinecraftDataPacket)
  | AddMinecraftClient (addr : SocketAddr) (tx : Nat)
  | RemoveMinecraftClient (addr : SocketAddr)
  | Close
  deriving DecidableEq

/-- `MinecraftClient`. -/
structure MinecraftClient where
  tx : Nat
  id : UInt16
  deriving DecidableEq

/-- `Distribiutor`. -/
structure Distribiutor where
  clientsAddr : Table SocketAddr MinecraftClient
  clientsId : Table UInt16 SocketAddr

namespace Distribiutor

/-- `Distribiutor::default`. -/
def new : Distribiutor := { clientsAddr := ∅, clientsId := ∅ }

/-- The first number of `0..=MAXIMUM_CLIENTS` that is no key of `clients_id`. -/
def freeId (self : Distribiutor) : Option UInt16 :=
  ((List.range (MAXIMUM_CLIENTS.toNat + 1)).map UInt16.ofNat).find? fun id =>
    (self.clientsId.lookup id).isNone

/-- `Distribiutor::insert`. -/
def insert (self : Distribiutor) (addr : SocketAddr) (tx : Nat) :
    Except DistributorError (MinecraftClient × Distribiutor) :=
  match self.freeId with
  | none => .error .TooManyClients
  | some id =>
    let client : MinecraftClient := { tx := tx, id := id }
    .ok (client,
      { clientsAddr := self.clientsAddr.insert addr client
        clientsId := self.clientsId.insert id addr })

/--
The body of `insert`, statement by statement.

Here the tables are there after an error, too: what `insert` returns, and what it leaves
behind (`insertBody_run`).
-/
def insertBody (addr : SocketAddr) (tx : Nat) :
    ExceptT DistributorError (StateM Distribiutor) MinecraftClient := do
  let some id := (← get).freeId | throw .TooManyClients
  modify fun self => { self with clientsId := self.clientsId.insert id addr }
  let client : MinecraftClient := { tx := tx, id := id }
  modify fun self => { self with clientsAddr := self.clientsAddr.insert addr client }
  return client

/-- `Distribiutor::remove_by_addr`. -/
def removeByAddr (self : Distribiutor) (addr : SocketAddr) : Distribiutor :=
  { clientsAddr := self.clientsAddr.erase addr
    clientsId :=
      match self.clientsAddr.lookup addr with
      | some client => self.clientsId.erase client.id
      | none => self.clientsId }

/-- `Distribiutor::remove_by_id`. -/
def removeById (self : Distribiutor) (id : UInt16) : Distribiutor :=
  { clientsAddr :=
      match self.clientsId.lookup id with
      | some addr => self.clientsAddr.erase addr
      | none => self.clientsAddr
    clientsId := self.clientsId.erase id }

/-- `Distribiutor::get_by_addr`. -/
def getByAddr (self : Distribiutor) (addr : SocketAddr) : Option MinecraftClient :=
  self.clientsAddr.lookup addr

/-- `Distribiutor::get_by_id`. -/
def getById (self : Distribiutor) (id : UInt16) : Option MinecraftClient :=
  (self.clientsId.lookup id).bind fun addr => self.clientsAddr.lookup addr

end Distribiutor

namespace ProxyClient

/--
The arms for a message from a Minecraft client: the tables after it and the packets for the
proxy client. `none` leaves the loop.
-/
def onClient (distributor : Distribiutor) :
    ClientToProxy → Except DistributorError (Option (Distribiutor × List SocketPacket))
  | .Close => .ok none
  | .AddMinecraftClient addr tx => do
    let (client, distributor) ← distributor.insert addr tx
    return some (distributor, [.ProxyJoin client.id])
  | .Packet addr pkg =>
    match distributor.getByAddr addr with
    | none => .error .WrongPacket
    | some client => .ok (some (distributor, [.ProxyData (.new pkg client.id)]))
  | .RemoveMinecraftClient addr =>
    let packets :=
      match distributor.getByAddr addr with
      | some client => [.ProxyDisconnect client.id]
      | none => []
    .ok (some (distributor.removeByAddr addr, packets))

/--
The arms for a packet from the proxy client: the tables after it, the packets for the proxy
client, and what is sent to a Minecraft client.
-/
def onProxy (distributor : Distribiutor) :
    SocketPacket → Distribiutor × List SocketPacket × Option (Nat × MinecraftDataPacket)
  | .ProxyDisconnect clientId => (distributor.removeById clientId, [], none)
  | .ProxyData packet =>
    match distributor.getById packet.clientId with
    | some client => (distributor, [], some (client.tx, .ofProxyData packet))
    | none => (distributor, [], none)
  | .ProxyPing packet => (distributor, [.ProxyPong packet], none)
  | _ => (distributor, [], none)

end ProxyClient

/-! ## The two tables -/

namespace Distribiutor

/-- The tables are inverse to each other. -/
structure Consistent (d : Distribiutor) : Prop where
  byAddr : ∀ {addr c}, d.clientsAddr.lookup addr = some c → d.clientsId.lookup c.id = some addr
  byId : ∀ {id addr}, d.clientsId.lookup id = some addr →
    ∃ c, d.clientsAddr.lookup addr = some c ∧ c.id = id

theorem consistent_new : new.Consistent where
  byAddr h := by cases h
  byId h := by cases h

theorem freeId_free {d : Distribiutor} {id : UInt16} (h : d.freeId = some id) :
    d.clientsId.lookup id = none := by
  have hfree := List.find?_some h
  simpa using hfree

theorem insert_eq_error {d : Distribiutor} {addr : SocketAddr} {tx : Nat} {e : DistributorError} :
    d.insert addr tx = .error e ↔ d.freeId = none ∧ e = .TooManyClients := by
  unfold insert
  cases d.freeId with
  | none => simp [eq_comm]
  | some id => simp

/-- `insert` changes nothing before it fails. -/
theorem insertBody_run (d : Distribiutor) (addr : SocketAddr) (tx : Nat) :
    (insertBody addr tx).run.run d = match d.insert addr tx with
      | .ok (client, d') => (.ok client, d')
      | .error e => (.error e, d) := by
  have hget (f : Distribiutor → ExceptT DistributorError (StateM Distribiutor) MinecraftClient) :
      (get >>= f).run.run d = (f d).run.run d := rfl
  rw [insertBody, hget, insert]
  cases d.freeId <;> rfl

/-! ### The numbers -/

/-- The numbers `0..=MAXIMUM_CLIENTS`. -/
def ids : List UInt16 := (List.range (MAXIMUM_CLIENTS.toNat + 1)).map UInt16.ofNat

theorem ids_length : ids.length = MAXIMUM_CLIENTS.toNat + 1 := by
  rw [ids, List.length_map, List.length_range]

theorem toNat_ofNat_id {i : Nat} (h : i ∈ List.range (MAXIMUM_CLIENTS.toNat + 1)) :
    (UInt16.ofNat i).toNat = i :=
  UInt16.toNat_ofNat_of_lt' (Nat.lt_trans (List.mem_range.mp h) (by decide))

theorem mem_ids {id : UInt16} : id ∈ ids ↔ id ≤ MAXIMUM_CLIENTS := by
  rw [ids, List.mem_map]
  constructor
  · rintro ⟨i, hi, rfl⟩
    rw [UInt16.le_iff_toNat_le, toNat_ofNat_id hi]
    exact Nat.le_of_lt_succ (List.mem_range.mp hi)
  · intro h
    exact ⟨id.toNat, List.mem_range.mpr (Nat.lt_succ_of_le (UInt16.le_iff_toNat_le.mp h)),
      UInt16.ofNat_toNat⟩

theorem ids_pairwise_lt : ids.Pairwise (· < ·) := by
  rw [ids, List.pairwise_map]
  refine List.pairwise_lt_range.imp_of_mem fun hi hj h => ?_
  rw [UInt16.lt_iff_toNat_lt, toNat_ofNat_id hi, toNat_ofNat_id hj]
  exact h

theorem ids_nodup : ids.Nodup := ids_pairwise_lt.imp UInt16.ne_of_lt

theorem freeId_mem {d : Distribiutor} {id : UInt16} (h : d.freeId = some id) : id ∈ ids :=
  List.mem_of_find?_eq_some h

/-- Every smaller number is taken. -/
theorem freeId_least {d : Distribiutor} {id : UInt16} (h : d.freeId = some id) {j : UInt16}
    (hj : j < id) : (d.clientsId.lookup j).isSome := by
  obtain ⟨-, before, after, hids, hbefore⟩ := List.find?_eq_some_iff_append.mp h
  have hjle : j ≤ MAXIMUM_CLIENTS := UInt16.le_trans (UInt16.le_of_lt hj) (mem_ids.mp (freeId_mem h))
  have hmem : j ∈ before ++ id :: after := hids ▸ mem_ids.mpr hjle
  have hsorted : (before ++ id :: after).Pairwise (· < ·) := hids ▸ ids_pairwise_lt
  rcases List.mem_append.mp hmem with hb | hrest
  · simpa using hbefore j hb
  · exfalso
    rcases List.mem_cons.mp hrest with rfl | hafter
    · exact UInt16.lt_irrefl j hj
    · have hlt := (List.pairwise_cons.mp (List.pairwise_append.mp hsorted).2.1).1 j hafter
      exact UInt16.lt_irrefl j (UInt16.lt_trans hj hlt)

/-- No number is free when all of them are taken. -/
theorem freeId_eq_none {d : Distribiutor} :
    d.freeId = none ↔ ∀ id ∈ ids, (d.clientsId.lookup id).isSome := by
  refine List.find?_eq_none.trans (forall₂_congr fun id _ => ?_)
  rw [Bool.not_eq_true, Option.isNone_eq_false_iff]

/-- There is a free id while fewer than 256 are taken. -/
theorem freeId_isSome {d : Distribiutor} (h : d.clientsId.keys.length < 256) :
    ∃ id, d.freeId = some id := by
  cases hid : d.freeId with
  | some id => exact ⟨id, rfl⟩
  | none =>
    exfalso
    have hle := Table.length_le_keys ids_nodup (freeId_eq_none.mp hid)
    rw [ids_length] at hle
    exact absurd (Nat.lt_of_le_of_lt hle h) (by decide)

/-- What `insert` does: a fresh id for the client, under its address. -/
theorem insert_eq_ok {d d' : Distribiutor} {addr : SocketAddr} {tx : Nat} {c : MinecraftClient}
    (h : d.insert addr tx = .ok (c, d')) :
    c.tx = tx ∧ d.freeId = some c.id ∧
      (∀ a, d'.clientsAddr.lookup a = if a = addr then some c else d.clientsAddr.lookup a) ∧
      ∀ i, d'.clientsId.lookup i = if i = c.id then some addr else d.clientsId.lookup i := by
  unfold insert at h
  split at h
  · cases h
  · next id hid =>
    cases h
    exact ⟨rfl, hid, fun a => Table.lookup_insert .., fun i => Table.lookup_insert ..⟩

theorem removeByAddr_lookup (d : Distribiutor) (addr a : SocketAddr) :
    (d.removeByAddr addr).clientsAddr.lookup a
      = if a = addr then none else d.clientsAddr.lookup a := Table.lookup_erase ..

namespace Consistent

variable {d : Distribiutor}

/-- Ids of different addresses are different. -/
theorem addr_eq (hd : d.Consistent) {a a' : SocketAddr} {c c' : MinecraftClient}
    (h : d.clientsAddr.lookup a = some c) (h' : d.clientsAddr.lookup a' = some c')
    (hid : c.id = c'.id) : a = a' := by
  have h1 := hd.byAddr h
  rw [hid, hd.byAddr h'] at h1
  exact (Option.some.inj h1).symm

theorem getById_iff (hd : d.Consistent) {id : UInt16} {c : MinecraftClient} :
    d.getById id = some c ↔ ∃ a, d.clientsAddr.lookup a = some c ∧ c.id = id := by
  rw [getById, Option.bind_eq_some_iff]
  constructor
  · rintro ⟨a, ha, hc⟩
    obtain ⟨c', hc', hid⟩ := hd.byId ha
    cases hc.symm.trans hc'
    exact ⟨a, hc, hid⟩
  · rintro ⟨a, hc, rfl⟩
    exact ⟨a, hd.byAddr hc, hc⟩

theorem removeById_lookup (hd : d.Consistent) (id : UInt16) (a : SocketAddr) :
    (d.removeById id).clientsAddr.lookup a
      = (d.clientsAddr.lookup a).filter fun c => c.id ≠ id := by
  unfold removeById
  cases ha : d.clientsAddr.lookup a with
  | none =>
    cases hid : d.clientsId.lookup id with
    | none => exact ha
    | some addr =>
      simp only [Table.lookup_erase]
      split
      · rfl
      · exact ha
  | some c =>
    rw [Option.filter_some]
    by_cases hc : c.id = id
    · have hid := hd.byAddr ha
      rw [hc] at hid
      simp only [hid, Table.lookup_erase]
      simp [hc]
    · cases hid : d.clientsId.lookup id with
      | none => simpa [hc] using ha
      | some addr =>
        have hne : a ≠ addr := fun heq => by
          obtain ⟨c', hc', hid'⟩ := hd.byId hid
          subst heq
          cases ha.symm.trans hc'
          exact hc hid'
        simp only [Table.lookup_erase, if_neg hne]
        simpa [hc] using ha

theorem insert (hd : d.Consistent) {d' : Distribiutor} {addr : SocketAddr} {tx : Nat}
    {c : MinecraftClient} (h : d.insert addr tx = .ok (c, d'))
    (hfresh : d.clientsAddr.lookup addr = none) : d'.Consistent := by
  obtain ⟨-, hfreeId, haddr, hid⟩ := insert_eq_ok h
  have hfree := freeId_free hfreeId
  constructor
  · intro a c' ha
    rw [haddr] at ha
    rw [hid]
    split at ha
    · next heq => cases ha; rw [if_pos rfl, heq]
    · have hc' := hd.byAddr ha
      rw [if_neg (fun heq => by rw [heq, hfree] at hc'; cases hc')]
      exact hc'
  · intro i a hi
    rw [hid] at hi
    split at hi
    · next heq => cases hi; exact ⟨c, by rw [haddr, if_pos rfl], heq.symm⟩
    · obtain ⟨c', hc', hid'⟩ := hd.byId hi
      refine ⟨c', ?_, hid'⟩
      rw [haddr, if_neg (fun heq => by rw [heq, hfresh] at hc'; cases hc')]
      exact hc'

theorem removeByAddr (hd : d.Consistent) (addr : SocketAddr) : (d.removeByAddr addr).Consistent := by
  unfold Distribiutor.removeByAddr
  cases haddr : d.clientsAddr.lookup addr with
  | none =>
    constructor
    · intro a c ha
      simp only [Table.lookup_erase] at ha
      split at ha
      · cases ha
      · exact hd.byAddr ha
    · intro i a hi
      obtain ⟨c, hc, hid⟩ := hd.byId hi
      refine ⟨c, ?_, hid⟩
      simp only [Table.lookup_erase]
      rw [if_neg (fun heq => by rw [heq, haddr] at hc; cases hc)]
      exact hc
  | some c0 =>
    constructor
    · intro a c ha
      simp only [Table.lookup_erase] at ha ⊢
      split at ha
      · cases ha
      · next hne =>
        rw [if_neg (fun heq => hne (hd.addr_eq ha haddr heq))]
        exact hd.byAddr ha
    · intro i a hi
      simp only [Table.lookup_erase] at hi ⊢
      split at hi
      · cases hi
      · next hne =>
        obtain ⟨c, hc, hid⟩ := hd.byId hi
        refine ⟨c, ?_, hid⟩
        rw [if_neg (fun heq => by rw [heq, haddr] at hc; cases hc; exact hne hid.symm)]
        exact hc

theorem removeById (hd : d.Consistent) (id : UInt16) : (d.removeById id).Consistent := by
  constructor
  · intro a c ha
    rw [hd.removeById_lookup, Option.filter_eq_some_iff] at ha
    have hne : c.id ≠ id := by simpa using ha.2
    show (d.clientsId.erase id).lookup c.id = some a
    rw [Table.lookup_erase, if_neg hne]
    exact hd.byAddr ha.1
  · intro i a hi
    have hi' : (d.clientsId.erase id).lookup i = some a := hi
    rw [Table.lookup_erase] at hi'
    split at hi'
    · cases hi'
    · next hne =>
      obtain ⟨c, hc, rfl⟩ := hd.byId hi'
      exact ⟨c, by rw [hd.removeById_lookup, hc, Option.filter_some, if_pos (by simpa using hne)],
        rfl⟩

end Consistent

end Distribiutor

end CraftIp
