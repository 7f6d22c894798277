import CraftIp.Infra.Machine
import CraftIp.Server.ProxyHandler

/-!
# The tables of a session over any run of calls

`insert`, `remove_by_addr` and `remove_by_id` in any order, from the empty tables.

* `tables_inverse` — the two tables stay inverse to each other, and every call changes the
  entries of one client
* `limit_exact_iff` — the limit is exact as long as nobody joins with 254 clients there:
  the search goes through `0..=MAXIMUM_CLIENTS`, which is one number too many
-/

namespace CraftIp

open Infra

/-! ## Calls -/

/-- A call that may change the tables. -/
inductive DistribiutorCall
  | insert (addr : SocketAddr) (tx : Nat)
  | removeByAddr (addr : SocketAddr)
  | removeById (id : UInt16)
  deriving DecidableEq

namespace Distribiutor

/-- The tables after a call. `insert` is called for addresses only that are not there. -/
def call (self : Distribiutor) : DistribiutorCall → Option Distribiutor
  | .insert addr tx =>
    if (self.getByAddr addr).isNone then some ((insertBody addr tx).run.run self).2 else none
  | .removeByAddr addr => some (self.removeByAddr addr)
  | .removeById id => some (self.removeById id)

/-- What a call can do. -/
inductive Call (d : Distribiutor) : DistribiutorCall → Distribiutor → Prop
  | insert {addr tx c d'} (hfresh : d.clientsAddr.lookup addr = none)
      (hi : d.insert addr tx = .ok (c, d')) : Call d (.insert addr tx) d'
  | full {addr tx} (hfresh : d.clientsAddr.lookup addr = none) (hf : d.freeId = none) :
      Call d (.insert addr tx) d
  | removeByAddr {addr} : Call d (.removeByAddr addr) (d.removeByAddr addr)
  | removeById {id} : Call d (.removeById id) (d.removeById id)

theorem call_cases {d d' : Distribiutor} {c : DistribiutorCall} (h : d.call c = some d') :
    Call d c d' := by
  cases c with
  | insert addr tx =>
    simp only [call, insertBody_run] at h
    split at h
    · next hfresh =>
      have hnone : d.clientsAddr.lookup addr = none := Option.isNone_iff_eq_none.mp hfresh
      cases hi : d.insert addr tx with
      | ok v => rw [hi] at h; cases h; exact .insert hnone hi
      | error e => rw [hi] at h; cases h; exact .full hnone (insert_eq_error.mp hi).1
    · cases h
  | removeByAddr addr => cases h; exact .removeByAddr
  | removeById id => cases h; exact .removeById

end Distribiutor

/-- The tables on their own. -/
def distribiutorMachine : Machine Distribiutor DistribiutorCall where
  init := .new
  step := Distribiutor.call

namespace Distribiutor

theorem step_insert {d d' : Distribiutor} {addr : SocketAddr} {tx : Nat} {c : MinecraftClient}
    (hfresh : d.clientsAddr.lookup addr = none) (hi : d.insert addr tx = .ok (c, d')) :
    distribiutorMachine.step d (.insert addr tx) = some d' := by
  simp only [distribiutorMachine, call, insertBody_run, getByAddr, hfresh, hi, Option.isNone_none,
    if_true]

theorem Consistent.call {d d' : Distribiutor} {c : DistribiutorCall} (hd : d.Consistent)
    (h : Call d c d') : d'.Consistent := by
  cases h with
  | insert hfresh hi => exact hd.insert hi hfresh
  | full => exact hd
  | removeByAddr => exact hd.removeByAddr _
  | removeById => exact hd.removeById _

theorem consistent_of_reachable {d : Distribiutor} (h : distribiutorMachine.Reachable d) :
    d.Consistent :=
  h.invariant consistent_new fun _ _ _ hd hc => hd.call (call_cases hc)

/-! ## The tables are inverse -/

/-- The smallest number that is not in use. -/
def Smallest (d : Distribiutor) (id : UInt16) : Prop :=
  d.clientsId.lookup id = none ∧ ∀ j < id, (d.clientsId.lookup j).isSome

/-- `d'` has the client `c` of `addr`, and is like `d` otherwise. -/
structure Adds (d d' : Distribiutor) (addr : SocketAddr) (c : MinecraftClient) : Prop where
  addrs : ∀ a, d'.clientsAddr.lookup a = if a = addr then some c else d.clientsAddr.lookup a
  ids : ∀ i, d'.clientsId.lookup i = if i = c.id then some addr else d.clientsId.lookup i

/-- `d'` has no client at `addr` and none with the number `id`, and is like `d` otherwise. -/
structure Erases (d d' : Distribiutor) (addr : SocketAddr) (id : UInt16) : Prop where
  addrs : ∀ a, d'.clientsAddr.lookup a = if a = addr then none else d.clientsAddr.lookup a
  ids : ∀ i, d'.clientsId.lookup i = if i = id then none else d.clientsId.lookup i

/-- The tables are inverse to each other, and every call changes the entries of one client. -/
structure Inverse (d : Distribiutor) : Prop where
  inverse : ∀ id addr, d.clientsId.lookup id = some addr ↔
    ∃ c, d.clientsAddr.lookup addr = some c ∧ c.id = id
  agree : ∀ id c, d.getById id = some c ↔ ∃ addr, d.getByAddr addr = some c ∧ c.id = id
  distinct : ∀ a a' c c', d.getByAddr a = some c → d.getByAddr a' = some c' → c.id = c'.id → a = a'
  insertOk : ∀ addr tx c d', d.getByAddr addr = none →
    (insertBody addr tx).run.run d = (.ok c, d') → c.tx = tx ∧ d.Smallest c.id ∧ d.Adds d' addr c
  insertError : ∀ addr tx e d', (insertBody addr tx).run.run d = (.error e, d') → d' = d
  removeByAddr : ∀ addr c, d.getByAddr addr = some c → d.Erases (d.removeByAddr addr) addr c.id
  removeByAddrNone : ∀ addr, d.getByAddr addr = none → d.removeByAddr addr = d
  removeById : ∀ addr c, d.getByAddr addr = some c → d.Erases (d.removeById c.id) addr c.id
  removeByIdNone : ∀ id, d.getById id = none → d.removeById id = d

namespace Consistent

variable {d : Distribiutor}

theorem lookup_iff (hd : d.Consistent) {id : UInt16} {addr : SocketAddr} :
    d.clientsId.lookup id = some addr ↔ ∃ c, d.clientsAddr.lookup addr = some c ∧ c.id = id := by
  constructor
  · exact hd.byId
  · rintro ⟨c, hc, rfl⟩
    exact hd.byAddr hc

theorem removeByAddr_erases {addr : SocketAddr} {c : MinecraftClient}
    (hc : d.getByAddr addr = some c) : d.Erases (d.removeByAddr addr) addr c.id where
  addrs a := removeByAddr_lookup d addr a
  ids i := by
    have hlookup : d.clientsAddr.lookup addr = some c := hc
    simp only [Distribiutor.removeByAddr, hlookup, Table.lookup_erase]

theorem removeByAddr_none {addr : SocketAddr} (hc : d.getByAddr addr = none) :
    d.removeByAddr addr = d := by
  have hlookup : d.clientsAddr.lookup addr = none := hc
  simp only [Distribiutor.removeByAddr, hlookup, Table.erase_eq_self]

theorem removeById_erases (hd : d.Consistent) {addr : SocketAddr} {c : MinecraftClient}
    (hc : d.getByAddr addr = some c) : d.Erases (d.removeById c.id) addr c.id where
  addrs a := by simp only [Distribiutor.removeById, hd.byAddr hc, Table.lookup_erase]
  ids i := Table.lookup_erase ..

theorem removeById_none (hd : d.Consistent) {id : UInt16} (hc : d.getById id = none) :
    d.removeById id = d := by
  have hid : d.clientsId.lookup id = none := by
    refine Option.eq_none_iff_forall_ne_some.mpr ?_
    intro addr ha
    obtain ⟨c, hc', rfl⟩ := hd.byId ha
    rw [hd.getById_iff.mpr ⟨addr, hc', rfl⟩] at hc
    cases hc
  simp only [Distribiutor.removeById, hid, Table.erase_eq_self]

theorem inverse (hd : d.Consistent) : d.Inverse where
  inverse _ _ := hd.lookup_iff
  agree _ _ := hd.getById_iff
  distinct _ _ _ _ := hd.addr_eq
  insertOk addr tx c d' _ h := by
    rw [insertBody_run] at h
    cases hi : d.insert addr tx with
    | error e => rw [hi] at h; cases h
    | ok v =>
      rw [hi] at h
      cases h
      obtain ⟨htx, hid, haddr, hids⟩ := insert_eq_ok hi
      exact ⟨htx, ⟨freeId_free hid, fun j => freeId_least hid⟩, haddr, hids⟩
  insertError addr tx e d' h := by
    rw [insertBody_run] at h
    cases hi : d.insert addr tx with
    | error e => rw [hi] at h; cases h; rfl
    | ok v => rw [hi] at h; cases h
  removeByAddr _ _ hc := removeByAddr_erases hc
  removeByAddrNone _ hc := removeByAddr_none hc
  removeById _ _ hc := hd.removeById_erases hc
  removeByIdNone _ hc := hd.removeById_none hc

end Consistent

/-- **After any run of calls the tables are inverse to each other.** -/
theorem tables_inverse {d : Distribiutor} (h : distribiutorMachine.Reachable d) : d.Inverse :=
  (consistent_of_reachable h).inverse

/-- A number is used again: three joins, a removal by number, a removal by address. -/
def reuse : List DistribiutorCall :=
  [.insert (.V4 1 25565) 0, .insert (.V4 2 25565) 1, .removeById 0, .removeByAddr (.V4 3 25565),
    .insert (.V4 3 25565) 2]

theorem tables_inverse_reuse : ∃ d, distribiutorMachine.run .new reuse = some d ∧ d.Inverse ∧
    d.getById 0 = some ⟨2, 0⟩ ∧ d.getByAddr (.V4 2 25565) = some ⟨1, 1⟩ :=
  ⟨_, rfl, tables_inverse ⟨reuse, rfl⟩, rfl, rfl⟩

/-! ## How many clients there are -/

/-- The Minecraft clients that are registered. -/
def registered (d : Distribiutor) : Nat := d.clientsAddr.keys.length

/-- `TooManyClients` stands for `MAXIMUM_CLIENTS` clients, and there are never more. -/
structure LimitExact (d : Distribiutor) : Prop where
  atMost : d.registered ≤ MAXIMUM_CLIENTS.toNat
  full : ∀ addr tx, d.getByAddr addr = none →
    (d.insert addr tx = .error .TooManyClients ↔ d.registered = MAXIMUM_CLIENTS.toNat)

theorem Consistent.registered_eq {d : Distribiutor} (hd : d.Consistent) :
    d.registered = d.clientsId.keys.length := by
  refine Nat.le_antisymm ?_ ?_
  · exact Table.keys_length_le_keys (fun _ addr => addr) fun h => ⟨_, _, hd.byAddr h, rfl⟩
  · refine Table.keys_length_le_keys (fun _ c => c.id) fun h => ?_
    obtain ⟨c, hc, hid⟩ := hd.byId h
    exact ⟨_, c, hc, hid⟩

/-- All ids are numbers that `insert` looks at. -/
def Numbered (d : Distribiutor) : Prop := ∀ id addr, d.clientsId.lookup id = some addr → id ∈ ids

theorem Numbered.call {d d' : Distribiutor} {c : DistribiutorCall} (hd : d.Numbered)
    (h : Call d c d') : d'.Numbered := by
  intro id addr hid
  cases h with
  | insert hfresh hi =>
    obtain ⟨-, hfree, -, hids⟩ := insert_eq_ok hi
    rw [hids] at hid
    split at hid
    · next heq => rw [heq]; exact freeId_mem hfree
    · exact hd _ _ hid
  | full => exact hd _ _ hid
  | @removeByAddr addr' =>
    unfold Distribiutor.removeByAddr at hid
    cases hc : d.clientsAddr.lookup addr' with
    | none => simp only [hc] at hid; exact hd _ _ hid
    | some c =>
      simp only [hc, Table.lookup_erase] at hid
      split at hid
      · cases hid
      · exact hd _ _ hid
  | @removeById id' =>
    have hlookup : (d.clientsId.erase id').lookup id = some addr := hid
    rw [Table.lookup_erase] at hlookup
    split at hlookup
    · cases hlookup
    · exact hd _ _ hlookup

theorem numbered_of_reachable {d : Distribiutor} (h : distribiutorMachine.Reachable d) :
    d.Numbered :=
  h.invariant (I := Numbered) (fun _ _ hid => by cases hid)
    fun _ _ _ hd hc => hd.call (call_cases hc)

theorem registered_le {d : Distribiutor} (hd : d.Consistent) (hn : d.Numbered) :
    d.registered ≤ MAXIMUM_CLIENTS.toNat + 1 := by
  rw [hd.registered_eq, ← ids_length]
  exact Table.keys_length_le fun hid => hn _ _ hid

/-- `insert` fails when all 256 numbers are taken. -/
theorem freeId_eq_none_iff_registered {d : Distribiutor} (hd : d.Consistent) (hn : d.Numbered) :
    d.freeId = none ↔ d.registered = MAXIMUM_CLIENTS.toNat + 1 := by
  have hle := registered_le hd hn
  rw [hd.registered_eq, ← ids_length] at hle ⊢
  constructor
  · intro hnone
    exact Nat.le_antisymm hle (Table.length_le_keys ids_nodup (freeId_eq_none.mp hnone))
  · intro hlen
    refine Option.eq_none_iff_forall_ne_some.mpr ?_
    intro id hid
    -- the free number is one that is not taken
    have hle : d.clientsId.keys.length ≤ (ids.erase id).length := by
      refine Table.keys_length_le fun {j addr} hj => (List.mem_erase_of_ne ?_).mpr (hn _ _ hj)
      intro heq
      rw [heq, freeId_free hid] at hj
      cases hj
    have hmem := freeId_mem hid
    have hpos := List.length_pos_of_mem hmem
    rw [List.length_erase_of_mem hmem] at hle
    omega

theorem registered_insert {d d' : Distribiutor} {addr : SocketAddr} {tx : Nat} {c : MinecraftClient}
    (hfresh : d.clientsAddr.lookup addr = none) (h : d.insert addr tx = .ok (c, d')) :
    d'.registered = d.registered + 1 := by
  unfold insert at h
  split at h
  · cases h
  · cases h
    exact Table.keys_length_insert _ hfresh

theorem registered_removeByAddr_le (d : Distribiutor) (addr : SocketAddr) :
    (d.removeByAddr addr).registered ≤ d.registered :=
  Table.keys_length_erase_le _ _

theorem registered_removeById_le (d : Distribiutor) (id : UInt16) :
    (d.removeById id).registered ≤ d.registered := by
  unfold registered removeById
  cases d.clientsId.lookup id with
  | none => exact Nat.le_refl _
  | some addr => exact Table.keys_length_erase_le _ _

/-! ## Guests -/

/-- Addresses that differ, as many as there are. -/
def guest (i : Nat) : SocketAddr := .V4 (BitVec.ofNat 32 i) 25565

theorem guest_inj {i j : Nat} (hi : i < 2 ^ 32) (hj : j < 2 ^ 32) (h : guest i = guest j) :
    i = j := by
  have hval := congrArg BitVec.toNat (SocketAddr.V4.inj h).1
  rwa [BitVec.toNat_ofNat, BitVec.toNat_ofNat, Nat.mod_eq_of_lt hi, Nat.mod_eq_of_lt hj] at hval

theorem exists_fresh {d : Distribiutor} (h : d.registered < 2 ^ 32) :
    ∃ addr, d.clientsAddr.lookup addr = none := by
  have hnodup : ((List.range (d.registered + 1)).map guest).Nodup := by
    refine List.Nodup.map_on ?_ List.nodup_range
    intro i hi j hj heq
    rw [List.mem_range] at hi hj
    exact guest_inj (by omega) (by omega) heq
  obtain ⟨addr, -, haddr⟩ := Table.exists_lookup_eq_none (t := d.clientsAddr) hnodup (by
    rw [List.length_map, List.length_range]
    exact Nat.lt_succ_self _)
  exact ⟨addr, haddr⟩

/-! ## The limit -/

theorem limitExact_iff_lt {d : Distribiutor} (hd : d.Consistent) (hn : d.Numbered) :
    d.LimitExact ↔ d.registered < MAXIMUM_CLIENTS.toNat := by
  have hfull := freeId_eq_none_iff_registered hd hn
  have hmax : MAXIMUM_CLIENTS.toNat = 255 := rfl
  constructor
  · intro h
    refine Nat.lt_of_le_of_ne h.atMost ?_
    intro heq
    -- with 255 clients there is still a number for the next one
    obtain ⟨addr, haddr⟩ := exists_fresh (d := d) (by omega)
    have herr := (h.full addr 0 haddr).mpr heq
    have hlast := hfull.mp (insert_eq_error.mp herr).1
    omega
  · intro hlt
    refine ⟨Nat.le_of_lt hlt, fun addr tx _ => ⟨?_, fun heq => by omega⟩⟩
    intro herr
    have hlast := hfull.mp (insert_eq_error.mp herr).1
    omega

/-- An insert finds at most 253 clients. -/
def Roomy (d : Distribiutor) : DistribiutorCall → Prop
  | .insert _ _ => d.registered + 1 < MAXIMUM_CLIENTS.toNat
  | _ => True

instance (d : Distribiutor) (c : DistribiutorCall) : Decidable (Roomy d c) := by
  cases c <;> unfold Roomy <;> infer_instance

/-- What holds as long as every insert finds room. -/
structure WithinLimit (d : Distribiutor) : Prop where
  consistent : d.Consistent
  numbered : d.Numbered
  below : d.registered < MAXIMUM_CLIENTS.toNat

theorem WithinLimit.call {d d' : Distribiutor} {c : DistribiutorCall} (hd : d.WithinLimit)
    (hroom : Roomy d c) (h : Call d c d') : d'.WithinLimit := by
  refine ⟨hd.consistent.call h, hd.numbered.call h, ?_⟩
  cases h with
  | insert hfresh hi => rw [registered_insert hfresh hi]; exact hroom
  | full => exact hd.below
  | removeByAddr => exact Nat.lt_of_le_of_lt (registered_removeByAddr_le d _) hd.below
  | removeById => exact Nat.lt_of_le_of_lt (registered_removeById_le d _) hd.below

theorem WithinLimit.not_limitExact {d d' : Distribiutor} {c : DistribiutorCall} (hd : d.WithinLimit)
    (hroom : ¬Roomy d c) (h : Call d c d') : ¬d'.LimitExact := by
  rw [limitExact_iff_lt (hd.consistent.call h) (hd.numbered.call h)]
  cases h with
  | insert hfresh hi => rw [registered_insert hfresh hi]; exact hroom
  | full hfresh hf =>
    have hlast := (freeId_eq_none_iff_registered hd.consistent hd.numbered).mp hf
    have hbelow := hd.below
    omega
  | removeByAddr => exact absurd trivial hroom
  | removeById => exact absurd trivial hroom

/-- **The limit is exact in every state of a run exactly when every insert finds room.** -/
theorem limit_exact_iff {cs : List DistribiutorCall} {d : Distribiutor}
    (h : distribiutorMachine.run .new cs = some d) :
    distribiutorMachine.Always LimitExact .new cs ↔
      (distribiutorMachine.restrict Roomy).run .new cs = some d := by
  refine Machine.always_iff (I := WithinLimit) ?_ ?_ ?_ cs ?_ h
  · intro d hd
    exact (limitExact_iff_lt hd.consistent hd.numbered).mpr hd.below
  · exact fun _ _ _ hd hroom hc => hd.call hroom (call_cases hc)
  · exact fun _ _ _ hd hroom hc => hd.not_limitExact hroom (call_cases hc)
  · exact ⟨consistent_new, numbered_of_reachable (.init _), by decide⟩

theorem limit_exact_reuse : ∃ d, distribiutorMachine.run .new reuse = some d ∧
    distribiutorMachine.Always LimitExact .new reuse :=
  ⟨_, rfl, (limit_exact_iff rfl).mpr rfl⟩

/-! ### A crowd -/

/-- The clients are the first `n` guests. -/
structure Hosts (d : Distribiutor) (n : Nat) : Prop where
  registered : d.registered = n
  guests : ∀ {addr c}, d.clientsAddr.lookup addr = some c → ∃ i < n, addr = guest i

theorem hosts_new : new.Hosts 0 where
  registered := rfl
  guests h := by cases h

theorem Hosts.fresh {d : Distribiutor} {n : Nat} (h : d.Hosts n) (hn : n < 2 ^ 32) :
    d.clientsAddr.lookup (guest n) = none := by
  refine Option.eq_none_iff_forall_ne_some.mpr ?_
  intro c hc
  obtain ⟨i, hi, heq⟩ := h.guests hc
  exact Nat.ne_of_gt hi (guest_inj (by omega) (by omega) heq)

/-- While there is a number left, the next guest gets it. -/
theorem Hosts.insert {d : Distribiutor} {n : Nat} (h : d.Hosts n)
    (hd : distribiutorMachine.Reachable d) (hn : n ≤ MAXIMUM_CLIENTS.toNat) (tx : Nat) :
    ∃ c d', d.clientsAddr.lookup (guest n) = none ∧ d.insert (guest n) tx = .ok (c, d') ∧
      d'.Hosts (n + 1) := by
  have hmax : MAXIMUM_CLIENTS.toNat = 255 := rfl
  have hfresh := h.fresh (by omega)
  cases hi : d.insert (guest n) tx with
  | error e =>
    have hlast := (freeId_eq_none_iff_registered (consistent_of_reachable hd)
      (numbered_of_reachable hd)).mp (insert_eq_error.mp hi).1
    rw [h.registered] at hlast
    omega
  | ok v =>
    obtain ⟨c, d'⟩ := v
    obtain ⟨-, -, haddr, -⟩ := insert_eq_ok hi
    refine ⟨c, d', hfresh, rfl, by rw [registered_insert hfresh hi, h.registered], ?_⟩
    intro addr c' hc'
    rw [haddr] at hc'
    split at hc'
    · next heq => exact ⟨n, Nat.lt_succ_self n, heq⟩
    · obtain ⟨i, hi, heq⟩ := h.guests hc'
      exact ⟨i, Nat.lt_succ_of_lt hi, heq⟩

/-- `n` guests join. -/
def crowd (n : Nat) : List DistribiutorCall := (List.range n).map fun i => .insert (guest i) i

/-- The first 256 guests all get in. -/
theorem run_crowd {n : Nat} (hn : n ≤ MAXIMUM_CLIENTS.toNat + 1) :
    ∃ d, distribiutorMachine.run .new (crowd n) = some d ∧ d.Hosts n := by
  induction n with
  | zero => exact ⟨.new, rfl, hosts_new⟩
  | succ n ih =>
    obtain ⟨d, hd, hosts⟩ := ih (Nat.le_of_succ_le hn)
    obtain ⟨c, d', hfresh, hi, hosts'⟩ := hosts.insert ⟨crowd n, hd⟩ (Nat.le_of_succ_le_succ hn) n
    refine ⟨d', ?_, hosts'⟩
    rw [crowd, List.range_succ, List.map_append, List.map_singleton, Machine.run_snoc]
    show (distribiutorMachine.run .new (crowd n)).bind _ = _
    rw [hd, Option.bind_some, step_insert hfresh hi]

/-- **256 clients are let in**, one more than `MAXIMUM_CLIENTS`. -/
theorem limit_not_exact : ∃ d, distribiutorMachine.run .new (crowd 256) = some d ∧
    d.registered = 256 ∧ ¬d.LimitExact := by
  obtain ⟨d, hd, hosts⟩ := run_crowd (n := 256) (by decide)
  refine ⟨d, hd, hosts.registered, ?_⟩
  intro h
  have hle := h.atMost
  rw [hosts.registered] at hle
  exact absurd hle (by decide)

end Distribiutor

end CraftIp
