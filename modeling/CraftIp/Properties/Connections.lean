import CraftIp.Client.ConnectionHandler
import CraftIp.Infra.Path

/-!
# What holds in every proxy client

The table of the client names a connection under an id only if the last `ProxyJoin` of that
id spawned it. A connection that was told to end by the closing of its channel is in the
table no more, and has taken everything out of its channel.
-/

namespace CraftIp

open Infra

namespace Client

structure Inv (c : Client) : Prop where
  entry : ∀ {i k}, c.state.connections.lookup i = some k → newest c.joins i = some k
  spawned : ∀ {k l}, c.spawned.lookup k = some l → (k, l.clientId) ∈ c.joins
  joined : ∀ {k i}, (k, i) ∈ c.joins → ∃ l, c.spawned.lookup k = some l
  closed : ∀ {k l}, c.spawned.lookup k = some l → l.needForClose = false →
    l.clientRx = [] ∧ ∀ i, c.state.connections.lookup i ≠ some k

theorem inv_new : new.Inv where
  entry h := by cases h
  spawned h := by cases h
  joined h := by cases h
  closed h := by cases h

theorem spawned_modify (c : Client) (k j : Nat) (f : ClientConnection → ClientConnection) :
    (c.modify k f).spawned.lookup j =
      if j = k then (c.spawned.lookup j).map f else c.spawned.lookup j := by
  unfold modify
  dsimp only
  split
  · next l hk =>
    rw [Table.lookup_insert]
    split
    · next h => rw [h, hk]; rfl
    · rfl
  · next hk =>
    split
    · next h => rw [h, hk]; rfl
    · rfl

/-- The connections after a change of one of them. -/
theorem spawned_modify_some {c : Client} {k j : Nat} {l l' : ClientConnection}
    {f : ClientConnection → ClientConnection} (hl : c.spawned.lookup k = some l)
    (h : (c.modify k f).spawned.lookup j = some l') :
    j = k ∧ l' = f l ∨ j ≠ k ∧ c.spawned.lookup j = some l' := by
  rw [spawned_modify] at h
  split at h
  · next heq =>
    subst heq
    rw [hl] at h
    cases h
    exact Or.inl ⟨rfl, rfl⟩
  · next hne => exact Or.inr ⟨hne, h⟩

/-- Connection `k` is changed. -/
theorem Inv.modify {c : Client} (h : c.Inv) {k : Nat} {l : ClientConnection}
    {f : ClientConnection → ClientConnection} (hl : c.spawned.lookup k = some l)
    (hid : (f l).clientId = l.clientId)
    (hclosed : (f l).needForClose = false →
      (f l).clientRx = [] ∧ ∀ i, c.state.connections.lookup i ≠ some k) : (c.modify k f).Inv where
  entry := h.entry
  spawned hj := by
    rcases spawned_modify_some hl hj with ⟨rfl, rfl⟩ | ⟨-, hj⟩
    · rw [hid]
      exact h.spawned hl
    · exact h.spawned hj
  joined hj := by
    rw [spawned_modify]
    obtain ⟨lj, hlj⟩ := h.joined hj
    rw [hlj]
    split
    · exact ⟨_, rfl⟩
    · exact ⟨_, rfl⟩
  closed hj hn := by
    rcases spawned_modify_some hl hj with ⟨rfl, rfl⟩ | ⟨-, hj⟩
    · exact hclosed hn
    · exact h.closed hj hn

/-- Connection `k` goes on, and its channel is as empty as before. -/
theorem Inv.goOn {c : Client} (h : c.Inv) {k : Nat} {l : ClientConnection}
    {f : ClientConnection → ClientConnection} (hl : c.spawned.lookup k = some l)
    (hid : (f l).clientId = l.clientId) (hn : (f l).needForClose = l.needForClose)
    (hx : l.clientRx = [] → (f l).clientRx = []) : (c.modify k f).Inv :=
  h.modify hl hid fun hn' =>
    ⟨hx (h.closed hl (hn ▸ hn')).1, (h.closed hl (hn ▸ hn')).2⟩

/-- A table with fewer entries, and another queue. -/
theorem Inv.shrink {c c' : Client} (h : c.Inv) (hspawned : c'.spawned = c.spawned)
    (hjoins : c'.joins = c.joins)
    (hsub : ∀ {i k}, c'.state.connections.lookup i = some k → c.state.connections.lookup i = some k) :
    c'.Inv where
  entry hi := hjoins ▸ h.entry (hsub hi)
  spawned hk := hjoins ▸ h.spawned (hspawned ▸ hk)
  joined hk := hspawned ▸ h.joined (hjoins ▸ hk)
  closed hk hn :=
    ⟨(h.closed (hspawned ▸ hk) hn).1, fun i hi => (h.closed (hspawned ▸ hk) hn).2 i (hsub hi)⟩

theorem erase_sub {t : Table UInt16 Nat} {id i : UInt16} {k : Nat}
    (h : (t.erase id).lookup i = some k) : t.lookup i = some k := by
  rw [Table.lookup_erase] at h
  split at h
  · cases h
  · exact h

theorem Inv.finish {c : Client} (h : c.Inv) (result : Ended) : (c.finish result).Inv :=
  h.shrink rfl rfl fun hi => by cases hi

theorem Inv.join {c : Client} (h : c.Inv) (k : Nat) (id : UInt16) :
    Inv { c with
      state := c.state.addConnection id k, spawned := c.spawned.insert k (.new id),
      joins := (k, id) :: c.joins, freed := c.freed.filter (· ≠ id) } where
  entry {i j} hi := by
    rw [State.addConnection_connections, Table.lookup_insert] at hi
    rw [newest_cons]
    split at hi
    · next heq => rw [if_pos heq.symm]; exact hi
    · next hne => rw [if_neg (Ne.symm hne)]; exact h.entry hi
  spawned {j l} hj := by
    rw [Table.lookup_insert] at hj
    split at hj
    · next heq => cases hj; rw [heq]; exact List.mem_cons_self
    · exact .tail _ (h.spawned hj)
  joined {j i} hj := by
    rw [Table.lookup_insert]
    split
    · exact ⟨_, rfl⟩
    · next hne =>
      rcases List.mem_cons.mp hj with heq | hj
      · cases heq
        exact absurd rfl hne
      · exact h.joined hj
  closed {j l} hj hn := by
    rw [Table.lookup_insert] at hj
    split at hj
    · cases hj
      cases hn
    · next hne =>
      refine ⟨(h.closed hj hn).1, ?_⟩
      intro i hi
      rw [State.addConnection_connections, Table.lookup_insert] at hi
      split at hi
      · cases hi
        exact hne rfl
      · exact (h.closed hj hn).2 i hi

theorem not_entry_of_noSender {c : Client} {k : Nat} (hs : c.hasSender k = false) (i : UInt16) :
    c.state.connections.lookup i ≠ some k := by
  intro hi
  have hany := List.any_eq_false.mp hs _ (AList.mem_lookup_iff.mp hi)
  rw [decide_eq_true_eq] at hany
  exact hany rfl

/-- **Every step keeps the invariant.** -/
theorem Inv.step {c c' : Client} {e : ClientEvent} {out : List (Nat × SocketPacket)} (h : c.Inv)
    (hs : Step c e c' out) : c'.Inv := by
  cases hs with
  | connected hl hp => exact h.goOn hl rfl rfl id
  | failed hl hp hr =>
    exact (h.goOn hl rfl rfl id).shrink rfl rfl id
  | failedClosed hl hp hr => exact h.goOn hl rfl rfl id
  | take hl hp hx =>
    refine h.modify hl rfl ?_
    intro hn
    have hrx := (h.closed hl hn).1
    rw [hx] at hrx
    cases hrx
  | takeClosed hl hp hx hs => exact h.modify hl rfl fun _ => ⟨hx, not_entry_of_noSender hs⟩
  | read hl hp hd hr => exact h.shrink rfl rfl id
  | readClosed hl hp hr => exact h.modify hl rfl fun hn => by cases hn
  | stop hl hp => exact h.modify hl rfl fun hn => by cases hn
  | drop hl hp hn hr =>
    exact (h.goOn hl rfl rfl id).shrink rfl rfl id
  | dropSilent hl hp hn => exact h.goOn hl rfl rfl id
  | close hl hp => exact h.goOn hl rfl rfl fun _ => rfl
  | forward hr hq => exact h.shrink rfl rfl id
  | remove hr hq hc => exact h.shrink rfl rfl erase_sub
  | removeNone hr hq hc => exact h.shrink rfl rfl erase_sub
  | death hr hq => exact h.finish _
  | join hr => exact h.join _ _
  | @deliver k d tx millis hr hc ho =>
    obtain ⟨l, hl⟩ := h.joined (newest_mem (h.entry hc))
    refine h.modify hl rfl ?_
    intro hn
    exact absurd hc ((h.closed hl hn).2 d.clientId)
  | lost hr hc ho => exact h.shrink rfl rfl erase_sub
  | unknown hr hc => exact h.finish _
  | disconnected hr => exact h.shrink rfl rfl erase_sub
  | pong hr => exact h.shrink rfl rfl id
  | unimplemented hr hp => exact h.finish _
  | ping hr => exact h
  | disconnect hr => exact h.finish _
  | broken hr => exact h.finish _

end Client

end CraftIp
