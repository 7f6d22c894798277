import CraftIp.Properties.Connections
import CraftIp.Properties.Session
import CraftIp.Tunnel

/-!
# What holds in every tunnel

An id is handed out by the session and read by the client, with packets in between. Read
along the packets in flight, the last `ProxyJoin` of an id says whose data the packets
behind it carry. So the client never mistakes the data of one Minecraft client for that of
another, although ids are used again.

* `Tunnel.reachable_inv` — the invariant holds in every reachable state
-/

namespace CraftIp

open Infra

namespace Tunnel

/-! ## Notions -/

/-- The joins among some packets, the oldest first. -/
def joinsOf (packets : List (Nat × SocketPacket)) : List (Nat × UInt16) :=
  packets.filterMap fun
    | (k, .ProxyJoin id) => some (k, id)
    | _ => none

/-- What a packet means for whose connection has the id `i`. Data is from that client. -/
def Carries (i : UInt16) (o : Option Nat) (e : Nat × SocketPacket) (o' : Option Nat) : Prop :=
  match e.2 with
  | .ProxyJoin id => o' = if id = i then some e.1 else o
  | .ProxyData d => o' = o ∧ (d.clientId = i → o = some e.1)
  | _ => o' = o

structure Inv (t : Tunnel) : Prop where
  server : t.server.Inv
  client : t.client.Inv
  joins : t.server.joined = (joinsOf t.toClient).reverse ++ t.client.joins
  carries : ∀ i, Path (Carries i) (newest t.client.joins i) t.toClient (newest t.server.joined i)

theorem inv_new : new.Inv where
  server := Session.inv_new
  client := Client.inv_new
  joins := rfl
  carries _ := .nil none

theorem joinsOf_append (p q : List (Nat × SocketPacket)) :
    joinsOf (p ++ q) = joinsOf p ++ joinsOf q := List.filterMap_append

/-! ## The session -/

/-- What the session sends agrees with the ids it hands out. -/
theorem session_out {s s' : Session} {e : SessionEvent} {out : List (Nat × SocketPacket)}
    (h : s.Inv) (hs : Session.Step s e s' out) :
    s'.joined = (joinsOf out).reverse ++ s.joined ∧
      ∀ i, Path (Carries i) (newest s.joined i) out (newest s'.joined i) := by
  cases hs with
  | @add k addr tx queue c d hr hq hi =>
    refine ⟨rfl, fun i => .cons ?_ (.nil _)⟩
    show newest ((k, c.id) :: s.joined) i = _
    rw [newest_cons]
  | @forward k addr pkg queue c hr hq hc =>
    refine ⟨rfl, fun i => .cons ⟨rfl, ?_⟩ (.nil _)⟩
    intro hi
    have hown := h.owner_of_packet hr hq
    rw [Session.owner, hc] at hown
    rcases hown with hown | ⟨hown, -⟩
    · rw [← hi, ← hown]
      exact (h.entry hc).1
    · cases hown
  | @remove k addr queue hr hq =>
    cases hc : s.distributor.clientsAddr.lookup addr with
    | none => exact ⟨rfl, fun i => .nil _⟩
    | some c => exact ⟨rfl, fun i => .cons rfl (.nil _)⟩
  | pong hr => exact ⟨rfl, fun i => .cons rfl (.nil _)⟩
  | _ => exact ⟨rfl, fun i => .nil _⟩

/-! ## The client -/

/-- The client joins what it is told to join, and answers nothing. -/
theorem client_joins {c c' : Client} {k millis : Nat} {p : SocketPacket}
    {out : List (Nat × SocketPacket)} (hs : Client.Step c (.packet k p millis) c' out) :
    out = [] ∧ c'.joins = joinsOf [(k, p)] ++ c.joins := by
  cases hs with
  | join hr => exact ⟨rfl, rfl⟩
  | deliver hr hc ho => exact ⟨rfl, rfl⟩
  | lost hr hc ho => exact ⟨rfl, rfl⟩
  | unknown hr hc => exact ⟨rfl, rfl⟩
  | disconnected hr => exact ⟨rfl, rfl⟩
  | pong hr => exact ⟨rfl, rfl⟩
  | unimplemented hr hp => cases p <;> first | exact ⟨rfl, rfl⟩ | cases hp

theorem client_joins_eq {c c' : Client} {e : ClientEvent} {out : List (Nat × SocketPacket)}
    (he : ∀ k packet millis, e ≠ .packet k packet millis) (hs : Client.Step c e c' out) :
    c'.joins = c.joins := by
  cases hs with
  | join hr => exact absurd rfl (he _ _ _)
  | _ => rfl

/-- The first packet in flight names the client that the proxy client will know by the id. -/
theorem carries_head {i : UInt16} {k : Nat} {p : SocketPacket} {joins : List (Nat × UInt16)}
    {o : Option Nat} (h : Carries i (newest joins i) (k, p) o) :
    o = newest (joinsOf [(k, p)] ++ joins) i := by
  cases p with
  | ProxyJoin id =>
    show o = newest ((k, id) :: joins) i
    rw [newest_cons]
    exact h
  | ProxyData d => exact h.1
  | _ => exact h

/-! ## Every step -/

theorem Inv.session {t : Tunnel} (h : t.Inv) {e : SessionEvent} {s : Session}
    {out : List (Nat × SocketPacket)} {toServer : List (Nat × SocketPacket)}
    (hs : Session.Step t.server e s out) :
    Inv { t with server := s, toServer := toServer, toClient := t.toClient ++ out } := by
  obtain ⟨hjoins, hcarries⟩ := session_out h.server hs
  constructor
  · exact h.server.step hs
  · exact h.client
  · show s.joined = (joinsOf (t.toClient ++ out)).reverse ++ t.client.joins
    rw [joinsOf_append, List.reverse_append, List.append_assoc, ← h.joins, hjoins]
  · exact fun i => (h.carries i).append (hcarries i)

/-- **Every step keeps the invariant.** -/
theorem Inv.step {t t' : Tunnel} {e : TunnelEvent} (h : t.Inv) (hs : Step t e t') : t'.Inv := by
  cases hs with
  | server he hs => exact h.session hs
  | toServer hq hs => exact h.session hs
  | client he hs =>
    have hjoins := client_joins_eq he hs
    exact ⟨h.server, h.client.step hs, hjoins ▸ h.joins, hjoins ▸ h.carries⟩
  | @toClient k p toClient millis c out hq hs =>
    obtain ⟨rfl, hjoins⟩ := client_joins hs
    constructor
    · exact h.server
    · exact h.client.step hs
    · show t.server.joined = (joinsOf toClient).reverse ++ c.joins
      have hsplit := h.joins
      rw [hq, ← List.singleton_append, joinsOf_append, List.reverse_append] at hsplit
      rw [hsplit, hjoins, List.append_assoc]
      cases p <;> rfl
    · intro i
      have hpath := h.carries i
      rw [hq] at hpath
      obtain ⟨o, ho, hpath⟩ := Path.cons_iff.mp hpath
      show Path (Carries i) (newest c.joins i) toClient _
      rw [hjoins, ← carries_head ho]
      exact hpath

/-- **The invariant holds in every reachable state.** -/
theorem reachable_inv {t : Tunnel} (h : tunnelMachine.Reachable t) : t.Inv :=
  h.invariant inv_new fun _ _ _ ht hs => ht.step (step_cases hs)

/-! ## What follows -/

/-- A client that is to be joined has not been joined. -/
theorem Inv.fresh {t : Tunnel} (h : t.Inv) {k : Nat} {id : UInt16}
    (hmem : (k, .ProxyJoin id) ∈ t.toClient) : ∀ i, (k, i) ∉ t.client.joins := by
  intro i hi
  have hnodup := h.server.fresh.of_append_right
  rw [h.joins, List.map_append] at hnodup
  have hleft : k ∈ (joinsOf t.toClient).reverse.map Prod.fst :=
    List.mem_map.mpr ⟨(k, id), List.mem_reverse.mpr (List.mem_filterMap.mpr ⟨_, hmem, rfl⟩), rfl⟩
  exact (List.nodup_append.mp hnodup).2.2 k hleft k (List.mem_map.mpr ⟨_, hi, rfl⟩) rfl

/-- The client knows the connection of the data it takes by the id that the data has. -/
theorem Inv.data {t : Tunnel} (h : t.Inv) {k tx : Nat} {d : ProxyDataPacket}
    {toClient : List (Nat × SocketPacket)} (hq : t.toClient = (k, .ProxyData d) :: toClient)
    (hc : t.client.state.connections.lookup d.clientId = some tx) : tx = k := by
  have hpath := h.carries d.clientId
  rw [hq] at hpath
  obtain ⟨o, ho, -⟩ := Path.cons_iff.mp hpath
  have hk := ho.2 rfl
  rw [h.client.entry hc] at hk
  exact Option.some.inj hk

/-- A connection in the table is there under its id. -/
theorem Inv.entry_id {t : Tunnel} (h : t.Inv) {i : UInt16} {k : Nat} {l : ClientConnection}
    (hi : t.client.state.connections.lookup i = some k) (hl : t.client.spawned.lookup k = some l) :
    l.clientId = i := by
  have hnodup := h.server.fresh.of_append_right
  rw [h.joins, List.map_append] at hnodup
  have hinj := List.inj_on_of_nodup_map hnodup.of_append_right (h.client.spawned hl)
    (newest_mem (h.client.entry hi)) rfl
  exact congrArg Prod.snd hinj

end Tunnel

end CraftIp
