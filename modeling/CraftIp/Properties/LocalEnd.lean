import CraftIp.Client.ConnectionHandler
import CraftIp.Infra.Path

/-!
# Local connections that end

The proxy client with any honest server: one that sends data for an id only after it has
sent a `ProxyJoin` for it, and before it has sent a `ProxyDisconnect` for it or has received
one. `handle` leaves its loop with an error when it takes data for an id that is not in its
table. That is never the server's fault, read along the packets in flight: an id that the
server sends data for was joined before, and it can only be missing because the client has
removed it on its own.

* `client_never_errs` — as long as no such data is taken, no local connection ends the loop
* `data_in_flight_ends_client` — with it one does
-/

namespace CraftIp

open Infra

/-- A proxy client, an honest server, and the packets in flight between them. -/
structure Served where
  client : Client
  /-- The ids the server may send data for. -/
  joined : List UInt16
  toClient : List SocketPacket
  toServer : List SocketPacket

/-- What can happen there. -/
inductive ServedEvent
  /-- The server sends a packet. -/
  | join (id : UInt16)
  | data (id : UInt16) (pkg : MinecraftDataPacket)
  | disconnect (id : UInt16)
  | pong (ping : UInt16)
  /-- The server receives a packet. -/
  | serverReceive
  /-- The client receives a packet. -/
  | clientReceive (millis : Nat)
  /-- Anything else that happens in the client. -/
  | client (e : ClientEvent)

namespace Served

def new : Served := { client := .new, joined := [], toClient := [], toServer := [] }

def step (s : Served) : ServedEvent → Option Served
  | .join id =>
    some { s with joined := id :: s.joined, toClient := s.toClient ++ [.ProxyJoin id] }
  | .data id pkg =>
    if id ∈ s.joined then some { s with toClient := s.toClient ++ [.ProxyData (.new pkg id)] }
    else none
  | .disconnect id =>
    some { s with
      joined := s.joined.filter (· ≠ id), toClient := s.toClient ++ [.ProxyDisconnect id] }
  | .pong ping => some { s with toClient := s.toClient ++ [.ProxyPong ping] }
  | .serverReceive =>
    match s.toServer with
    | [] => none
    | .ProxyDisconnect id :: toServer =>
      some { s with joined := s.joined.filter (· ≠ id), toServer := toServer }
    | _ :: toServer => some { s with toServer := toServer }
  | .clientReceive millis =>
    match s.toClient with
    | [] => none
    | packet :: toClient => do
      let (client, _) ← s.client.step (.packet s.client.joins.length packet millis)
      return { s with client := client, toClient := toClient }
  | .client e =>
    match e with
    | .packet _ _ _ => none
    | e => do
      let (client, out) ← s.client.step e
      return { s with client := client, toServer := s.toServer ++ out.map Prod.snd }

/-! ## The condition -/

/-- No local server that cannot be reached, no user that disconnects, no failure of the network. -/
def ordinary : ServedEvent → Bool
  | .client (.failed _ _) => false
  | .client .disconnect => false
  | .client (.broken _) => false
  | _ => true

/-- The client does not take data for an id that it removed on its own. -/
def tolerant (s : Served) : ServedEvent → Bool
  | .clientReceive _ =>
    match s.toClient with
    | .ProxyData d :: _ => !decide (d.clientId ∈ s.client.freed)
    | _ => true
  | _ => true

/-! ## The ids behind the packets in flight -/

/-- What a packet means for whether the client has joined `i`. Data is for a joined id only. -/
def Joins (i : UInt16) (b : Bool) (p : SocketPacket) (b' : Bool) : Prop :=
  match p with
  | .ProxyJoin id => b' = if id = i then true else b
  | .ProxyData d => b' = b ∧ (d.clientId = i → b = true)
  | .ProxyDisconnect id => b' = if id = i then false else b
  | .ProxyPong _ => b' = b
  | _ => False

/-- The client has the id, or has removed it on its own. -/
def Known (c : Client) (i : UInt16) : Prop :=
  (∃ tx, c.state.connections.lookup i = some tx) ∨ i ∈ c.freed

structure Inv (s : Served) : Prop where
  running : s.client.result = none
  noDeath : ∀ k msg, (k, .Death msg) ∉ s.client.toProxy
  honest : ∀ i, ∃ b b', (b = true → Known s.client i) ∧ Path (Joins i) b s.toClient b' ∧
    (i ∈ s.joined → b' = true)

theorem inv_new : new.Inv where
  running := rfl
  noDeath k msg h := by cases h
  honest i := ⟨false, false, fun h => (by cases h), .nil false, fun h => (by cases h)⟩

/-! ## What the server sends -/

/-- The server sends `p`, which does this to the ids it may send data for. -/
theorem Inv.sent {s : Served} (h : s.Inv) {p : SocketPacket} {joined : List UInt16}
    (hp : ∀ i b, (i ∈ s.joined → b = true) → ∃ b', Joins i b p b' ∧ (i ∈ joined → b' = true)) :
    Inv { s with joined := joined, toClient := s.toClient ++ [p] } where
  running := h.running
  noDeath := h.noDeath
  honest i := by
    obtain ⟨b, b', hknown, hpath, hjoined⟩ := h.honest i
    obtain ⟨b'', hb, hj⟩ := hp i b' hjoined
    exact ⟨b, b'', hknown, hpath.snoc hb, hj⟩

theorem Inv.received {s : Served} (h : s.Inv) {joined : List UInt16} {toServer : List SocketPacket}
    (hsub : joined ⊆ s.joined) : Inv { s with joined := joined, toServer := toServer } where
  running := h.running
  noDeath := h.noDeath
  honest i := by
    obtain ⟨b, b', hknown, hpath, hjoined⟩ := h.honest i
    exact ⟨b, b', hknown, hpath, fun hi => hjoined (hsub hi)⟩

/-! ## What the client does -/

/-- The client goes on, and forgets no id it knew. -/
theorem Inv.client {s : Served} (h : s.Inv) {c : Client} {toServer : List SocketPacket}
    (hr : c.result = none) (hq : ∀ e ∈ c.toProxy, e ∈ s.client.toProxy ∨ ∀ msg, e.2 ≠ .Death msg)
    (hknown : ∀ i, Known s.client i → Known c i) :
    Inv { s with client := c, toServer := toServer } where
  running := hr
  noDeath k msg hmem := by
    rcases hq _ hmem with hmem | hne
    · exact h.noDeath k msg hmem
    · exact hne msg rfl
  honest i := by
    obtain ⟨b, b', hk, hpath, hjoined⟩ := h.honest i
    exact ⟨b, b', fun hb => hknown i (hk hb), hpath, hjoined⟩

theorem Inv.clientStep {s : Served} (h : s.Inv) {c : Client} {e : ClientEvent}
    {out : List (Nat × SocketPacket)} {toServer : List SocketPacket}
    (ho : ordinary (.client e) = true) (he : ∀ k p millis, e ≠ .packet k p millis)
    (hs : Client.Step s.client e c out) : Inv { s with client := c, toServer := toServer } := by
  have hsame : ∀ e ∈ s.client.toProxy, e ∈ s.client.toProxy ∨ ∀ msg, e.2 ≠ .Death msg :=
    fun _ hmem => Or.inl hmem
  have henqueue : ∀ k msg, (∀ text, msg ≠ Client.ClientToProxy.Death text) →
      ∀ e ∈ s.client.toProxy ++ [(k, msg)], e ∈ s.client.toProxy ∨ ∀ text, e.2 ≠ .Death text := by
    intro k msg hmsg e hmem
    rcases List.mem_append.mp hmem with hmem | hmem
    · exact Or.inl hmem
    · rw [List.mem_singleton.mp hmem]
      exact Or.inr hmsg
  cases hs with
  | connected hl hp => exact h.client h.running hsame fun _ hk => hk
  | failed hl hp hr => cases ho
  | failedClosed hl hp hr => cases ho
  | take hl hp hx => exact h.client h.running hsame fun _ hk => hk
  | takeClosed hl hp hx hs => exact h.client h.running hsame fun _ hk => hk
  | read hl hp hd hr =>
    exact h.client h.running (henqueue _ _ fun _ heq => by cases heq) fun _ hk => hk
  | readClosed hl hp hr => exact h.client h.running hsame fun _ hk => hk
  | stop hl hp => exact h.client h.running hsame fun _ hk => hk
  | drop hl hp hn hr =>
    exact h.client h.running (henqueue _ _ fun _ heq => by cases heq) fun _ hk => hk
  | dropSilent hl hp hn => exact h.client h.running hsame fun _ hk => hk
  | close hl hp => exact h.client h.running hsame fun _ hk => hk
  | forward hr hq =>
    exact h.client h.running (fun e hmem => Or.inl (hq ▸ .tail _ hmem)) fun _ hk => hk
  | @remove k id tx toProxy hr hq hc =>
    refine h.client h.running (fun e hmem => Or.inl (hq ▸ .tail _ hmem)) ?_
    intro i hk
    by_cases hi : i = id
    · exact Or.inr (hi ▸ List.mem_cons_self)
    · rcases hk with ⟨tx', htx⟩ | hf
      · refine Or.inl ⟨tx', ?_⟩
        rw [State.removeConnection_connections, Table.lookup_erase, if_neg hi]
        exact htx
      · exact Or.inr (.tail _ hf)
  | @removeNone k id toProxy hr hq hc =>
    refine h.client h.running (fun e hmem => Or.inl (hq ▸ .tail _ hmem)) ?_
    intro i hk
    rcases hk with ⟨tx, htx⟩ | hf
    · refine Or.inl ⟨tx, ?_⟩
      have hi : i ≠ id := fun heq => by rw [heq, hc] at htx; cases htx
      rw [State.removeConnection_connections, Table.lookup_erase, if_neg hi]
      exact htx
    · exact Or.inr hf
  | death hr hq => exact absurd (hq ▸ List.mem_cons_self) (h.noDeath _ _)
  | ping hr => exact h.client h.running hsame fun _ hk => hk
  | disconnect hr => cases ho
  | broken hr => cases ho
  | join hr => exact absurd rfl (he _ _ _)
  | deliver hr hc ho => exact absurd rfl (he _ _ _)
  | lost hr hc ho => exact absurd rfl (he _ _ _)
  | unknown hr hc => exact absurd rfl (he _ _ _)
  | disconnected hr => exact absurd rfl (he _ _ _)
  | pong hr => exact absurd rfl (he _ _ _)
  | unimplemented hr hp => exact absurd rfl (he _ _ _)

/-- The client takes the first packet in flight. -/
theorem Inv.receive {s : Served} (h : s.Inv) {c : Client} {k millis : Nat} {p : SocketPacket}
    {toClient : List SocketPacket} {out : List (Nat × SocketPacket)}
    (hq : s.toClient = p :: toClient) (ht : ∀ d, p = .ProxyData d → d.clientId ∉ s.client.freed)
    (hs : Client.Step s.client (.packet k p millis) c out) :
    Inv { s with client := c, toClient := toClient } := by
  have hhead : ∀ i, ∃ b b1 b', (b = true → Known s.client i) ∧ Joins i b p b1 ∧
      Path (Joins i) b1 toClient b' ∧ (i ∈ s.joined → b' = true) := by
    intro i
    obtain ⟨b, b', hknown, hpath, hjoined⟩ := h.honest i
    rw [hq] at hpath
    obtain ⟨b1, hp, hpath⟩ := Path.cons_iff.mp hpath
    exact ⟨b, b1, b', hknown, hp, hpath, hjoined⟩
  have hgoOn : c.result = none → c.toProxy = s.client.toProxy →
      (∀ i b b1, (b = true → Known s.client i) → Joins i b p b1 → b1 = true → Known c i) →
      Inv { s with client := c, toClient := toClient } := by
    intro hr hqueue hknown
    refine ⟨hr, fun k msg hmem => h.noDeath k msg (hqueue ▸ hmem), ?_⟩
    intro i
    obtain ⟨b, b1, b', hk, hp, hpath, hjoined⟩ := hhead i
    exact ⟨b1, b', hknown i b b1 hk hp, hpath, hjoined⟩
  cases hs with
  | @join k id millis hr =>
    refine hgoOn hr rfl ?_
    intro i b b1 hk hj hb
    unfold Known
    rw [State.addConnection_connections, Table.lookup_insert]
    simp only [Joins] at hj
    by_cases hi : i = id
    · rw [if_pos hi]
      exact Or.inl ⟨k, rfl⟩
    · rw [if_neg (Ne.symm hi)] at hj
      rw [if_neg hi]
      rcases hk (hj ▸ hb) with hk | hf
      · exact Or.inl hk
      · exact Or.inr (List.mem_filter.mpr ⟨hf, by simpa using hi⟩)
  | deliver hr hc ho => exact hgoOn hr rfl fun i b b1 hk hj hb => hk (hj.1 ▸ hb)
  | @lost k d tx millis hr hc ho =>
    refine hgoOn hr rfl ?_
    intro i b b1 hk hj hb
    unfold Known
    rw [Table.lookup_erase]
    by_cases hi : i = d.clientId
    · exact Or.inr (hi ▸ List.mem_cons_self)
    · rw [if_neg hi]
      rcases hk (hj.1 ▸ hb) with hk | hf
      · exact Or.inl hk
      · exact Or.inr (.tail _ hf)
  | @unknown k d millis text hr hc =>
    exfalso
    obtain ⟨b, b1, b', hk, hp, -, -⟩ := hhead d.clientId
    rcases hk (hp.2 rfl) with ⟨tx, htx⟩ | hf
    · rw [hc] at htx
      cases htx
    · exact ht d rfl hf
  | @disconnected k id millis hr =>
    refine hgoOn hr rfl ?_
    intro i b b1 hk hj hb
    unfold Known
    rw [State.removeConnection_connections, Table.lookup_erase]
    simp only [Joins] at hj
    by_cases hi : i = id
    · rw [if_pos hi.symm] at hj
      rw [hj] at hb
      cases hb
    · rw [if_neg (Ne.symm hi)] at hj
      rw [if_neg hi]
      exact hk (hj ▸ hb)
  | pong hr => exact hgoOn hr rfl fun i b b1 hk hj hb => hk (hj ▸ hb)
  | unimplemented hr hp =>
    obtain ⟨b, b1, b', -, hj, -, -⟩ := hhead 0
    have himp : Client.implemented p = true := by
      cases p <;> first | rfl | exact False.elim hj
    rw [himp] at hp
    cases hp

theorem Inv.step {s s' : Served} {e : ServedEvent} (h : s.Inv) (ho : ordinary e = true)
    (ht : s.tolerant e = true) (hs : s.step e = some s') : s'.Inv := by
  cases e with
  | join id =>
    cases hs
    refine h.sent fun i b hb => ⟨if id = i then true else b, rfl, ?_⟩
    intro hi
    rcases List.mem_cons.mp hi with rfl | hi
    · rw [if_pos rfl]
    · split
      · rfl
      · exact hb hi
  | data id pkg =>
    simp only [Served.step] at hs
    split at hs
    · next hid =>
      cases hs
      exact h.sent fun i b hb => ⟨b, ⟨rfl, fun heq => hb (heq ▸ hid)⟩, hb⟩
    · cases hs
  | disconnect id =>
    cases hs
    refine h.sent fun i b hb => ⟨if id = i then false else b, rfl, ?_⟩
    intro hi
    obtain ⟨hi, hne⟩ := List.mem_filter.mp hi
    rw [if_neg (fun heq => by simp [heq] at hne)]
    exact hb hi
  | pong ping =>
    cases hs
    exact h.sent fun i b hb => ⟨b, rfl, hb⟩
  | serverReceive =>
    simp only [Served.step] at hs
    split at hs
    · cases hs
    · cases hs
      exact h.received List.filter_sublist.subset
    · cases hs
      exact h.received (List.Subset.refl _)
  | clientReceive millis =>
    simp only [Served.step] at hs
    split at hs
    · cases hs
    · next p toClient hq =>
      obtain ⟨⟨c, out⟩, hc, heq⟩ := Option.bind_eq_some_iff.mp hs
      cases heq
      refine h.receive hq ?_ (Client.step_cases hc)
      intro d hd
      subst hd
      simpa only [tolerant, hq, Bool.not_eq_true', decide_eq_false_iff_not] using ht
  | client e =>
    simp only [Served.step] at hs
    split at hs
    · cases hs
    · next hne =>
      obtain ⟨⟨c, out⟩, hc, heq⟩ := Option.bind_eq_some_iff.mp hs
      cases heq
      exact h.clientStep ho hne (Client.step_cases hc)

end Served

/-- A proxy client with any honest server. -/
def servedMachine : Machine Served ServedEvent where
  init := .new
  step := Served.step

/-- **No end of a local connection ends the client**, unless it takes data for an id it removed. -/
theorem client_never_errs {s : Served}
    (h : (servedMachine.restrict fun s e => (Served.ordinary e && s.tolerant e) = true).Reachable s) :
    s.client.result = none := by
  refine (Machine.Reachable.restrict_invariant (I := Served.Inv) Served.inv_new ?_ h).running
  intro s e s' _ hi hc hs
  rw [Bool.and_eq_true] at hc
  exact hi.step hc.1 hc.2 hs

/-- A local server closes its connection; the server has nothing more to send. -/
def localEnd : List ServedEvent :=
  [.join 0, .clientReceive 0, .client (.connected 0), .data 0 ⟨[16]⟩, .clientReceive 0,
    .client (.take 0), .client (.stop 0), .client (.drop 0)]

/-- And the proxy client tells the server. -/
def toldEnd : List ServedEvent := localEnd ++ [.client .send, .client (.close 0)]

theorem client_never_errs_localEnd : ∃ s,
    (servedMachine.restrict fun s e => (Served.ordinary e && s.tolerant e) = true).Reachable s ∧
    s.toServer = [.ProxyDisconnect 0] ∧ s.client.result = none :=
  ⟨_, ⟨toldEnd, rfl⟩, rfl, client_never_errs ⟨toldEnd, rfl⟩⟩

/-- The server sends more before it learns of it. -/
theorem data_in_flight_ends_client : ∃ s,
    (servedMachine.restrict fun _ e => Served.ordinary e = true).Reachable s ∧
    ∃ text, s.client.result = some (.returned (.error text)) :=
  ⟨_, ⟨localEnd ++ [.data 0 ⟨[1]⟩, .client .send, .clientReceive 0], rfl⟩, _, rfl⟩

end CraftIp
