import CraftIp.Properties.Tunnel

/-!
# The tables of both sides

The client follows the session: it adds an id at a `ProxyJoin` and removes it at a
`ProxyDisconnect`. It may also remove an id on its own, and tells the session. So for each id
the two tables are compared after what is in flight to the client: they agree, or the
client has removed the id and the session is yet to learn of it.

This breaks when the two sides cross: when the session hands out an id that the client has
just told it to remove, or the client removes an id that the session has just handed out.

* `tables_agree` — without a crossing, the tables are equal when nothing is in flight
* `crossing_leaves_entry` — with one they need not be
-/

namespace CraftIp

open Infra

namespace Tunnel

/-! ## The condition -/

/--
The session hands out no id that a `ProxyDisconnect` on its way to it is about, and the client
sends no `ProxyDisconnect` about an id that a `ProxyJoin` on its way to it is about.
-/
def uncrossed (t : Tunnel) : TunnelEvent → Bool
  | .server .take =>
    match t.server.queue, t.server.distributor.freeId with
    | (_, .AddMinecraftClient _ _) :: _, some id =>
      t.toServer.all fun e => e.2 ≠ .ProxyDisconnect id
    | _, _ => true
  | .client .send =>
    match t.client.toProxy with
    | (_, .RemoveMinecraftClient id) :: _ => t.toClient.all fun e => e.2 ≠ .ProxyJoin id
    | _ => true
  | _ => true

/-- Nothing is in flight, and no task that has ended still has its removal to send. -/
structure AtRest (t : Tunnel) : Prop where
  toClient : t.toClient = []
  toServer : t.toServer = []
  queue : t.server.queue = []
  toProxy : t.client.toProxy = []
  clients : ∀ m ∈ t.server.clients, m.phase = .ended → m.needForClose = false
  connections : ∀ e ∈ t.client.spawned.entries, e.2.phase = .ended → e.2.needForClose = false

/-! ## What a packet does to one id -/

/-- What a packet for the client means for whether the id `i` is in a table. -/
def keeps (i : UInt16) (b : Bool) (e : Nat × SocketPacket) : Bool :=
  match e.2 with
  | .ProxyJoin id => decide (id = i) || b
  | .ProxyDisconnect id => decide (id ≠ i) && b
  | _ => b

/-- Whether the id is in the table after all these packets. -/
def after (i : UInt16) (b : Bool) (packets : List (Nat × SocketPacket)) : Bool :=
  packets.foldl (keeps i) b

theorem after_append (i : UInt16) (b : Bool) (p q : List (Nat × SocketPacket)) :
    after i b (p ++ q) = after i (after i b p) q := List.foldl_append

/-- A packet puts the id in, takes it out, or is not about it. -/
theorem keeps_cases (i : UInt16) (e : Nat × SocketPacket) :
    (∀ b, keeps i b e = b) ∨ ∃ v, ∀ b, keeps i b e = v := by
  obtain ⟨k, p⟩ := e
  cases p with
  | ProxyJoin id =>
    by_cases h : id = i
    · exact Or.inr ⟨true, fun b => by simp [keeps, h]⟩
    · exact Or.inl fun b => by simp [keeps, h]
  | ProxyDisconnect id =>
    by_cases h : id = i
    · exact Or.inr ⟨false, fun b => by simp [keeps, h]⟩
    · exact Or.inl fun b => by simp [keeps, h]
  | _ => exact Or.inl fun b => rfl

theorem after_cases (i : UInt16) (packets : List (Nat × SocketPacket)) :
    (∀ b, after i b packets = b) ∨ ∃ v, ∀ b, after i b packets = v := by
  induction packets with
  | nil => exact Or.inl fun _ => rfl
  | cons e packets ih =>
    rcases ih with h | ⟨v, h⟩
    · rcases keeps_cases i e with he | ⟨v, he⟩
      · exact Or.inl fun b => (h _).trans (he b)
      · exact Or.inr ⟨v, fun b => (h _).trans (he b)⟩
    · exact Or.inr ⟨v, fun b => h _⟩

/-- What the packets leave of an id, they leave of it if it is there before. -/
theorem after_mono {i : UInt16} {b b' : Bool} {packets : List (Nat × SocketPacket)}
    (hb : b = true → b' = true) (h : after i b packets = true) : after i b' packets = true := by
  rcases after_cases i packets with hid | ⟨v, hv⟩
  · rw [hid] at h ⊢
    exact hb h
  · rw [hv] at h ⊢
    exact h

/-- Without a join the id does not come. -/
theorem after_false {i : UInt16} {packets : List (Nat × SocketPacket)}
    (h : ∀ k, (k, .ProxyJoin i) ∉ packets) : after i false packets = false := by
  induction packets with
  | nil => rfl
  | cons e packets ih =>
    obtain ⟨k, p⟩ := e
    have hk : keeps i false (k, p) = false := by
      cases p with
      | ProxyJoin id =>
        have hne : id ≠ i := fun heq => h k (heq ▸ List.mem_cons_self)
        simp [keeps, hne]
      | ProxyDisconnect id => simp [keeps]
      | _ => rfl
    show after i (keeps i false (k, p)) packets = false
    rw [hk]
    exact ih fun j hj => h j (.tail _ hj)

/-! ## The invariant -/

/-- The session has the id in its table. -/
def serverHas (s : Session) (i : UInt16) : Bool := (s.distributor.clientsId.lookup i).isSome

/-- The client has the id in its table. -/
def clientHas (c : Client) (i : UInt16) : Bool := (c.state.connections.lookup i).isSome

/-- The client will have the id when it has taken what is in flight. -/
def willHave (t : Tunnel) (i : UInt16) : Bool := after i (clientHas t.client i) t.toClient

/-- A `RemoveMinecraftClient` of the id is in the queue of the client. -/
def Leaving (c : Client) (i : UInt16) : Prop := ∃ k, (k, .RemoveMinecraftClient i) ∈ c.toProxy

/-- A `ProxyDisconnect` of the id is on its way to the session. -/
def Told (t : Tunnel) (i : UInt16) : Prop := ∃ k, (k, .ProxyDisconnect i) ∈ t.toServer

/-- The tables agree about the id, as far as both sides can know. -/
structure Agrees (t : Tunnel) (i : UInt16) : Prop where
  told : Told t i → t.willHave i = false ∧ ∀ k, (k, .ProxyJoin i) ∉ t.toClient
  client : ¬ Told t i → t.willHave i = true → serverHas t.server i = true
  server : ¬ Told t i → serverHas t.server i = true → t.willHave i = true ∨ Leaving t.client i
  /-- A connection that was dropped has said so. -/
  dropped : ∀ {k l}, t.client.state.connections.lookup i = some k →
    t.client.spawned.lookup k = some l → l.phase = .dropped ∨ l.phase = .gone → Leaving t.client i

theorem agrees_new (i : UInt16) : new.Agrees i where
  told h := by obtain ⟨k, hk⟩ := h; cases hk
  client _ h := by cases h
  server _ h := by cases h
  dropped h := by cases h

/-! ## The session -/

/-- The table of the session goes the way its packets tell the client to go. -/
theorem session_ids {s s' : Session} {e : SessionEvent} {out : List (Nat × SocketPacket)}
    (he : ∀ k packet, e ≠ .packet k packet) (hs : Session.Step s e s' out) (hr' : s'.result = none)
    (i : UInt16) : serverHas s' i = after i (serverHas s i) out := by
  cases hs with
  | @add k addr tx queue c d hr hq hi =>
    obtain ⟨-, -, -, hid⟩ := Distribiutor.insert_eq_ok hi
    show (d.clientsId.lookup i).isSome = keeps i (serverHas s i) (k, .ProxyJoin c.id)
    rw [hid]
    by_cases h : i = c.id
    · simp [keeps, h]
    · simp [keeps, h, Ne.symm h, serverHas]
  | @remove k addr queue hr hq =>
    show ((s.distributor.removeByAddr addr).clientsId.lookup i).isSome = _
    cases hc : s.distributor.clientsAddr.lookup addr with
    | none => simp only [Distribiutor.removeByAddr, hc]; rfl
    | some c =>
      simp only [Distribiutor.removeByAddr, hc, Table.lookup_erase]
      show _ = keeps i (serverHas s i) (k, .ProxyDisconnect c.id)
      by_cases h : i = c.id
      · simp [keeps, h]
      · simp [keeps, h, Ne.symm h, serverHas]
  | close hr hq => cases hr'
  | tooMany hr hq hi => cases hr'
  | wrongPacket hr hq hc => cases hr'
  | broken hr => cases hr'
  | leave hr => cases hr'
  | evict hr hc => exact absurd rfl (he _ _)
  | evictNone hr hc => exact absurd rfl (he _ _)
  | deliver hr hc => exact absurd rfl (he _ _)
  | deliverNone hr hc => exact absurd rfl (he _ _)
  | pong hr => exact absurd rfl (he _ _)
  | ignored hr hp => exact absurd rfl (he _ _)
  | _ => rfl

/-- A `ProxyJoin` hands out a free id. -/
theorem session_hands_out {s s' : Session} {e : SessionEvent} {out : List (Nat × SocketPacket)}
    (hs : Session.Step s e s' out) {j : Nat} {i : UInt16} (hmem : (j, .ProxyJoin i) ∈ out) :
    e = .take ∧ s.distributor.freeId = some i ∧
      ∃ k addr tx queue, s.queue = (k, .AddMinecraftClient addr tx) :: queue := by
  cases hs with
  | @add k addr tx queue c d hr hq hi =>
    cases List.mem_singleton.mp hmem
    exact ⟨rfl, (Distribiutor.insert_eq_ok hi).2.1, _, _, _, _, hq⟩
  | forward hr hq hc => cases List.mem_singleton.mp hmem
  | remove hr hq =>
    obtain ⟨c, -, heq⟩ := List.mem_map.mp hmem
    cases heq
  | pong hr => cases List.mem_singleton.mp hmem
  | _ => cases hmem

/-- A packet takes an id out of the table of the session if it is a `ProxyDisconnect` of it. -/
theorem session_receives {s s' : Session} {k : Nat} {p : SocketPacket}
    {out : List (Nat × SocketPacket)} (hs : Session.Step s (.packet k p) s' out) (i : UInt16) :
    (serverHas s' i = if p = .ProxyDisconnect i then false else serverHas s i) ∧
      ∀ b, after i b out = b := by
  have herase : ∀ id, ((s.distributor.removeById id).clientsId.lookup i).isSome =
      if SocketPacket.ProxyDisconnect id = .ProxyDisconnect i then false else serverHas s i := by
    intro id
    show ((s.distributor.clientsId.erase id).lookup i).isSome = _
    rw [Table.lookup_erase]
    by_cases h : i = id
    · simp [h]
    · simp [h, Ne.symm h, serverHas]
  cases hs with
  | evict hr hc => exact ⟨herase _, fun b => rfl⟩
  | evictNone hr hc => exact ⟨herase _, fun b => rfl⟩
  | ignored hr hp =>
    refine ⟨?_, fun b => rfl⟩
    rw [if_neg (fun heq => by rw [heq] at hp; cases hp)]
  | _ => exact ⟨rfl, fun b => rfl⟩

/-- The session does something on its own. -/
theorem Agrees.session {t : Tunnel} {i : UInt16} (h : t.Agrees i) {e : SessionEvent} {s : Session}
    {out : List (Nat × SocketPacket)} (he : ∀ k packet, e ≠ .packet k packet)
    (hc : t.uncrossed (.server e) = true) (hs : Session.Step t.server e s out)
    (hr : s.result = none) :
    Agrees { t with server := s, toClient := t.toClient ++ out } i := by
  have hwill : willHave { t with server := s, toClient := t.toClient ++ out } i
      = after i (t.willHave i) out := after_append ..
  have hhas := session_ids he hs hr i
  constructor
  · rintro ⟨k, hk⟩
    obtain ⟨hnot, hjoin⟩ := h.told ⟨k, hk⟩
    have hout : ∀ j, (j, .ProxyJoin i) ∉ out := by
      intro j hj
      obtain ⟨rfl, hfree, k', addr, tx, queue, hq⟩ := session_hands_out hs hj
      simp only [uncrossed, hq, hfree, List.all_eq_true, decide_eq_true_eq] at hc
      exact hc _ hk rfl
    refine ⟨?_, ?_⟩
    · rw [hwill, hnot]
      exact after_false hout
    · intro j hj
      rcases List.mem_append.mp hj with hj | hj
      · exact hjoin j hj
      · exact hout j hj
  · intro hn hw
    rw [hwill] at hw
    rw [hhas]
    exact after_mono (h.client hn) hw
  · intro hn hw
    rw [hhas] at hw
    rw [hwill]
    rcases after_cases i out with hid | ⟨v, hv⟩
    · rw [hid] at hw ⊢
      exact h.server hn hw
    · rw [hv] at hw ⊢
      exact Or.inl hw
  · exact h.dropped

/-- The session takes a packet. -/
theorem Agrees.receive {t : Tunnel} {i : UInt16} (h : t.Agrees i) {k : Nat} {p : SocketPacket}
    {s : Session} {toServer out : List (Nat × SocketPacket)} (hq : t.toServer = (k, p) :: toServer)
    (hs : Session.Step t.server (.packet k p) s out) :
    Agrees { t with server := s, toServer := toServer, toClient := t.toClient ++ out } i := by
  obtain ⟨hhas, hout⟩ := session_receives hs i
  have hwill : willHave { t with
      server := s, toServer := toServer, toClient := t.toClient ++ out } i = t.willHave i :=
    (after_append ..).trans (hout _)
  have hjoin : ∀ j, (j, .ProxyJoin i) ∈ t.toClient ++ out → (j, .ProxyJoin i) ∈ t.toClient := by
    intro j hj
    rcases List.mem_append.mp hj with hj | hj
    · exact hj
    · obtain ⟨he, -⟩ := session_hands_out hs hj
      cases he
  constructor
  · rintro ⟨j, hj⟩
    obtain ⟨hnot, hno⟩ := h.told ⟨j, hq ▸ .tail _ hj⟩
    exact ⟨hwill.trans hnot, fun j hj => hno j (hjoin j hj)⟩
  · intro hn hw
    rw [hwill] at hw
    rw [hhas]
    split
    · next hp =>
      rw [(h.told ⟨k, hq ▸ hp ▸ List.mem_cons_self⟩).1] at hw
      cases hw
    · next hp =>
      refine h.client ?_ hw
      rintro ⟨j, hj⟩
      rw [hq] at hj
      rcases List.mem_cons.mp hj with heq | hj
      · cases heq
        exact hp rfl
      · exact hn ⟨j, hj⟩
  · intro hn hw
    rw [hhas] at hw
    rw [hwill]
    split at hw
    · cases hw
    · next hp =>
      refine h.server ?_ hw
      rintro ⟨j, hj⟩
      rw [hq] at hj
      rcases List.mem_cons.mp hj with heq | hj
      · cases heq
        exact hp rfl
      · exact hn ⟨j, hj⟩
  · exact h.dropped

/-! ## The client -/

/-- The client does something that leaves its table alone and tells the session nothing of `i`. -/
theorem Agrees.quiet {t : Tunnel} {i : UInt16} (h : t.Agrees i) {c : Client}
    {out : List (Nat × SocketPacket)} (hconn : c.state.connections = t.client.state.connections)
    (hout : ∀ k, (k, .ProxyDisconnect i) ∉ out) (hleave : Leaving t.client i → Leaving c i)
    (hdropped : ∀ {k l}, t.client.state.connections.lookup i = some k →
      c.spawned.lookup k = some l → l.phase = .dropped ∨ l.phase = .gone → Leaving c i) :
    Agrees { t with client := c, toServer := t.toServer ++ out } i := by
  have hwill : willHave { t with client := c, toServer := t.toServer ++ out } i = t.willHave i := by
    show after i (clientHas c i) t.toClient = _
    rw [clientHas, hconn]
    rfl
  have htold : Told { t with client := c, toServer := t.toServer ++ out } i → t.Told i := by
    rintro ⟨k, hk⟩
    rcases List.mem_append.mp hk with hk | hk
    · exact ⟨k, hk⟩
    · exact absurd hk (hout k)
  have htold' : t.Told i → Told { t with client := c, toServer := t.toServer ++ out } i :=
    fun ⟨k, hk⟩ => ⟨k, List.mem_append_left _ hk⟩
  refine ⟨fun ht => ?_, fun hn hw => ?_, fun hn hw => ?_, fun hi hl hp => ?_⟩
  · rw [hwill]
    exact h.told (htold ht)
  · exact h.client (fun ht => hn (htold' ht)) (hwill ▸ hw)
  · rw [hwill]
    exact (h.server (fun ht => hn (htold' ht)) hw).imp_right hleave
  · exact hdropped (hconn ▸ hi) hl hp

/-- A connection is changed, and not dropped. -/
theorem Agrees.modify {t : Tunnel} {i : UInt16} (h : t.Agrees i) {k : Nat} {l : ClientConnection}
    {f : ClientConnection → ClientConnection} (hl : t.client.spawned.lookup k = some l)
    (hf : (f l).phase = .dropped ∨ (f l).phase = .gone → l.phase = .dropped ∨ l.phase = .gone) :
    Agrees { t with client := t.client.modify k f, toServer := t.toServer ++ [] } i := by
  refine h.quiet rfl (fun _ hk => by cases hk) id fun hi hlj hp => ?_
  rcases Client.spawned_modify_some hl hlj with ⟨rfl, rfl⟩ | ⟨-, hlj⟩
  · exact h.dropped hi hl (hf hp)
  · exact h.dropped hi hlj hp

theorem leaving_snoc {c : Client} {i : UInt16} {k : Nat} {msg : Client.ClientToProxy}
    (h : Leaving c i) : Leaving (c.enqueue k msg) i := by
  obtain ⟨j, hj⟩ := h
  exact ⟨j, List.mem_append_left _ hj⟩

/-- What is taken from the queue was about another id. -/
theorem leaving_tail {c d : Client} {i : UInt16} {e : Nat × Client.ClientToProxy}
    (hq : c.toProxy = e :: d.toProxy) (hne : e.2 ≠ .RemoveMinecraftClient i) (h : Leaving c i) :
    Leaving d i := by
  obtain ⟨j, hj⟩ := h
  rw [hq] at hj
  rcases List.mem_cons.mp hj with heq | hj
  · exact absurd (heq ▸ rfl) hne
  · exact ⟨j, hj⟩

/-- The client removes the id `id` and tells the session. -/
theorem Agrees.send {t : Tunnel} {i : UInt16} (h : t.Agrees i) {k : Nat} {id : UInt16} {c : Client}
    (hq : t.client.toProxy = (k, .RemoveMinecraftClient id) :: c.toProxy)
    (hc : t.uncrossed (.client .send) = true)
    (hconn : c.state.connections = t.client.state.connections.erase id)
    (hspawned : c.spawned = t.client.spawned) :
    Agrees { t with client := c, toServer := t.toServer ++ [(k, .ProxyDisconnect id)] } i := by
  have hlookup : c.state.connections.lookup i
      = if i = id then none else t.client.state.connections.lookup i := by
    rw [hconn, Table.lookup_erase]
  by_cases hi : i = id
  · subst hi
    rw [if_pos rfl] at hlookup
    have htold : Told { t with client := c, toServer := t.toServer ++ [(k, .ProxyDisconnect i)] } i :=
      ⟨k, List.mem_append_right _ (List.mem_singleton.mpr rfl)⟩
    simp only [uncrossed, hq, List.all_eq_true, decide_eq_true_eq] at hc
    have hjoin : ∀ j, (j, .ProxyJoin i) ∉ t.toClient := fun j hj => hc _ hj rfl
    refine ⟨fun _ => ⟨?_, hjoin⟩, fun hn => absurd htold hn, fun hn => absurd htold hn, fun hl => ?_⟩
    · show after i (clientHas c i) t.toClient = false
      rw [clientHas, hlookup]
      exact after_false hjoin
    · rw [hlookup] at hl
      cases hl
  · rw [if_neg hi] at hlookup
    have hne : (SocketPacket.ProxyDisconnect id) ≠ .ProxyDisconnect i :=
      fun heq => hi (SocketPacket.ProxyDisconnect.inj heq).symm
    have htold : Told { t with client := c, toServer := t.toServer ++ [(k, .ProxyDisconnect id)] } i ↔
        t.Told i := by
      constructor
      · rintro ⟨j, hj⟩
        rcases List.mem_append.mp hj with hj | hj
        · exact ⟨j, hj⟩
        · exact absurd (congrArg Prod.snd (List.mem_singleton.mp hj)).symm hne
      · exact fun ⟨j, hj⟩ => ⟨j, List.mem_append_left _ hj⟩
    have hwill : willHave
        { t with client := c, toServer := t.toServer ++ [(k, .ProxyDisconnect id)] } i
          = t.willHave i := by
      show after i (clientHas c i) t.toClient = _
      rw [clientHas, hlookup]
      rfl
    have hleave : Leaving t.client i → Leaving c i :=
      leaving_tail hq fun heq => hi (Client.ClientToProxy.RemoveMinecraftClient.inj heq).symm
    refine ⟨fun ht => ?_, fun hn hw => ?_, fun hn hw => ?_, fun hl hlj hp => ?_⟩
    · rw [hwill]
      exact h.told (htold.mp ht)
    · exact h.client (fun ht => hn (htold.mpr ht)) (hwill ▸ hw)
    · rw [hwill]
      exact (h.server (fun ht => hn (htold.mpr ht)) hw).imp_right hleave
    · exact hleave (h.dropped (hlookup ▸ hl) (hspawned ▸ hlj) hp)

theorem Agrees.clientStep {t : Tunnel} {i : UInt16} (h : t.Agrees i) (ht : t.Inv) {e : ClientEvent}
    {c : Client} {out : List (Nat × SocketPacket)} (he : ∀ k packet millis, e ≠ .packet k packet millis)
    (hc : t.uncrossed (.client e) = true) (hs : Client.Step t.client e c out)
    (hr' : c.result = none) : Agrees { t with client := c, toServer := t.toServer ++ out } i := by
  cases hs with
  | connected hl hp =>
    exact h.modify hl fun hn => absurd hn (by simp)
  | failed hl hp hr =>
    refine h.quiet rfl (fun _ hk => by cases hk) leaving_snoc fun hi hlj hpj => leaving_snoc ?_
    exact (h.modify hl (f := fun l => { l with phase := .ended }) fun hn => absurd hn (by simp)).dropped
      hi hlj hpj
  | failedClosed hl hp hr => exact absurd hr' hr
  | take hl hp hx => exact h.modify hl id
  | takeClosed hl hp hx hs => exact h.modify hl fun hn => absurd hn (by simp)
  | read hl hp hd hr =>
    exact h.quiet rfl (fun _ hk => by cases hk) leaving_snoc fun hi hlj hpj =>
      leaving_snoc (h.dropped hi hlj hpj)
  | readClosed hl hp hr => exact absurd hr' hr
  | stop hl hp => exact h.modify hl fun hn => absurd hn (by simp)
  | @drop k l hl hp hn hr =>
    refine h.quiet rfl (fun _ hk => by cases hk) leaving_snoc fun hi hlj hpj => ?_
    rcases Client.spawned_modify_some hl hlj with ⟨rfl, rfl⟩ | ⟨-, hlj⟩
    · -- it says so when it is dropped
      rw [← ht.entry_id hi hl]
      exact ⟨_, List.mem_append_right _ (List.mem_singleton.mpr rfl)⟩
    · exact leaving_snoc (h.dropped hi hlj hpj)
  | @dropSilent k l hl hp hn =>
    refine h.quiet rfl (fun _ hk => by cases hk) id fun hi hlj hpj => ?_
    rcases Client.spawned_modify_some hl hlj with ⟨rfl, rfl⟩ | ⟨-, hlj⟩
    · -- it is in the table no more
      exact absurd hi ((ht.client.closed hl (hn.resolve_right fun hne => hne hr')).2 i)
    · exact h.dropped hi hlj hpj
  | close hl hp => exact h.modify hl fun _ => Or.inl hp
  | forward hr hq =>
    have hleave := leaving_tail (i := i) (d := { t.client with toProxy := _ }) hq fun heq => by cases heq
    exact h.quiet rfl (fun _ hk => by cases List.mem_singleton.mp hk) hleave fun hi hlj hpj =>
      hleave (h.dropped hi hlj hpj)
  | remove hr hq hl => exact h.send hq hc rfl rfl
  | removeNone hr hq hl => exact h.send hq hc rfl rfl
  | ping hr =>
    exact h.quiet rfl (fun _ hk => by cases List.mem_singleton.mp hk) id fun hi hlj hpj =>
      h.dropped hi hlj hpj
  | death hr hq => cases hr'
  | disconnect hr => cases hr'
  | broken hr => cases hr'
  | join hr => exact absurd rfl (he _ _ _)
  | deliver hr hc ho => exact absurd rfl (he _ _ _)
  | lost hr hc ho => exact absurd rfl (he _ _ _)
  | unknown hr hc => exact absurd rfl (he _ _ _)
  | disconnected hr => exact absurd rfl (he _ _ _)
  | pong hr => exact absurd rfl (he _ _ _)
  | unimplemented hr hp => exact absurd rfl (he _ _ _)

/-- The client takes a packet; at most it loses an id whose connection has left. -/
theorem Agrees.taken {t : Tunnel} {i : UInt16} (h : t.Agrees i) {k : Nat} {p : SocketPacket}
    {c : Client} {toClient : List (Nat × SocketPacket)} (hq : t.toClient = (k, p) :: toClient)
    (htoProxy : c.toProxy = t.client.toProxy)
    (hhas : clientHas c i = true → keeps i (clientHas t.client i) (k, p) = true)
    (hlost : keeps i (clientHas t.client i) (k, p) = true → clientHas c i = true ∨ Leaving t.client i)
    (hdropped : ∀ {k l}, c.state.connections.lookup i = some k → c.spawned.lookup k = some l →
      l.phase = .dropped ∨ l.phase = .gone → Leaving t.client i) :
    Agrees { t with client := c, toClient := toClient, toServer := t.toServer ++ [] } i := by
  have hsplit : t.willHave i = after i (keeps i (clientHas t.client i) (k, p)) toClient := by
    rw [willHave, hq]
    rfl
  have htold : Told { t with client := c, toClient := toClient, toServer := t.toServer ++ [] } i →
      t.Told i := fun ⟨j, hj⟩ => ⟨j, by simpa using hj⟩
  have htold' : t.Told i →
      Told { t with client := c, toClient := toClient, toServer := t.toServer ++ [] } i :=
    fun ⟨j, hj⟩ => ⟨j, by simpa using hj⟩
  have hless : after i (clientHas c i) toClient = true → t.willHave i = true := fun hw => by
    rw [hsplit]
    exact after_mono hhas hw
  refine ⟨fun ht => ?_, fun hn hw => ?_, fun hn hw => ?_, fun hi hl hp => ?_⟩
  · obtain ⟨hnot, hjoin⟩ := h.told (htold ht)
    refine ⟨?_, fun j hj => hjoin j (hq ▸ .tail _ hj)⟩
    show after i (clientHas c i) toClient = false
    rw [Bool.eq_false_iff]
    intro hw
    rw [hless hw] at hnot
    cases hnot
  · exact h.client (fun ht => hn (htold' ht)) (hless hw)
  · show after i (clientHas c i) toClient = true ∨ Leaving c i
    rw [Leaving, htoProxy]
    rcases h.server (fun ht => hn (htold' ht)) hw with hw | hl
    · rw [hsplit] at hw
      by_cases hk : keeps i (clientHas t.client i) (k, p) = true
      · exact (hlost hk).imp_left fun hc => after_mono (fun _ => hc) hw
      · exact Or.inl (after_mono (fun h' => absurd h' hk) hw)
    · exact Or.inr hl
  · show Leaving c i
    rw [Leaving, htoProxy]
    exact hdropped hi hl hp

theorem Agrees.take {t : Tunnel} {i : UInt16} (h : t.Agrees i) (ht : t.Inv) {k millis : Nat}
    {p : SocketPacket} {c : Client} {toClient out : List (Nat × SocketPacket)}
    (hq : t.toClient = (k, p) :: toClient) (hs : Client.Step t.client (.packet k p millis) c out)
    (hr' : c.result = none) :
    Agrees { t with client := c, toClient := toClient, toServer := t.toServer ++ out } i := by
  cases hs with
  | @join _ id _ hr =>
    have hlookup : clientHas { t.client with
        state := t.client.state.addConnection id k, spawned := t.client.spawned.insert k (.new id),
        joins := (k, id) :: t.client.joins, freed := t.client.freed.filter (· ≠ id) } i
          = keeps i (clientHas t.client i) (k, .ProxyJoin id) := by
      show ((t.client.state.connections.insert id k).lookup i).isSome = _
      rw [Table.lookup_insert]
      by_cases hi : i = id
      · simp [keeps, hi]
      · simp [keeps, hi, Ne.symm hi, clientHas]
    refine h.taken hq rfl (fun hw => hlookup ▸ hw) (fun hk => Or.inl (hlookup ▸ hk)) fun {j l} hi hl hp => ?_
    rw [Table.lookup_insert] at hl
    split at hl
    · cases hl
      rcases hp with hp | hp <;> cases hp
    · next hj =>
      rw [State.addConnection_connections, Table.lookup_insert] at hi
      split at hi
      · cases hi
        exact absurd rfl hj
      · exact h.dropped hi hl hp
  | @deliver _ d tx _ hr hc ho =>
    refine h.taken hq rfl id Or.inl fun {j l} hi hl hp => ?_
    obtain ⟨lx, hlx⟩ := ht.client.joined (newest_mem (ht.client.entry hc))
    rcases Client.spawned_modify_some hlx hl with ⟨rfl, rfl⟩ | ⟨-, hl⟩
    · exact h.dropped hi hlx hp
    · exact h.dropped hi hl hp
  | @lost _ d tx _ hr hc ho =>
    have hlookup : clientHas { t.client with
        state := { t.client.state with
          connections := t.client.state.connections.erase d.clientId },
        freed := d.clientId :: t.client.freed } i
          = if i = d.clientId then false else clientHas t.client i := by
      show ((t.client.state.connections.erase d.clientId).lookup i).isSome = _
      rw [Table.lookup_erase]
      split <;> rfl
    refine h.taken hq rfl (fun hw => ?_) (fun hk => ?_) fun hi hl hp => ?_
    · rw [hlookup] at hw
      split at hw
      · cases hw
      · exact hw
    · rw [hlookup]
      split
      · next heq =>
        -- its connection is gone, so it has said so
        obtain ⟨l, hl⟩ := ht.client.joined (newest_mem (ht.client.entry hc))
        rw [Client.closed, hl, Option.any_some, decide_eq_true_eq] at ho
        exact Or.inr (h.dropped (heq ▸ hc) hl (Or.inr ho))
      · exact Or.inl hk
    · exact h.dropped (Client.erase_sub hi) hl hp
  | unknown hr hc => cases hr'
  | @disconnected _ id _ hr =>
    have hlookup : clientHas { t.client with state := t.client.state.removeConnection id } i
        = keeps i (clientHas t.client i) (k, .ProxyDisconnect id) := by
      show ((t.client.state.connections.erase id).lookup i).isSome = _
      rw [Table.lookup_erase]
      by_cases hi : i = id
      · simp [keeps, hi]
      · simp [keeps, hi, Ne.symm hi, clientHas]
    exact h.taken hq rfl (fun hw => hlookup ▸ hw) (fun hk => Or.inl (hlookup ▸ hk)) fun hi hl hp =>
      h.dropped (Client.erase_sub hi) hl hp
  | pong hr => exact h.taken hq rfl id Or.inl fun hi hl hp => h.dropped hi hl hp
  | unimplemented hr hp => cases hr'

end Tunnel

/-- Both loops run, and the tables agree. -/
def Tunnel.InStep (t : Tunnel) : Prop :=
  t.server.result = none → t.client.result = none → ∀ i, t.Agrees i

theorem Tunnel.InStep.step {t t' : Tunnel} {e : TunnelEvent} (h : t.InStep) (ht : t.Inv)
    (hc : t.uncrossed e = true) (hs : Tunnel.Step t e t') : t'.InStep := by
  intro hrs hrc i
  cases hs with
  | server he hs =>
    exact (h (Session.result_of_step hs hrs) hrc i).session he hc hs hrs
  | client he hs =>
    exact (h hrs (Client.result_of_step hs hrc) i).clientStep ht he hc hs hrc
  | toServer hq hs => exact (h (Session.result_of_step hs hrs) hrc i).receive hq hs
  | toClient hq hs => exact (h hrs (Client.result_of_step hs hrc) i).take ht hq hs hrc

/--
**The tables of both sides are equal when nothing is in flight**, in every run in which the
two sides do not cross.
-/
theorem tables_agree {t : Tunnel}
    (h : (tunnelMachine.restrict fun t e => t.uncrossed e = true).Reachable t)
    (hs : t.server.result = none) (hc : t.client.result = none) (hrest : t.AtRest) (i : UInt16) :
    i ∈ t.client.state.connections.keys ↔ i ∈ t.server.distributor.clientsId.keys := by
  have hin : t.InStep :=
    Machine.Reachable.restrict_invariant (I := Tunnel.InStep)
      (fun _ _ i => Tunnel.agrees_new i)
      (fun _ _ _ hr hin hc hs => hin.step (Tunnel.reachable_inv hr) hc (Tunnel.step_cases hs)) h
  have hi := hin hs hc i
  have hquiet : ¬ t.Told i := fun ⟨k, hk⟩ => by rw [hrest.toServer] at hk; cases hk
  have hstay : ¬ Tunnel.Leaving t.client i := fun ⟨k, hk⟩ => by rw [hrest.toProxy] at hk; cases hk
  have hwill : t.willHave i = Tunnel.clientHas t.client i := by
    rw [Tunnel.willHave, hrest.toClient]
    rfl
  have hclient := hi.client hquiet
  have hserver := hi.server hquiet
  rw [hwill] at hclient hserver
  rw [← AList.mem_keys, ← AList.mem_keys, ← AList.lookup_isSome, ← AList.lookup_isSome]
  exact ⟨hclient, fun hw => (hserver hw).resolve_right hstay⟩

/-- A Minecraft client joins, and its connection is opened. -/
def arrival (k : Nat) (addr : SocketAddr) : List TunnelEvent :=
  [.server (.join addr ⟨[16]⟩), .server (.hello k), .server .take, .server .take]

/-- The local server closes connection `k`. -/
def localClose (k : Nat) : List TunnelEvent :=
  [.client (.connected k), .client (.stop k), .client (.drop k), .client .send, .client (.close k)]

/-- A local connection ends, and another client is given the id after that. -/
def endedBeforeReuse : List TunnelEvent :=
  arrival 0 (.V4 0 40000) ++ .toClient 0 :: .toClient 0 :: localClose 0 ++
    .toServer :: .server (.receive 0) :: .server (.drop 0) :: arrival 1 (.V4 0 40001) ++
    [.toClient 0, .toClient 0]

theorem tables_agree_reuse : ∃ t,
    (tunnelMachine.restrict fun t e => t.uncrossed e = true).Reachable t ∧
    t.client.state.connections.keys = [0] ∧
    ∀ i, i ∈ t.client.state.connections.keys ↔ i ∈ t.server.distributor.clientsId.keys :=
  ⟨_, ⟨endedBeforeReuse, rfl⟩, rfl,
    tables_agree ⟨endedBeforeReuse, rfl⟩ rfl rfl ⟨rfl, rfl, rfl, rfl, by decide, by decide⟩⟩

/--
The local server closes the connection of a client that leaves at the same time. The next
client gets the id and is removed by the `ProxyDisconnect` for the one before; its
connection stays in the table of the proxy client.
-/
def crossing : List TunnelEvent :=
  arrival 0 (.V4 0 40000) ++ .toClient 0 :: .toClient 0 :: localClose 0 ++
    .server (.stop 0) :: .server (.drop 0) :: .server .take :: arrival 1 (.V4 0 40001) ++
    [.toServer, .server (.receive 1), .server (.drop 1), .toClient 0, .toClient 0, .toClient 0,
      .client (.connected 1), .client (.take 1)]

theorem crossing_leaves_entry : ∃ t, tunnelMachine.Reachable t ∧
    t.server.result.isNone ∧ t.client.result.isNone ∧ t.AtRest ∧
    t.client.state.connections.keys = [0] ∧ t.server.distributor.clientsId.keys = [] :=
  ⟨_, ⟨crossing, rfl⟩, rfl, rfl, ⟨rfl, rfl, rfl, rfl, by decide, by decide⟩, rfl, rfl⟩

end CraftIp
