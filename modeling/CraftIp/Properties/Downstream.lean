import CraftIp.Properties.CrossTalk
import CraftIp.Properties.Upstream

/-!
# From the local server to a Minecraft client

The data of one local connection goes through the queue of the proxy client, the control
connection and the channel of its Minecraft client. In the runs without cross-talk it keeps
its order on this way, and as long as the session has an entry for the Minecraft client and
the proxy client runs, nothing of it is missing.

* `Heard` — what is known of the data that is on its way to a Minecraft client
* `Heard.step` — every step keeps it, when what is read is put in and what is received is
  taken out
-/

namespace CraftIp

open Infra

namespace Session

/-- The session has an entry for client `k`, whose connection is open. -/
def Serves (s : Session) (k : Nat) : Prop :=
  ∃ addr c, s.distributor.clientsAddr.lookup addr = some c ∧ c.tx = k ∧ s.Live k addr

end Session

namespace Tunnel

/-! ## The data of one connection -/

/-- What is in the channel of Minecraft client `k`. -/
def rxOf (s : Session) (k : Nat) : List MinecraftDataPacket :=
  (s.clients[k]?.map MCClient.rx).getD []

/-- What connection `k` has put into the queue of its loop. -/
def spokenOf (k : Nat) (queue : List (Nat × Client.ClientToProxy)) : List MinecraftDataPacket :=
  queue.filterMap fun
    | (j, .Packet _ pkg) => if j = k then some pkg else none
    | _ => none

theorem spokenOf_append (k : Nat) (p q : List (Nat × Client.ClientToProxy)) :
    spokenOf k (p ++ q) = spokenOf k p ++ spokenOf k q := List.filterMap_append

theorem spokenOf_packet (k j : Nat) (id : UInt16) (pkg : MinecraftDataPacket) :
    spokenOf k [(j, .Packet id pkg)] = if j = k then [pkg] else [] := by
  unfold spokenOf
  by_cases h : j = k <;> simp [h]

/-- What Minecraft client `k` gets in this step of the session. -/
def gotOf (s : Session) (e : SessionEvent) (k : Nat) : List MinecraftDataPacket :=
  match e with
  | .receive j => if j = k then (rxOf s k).head?.toList else []
  | _ => []

/-- What connection `k` reads in this step of the proxy client. -/
def saidOf (e : ClientEvent) (k : Nat) : List MinecraftDataPacket :=
  match e with
  | .read j data => if j = k then [⟨data⟩] else []
  | _ => []

/-- What is known when `q` is on its way to Minecraft client `k`. -/
structure Heard (t : Tunnel) (k : Nat) (q : List MinecraftDataPacket) : Prop where
  channel : rxOf t.server k <+: q
  sent : t.server.Serves k → rxOf t.server k ++ dataOf k t.toServer <+: q
  all : t.server.Serves k → t.client.result = none →
    rxOf t.server k ++ dataOf k t.toServer ++ spokenOf k t.client.toProxy = q
  /-- Before its `ProxyJoin` there is no connection that could send something. -/
  fresh : k ∉ t.server.joined.map Prod.fst → q = []

theorem heard_new (k : Nat) : new.Heard k [] where
  channel := by simp [new, rxOf, Session.new]
  sent _ := by simp [new, rxOf, Session.new, dataOf]
  all _ _ := by simp [new, rxOf, Session.new, dataOf, spokenOf, Client.new]
  fresh _ := rfl

/-! ## The session -/

theorem rxOf_modify {s : Session} {k j : Nat} {m : MCClient} {f : MCClient → MCClient}
    (hm : s.clients[j]? = some m) : rxOf (s.modify j f) k = if j = k then (f m).rx else rxOf s k := by
  unfold rxOf
  rw [Session.clients_modify]
  by_cases h : j = k
  · subst h
    rw [if_pos rfl, if_pos rfl, hm]
    rfl
  · rw [if_neg h, if_neg h]

theorem rxOf_of {s : Session} {k : Nat} {m : MCClient} (hm : s.clients[k]? = some m) :
    rxOf s k = m.rx := by
  rw [rxOf, hm]
  rfl

/-- A client whose channel is as before. -/
theorem rxOf_modify_eq {s : Session} {j : Nat} {m : MCClient} {f : MCClient → MCClient}
    (hm : s.clients[j]? = some m) (hf : (f m).rx = m.rx) (k : Nat) :
    rxOf (s.modify j f) k = rxOf s k := by
  rw [rxOf_modify hm]
  split
  · next h => subst h; rw [hf, rxOf_of hm]
  · rfl

/-- A change of one client gives nobody an entry. -/
theorem serves_modify {s : Session} {k j : Nat} {m : MCClient} {f : MCClient → MCClient}
    (hm : s.clients[j]? = some m) (haddr : (f m).addr = m.addr)
    (hopen : (f m).phase ≠ .gone → m.phase ≠ .gone) (h : (s.modify j f).Serves k) :
    s.Serves k ∧ (k = j → (f m).phase ≠ .gone) := by
  obtain ⟨addr, c, hc, hk, hlive⟩ := h
  obtain ⟨hlive, hne⟩ := (Session.live_modify hm haddr hopen).mp hlive
  exact ⟨⟨addr, c, hc, hk, hlive⟩, hne⟩

/-- Smaller tables serve fewer clients. -/
theorem serves_shrink {s s' : Session} {k : Nat} (h : s'.Serves k)
    (hclients : s'.clients = s.clients)
    (hsub : ∀ {addr c}, s'.distributor.clientsAddr.lookup addr = some c →
      s.distributor.clientsAddr.lookup addr = some c) : s.Serves k := by
  obtain ⟨addr, c, hc, hk, m, hm, hp, ha⟩ := h
  exact ⟨addr, c, hsub hc, hk, m, hclients ▸ hm, hp, ha⟩

theorem not_serves_finish (s : Session) (k : Nat) (result : Except DistributorError Unit) :
    ¬ (s.finish result).Serves k := by
  rintro ⟨addr, c, hc, -⟩
  cases hc

theorem removeByAddr_sub {d : Distribiutor} {addr a : SocketAddr} {c : MinecraftClient}
    (h : (d.removeByAddr addr).clientsAddr.lookup a = some c) : d.clientsAddr.lookup a = some c := by
  rw [Distribiutor.removeByAddr_lookup] at h
  split at h
  · cases h
  · exact h

theorem removeById_sub {d : Distribiutor} (hd : d.Consistent) {id : UInt16} {a : SocketAddr}
    {c : MinecraftClient} (h : (d.removeById id).clientsAddr.lookup a = some c) :
    d.clientsAddr.lookup a = some c := by
  rw [hd.removeById_lookup] at h
  exact (Option.filter_eq_some_iff.mp h).1

/--
What a step of the session without a packet does to the channel of client `k`: what it
receives is taken out, or the channel is dropped and nobody serves the client any more.
-/
theorem session_channel {s s' : Session} {e : SessionEvent} {out : List (Nat × SocketPacket)}
    (he : ∀ k packet, e ≠ .packet k packet) (hs : Session.Step s e s' out) (k : Nat) :
    rxOf s k = gotOf s e k ++ rxOf s' k ∨
      gotOf s e k = [] ∧ rxOf s' k = [] ∧ ¬ s'.Serves k := by
  have hdropped : ∀ {j m}, s.clients[j]? = some m →
      rxOf s k = rxOf (s.modify j fun m => { m with phase := .gone, rx := [] }) k ∨
        rxOf (s.modify j fun m => { m with phase := .gone, rx := [] }) k = [] ∧
        ¬ (s.modify j fun m => { m with phase := .gone, rx := [] }).Serves k := by
    intro j m hm
    rw [rxOf_modify hm]
    by_cases hj : j = k
    · subst hj
      refine Or.inr ⟨if_pos rfl, fun hserves => ?_⟩
      exact (serves_modify hm rfl (fun h => absurd rfl h) hserves).2 rfl rfl
    · exact Or.inl (if_neg hj).symm
  cases hs with
  | @join addr hello hr ha =>
    refine Or.inl ?_
    show rxOf s k = ((s.clients ++ [_])[k]?.map MCClient.rx).getD []
    unfold rxOf
    rcases Nat.lt_trichotomy k s.clients.length with hk | rfl | hk
    · rw [List.getElem?_append_left hk]
    · rw [List.getElem?_concat_length, List.getElem?_eq_none (Nat.le_refl _)]
      rfl
    · rw [List.getElem?_eq_none hk.le,
        List.getElem?_eq_none (by rw [List.length_append]; exact hk)]
  | hello hm hp hr => exact Or.inl (rxOf_modify_eq hm rfl k).symm
  | @helloClosed j m hello hm hp hr => exact Or.inl (rxOf_modify_eq hm rfl k).symm
  | read hm hp hr => exact Or.inl (rxOf_modify_eq hm rfl k).symm
  | readClosed hm hp hr => exact Or.inl (rxOf_modify_eq hm rfl k).symm
  | @receive j m pkg rx hm hp hx =>
    refine Or.inl ?_
    rw [rxOf_modify hm, gotOf]
    by_cases hj : j = k
    · subst hj
      rw [if_pos rfl, if_pos rfl, rxOf_of hm, hx]
      rfl
    · rw [if_neg hj, if_neg hj]
      rfl
  | @receiveClosed j m hm hp hx hs =>
    refine Or.inl ?_
    rw [rxOf_modify_eq hm rfl, gotOf]
    by_cases hj : j = k
    · subst hj
      rw [if_pos rfl, rxOf_of hm, hx]
      rfl
    · rw [if_neg hj]
      rfl
  | stop hm hp => exact Or.inl (rxOf_modify_eq hm rfl k).symm
  | drop hm hp hn hr =>
    rcases hdropped hm with h | h
    · exact Or.inl h
    · exact Or.inr ⟨rfl, h⟩
  | dropSilent hm hp hn =>
    rcases hdropped hm with h | h
    · exact Or.inl h
    · exact Or.inr ⟨rfl, h⟩
  | evict hr hc => exact absurd rfl (he _ _)
  | evictNone hr hc => exact absurd rfl (he _ _)
  | deliver hr hc => exact absurd rfl (he _ _)
  | deliverNone hr hc => exact absurd rfl (he _ _)
  | pong hr => exact absurd rfl (he _ _)
  | ignored hr hp => exact absurd rfl (he _ _)
  | _ => exact Or.inl rfl

/-- A client is served that was served before, or joins in this step. -/
theorem session_serves {s s' : Session} {e : SessionEvent} {out : List (Nat × SocketPacket)}
    (h : s.Inv) (hs : Session.Step s e s' out) {k : Nat} (hk : s'.Serves k) :
    s.Serves k ∨ k ∉ s.joined.map Prod.fst := by
  cases hs with
  | @join addr hello hr ha =>
    obtain ⟨a, c, hc, rfl, hlive⟩ := hk
    rcases Session.live_connect.mp hlive with hlive | ⟨hlen, -⟩
    · exact Or.inl ⟨a, c, hc, rfl, hlive⟩
    · -- who has an entry had a number before
      obtain ⟨m, hm, -⟩ := (h.entry hc).2
      rw [hlen, List.getElem?_eq_none (Nat.le_refl _)] at hm
      cases hm
  | @hello j m hello hm hp hr =>
    refine Or.inl (serves_modify
      (f := fun m => { m with phase := .running, read := m.read ++ [hello] }) hm rfl ?_ hk).1
    rw [hp]
    exact fun _ => MCPhase.noConfusion
  | helloClosed hm hp hr => exact Or.inl (serves_modify hm rfl (fun h => absurd rfl h) hk).1
  | @read j m pkg hm hp hr =>
    exact Or.inl (serves_modify (f := fun m => { m with read := m.read ++ [pkg] }) hm rfl id hk).1
  | readClosed hm hp hr =>
    refine Or.inl (serves_modify hm rfl ?_ hk).1
    rw [hp]
    exact fun _ => MCPhase.noConfusion
  | receive hm hp hx => exact Or.inl (serves_modify hm rfl id hk).1
  | receiveClosed hm hp hx hs =>
    refine Or.inl (serves_modify hm rfl ?_ hk).1
    rw [hp]
    exact fun _ => MCPhase.noConfusion
  | stop hm hp =>
    refine Or.inl (serves_modify hm rfl ?_ hk).1
    rw [hp]
    exact fun _ => MCPhase.noConfusion
  | drop hm hp hn hr =>
    exact Or.inl (serves_modify (f := fun m => { m with phase := .gone, rx := [] }) hm rfl
      (fun h => absurd rfl h) hk).1
  | dropSilent hm hp hn => exact Or.inl (serves_modify hm rfl (fun h => absurd rfl h) hk).1
  | close hr hq => exact absurd hk (not_serves_finish _ _ _)
  | @add j addr tx queue c d hr hq hi =>
    obtain ⟨a, c', hc', hk', hlive⟩ := hk
    obtain ⟨htx, -, hlookup, -⟩ := Distribiutor.insert_eq_ok hi
    rw [hlookup] at hc'
    split at hc'
    · cases hc'
      refine Or.inr ?_
      intro hmem
      have hadded := (h.added (hq ▸ List.mem_cons_self)).1
      have hnew : j ∈ Session.adds s.queue :=
        Session.mem_adds.mpr ⟨addr, tx, hq ▸ List.mem_cons_self⟩
      rw [← hk', htx, hadded] at hmem
      exact (List.nodup_append.mp h.fresh).2.2 j hnew j hmem rfl
    · exact Or.inl ⟨a, c', hc', hk', hlive⟩
  | tooMany hr hq hi => exact absurd hk (not_serves_finish _ _ _)
  | forward hr hq hc => exact Or.inl (serves_shrink hk rfl id)
  | wrongPacket hr hq hc => exact absurd hk (not_serves_finish _ _ _)
  | remove hr hq => exact Or.inl (serves_shrink hk rfl removeByAddr_sub)
  | evict hr hc => exact Or.inl (serves_shrink hk rfl (removeById_sub h.tables))
  | evictNone hr hc => exact Or.inl (serves_shrink hk rfl (removeById_sub h.tables))
  | @deliver src d c hr hc =>
    obtain ⟨addr, hc, -⟩ := h.tables.getById_iff.mp hc
    obtain ⟨m, hm, -⟩ := (h.entry hc).2
    exact Or.inl (serves_modify hm (Session.deliver_addr _ _)
      (fun hne => by rwa [Session.deliver_phase] at hne) hk).1
  | deliverNone hr hc => exact Or.inl hk
  | pong hr => exact Or.inl hk
  | ignored hr hp => exact Or.inl hk
  | broken hr => exact absurd hk (not_serves_finish _ _ _)
  | leave hr => exact absurd hk (not_serves_finish _ _ _)

/-! ## The proxy client -/

/--
What a step of the proxy client without a packet does to the data of connection `k`: what
it reads is put into the queue, and from there into the control connection.
-/
theorem client_speech {c c' : Client} {e : ClientEvent} {out : List (Nat × SocketPacket)}
    (he : ∀ k packet millis, e ≠ .packet k packet millis) (hs : Client.Step c e c' out) (k : Nat) :
    (c'.result = none → c.result = none ∧
      dataOf k out ++ spokenOf k c'.toProxy = spokenOf k c.toProxy ++ saidOf e k) ∧
    (c'.result ≠ none → dataOf k out = []) := by
  cases hs with
  | connected hl hp => simp [Client.modify, dataOf, saidOf]
  | failed hl hp hr =>
    simp [Client.modify, Client.enqueue, dataOf, saidOf, spokenOf, hr]
  | failedClosed hl hp hr => simp [Client.modify, dataOf, saidOf]
  | take hl hp hx => simp [Client.modify, dataOf, saidOf]
  | takeClosed hl hp hx hs => simp [Client.modify, dataOf, saidOf]
  | read hl hp hd hr =>
    refine ⟨fun _ => ⟨hr, ?_⟩, fun _ => rfl⟩
    rw [Client.enqueue, spokenOf_append, spokenOf_packet]
    rfl
  | readClosed hl hp hr => exact ⟨fun h => absurd h hr, fun _ => rfl⟩
  | stop hl hp => simp [Client.modify, dataOf, saidOf]
  | drop hl hp hn hr =>
    simp [Client.modify, Client.enqueue, dataOf, saidOf, spokenOf, hr]
  | dropSilent hl hp hn => simp [Client.modify, dataOf, saidOf]
  | close hl hp => simp [Client.modify, dataOf, saidOf]
  | @forward j id pkg toProxy hr hq =>
    refine ⟨fun _ => ⟨hr, ?_⟩, fun h => absurd hr h⟩
    have hsplit := spokenOf_append k [(j, .Packet id pkg)] toProxy
    rw [List.singleton_append, ← hq, spokenOf_packet] at hsplit
    rw [hsplit, dataOf_data]
    exact (List.append_nil _).symm
  | remove hr hq hc => simp [dataOf, saidOf, spokenOf, hq, hr]
  | removeNone hr hq hc => simp [dataOf, saidOf, spokenOf, hq, hr]
  | death hr hq => exact ⟨fun h => (by cases h), fun _ => rfl⟩
  | ping hr => simp [dataOf, saidOf, hr]
  | disconnect hr => exact ⟨fun h => (by cases h), fun _ => rfl⟩
  | broken hr => exact ⟨fun h => (by cases h), fun _ => rfl⟩
  | join hr => exact absurd rfl (he _ _ _)
  | deliver hr hc ho => exact absurd rfl (he _ _ _)
  | lost hr hc ho => exact absurd rfl (he _ _ _)
  | unknown hr hc => exact absurd rfl (he _ _ _)
  | disconnected hr => exact absurd rfl (he _ _ _)
  | pong hr => exact absurd rfl (he _ _ _)
  | unimplemented hr hp => exact absurd rfl (he _ _ _)

/-- Only a connection that was spawned reads. -/
theorem said_of_joined {c c' : Client} {e : ClientEvent} {out : List (Nat × SocketPacket)}
    (h : c.Inv) (hs : Client.Step c e c' out) {k : Nat} (hk : k ∉ c.joins.map Prod.fst) :
    saidOf e k = [] := by
  have hread : ∀ {j l data}, c.spawned.lookup j = some l → saidOf (.read j data) k = [] := by
    intro j l data hl
    refine if_neg ?_
    rintro rfl
    exact hk (List.mem_map.mpr ⟨_, h.spawned hl, rfl⟩)
  cases hs with
  | read hl hp hd hr => exact hread hl
  | readClosed hl hp hr => exact hread hl
  | _ => rfl

/-- A packet leaves the queue as it is, as long as the client runs. -/
theorem client_queue {c c' : Client} {k millis : Nat} {p : SocketPacket}
    {out : List (Nat × SocketPacket)} (hs : Client.Step c (.packet k p millis) c' out)
    (hr : c'.result = none) : c.result = none ∧ c'.toProxy = c.toProxy := by
  cases hs with
  | join hr => exact ⟨hr, rfl⟩
  | deliver hr hc ho => exact ⟨hr, rfl⟩
  | lost hr hc ho => exact ⟨hr, rfl⟩
  | disconnected hr => exact ⟨hr, rfl⟩
  | pong hr => exact ⟨hr, rfl⟩
  | unknown hr' hc => cases hr
  | unimplemented hr' hp => cases hr

/-! ## Who has not joined is silent -/

theorem dataOf_eq_nil {t : Tunnel} (h : t.Unmistaken) {k : Nat}
    (hk : k ∉ t.server.joined.map Prod.fst) : dataOf k t.toServer = [] := by
  refine List.filterMap_eq_nil_iff.mpr ?_
  rintro ⟨j, p⟩ hmem
  cases p with
  | ProxyData d =>
    have hj : j ≠ k := by
      rintro rfl
      exact hk (List.mem_map.mpr ⟨_, newest_mem (h.packets hmem rfl), rfl⟩)
    simp [hj]
  | _ => rfl

theorem spokenOf_eq_nil {t : Tunnel} (h : t.Unmistaken) {k : Nat}
    (hk : k ∉ t.server.joined.map Prod.fst) : spokenOf k t.client.toProxy = [] := by
  refine List.filterMap_eq_nil_iff.mpr ?_
  rintro ⟨j, msg⟩ hmem
  cases msg with
  | Packet id pkg =>
    have hj : j ≠ k := by
      rintro rfl
      exact hk (List.mem_map.mpr ⟨_, newest_mem (h.messages hmem rfl).1, rfl⟩)
    simp [hj]
  | _ => rfl

/-! ## Every step -/

theorem Heard.session {t : Tunnel} {k : Nat} {q : List MinecraftDataPacket} (h : t.Heard k q)
    (hu : t.Unmistaken) (ht : t.Inv) {e : SessionEvent} {s : Session}
    {out toClient : List (Nat × SocketPacket)} (he : ∀ k packet, e ≠ .packet k packet)
    (hs : Session.Step t.server e s out) :
    ∃ q', q = gotOf t.server e k ++ q' ∧
      Heard { t with server := s, toClient := toClient } k q' := by
  have hjoined : k ∉ s.joined.map Prod.fst → k ∉ t.server.joined.map Prod.fst := by
    intro hk hmem
    rcases session_joined hs with heq | ⟨j, addr, tx, queue, id, -, -, -, heq⟩
    · exact hk (heq ▸ hmem)
    · exact hk (heq ▸ List.mem_cons_of_mem _ hmem)
  rcases session_channel he hs k with hrx | ⟨hgot, hrx, hno⟩
  · obtain ⟨rest, hq⟩ := h.channel
    rw [hrx, List.append_assoc] at hq
    refine ⟨rxOf s k ++ rest, hq.symm, List.prefix_append _ _, ?_, ?_, ?_⟩
    · intro hserves
      rcases session_serves ht.server hs hserves with hserves | hk
      · have hsent := h.sent hserves
        rw [hrx, ← hq, List.append_assoc] at hsent
        exact (List.prefix_append_right_inj _).mp hsent
      · rw [dataOf_eq_nil hu hk, List.append_nil]
        exact List.prefix_append _ _
    · intro hserves hr
      rcases session_serves ht.server hs hserves with hserves | hk
      · have hall := h.all hserves hr
        rw [hrx, ← hq, List.append_assoc, List.append_assoc] at hall
        simpa using hall
      · have hnil := h.fresh hk
        rw [← hq] at hnil
        simp only [List.append_eq_nil_iff] at hnil
        rw [dataOf_eq_nil hu hk, spokenOf_eq_nil hu hk, hnil.2.2]
        simp
    · intro hk
      have hnil := h.fresh (hjoined hk)
      rw [← hq] at hnil
      exact (List.append_eq_nil_iff.mp hnil).2
  · refine ⟨q, by rw [hgot, List.nil_append], ?_, ?_, ?_, fun hk => h.fresh (hjoined hk)⟩
    · show rxOf s k <+: q
      rw [hrx]
      exact List.nil_prefix
    · exact fun hserves => absurd hserves hno
    · exact fun hserves => absurd hserves hno

/-- The session takes a packet: data of its entry goes into the channel. -/
theorem Heard.receive {t : Tunnel} {k : Nat} {q : List MinecraftDataPacket} (h : t.Heard k q)
    (hu : t.Unmistaken) (ht : t.Inv) {j : Nat} {p : SocketPacket} {s : Session}
    {toServer out toClient : List (Nat × SocketPacket)} (hq : t.toServer = (j, p) :: toServer)
    (hs : Session.Step t.server (.packet j p) s out) :
    Heard { t with server := s, toServer := toServer, toClient := toClient } k q := by
  have hsplit := dataOf_append k [(j, p)] toServer
  rw [List.singleton_append, ← hq] at hsplit
  -- no data of connection `k`, and the channels stay as they are
  have hother : ∀ {s : Session}, s.joined = t.server.joined → rxOf s k = rxOf t.server k →
      (s.Serves k → t.server.Serves k ∧ dataOf k [(j, p)] = []) →
      Heard { t with server := s, toServer := toServer, toClient := toClient } k q := by
    intro s hj hrx hserves
    refine ⟨?_, fun hs => ?_, fun hs hr => ?_, fun hk => h.fresh (hj ▸ hk)⟩
    · show rxOf s k <+: q
      rw [hrx]
      exact h.channel
    · obtain ⟨hs, hd⟩ := hserves hs
      have hsent := h.sent hs
      rw [hsplit, hd, List.nil_append] at hsent
      show rxOf s k ++ dataOf k toServer <+: q
      rwa [hrx]
    · obtain ⟨hs, hd⟩ := hserves hs
      have hall := h.all hs hr
      rw [hsplit, hd, List.nil_append] at hall
      show rxOf s k ++ dataOf k toServer ++ spokenOf k t.client.toProxy = q
      rwa [hrx]
  cases hs with
  | evict hr hc =>
    exact hother rfl rfl fun hs => ⟨serves_shrink hs rfl (removeById_sub ht.server.tables), rfl⟩
  | evictNone hr hc =>
    exact hother rfl rfl fun hs => ⟨serves_shrink hs rfl (removeById_sub ht.server.tables), rfl⟩
  | @deliver _ d c hr hc =>
    obtain ⟨addr, hc, hid⟩ := ht.server.tables.getById_iff.mp hc
    obtain ⟨m, hm, hma⟩ := (ht.server.entry hc).2
    have hown : c.tx = j := by
      have hnew := hu.packets (hq ▸ List.mem_cons_self) (rfl : packetId (.ProxyData d) = _)
      rw [← hid, (ht.server.entry hc).1] at hnew
      exact Option.some.inj hnew
    by_cases hj : j = k
    · subst hj
      subst hown
      rw [dataOf_data, if_pos rfl] at hsplit
      by_cases hp : m.phase = .gone
      · -- the client has dropped its channel
        refine hother rfl (rxOf_modify_eq hm (by rw [Session.deliver, if_pos hp]) _) ?_
        intro hs
        have hne := (serves_modify hm (Session.deliver_addr _ _)
          (fun h => by rwa [Session.deliver_phase] at h) hs).2 rfl
        rw [Session.deliver_phase] at hne
        exact absurd hp hne
      · have hserves : t.server.Serves c.tx := ⟨addr, c, hc, rfl, m, hm, hp, hma⟩
        have hrx : rxOf (t.server.modify c.tx (Session.deliver d.packet)) c.tx
            = rxOf t.server c.tx ++ [d.packet] := by
          rw [rxOf_modify hm, if_pos rfl, rxOf_of hm, Session.deliver, if_neg hp]
        have hsent := h.sent hserves
        rw [hsplit, ← List.append_assoc] at hsent
        refine ⟨?_, fun _ => ?_, fun _ hr => ?_, h.fresh⟩
        · show rxOf (t.server.modify c.tx _) c.tx <+: q
          rw [hrx]
          exact (List.prefix_append _ _).trans hsent
        · show rxOf (t.server.modify c.tx _) c.tx ++ dataOf c.tx toServer <+: q
          rw [hrx]
          exact hsent
        · have hall := h.all hserves hr
          rw [hsplit, ← List.append_assoc] at hall
          show rxOf (t.server.modify c.tx _) c.tx ++ dataOf c.tx toServer ++ _ = q
          rw [hrx]
          exact hall
    · refine hother rfl ?_ ?_
      · show rxOf (t.server.modify c.tx _) k = _
        rw [rxOf_modify hm, if_neg (fun heq => hj (hown ▸ heq))]
      · intro hs
        refine ⟨(serves_modify hm (Session.deliver_addr _ _)
          (fun h => by rwa [Session.deliver_phase] at h) hs).1, ?_⟩
        rw [dataOf_data, if_neg hj]
  | @deliverNone _ d hr hc =>
    refine hother rfl rfl fun hs => ⟨hs, ?_⟩
    rw [dataOf_data]
    split
    · next hj =>
      -- a connection whose client has an entry speaks under the id of the entry
      subst hj
      obtain ⟨addr, c, hlookup, rfl, -⟩ := hs
      have hnew := hu.packets (hq ▸ List.mem_cons_self) (rfl : packetId (.ProxyData d) = _)
      have hid := List.inj_on_of_nodup_map ht.server.fresh.of_append_right
        (newest_mem (ht.server.entry hlookup).1) (newest_mem hnew) rfl
      rw [Distribiutor.Consistent.getById_iff ht.server.tables |>.mpr
        ⟨addr, hlookup, congrArg Prod.snd hid⟩] at hc
      cases hc
    · rfl
  | pong hr => exact hother rfl rfl fun hs => ⟨hs, rfl⟩
  | ignored hr hp =>
    refine hother rfl rfl fun hs => ⟨hs, ?_⟩
    cases p <;> first | rfl | cases hp

/-- The proxy client does something else than taking a packet. -/
theorem Heard.client {t : Tunnel} {k : Nat} {q : List MinecraftDataPacket} (h : t.Heard k q)
    (ht : t.Inv) {e : ClientEvent} {c : Client} {out : List (Nat × SocketPacket)}
    (he : ∀ k packet millis, e ≠ .packet k packet millis) (hs : Client.Step t.client e c out) :
    Heard { t with client := c, toServer := t.toServer ++ out } k (q ++ saidOf e k) := by
  obtain ⟨hrun, hend⟩ := client_speech he hs k
  have hall : t.server.Serves k → c.result = none →
      rxOf t.server k ++ dataOf k (t.toServer ++ out) ++ spokenOf k c.toProxy
        = q ++ saidOf e k := by
    intro hserves hr
    obtain ⟨hr, hmove⟩ := hrun hr
    rw [dataOf_append, List.append_assoc, List.append_assoc, hmove, ← h.all hserves hr]
    simp
  refine ⟨h.channel.trans (List.prefix_append _ _), ?_, hall, ?_⟩
  · intro hserves
    cases hr : c.result with
    | none =>
      rw [← hall hserves hr]
      exact List.prefix_append _ _
    | some result =>
      have hnone := hend (by rw [hr]; exact Option.some_ne_none _)
      show rxOf t.server k ++ dataOf k (t.toServer ++ out) <+: _
      rw [dataOf_append, hnone, List.append_nil]
      exact (h.sent hserves).trans (List.prefix_append _ _)
  · intro hk
    rw [h.fresh hk, said_of_joined ht.client hs, List.append_nil]
    intro hmem
    refine hk ?_
    rw [ht.joins, List.map_append]
    exact List.mem_append_right _ hmem

/-- The proxy client takes a packet. -/
theorem Heard.take {t : Tunnel} {k : Nat} {q : List MinecraftDataPacket} (h : t.Heard k q)
    {j millis : Nat} {p : SocketPacket} {c : Client} {toClient out : List (Nat × SocketPacket)}
    (hs : Client.Step t.client (.packet j p millis) c out) :
    Heard { t with client := c, toClient := toClient, toServer := t.toServer ++ out } k q := by
  obtain ⟨rfl, -⟩ := client_joins hs
  rw [List.append_nil]
  refine ⟨h.channel, h.sent, ?_, h.fresh⟩
  intro hserves hr
  obtain ⟨hr, hqueue⟩ := client_queue hs hr
  rw [hqueue]
  exact h.all hserves hr

/-- What Minecraft client `k` gets in a step. -/
def gotBy (t : Tunnel) (e : TunnelEvent) (k : Nat) : List MinecraftDataPacket :=
  match e with
  | .server e => gotOf t.server e k
  | _ => []

/-- What the connection of Minecraft client `k` reads in a step. -/
def saidBy (e : TunnelEvent) (k : Nat) : List MinecraftDataPacket :=
  match e with
  | .client e => saidOf e k
  | _ => []

/-- **What is read is put in, and what is received comes out at the front.** -/
theorem Heard.step {t t' : Tunnel} {k : Nat} {q : List MinecraftDataPacket} (h : t.Heard k q)
    (hu : t.Unmistaken) (ht : t.Inv) {e : TunnelEvent} (hs : Step t e t') :
    ∃ q', q ++ saidBy e k = t.gotBy e k ++ q' ∧ t'.Heard k q' := by
  cases hs with
  | server he hs =>
    obtain ⟨q', hq, h'⟩ := h.session hu ht he hs
    exact ⟨q', (List.append_nil _).trans hq, h'⟩
  | client he hs => exact ⟨_, rfl, h.client ht he hs⟩
  | toServer hq hs => exact ⟨q, List.append_nil _, h.receive hu ht hq hs⟩
  | toClient hq hs => exact ⟨q, List.append_nil _, h.take hs⟩

end Tunnel

end CraftIp
