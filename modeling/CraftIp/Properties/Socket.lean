import CraftIp.Framed
import CraftIp.Infra.Simulation
import CraftIp.Properties.Segmentation
import CraftIp.Properties.ServerSpeech
import CraftIp.Properties.Tunnel

/-!
# The tunnel over its socket is the tunnel

Between the packets of a tunnel and the bytes of its socket are two codecs, two buffers and
reads of any size. As long as no Minecraft client sends data of a size whose frame is misread
or does not fit, they cannot be seen: what is in a buffer and in its stream are the frames of
the packets in flight, the decoders never fail, and never wait for what is not coming.

* `Lane.Holds` — the frames of some packets are on their way
* `Session.Sends` — what the session sends is what the Minecraft clients have sent
* `framed_refines` — a run over the socket is a run of the tunnel
* `framed_progress` — the packet that was sent first can always be received
-/

namespace CraftIp

open Infra

variable {bincode : Codec SocketPacket}

/-! ## One direction -/

/-- The buffer and the stream are the frames of the packets. -/
structure Lane.Holds (bincode : Codec SocketPacket) (lane : Lane)
    (packets : List (Nat × SocketPacket)) : Prop where
  numbers : lane.numbers = packets.map Prod.fst
  frames : ∃ fs, List.Forall₂ (Frame bincode lane.codec) fs (packets.map Prod.snd) ∧
    lane.buf ++ lane.stream = fs.flatten

namespace Lane.Holds

variable {lane : Lane} {packets : List (Nat × SocketPacket)}

theorem new (codec : PacketCodec) : (Lane.new codec).Holds bincode [] where
  numbers := rfl
  frames := ⟨[], .nil, rfl⟩

/-- Packets whose frames the reader understands are written behind the others. -/
theorem send (h : lane.Holds bincode packets) : ∀ (out : List (Nat × SocketPacket)),
    (∀ e ∈ out, ∃ f, PacketCodec.encode bincode e.2 = .ok f ∧ Frame bincode lane.codec f e.2) →
      ∃ lane', lane.send bincode out = .ok lane' ∧ lane'.Holds bincode (packets ++ out) ∧
        lane'.codec = lane.codec := by
  intro out
  induction out generalizing lane packets with
  | nil =>
    intro _
    refine ⟨lane, rfl, ?_, rfl⟩
    rwa [List.append_nil]
  | cons e out ih =>
    intro hout
    obtain ⟨k, p⟩ := e
    obtain ⟨f, hf, hframe⟩ := hout _ List.mem_cons_self
    obtain ⟨fs, hfs, hbytes⟩ := h.frames
    have hone : Lane.Holds bincode
        { lane with stream := lane.stream ++ f, numbers := lane.numbers ++ [k] }
        (packets ++ [(k, p)]) := by
      refine ⟨by simp [h.numbers], fs ++ [f], ?_, ?_⟩
      · rw [List.map_append]
        exact List.rel_append hfs (.cons hframe .nil)
      · rw [List.flatten_append, List.flatten_singleton, ← hbytes, List.append_assoc]
    obtain ⟨lane', hsend, hholds, hcodec⟩ := ih hone fun e he => hout e (.tail _ he)
    refine ⟨lane', ?_, by rwa [List.append_assoc] at hholds, hcodec⟩
    rw [Lane.send, hf]
    exact hsend

/--
What the reader finds in its buffer: it waits, and what is missing is on its way, or it takes
the first packet.
-/
theorem decode (h : lane.Holds bincode packets) :
    (lane.codec.decode bincode lane.buf = (.ok none, lane.codec, lane.buf) ∧
      (packets ≠ [] → lane.stream ≠ [])) ∨
    ∃ k p rest buf, packets = (k, p) :: rest ∧
      lane.codec.decode bincode lane.buf = (.ok (some p), lane.codec, buf) ∧
      Lane.Holds bincode { lane with buf := buf, numbers := lane.numbers.tail } rest := by
  obtain ⟨fs, hfs, hbytes⟩ := h.frames
  cases packets with
  | nil =>
    cases hfs
    obtain ⟨hbuf, -⟩ := List.append_eq_nil_iff.mp hbytes
    rw [hbuf]
    exact Or.inl ⟨decode_nil _, fun hne => absurd rfl hne⟩
  | cons e rest =>
    obtain ⟨k, p⟩ := e
    cases hfs with
    | @cons f _ fs _ hf hfs =>
      rw [List.flatten_cons] at hbytes
      rcases Receiver.prefix_cases ⟨lane.stream, hbytes⟩ with ⟨t, hbuf, -⟩ | ⟨t, hbuf, ht⟩
      · rw [hbuf, List.append_assoc] at hbytes
        refine Or.inr ⟨k, p, rest, t, rfl, by rw [hbuf]; exact hf.whole t, ?_, fs, hfs, ?_⟩
        · show lane.numbers.tail = _
          rw [h.numbers]
          rfl
        · exact List.append_cancel_left hbytes
      · refine Or.inl ⟨hf.part _ t hbuf ht, fun _ hnil => ?_⟩
        rw [hnil, hbuf, List.append_nil, List.append_assoc] at hbytes
        have hshort := List.self_eq_append_right.mp hbytes
        exact ht (List.append_eq_nil_iff.mp hshort).1

theorem fill (h : lane.Holds bincode packets) {n : Nat} {lane' : Lane}
    (hf : lane.fill bincode n = some lane') :
    lane'.Holds bincode packets ∧ lane'.codec = lane.codec := by
  rcases h.decode with ⟨hd, -⟩ | ⟨k, p, rest, buf, -, hd, -⟩
  · simp only [Lane.fill, hd] at hf
    split at hf
    · cases hf
      refine ⟨⟨h.numbers, ?_⟩, rfl⟩
      obtain ⟨fs, hfs, hbytes⟩ := h.frames
      refine ⟨fs, hfs, ?_⟩
      show lane.buf ++ lane.stream.take n ++ lane.stream.drop n = _
      rw [List.append_assoc, List.take_append_drop, hbytes]
    · cases hf
  · simp only [Lane.fill, hd] at hf
    cases hf

/-- What `next` returns is the first packet. -/
theorem next (h : lane.Holds bincode packets) {result : Outcome (Nat × SocketPacket)} {lane' : Lane}
    (hn : lane.next bincode = some (result, lane')) :
    ∃ k p rest, packets = (k, p) :: rest ∧ result = .ok (k, p) ∧ lane'.Holds bincode rest ∧
      lane'.codec = lane.codec := by
  rcases h.decode with ⟨hd, -⟩ | ⟨k, p, rest, buf, rfl, hd, hrest⟩
  · simp only [Lane.next, hd] at hn
    cases hn
  · simp only [Lane.next, hd] at hn
    cases hn
    refine ⟨k, p, rest, rfl, ?_, hrest, rfl⟩
    rw [h.numbers]
    rfl

end Lane.Holds

/-! ## What is sent -/

/-- Small packets, and data whose frame has a length of 16 bits. -/
def sized : SocketPacket → Bool
  | .ProxyJoin _ | .ProxyDisconnect _ | .ProxyPing _ | .ProxyPong _ => true
  | .ProxyData d => d.packet.data.length ≤ 65521
  | _ => false

/-- A packet of this kind has a frame. -/
theorem frameOf_sized (hb : FixintLayout bincode) {p : SocketPacket} (hp : sized p = true) :
    ∃ f, FrameOf bincode f p := by
  have hword : ∀ {p : SocketPacket} {n : UInt16}, p.encodeFields = Codec.uint16.encode n →
      ∃ f, FrameOf bincode f p := by
    intro p n hfields
    refine ⟨_, frameOf_bytes ((hb p).trans (bincode_encode (hfields.trans (uint16_encode n)))) ?_⟩
    simp
  cases p with
  | ProxyJoin id => exact hword (n := id) rfl
  | ProxyDisconnect id => exact hword (n := id) rfl
  | ProxyPing n => exact hword (n := n) rfl
  | ProxyPong n => exact hword (n := n) rfl
  | ProxyData d =>
    have hlen : d.packet.data.length ≤ 65521 := by simpa [sized] using hp
    have henc := bincode_proxyData d.clientId d.packet.data (by norm_num; omega)
    refine ⟨_, frameOf_bytes ((hb _).trans henc) ?_⟩
    simp only [List.length_append, leBytes_length]
    omega
  | _ => cases hp

theorem encode_sized {p : SocketPacket} (hp : sized p = true) :
    PacketCodec.encode bincode p = p.encode bincode := by
  cases p <;> first | rfl | cases hp

/-- The reader of the client takes what the session sends, unless it is misread. -/
theorem readable_by_client (hb : FixintLayout bincode) {codec : PacketCodec}
    (hc : codec.protocol = .Unknown) {p : SocketPacket} (hp : sized p = true)
    (ht : tunnelled p = true) (hm : misread p = false) :
    ∃ f, PacketCodec.encode bincode p = .ok f ∧ Frame bincode codec f p := by
  obtain ⟨f, hf⟩ := frameOf_sized hb hp
  obtain ⟨b, henc, hlen, rfl⟩ := hf.bytes
  have hsaid : saidByServer p = true := by cases p <;> first | exact ht | cases ht
  exact ⟨_, (encode_sized hp).trans hf.encoded, frame_of_server hb hc hsaid hm henc hlen⟩

/-- The reader of the session takes everything. -/
theorem readable_by_session (hb : FixintLayout bincode) {codec : PacketCodec} {version : UInt32}
    (hc : codec.protocol = .Proxy version) {p : SocketPacket} (hp : sized p = true) :
    ∃ f, PacketCodec.encode bincode p = .ok f ∧ Frame bincode codec f p := by
  obtain ⟨f, hf⟩ := frameOf_sized hb hp
  exact ⟨f, (encode_sized hp).trans hf.encoded, frame_of_proxy hc hf⟩

/-! ## Whose data it is -/

/-- All data that waits to be sent to the proxy client is of `P`. -/
structure Session.Sends (P : MinecraftDataPacket → Prop) (s : Session) : Prop where
  queue : ∀ {k addr pkg}, (k, .Packet addr pkg) ∈ s.queue → P pkg
  hellos : ∀ {k : Nat} {m : MCClient} {hello}, s.clients[k]? = some m →
    m.phase = .joining hello → P hello

/-- The data that a Minecraft client brings in. -/
def SessionEvent.data : SessionEvent → Option MinecraftDataPacket
  | .join _ pkg => some pkg
  | .read _ pkg => some pkg
  | _ => none

/-- A packet of the session: it has an arm in the client, and its data is of `P`. -/
def Spoken (P : MinecraftDataPacket → Prop) (p : SocketPacket) : Prop :=
  tunnelled p = true ∧ ∀ d, p = .ProxyData d → P d.packet

theorem Session.Sends.modify {P : MinecraftDataPacket → Prop} {s : Session} (h : s.Sends P) {j : Nat}
    {m : MCClient} {f : MCClient → MCClient} (hm : s.clients[j]? = some m)
    (hf : ∀ hello, (f m).phase = .joining hello → m.phase = .joining hello) :
    (s.modify j f).Sends P where
  queue := h.queue
  hellos {k mk hello} hk hp := by
    rw [Session.clients_modify] at hk
    split at hk
    · next heq =>
      subst heq
      rw [hm] at hk
      cases hk
      exact h.hellos hm (hf hello hp)
    · exact h.hellos hk hp

theorem Session.Sends.enqueue {P : MinecraftDataPacket → Prop} {s : Session} (h : s.Sends P)
    (k : Nat) {msg : ClientToProxy} (hmsg : ∀ addr pkg, msg = .Packet addr pkg → P pkg) :
    (s.enqueue k msg).Sends P where
  queue hmem := by
    rcases List.mem_append.mp hmem with hmem | hmem
    · exact h.queue hmem
    · cases List.mem_singleton.mp hmem
      exact hmsg _ _ rfl
  hellos := h.hellos

/-- A shorter queue, and the same clients. -/
theorem Session.Sends.shrink {P : MinecraftDataPacket → Prop} {s s' : Session} (h : s.Sends P)
    (hqueue : s'.queue ⊆ s.queue) (hclients : s'.clients = s.clients) : s'.Sends P where
  queue hmem := h.queue (hqueue hmem)
  hellos hk hp := h.hellos (hclients ▸ hk) hp

/-- **The session sends only what the Minecraft clients have sent.** -/
theorem Session.Sends.step {P : MinecraftDataPacket → Prop} {s s' : Session} (h : s.Sends P)
    (hi : s.Inv) {e : SessionEvent} (he : ∀ pkg, e.data = some pkg → P pkg)
    {out : List (Nat × SocketPacket)} (hs : Session.Step s e s' out) :
    s'.Sends P ∧ ∀ x ∈ out, Spoken P x.2 := by
  have hquiet : ∀ {s' : Session}, s'.Sends P →
      s'.Sends P ∧ ∀ x ∈ [], Spoken P (Prod.snd (α := Nat) x) :=
    fun h' => ⟨h', by simp⟩
  have hfinish : ∀ result, (s.finish result).Sends P :=
    fun result => h.shrink (List.nil_subset _) rfl
  cases hs with
  | @join addr hello hr ha =>
    have hopen : Session.Sends P
        { s with clients := s.clients ++ [⟨addr, .joining hello, true, [], []⟩] } := by
      refine ⟨h.queue, ?_⟩
      intro k m hello' hk hp
      rcases getElem?_concat_iff.mp hk with hk | ⟨-, rfl⟩
      · exact h.hellos hk hp
      · cases hp
        exact he _ rfl
    exact hquiet (hopen.enqueue _ fun _ _ heq => by cases heq)
  | @hello k m hello hm hp hr =>
    refine hquiet (Session.Sends.enqueue (h.modify hm fun _ hp => by cases hp) k ?_)
    rintro addr pkg ⟨⟩
    exact h.hellos hm hp
  | helloClosed hm hp hr => exact hquiet (h.modify hm fun _ hp => by cases hp)
  | @read k m pkg hm hp hr =>
    refine hquiet (Session.Sends.enqueue (h.modify hm fun _ hp => hp) k ?_)
    rintro addr pkg ⟨⟩
    exact he _ rfl
  | readClosed hm hp hr => exact hquiet (h.modify hm fun _ hp => by cases hp)
  | receive hm hp hx => exact hquiet (h.modify hm fun _ hp => hp)
  | receiveClosed hm hp hx hs => exact hquiet (h.modify hm fun _ hp => by cases hp)
  | stop hm hp => exact hquiet (h.modify hm fun _ hp => by cases hp)
  | drop hm hp hn hr =>
    exact hquiet (Session.Sends.enqueue (h.modify hm fun _ hp => by cases hp) _
      fun _ _ heq => by cases heq)
  | dropSilent hm hp hn => exact hquiet (h.modify hm fun _ hp => by cases hp)
  | close hr hq => exact hquiet (hfinish _)
  | add hr hq hi =>
    refine ⟨h.shrink (hq ▸ List.subset_cons_self _ _) rfl, ?_⟩
    rintro x hx
    cases List.mem_singleton.mp hx
    exact ⟨rfl, fun d heq => by cases heq⟩
  | tooMany hr hq hi => exact hquiet (hfinish _)
  | forward hr hq hc =>
    refine ⟨h.shrink (hq ▸ List.subset_cons_self _ _) rfl, ?_⟩
    rintro x hx
    cases List.mem_singleton.mp hx
    refine ⟨rfl, ?_⟩
    rintro d ⟨⟩
    exact h.queue (hq ▸ List.mem_cons_self)
  | wrongPacket hr hq hc => exact hquiet (hfinish _)
  | remove hr hq =>
    refine ⟨h.shrink (hq ▸ List.subset_cons_self _ _) rfl, ?_⟩
    rintro x hx
    obtain ⟨c, -, rfl⟩ := List.mem_map.mp hx
    exact ⟨rfl, fun d heq => by cases heq⟩
  | evict hr hc => exact hquiet (h.shrink (List.Subset.refl _) rfl)
  | evictNone hr hc => exact hquiet (h.shrink (List.Subset.refl _) rfl)
  | @deliver src d c hr hc =>
    obtain ⟨addr, hc, -⟩ := hi.tables.getById_iff.mp hc
    obtain ⟨m, hm, -⟩ := (hi.entry hc).2
    refine hquiet ?_
    have hmod := h.modify (f := Session.deliver d.packet) hm fun hello hp => by
      rwa [Session.deliver_phase] at hp
    exact hmod.shrink (List.Subset.refl _) rfl
  | deliverNone hr hc => exact hquiet h
  | pong hr =>
    refine ⟨h, ?_⟩
    rintro x hx
    cases List.mem_singleton.mp hx
    exact ⟨rfl, fun d heq => by cases heq⟩
  | ignored hr hp => exact hquiet h
  | broken hr => exact hquiet (hfinish _)
  | leave hr => exact hquiet (hfinish _)

/-- What a local connection has read at once fits into its buffer of 1024 bytes. -/
def Client.Buffered (c : Client) : Prop :=
  ∀ k id pkg, (k, .Packet id pkg) ∈ c.toProxy → pkg.data.length ≤ 1024

/-- **The proxy client sends small packets only.** -/
theorem Client.Buffered.step {c c' : Client} (h : c.Buffered) {e : ClientEvent}
    {out : List (Nat × SocketPacket)} (hs : Client.Step c e c' out) :
    c'.Buffered ∧ ∀ x ∈ out, sized x.2 = true := by
  have hshrink : ∀ {c' : Client}, c'.toProxy ⊆ c.toProxy → c'.Buffered :=
    fun hsub k id pkg hmem => h k id pkg (hsub hmem)
  have hquiet : ∀ {c' : Client}, c'.toProxy ⊆ c.toProxy →
      c'.Buffered ∧ ∀ x ∈ ([] : List (Nat × SocketPacket)), sized x.2 = true :=
    fun hsub => ⟨hshrink hsub, by simp⟩
  have henqueue : ∀ {c' : Client} {k : Nat} {msg : ClientToProxy},
      c'.toProxy = c.toProxy ++ [(k, msg)] →
      (∀ id pkg, msg = .Packet id pkg → pkg.data.length ≤ 1024) →
      c'.Buffered ∧ ∀ x ∈ ([] : List (Nat × SocketPacket)), sized x.2 = true := by
    intro c' k msg hqueue hmsg
    refine ⟨?_, by simp⟩
    intro j id pkg hmem
    rw [hqueue] at hmem
    rcases List.mem_append.mp hmem with hmem | hmem
    · exact h _ _ _ hmem
    · cases List.mem_singleton.mp hmem
      exact hmsg _ _ rfl
  have hone : ∀ {p : SocketPacket} {k : Nat}, sized p = true →
      ∀ x ∈ [(k, p)], sized (Prod.snd x) = true := by
    rintro p k hp x hx
    cases List.mem_singleton.mp hx
    exact hp
  cases hs with
  | failed hl hp hr => exact henqueue rfl fun id pkg heq => by cases heq
  | read hl hp hd hr =>
    refine henqueue rfl ?_
    rintro id pkg ⟨⟩
    exact hd.2
  | drop hl hp hn hr => exact henqueue rfl fun id pkg heq => by cases heq
  | forward hr hq =>
    refine ⟨hshrink (hq ▸ List.subset_cons_self _ _), hone ?_⟩
    have hlen := h _ _ _ (hq ▸ List.mem_cons_self)
    exact decide_eq_true (Nat.le_trans hlen (by decide))
  | remove hr hq hc => exact ⟨hshrink (hq ▸ List.subset_cons_self _ _), hone rfl⟩
  | removeNone hr hq hc => exact ⟨hshrink (hq ▸ List.subset_cons_self _ _), hone rfl⟩
  | death hr hq => exact hquiet (List.nil_subset _)
  | unknown hr hc => exact hquiet (List.nil_subset _)
  | unimplemented hr hp => exact hquiet (List.nil_subset _)
  | ping hr => exact ⟨h, hone rfl⟩
  | disconnect hr => exact hquiet (List.nil_subset _)
  | broken hr => exact hquiet (List.nil_subset _)
  | _ => exact hquiet (List.Subset.refl _)

/-! ## The simulation -/

/-- Data whose frame fits, and is not taken for the beginning of a Minecraft connection. -/
def unambiguous (pkg : MinecraftDataPacket) : Bool :=
  pkg.data.length ≤ 65521 && !misread (.ProxyData ⟨0, pkg⟩)

namespace FramedTunnel

/-- The Minecraft clients send no data of a size that is misread. -/
def unambiguous : FramedEvent → Bool
  | .server e => e.data.all CraftIp.unambiguous
  | _ => true

/-- The packets of a step: the reads are not seen. -/
def packets : FramedEvent → List TunnelEvent
  | .server e => [.server e]
  | .client e => [.client e]
  | .serverFills _ => []
  | .clientFills _ => []
  | .toServer => [.toServer]
  | .toClient millis _ => [.toClient millis]

/-- The tunnel `t` without the bytes: its packets in flight are those in the streams. -/
structure Refines (bincode : Codec SocketPacket) (version : UInt32) (w : FramedTunnel) (t : Tunnel) :
    Prop where
  server : w.server = t.server
  client : w.client = t.client
  toClient : w.toClient.Holds bincode t.toClient
  toServer : w.toServer.Holds bincode t.toServer
  clientCodec : w.toClient.codec.protocol = .Unknown
  serverCodec : w.toServer.codec.protocol = .Proxy version
  sends : t.server.Sends fun pkg => CraftIp.unambiguous pkg = true
  buffered : t.client.Buffered

theorem refines_new (version : UInt32) : (new version).Refines bincode version .new where
  server := rfl
  client := rfl
  toClient := .new _
  toServer := .new _
  clientCodec := rfl
  serverCodec := rfl
  sends := ⟨fun h => (by cases h), fun h => (by cases h)⟩
  buffered k id pkg h := by cases h

theorem readable_of_spoken (hb : FixintLayout bincode) {codec : PacketCodec}
    (hc : codec.protocol = .Unknown) {p : SocketPacket}
    (hp : Spoken (fun pkg => CraftIp.unambiguous pkg = true) p) :
    ∃ f, PacketCodec.encode bincode p = .ok f ∧ Frame bincode codec f p := by
  obtain ⟨ht, hdata⟩ := hp
  have hgood : sized p = true ∧ misread p = false := by
    cases p with
    | ProxyData d =>
      have hd : CraftIp.unambiguous d.packet = true := hdata d rfl
      rw [CraftIp.unambiguous, Bool.and_eq_true, Bool.not_eq_true'] at hd
      exact hd
    | _ => first | exact ⟨rfl, rfl⟩ | cases ht
  exact readable_by_client hb hc hgood.1 ht hgood.2

/-- The session has done something that the tunnel does, too. -/
theorem Refines.serverSends (hb : FixintLayout bincode) {version : UInt32} {w : FramedTunnel}
    {t : Tunnel} (h : w.Refines bincode version t) (ht : t.server.Inv) {e : SessionEvent}
    (he : e.data.all CraftIp.unambiguous = true) {s : Session} {out : List (Nat × SocketPacket)}
    (hs : Session.Step t.server e s out) {toServer : Lane}
    {packets : List (Nat × SocketPacket)} (hto : toServer.Holds bincode packets)
    (hcodec : toServer.codec = w.toServer.codec) :
    (serverSends bincode { w with toServer := toServer } s out).Refines bincode version
      { t with server := s, toServer := packets, toClient := t.toClient ++ out } := by
  have hdata : ∀ pkg, e.data = some pkg → CraftIp.unambiguous pkg = true := by
    intro pkg heq
    rw [heq] at he
    exact he
  obtain ⟨hsends, hout⟩ := h.sends.step ht hdata hs
  obtain ⟨lane, hsend, hholds, hlane⟩ := h.toClient.send out fun x hx =>
    readable_of_spoken hb h.clientCodec (hout x hx)
  rw [FramedTunnel.serverSends]
  dsimp only
  rw [hsend]
  exact ⟨rfl, h.client, hholds, hto, by rw [hlane]; exact h.clientCodec,
    by rw [hcodec]; exact h.serverCodec, hsends, h.buffered⟩

/-- The client has done something that the tunnel does, too. -/
theorem Refines.clientSends (hb : FixintLayout bincode) {version : UInt32} {w : FramedTunnel}
    {t : Tunnel} (h : w.Refines bincode version t) {e : ClientEvent} {c : Client}
    {out : List (Nat × SocketPacket)} (hs : Client.Step t.client e c out) {toClient : Lane}
    {packets : List (Nat × SocketPacket)} (hto : toClient.Holds bincode packets)
    (hcodec : toClient.codec = w.toClient.codec) :
    (clientSends bincode { w with toClient := toClient } c out).Refines bincode version
      { t with client := c, toClient := packets, toServer := t.toServer ++ out } := by
  obtain ⟨hbuffered, hout⟩ := h.buffered.step hs
  obtain ⟨lane, hsend, hholds, hlane⟩ := h.toServer.send out fun x hx =>
    readable_by_session hb h.serverCodec (hout x hx)
  rw [FramedTunnel.clientSends]
  dsimp only
  rw [hsend]
  exact ⟨h.server, rfl, hto, hholds, by rw [hcodec]; exact h.clientCodec,
    by rw [hlane]; exact h.serverCodec, h.sends, hbuffered⟩

/-- **A step over the socket is a step of the tunnel, or a read.** -/
theorem Refines.step (hb : FixintLayout bincode) {version : UInt32} {w w' : FramedTunnel}
    {t : Tunnel} (h : w.Refines bincode version t) (ht : t.Inv) {e : FramedEvent}
    (he : unambiguous e = true) (hs : w.step bincode e = some w') :
    ∃ t', tunnelMachine.run t (packets e) = some t' ∧ w'.Refines bincode version t' := by
  have hrun : ∀ {e : TunnelEvent} {t' : Tunnel}, t.step e = some t' →
      tunnelMachine.run t [e] = some t' := by
    intro e t' hstep
    show (tunnelMachine.step t e).bind _ = _
    rw [show tunnelMachine.step t e = some t' from hstep]
    rfl
  cases e with
  | server e =>
    simp only [FramedTunnel.step] at hs
    split at hs
    · cases hs
    · next hne =>
      obtain ⟨⟨s, out⟩, hstep, heq⟩ := Option.bind_eq_some_iff.mp hs
      cases heq
      rw [h.server] at hstep
      refine ⟨_, hrun (Tunnel.step_server hne hstep), ?_⟩
      exact h.serverSends hb ht.server he (Session.step_cases hstep) h.toServer rfl
  | client e =>
    simp only [FramedTunnel.step] at hs
    split at hs
    · cases hs
    · next hne =>
      obtain ⟨⟨c, out⟩, hstep, heq⟩ := Option.bind_eq_some_iff.mp hs
      cases heq
      rw [h.client] at hstep
      refine ⟨_, hrun (Tunnel.step_client hne hstep), ?_⟩
      exact h.clientSends hb (Client.step_cases hstep) h.toClient rfl
  | serverFills n =>
    simp only [FramedTunnel.step] at hs
    split at hs
    · obtain ⟨lane, hf, heq⟩ := Option.bind_eq_some_iff.mp hs
      cases heq
      obtain ⟨hholds, hcodec⟩ := h.toServer.fill hf
      exact ⟨t, rfl, h.server, h.client, h.toClient, hholds, h.clientCodec,
        by rw [hcodec]; exact h.serverCodec, h.sends, h.buffered⟩
    · cases hs
  | clientFills n =>
    simp only [FramedTunnel.step] at hs
    split at hs
    · obtain ⟨lane, hf, heq⟩ := Option.bind_eq_some_iff.mp hs
      cases heq
      obtain ⟨hholds, hcodec⟩ := h.toClient.fill hf
      exact ⟨t, rfl, h.server, h.client, hholds, h.toServer,
        by rw [hcodec]; exact h.clientCodec, h.serverCodec, h.sends, h.buffered⟩
    · cases hs
  | toServer =>
    obtain ⟨⟨result, lane⟩, hn, hs⟩ := Option.bind_eq_some_iff.mp hs
    obtain ⟨k, p, rest, hq, rfl, hholds, hcodec⟩ := h.toServer.next hn
    obtain ⟨⟨s, out⟩, hstep, heq⟩ := Option.bind_eq_some_iff.mp hs
    cases heq
    rw [show w.server = t.server from h.server] at hstep
    refine ⟨_, hrun (Tunnel.step_toServer hq hstep), ?_⟩
    exact h.serverSends hb ht.server rfl (Session.step_cases hstep) hholds hcodec
  | toClient millis error =>
    obtain ⟨⟨result, lane⟩, hn, hs⟩ := Option.bind_eq_some_iff.mp hs
    obtain ⟨k, p, rest, hq, rfl, hholds, hcodec⟩ := h.toClient.next hn
    obtain ⟨⟨c, out⟩, hstep, heq⟩ := Option.bind_eq_some_iff.mp hs
    cases heq
    rw [show w.client = t.client from h.client] at hstep
    refine ⟨_, hrun (Tunnel.step_toClient hq hstep), ?_⟩
    exact h.clientSends hb (Client.step_cases hstep) hholds hcodec

/-- The tunnel simulates its realisation over a socket, when no data is misread. -/
def simulation (hb : FixintLayout bincode) (version : UInt32) :
    Simulation ((framedMachine bincode version).restrict fun _ e => unambiguous e = true)
      tunnelMachine where
  see _ e := packets e
  rel w t := tunnelMachine.Reachable t ∧ w.Refines bincode version t
  init := ⟨.init _, refines_new version⟩
  step _ h hs := by
    obtain ⟨he, hs⟩ := Machine.restrict_step.mp hs
    obtain ⟨t', hrun, h'⟩ := h.2.step hb (Tunnel.reachable_inv h.1) he hs
    exact ⟨t', hrun, h.1.run hrun, h'⟩

end FramedTunnel

/--
**The tunnel over its socket is the tunnel**, when no Minecraft client sends data of a size
that is misread: the codecs, the buffers and the way in which the streams are cut into reads
cannot be seen.
-/
theorem framed_refines (hb : FixintLayout bincode) {version : UInt32} {es : List FramedEvent}
    {w : FramedTunnel}
    (h : ((framedMachine bincode version).restrict fun _ e =>
      FramedTunnel.unambiguous e = true).run (.new version) es = some w) :
    ∃ t, tunnelMachine.run .new (es.flatMap FramedTunnel.packets) = some t ∧
      t.server = w.server ∧ t.client = w.client ∧
      w.toClient.Holds bincode t.toClient ∧ w.toServer.Holds bincode t.toServer := by
  obtain ⟨t, hrun, -, href⟩ := (FramedTunnel.simulation hb version).run h
  refine ⟨t, ?_, href.server.symm, href.client.symm, href.toClient, href.toServer⟩
  rw [← Machine.trace_labels FramedTunnel.packets es h]
  exact hrun

/-- A packet each way, in reads of three, five, one, sixteen and seventeen bytes. -/
def piecemeal : List FramedEvent :=
  [.server (.join (.V4 0 40000) ⟨[16]⟩), .server .take, .clientFills 3, .clientFills 5,
    .toClient 0 "", .client (.connected 0), .client (.read 0 [7]), .client .send, .serverFills 1,
    .serverFills 16, .toServer, .server (.hello 0), .server .take, .server (.receive 0),
    .clientFills 17, .toClient 0 "", .client (.take 0)]

theorem framed_refines_piecemeal : ∃ w,
    ((framedMachine SocketPacket.bincode 1).restrict fun _ e =>
      FramedTunnel.unambiguous e = true).run (.new 1) piecemeal = some w ∧
    ∃ t, tunnelMachine.run .new (piecemeal.flatMap FramedTunnel.packets) = some t ∧
      t.server = w.server ∧ t.client = w.client ∧
      w.toClient.Holds SocketPacket.bincode t.toClient ∧
      w.toServer.Holds SocketPacket.bincode t.toServer :=
  ⟨_, rfl, @framed_refines _ fixintLayout_bincode 1 piecemeal _ rfl⟩

/-! ## What the readers can do -/

/-- The packet that was sent first can be received, after one read at most. -/
theorem Lane.Holds.receivable {lane : Lane} {packets : List (Nat × SocketPacket)}
    (h : lane.Holds bincode packets) (hne : packets ≠ []) :
    ∃ lane', (lane' = lane ∨ lane.fill bincode lane.stream.length = some lane') ∧
      ∃ x lane'', packets.head? = some x ∧ lane'.next bincode = some (.ok x, lane'') := by
  have hready : ∀ {lane : Lane}, lane.Holds bincode packets →
      lane.codec.decode bincode lane.buf ≠ (.ok none, lane.codec, lane.buf) →
      ∃ x lane'', packets.head? = some x ∧ lane.next bincode = some (.ok x, lane'') := by
    intro lane h hnot
    rcases h.decode with ⟨hd, -⟩ | ⟨k, p, rest, buf, rfl, hd, -⟩
    · exact absurd hd hnot
    · refine ⟨(k, p), { lane with buf := buf, numbers := lane.numbers.tail }, rfl, ?_⟩
      simp only [Lane.next, hd, h.numbers]
      rfl
  by_cases hd : lane.codec.decode bincode lane.buf = (.ok none, lane.codec, lane.buf)
  · -- the codec waits, so what is missing is in the stream
    have hstream : lane.stream ≠ [] := by
      rcases h.decode with ⟨-, hs⟩ | ⟨k, p, rest, buf, -, hd', -⟩
      · exact hs hne
      · rw [hd] at hd'
        cases hd'
    have hfill : lane.fill bincode lane.stream.length = some { lane with
        buf := lane.buf ++ lane.stream.take lane.stream.length,
        stream := lane.stream.drop lane.stream.length } := by
      simp only [Lane.fill, hd]
      rw [if_pos ⟨by simpa using hstream, Nat.le_refl _⟩]
    refine ⟨_, Or.inr hfill, hready (h.fill hfill).1 ?_⟩
    intro hd'
    rcases (h.fill hfill).1.decode with ⟨-, hs⟩ | ⟨k, p, rest, buf, -, hd'', -⟩
    · exact hs hne List.drop_length
    · rw [hd'] at hd''
      cases hd''
  · exact ⟨lane, Or.inl rfl, hready h hd⟩

/-- Where no packet is on its way, there are no bytes. -/
theorem Lane.Holds.empty {lane : Lane} (h : lane.Holds bincode []) :
    lane.buf = [] ∧ lane.stream = [] := by
  obtain ⟨fs, hfs, hbytes⟩ := h.frames
  cases hfs
  exact List.append_eq_nil_iff.mp hbytes

/--
**The framing never blocks a tunnel.**

When no data is misread, the readers never fail. As long as a packet is on its way the first
one can be received, after one read at most, and nothing is left in a buffer behind the last.
-/
theorem framed_progress (hb : FixintLayout bincode) {version : UInt32} {w : FramedTunnel}
    (h : ((framedMachine bincode version).restrict fun _ e =>
      FramedTunnel.unambiguous e = true).Reachable w) {lane : Lane}
    (hl : lane = w.toClient ∨ lane = w.toServer) :
    (∀ e lane', lane.next bincode ≠ some (.error e, lane')) ∧
      (lane.numbers = [] → lane.buf = [] ∧ lane.stream = []) ∧
      (lane.numbers ≠ [] → ∃ lane',
        (lane' = lane ∨ lane.fill bincode lane.stream.length = some lane') ∧
          ∃ k p lane'', lane.numbers.head? = some k ∧
            lane'.next bincode = some (.ok (k, p), lane'')) := by
  obtain ⟨t, -, -, href⟩ := (FramedTunnel.simulation hb version).reachable h
  obtain ⟨packets, hholds⟩ : ∃ packets, lane.Holds bincode packets := by
    rcases hl with rfl | rfl
    · exact ⟨_, href.toClient⟩
    · exact ⟨_, href.toServer⟩
  refine ⟨?_, ?_, ?_⟩
  · intro e lane' hn
    obtain ⟨k, p, rest, -, heq, -⟩ := hholds.next hn
    cases heq
  · intro hnil
    rw [hholds.numbers, List.map_eq_nil_iff] at hnil
    subst hnil
    exact hholds.empty
  · intro hne
    have hpackets : packets ≠ [] := by
      rintro rfl
      exact hne hholds.numbers
    obtain ⟨lane', hlane, ⟨k, p⟩, lane'', hhead, hn⟩ := hholds.receivable hpackets
    refine ⟨lane', hlane, k, p, lane'', ?_, hn⟩
    rw [hholds.numbers, List.head?_map, hhead]
    rfl

/-- Five of the eight bytes of a `ProxyJoin` have been read. -/
def partOfJoin : List FramedEvent :=
  [.server (.join (.V4 0 40000) ⟨[16]⟩), .server .take, .clientFills 5]

theorem framed_progress_join : ∃ w : FramedTunnel,
    ((framedMachine SocketPacket.bincode 1).restrict fun _ e =>
      FramedTunnel.unambiguous e = true).run (.new 1) partOfJoin = some w ∧
    w.toClient.buf.length = 5 ∧ ∃ lane',
      (lane' = w.toClient ∨
        w.toClient.fill SocketPacket.bincode w.toClient.stream.length = some lane') ∧
      ∃ k p lane'', w.toClient.numbers.head? = some k ∧
        lane'.next SocketPacket.bincode = some (.ok (k, p), lane'') :=
  ⟨_, rfl, rfl, (@framed_progress _ fixintLayout_bincode 1 _ ⟨partOfJoin, rfl⟩ _ (Or.inl rfl)).2.2
    (List.cons_ne_nil _ _)⟩

/-! ## No panic -/

/-- The session speaks only of what the client has an arm for, and the client has not panicked. -/
structure Tunnel.Polite (t : Tunnel) : Prop where
  spoken : ∀ x ∈ t.toClient, tunnelled x.2 = true
  result : ∀ message, t.client.result ≠ some (.panicked message)

/-- A client panics only over a packet that it has no arm for. -/
theorem client_panic {c c' : Client} {e : ClientEvent} {out : List (Nat × SocketPacket)}
    (hs : Client.Step c e c' out)
    (he : ∀ k p millis, e = .packet k p millis → Client.implemented p = true)
    (h : ∀ message, c.result ≠ some (.panicked message)) :
    ∀ message, c'.result ≠ some (.panicked message) := by
  intro message hr
  cases hs with
  | unimplemented hr' hp =>
    rw [he _ _ _ rfl] at hp
    cases hp
  | death hr' hq => cases hr
  | unknown hr' hc => cases hr
  | disconnect hr' => cases hr
  | broken hr' => cases hr
  | _ => exact h message hr

theorem Tunnel.Polite.step {t t' : Tunnel} {e : TunnelEvent} (h : t.Polite) (ht : t.Inv)
    (hs : Tunnel.Step t e t') : t'.Polite := by
  have hsession : ∀ {e s out}, Session.Step t.server e s out →
      ∀ x ∈ t.toClient ++ out, tunnelled x.2 = true := by
    intro e s out hs x hx
    rcases List.mem_append.mp hx with hx | hx
    · exact h.spoken x hx
    · have hall : t.server.Sends fun _ => True := ⟨fun _ => trivial, fun _ _ => trivial⟩
      exact ((hall.step ht.server (fun _ _ => trivial) hs).2 x hx).1
  cases hs with
  | server he hs => exact ⟨hsession hs, h.result⟩
  | toServer hq hs => exact ⟨hsession hs, h.result⟩
  | client he hs =>
    exact ⟨h.spoken, client_panic hs (fun k p millis heq => absurd heq (he k p millis)) h.result⟩
  | @toClient k p rest millis c out hq hs =>
    refine ⟨fun x hx => h.spoken x (hq ▸ .tail _ hx), client_panic hs ?_ h.result⟩
    rintro k p millis ⟨⟩
    have hp := h.spoken _ (hq ▸ List.mem_cons_self)
    cases p <;> first | rfl | cases hp

theorem Tunnel.reachable_polite {t : Tunnel} (h : tunnelMachine.Reachable t) : t.Polite := by
  refine Machine.Reachable.invariant_of_reachable (I := Tunnel.Polite)
    ⟨fun x hx => (by cases hx), fun m hr => (by cases hr)⟩ ?_ h
  intro t e t' hr hp hs
  exact hp.step (Tunnel.reachable_inv hr) (Tunnel.step_cases hs)

/-- **The client never panics over its socket**, when no data is misread. -/
theorem framed_never_panics (hb : FixintLayout bincode) {version : UInt32} {w : FramedTunnel}
    (h : ((framedMachine bincode version).restrict fun _ e =>
      FramedTunnel.unambiguous e = true).Reachable w) (message : String) :
    w.client.result ≠ some (.panicked message) := by
  obtain ⟨t, -, hr, href⟩ := (FramedTunnel.simulation hb version).reachable h
  rw [href.client]
  exact (Tunnel.reachable_polite hr).result message

theorem framed_never_panics_piecemeal : ∃ w : FramedTunnel,
    ((framedMachine SocketPacket.bincode 1).restrict fun _ e =>
      FramedTunnel.unambiguous e = true).run (.new 1) piecemeal = some w ∧
    w.client.result ≠ some (.panicked "not implemented: Message not implemented!") :=
  ⟨_, rfl, @framed_never_panics _ fixintLayout_bincode 1 _ ⟨piecemeal, rfl⟩ _⟩

end CraftIp
