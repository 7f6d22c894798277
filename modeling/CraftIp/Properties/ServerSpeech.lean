import CraftIp.Properties.Splitting
import CraftIp.Properties.Stream

/-!
# What the proxy client makes of the server's packets

The codec of `Client::connect` stays in `Protocol::Unknown`, because the server sends
neither a `ProxyHello` nor a `MCHello`. So every frame of the server goes through the
parsers of `minecraft.rs` first, with its length in the place of their magic bytes.

* `frame_of_server` — two kinds of lengths apart, these parsers leave the frame alone
* `decode_misread` — a length of `0x02..` is taken for a legacy connect, and a length of
  `0x0600` for a modern handshake
* `understood_iff` — so exactly the data packets of these sizes are not understood
-/

namespace CraftIp

open Infra Spec

/-! ## The packets of the server -/

/-- What `ProxyClient::handle` sends. -/
def tunnelled : SocketPacket → Bool
  | .ProxyJoin _ | .ProxyData _ | .ProxyDisconnect _ | .ProxyPong _ => true
  | _ => false

/-- Everything the server writes on one control connection. -/
def serverSays (challenge : ChallengeDataType) (response : ProxyConnectedResponse)
    (mix : List SocketPacket) : List SocketPacket :=
  .ProxyAuthRequest challenge :: .ProxyHelloResponse response :: mix

/-- The two greetings, and what follows them. -/
def saidByServer : SocketPacket → Bool
  | .ProxyAuthRequest _ | .ProxyHelloResponse _ => true
  | p => tunnelled p

/-- The data packets whose length bytes look like a hello. -/
def misread : SocketPacket → Bool
  | .ProxyData d =>
    (498 ≤ d.packet.data.length && d.packet.data.length ≤ 753) || d.packet.data.length = 1522
  | _ => false

/-- The tags of the packets a server sends, as the first byte of their payload. -/
def serverTag (t : UInt8) : Bool := t = 3 || t = 5 || t = 6 || t = 7 || t = 10 || t = 12

theorem serverTag_small {t : UInt8} (h : serverTag t = true) : t ≠ 0 ∧ t.toNat < 128 := by
  have hcases : t = 3 ∨ t = 5 ∨ t = 6 ∨ t = 7 ∨ t = 10 ∨ t = 12 := by
    simpa [serverTag, or_assoc] using h
  rcases hcases with rfl | rfl | rfl | rfl | rfl | rfl <;> decide

theorem uint16_length {n : UInt16} {b : Bytes} (h : Codec.uint16.encode n = some b) :
    b.length = 2 := by
  rw [uint16_encode] at h
  cases h
  exact leBytes_length 2 n.toNat

/-- The payload of a packet `p`: its tag, three zeros, and little else but for data. -/
def ServerPayload (p : SocketPacket) (b : Bytes) : Prop :=
  ∃ t s, b = t :: 0 :: 0 :: 0 :: s ∧ serverTag t = true ∧
    (b.length < 512 ∧ misread p = false ∨
      ∃ d, p = .ProxyData d ∧ t = 10 ∧ b.length = 14 + d.packet.data.length)

/-- All packets but data have few fields. -/
theorem serverPayload_short {p : SocketPacket} {t : UInt8} {fields : Bytes}
    (htag : p.tag.toNat = t.toNat) (ht : serverTag t = true) (hlen : fields.length ≤ 64)
    (hm : misread p = false) : ServerPayload p (leBytes 4 p.tag.toNat ++ fields) := by
  refine ⟨t, fields, by rw [htag, leBytes_tag], ht, Or.inl ⟨?_, hm⟩⟩
  rw [List.length_append, leBytes_length]
  omega

theorem server_payload {p : SocketPacket} {b : Bytes} (hp : saidByServer p = true)
    (h : SocketPacket.bincode.encode p = some b) : ServerPayload p b := by
  obtain ⟨fields, hf, rfl⟩ := bincode_eq_some h
  have hshort {n : UInt16} (hn : Codec.uint16.encode n = some fields) : fields.length ≤ 64 := by
    rw [uint16_length hn]
    decide
  cases p with
  | ProxyAuthRequest c =>
    obtain rfl : c.toList = fields := Option.some.inj hf
    exact serverPayload_short (t := 3) rfl rfl (by simp) rfl
  | ProxyHelloResponse v => exact serverPayload_short (t := 5) rfl rfl (hshort hf) rfl
  | ProxyJoin id => exact serverPayload_short (t := 6) rfl rfl (hshort hf) rfl
  | ProxyDisconnect id => exact serverPayload_short (t := 7) rfl rfl (hshort hf) rfl
  | ProxyPong n => exact serverPayload_short (t := 12) rfl rfl (hshort hf) rfl
  | ProxyData d =>
    refine ⟨10, fields, leBytes_tag 10 fields, rfl, Or.inr ⟨d, rfl, rfl, ?_⟩⟩
    obtain ⟨x, hx, hmap⟩ := Option.bind_eq_some_iff.mp
      (show (Codec.uint16.encode d.clientId).bind
        (fun x => (Codec.vec.encode d.packet.data).map (x ++ ·)) = some fields from hf)
    obtain ⟨y, hy, rfl⟩ := Option.map_eq_some_iff.mp hmap
    rw [List.length_append, leBytes_length, List.length_append, uint16_length hx,
      Codec.vec_length hy]
    omega
  | _ => cases hp

/-! ## Decoding one frame -/

section Unknown

variable {bincode : Codec SocketPacket} {codec : PacketCodec} {buf r : Bytes}

/-- **A frame of the server that is not misread is a frame of the client's codec.** -/
theorem frame_of_server (hb : FixintLayout bincode) (hc : codec.protocol = .Unknown)
    {p : SocketPacket} {b : Bytes} (hp : saidByServer p = true) (hm : misread p = false)
    (h : bincode.encode p = some b) (hlen : b.length ≤ 65535) :
    Frame bincode codec (frameBytes b) p := by
  obtain ⟨t, s, hbytes, ht, hsize⟩ := server_payload hp ((hb p).symm.trans h)
  -- the length of a data packet that is not misread keeps clear of `0x02..` and `0x0600`
  have hclear : ClearLength t b.length := by
    rw [clearLength_iff (serverTag_small ht).1]
    rcases hsize with ⟨hsmall, -⟩ | ⟨d, rfl, -, hd⟩
    · omega
    · simp only [misread, Bool.or_eq_false_iff, Bool.and_eq_false_iff, decide_eq_false_iff_not]
        at hm
      omega
  have hnot := givenUp_frame (serverTag_small ht).2 hbytes hlen hclear
  have hne : frameBytes b ≠ [] := frameBytes_ne_nil b
  refine ⟨hne, ?_, ?_⟩
  · intro more
    have hfirst : firstPacket bincode (frameBytes b ++ more) = .ok (p, more) := by
      rw [firstPacket_of_givenUp (hnot more), frame_frameBytes h hlen]
    have hafter : codec.after p = codec := by
      obtain ⟨maxLength, protocol⟩ := codec
      cases hc
      cases p <;> first | rfl | cases hp
    rw [decode_of_firstPacket hc (List.append_ne_nil_of_left_ne_nil hne more) hfirst, hafter]
  · intro s' t' hs' ht'
    by_cases hnil : s' = []
    · rw [hnil]
      exact decode_nil codec
    · have hwhole := frame_frameBytes h hlen []
      have hup := hnot []
      rw [hs'] at hwhole hup
      exact decode_of_tooSmall hc hnil (firstPacket_framePart ht' hup hwhole)

/-- A frame of a misread packet, alone in the buffer, is not decoded to this packet. -/
theorem decode_misread (hb : FixintLayout bincode) (hc : codec.protocol = .Unknown)
    {p : SocketPacket} {b : Bytes} (hm : misread p = true) (h : bincode.encode p = some b)
    (hlen : b.length ≤ 65535) :
    codec.decode bincode (frameBytes b) = (.ok none, codec, frameBytes b) ∨
      ∃ hello codec' r,
        codec.decode bincode (frameBytes b) = (.ok (some (.MCHello hello)), codec', r) := by
  have hp : saidByServer p = true := by
    cases p <;> first | rfl | cases hm
  obtain ⟨t, s, hbytes, ht, hsize⟩ := server_payload hp ((hb p).symm.trans h)
  have hframe := frameBytes_eq hbytes []
  rw [List.append_nil, List.append_nil] at hframe
  have hne : frameBytes b ≠ [] := frameBytes_ne_nil b
  have hblen : b.length = 4 + s.length := by
    rw [hbytes]
    simp only [List.length_cons]
    omega
  rcases hsize with ⟨-, hgood⟩ | ⟨d, rfl, rfl, hd⟩
  · rw [hgood] at hm
    cases hm
  · have hclear : ¬ClearLength 10 b.length := by
      simp only [misread, Bool.or_eq_true, Bool.and_eq_true, decide_eq_true_eq] at hm
      rw [clearLength_iff (by decide)]
      omega
    have hlength := beValue_lengthBytes hlen
    rw [← hlength] at hclear
    rcases hello_notClear (s := s) (by decide) (by omega) hclear with h2 | ⟨f, r, hf⟩
    · have hhi := congrArg UInt8.toNat h2
      rw [(lengthBytes hlen).1, show (2 : UInt8).toNat = 2 from rfl] at hhi
      refine Or.inl (decode_of_tooSmall hc hne (firstPacket_of_tooSmall ?_))
      rw [hframe, h2]
      refine hello_connectLength ?_
      rw [show (10 : UInt8).toNat = 10 from rfl]
      omega
    · rw [← hframe] at hf
      exact Or.inr ⟨_, _, _, decode_of_firstPacket hc hne (firstPacket_of_hello hf)⟩

end Unknown

/-! ## A whole connection -/

/-- The codec `Client::connect` creates. -/
def connectCodec : PacketCodec := .new (1024 * 4)

/--
The client's codec yields the packets `ps` from their frames.

However a part of the stream is cut into reads, the packets that have arrived are there,
nothing else is, and the codec has not failed.
-/
def Understood (bincode : Codec SocketPacket) (ps : List SocketPacket) (frames : List Bytes) :
    Prop :=
  ∀ chunks : List Bytes, chunks.flatten <+: frames.flatten →
    (Receiver.readAll bincode (.new connectCodec) chunks).failed = none ∧
      (Receiver.readAll bincode (.new connectCodec) chunks).packets
        = ps.take (arrived frames chunks.flatten.length)

variable {bincode : Codec SocketPacket}

theorem frames_of_server (hb : FixintLayout bincode) {ps : List SocketPacket} {frames : List Bytes}
    (hf : List.Forall₂ (FrameOf bincode) frames ps) (hp : ∀ p ∈ ps, saidByServer p = true)
    (hm : ∀ p ∈ ps, misread p = false) :
    List.Forall₂ (Frame bincode connectCodec) frames ps := by
  induction hf with
  | nil => exact .nil
  | @cons f p frames ps hpf hrest ih =>
    obtain ⟨b, henc, hlen, rfl⟩ := hpf.bytes
    have hhead : Frame bincode connectCodec (frameBytes b) p :=
      frame_of_server hb rfl (hp p List.mem_cons_self) (hm p List.mem_cons_self) henc hlen
    exact .cons hhead (ih (fun q hq => hp q (List.mem_cons_of_mem _ hq))
      fun q hq => hm q (List.mem_cons_of_mem _ hq))

/-- The frames of the packets before one, its own frame, and the others. -/
theorem frames_split {pre post : List SocketPacket} {p : SocketPacket} {frames : List Bytes}
    (hf : List.Forall₂ (FrameOf bincode) frames (pre ++ p :: post)) :
    ∃ fpre f fpost, frames = fpre ++ f :: fpost ∧
      List.Forall₂ (FrameOf bincode) fpre pre ∧ FrameOf bincode f p := by
  have htake := List.forall₂_take_append frames pre (p :: post) hf
  have hdrop := List.forall₂_drop_append frames pre (p :: post) hf
  cases hrest : frames.drop pre.length with
  | nil => rw [hrest] at hdrop; cases hdrop
  | cons f fpost =>
    rw [hrest] at hdrop
    cases hdrop with
    | cons hfp _ => exact ⟨_, f, fpost, by rw [← hrest, List.take_append_drop], htake, hfp⟩

/-- The first misread packet is not understood when its frame is read on its own. -/
theorem not_understood (hb : FixintLayout bincode) {pre post : List SocketPacket} {p : SocketPacket}
    {frames : List Bytes} (hf : List.Forall₂ (FrameOf bincode) frames (pre ++ p :: post))
    (hp : ∀ q ∈ pre, saidByServer q = true) (hpre : ∀ q ∈ pre, misread q = false)
    (hm : misread p = true) : ¬Understood bincode (pre ++ p :: post) frames := by
  intro hall
  obtain ⟨fpre, f, fpost, rfl, hfpre, hfp⟩ := frames_split hf
  obtain ⟨b, henc, hlen, rfl⟩ := hfp.bytes
  have hframes := frames_of_server hb hfpre hp hpre
  have hcount : fpre.length = pre.length := hfpre.length_eq
  -- reading `pre` leaves nothing in the buffer
  have hfirst : Receiver.readAll bincode (.new connectCodec) fpre
      = ⟨connectCodec, [], pre, none⟩ := by
    rw [Receiver.readAll_new hframes List.prefix_rfl, Receiver.seen_all hframes]
  have hpos : 0 < (frameBytes b).length := by simp
  obtain ⟨n, hn⟩ : ∃ n, (frameBytes b).length = n + 1 := ⟨_, (Nat.succ_pred_eq_of_pos hpos).symm⟩
  have hread : Receiver.readAll bincode (.new connectCodec) (fpre ++ [frameBytes b])
      = Receiver.drain bincode (n + 1) ⟨connectCodec, frameBytes b, pre, none⟩ := by
    rw [Receiver.readAll_append, hfirst, ← hn]
    rfl
  have hstream : (fpre ++ [frameBytes b]).flatten <+: (fpre ++ frameBytes b :: fpost).flatten :=
    ⟨fpost.flatten, by simp⟩
  have hnumber : arrived (fpre ++ frameBytes b :: fpost) (fpre ++ [frameBytes b]).flatten.length
      = pre.length + (arrived fpost 0 + 1) := by
    rw [List.flatten_append, List.length_append, List.flatten_singleton, arrived_append,
      arrived_cons_of_le (Nat.le_refl _), Nat.sub_self, hcount]
  have hpackets := (hall _ hstream).2
  rw [hread, hnumber, List.take_length_add_append, List.take_succ_cons, Receiver.drain] at hpackets
  rcases @decode_misread bincode connectCodec hb rfl _ _ hm henc hlen with hd | ⟨h, codec', r, hd⟩
  · simp only [hd] at hpackets
    have := congrArg List.length hpackets
    rw [List.length_append, List.length_cons] at this
    omega
  · simp only [hd] at hpackets
    have hkeep := @Receiver.drain_packets bincode n ⟨codec', r, pre ++ [.MCHello h], none⟩
    rw [hpackets] at hkeep
    have heq := List.prefix_append_right_inj pre |>.mp hkeep
    obtain rfl : SocketPacket.MCHello h = p := by simpa using heq
    cases hm

/--
**The client understands exactly the data packets whose length bytes do not look like a hello.**

Those with 498 to 753 bytes are taken for a legacy connect and those with 1522 bytes for a
modern handshake.
-/
theorem understood_iff (bincode : Codec SocketPacket) (hb : FixintLayout bincode)
    (challenge : ChallengeDataType) (response : ProxyConnectedResponse) (mix : List SocketPacket)
    (hmix : ∀ p ∈ mix, tunnelled p = true) (frames : List Bytes)
    (hframes : List.Forall₂ (FrameOf bincode) frames (serverSays challenge response mix)) :
    Understood bincode (serverSays challenge response mix) frames
      ↔ ∀ p ∈ mix, misread p = false := by
  have hsaid : ∀ p ∈ serverSays challenge response mix, saidByServer p = true := by
    intro p hp
    rcases List.mem_cons.mp hp with rfl | hp
    · rfl
    rcases List.mem_cons.mp hp with rfl | hp
    · rfl
    · have ht := hmix p hp
      cases p <;> first | rfl | cases ht
  have hgreet : (∀ p ∈ mix, misread p = false)
      ↔ ∀ p ∈ serverSays challenge response mix, misread p = false := by
    simp [serverSays, misread]
  rw [hgreet]
  constructor
  · intro hall
    by_contra hbad
    have hfind : (serverSays challenge response mix).find? misread ≠ none := by
      rw [ne_eq, List.find?_eq_none]
      intro hnone
      exact hbad fun p hp => by simpa using hnone p hp
    obtain ⟨p, hfound⟩ := Option.ne_none_iff_exists'.mp hfind
    obtain ⟨hm, pre, post, hsplit, hpre⟩ := List.find?_eq_some_iff_append.mp hfound
    rw [hsplit] at hframes hall hsaid
    exact not_understood hb hframes (fun q hq => hsaid q (List.mem_append_left _ hq))
      (fun q hq => by simpa using hpre q hq) hm hall
  · intro hm chunks hchunks
    have hread := frames_of_server hb hframes hsaid hm
    rw [Receiver.readAll_new hread hchunks]
    exact ⟨rfl, rfl⟩

/-- The frames of the two greetings of a server of version 1. -/
theorem frames_greeting : List.Forall₂ (FrameOf SocketPacket.bincode)
    [frameBytes (leBytes 4 3 ++ (Vector.replicate 64 0).toList), frameBytes (leBytes 4 5 ++ [1, 0])]
    [.ProxyAuthRequest (Vector.replicate 64 0), .ProxyHelloResponse ⟨1⟩] :=
  .cons (frameOf_bytes (bincode_encode rfl) (by decide))
    (.cons (frameOf_bytes (bincode_encode rfl) (by decide)) .nil)

/-- A join and some data. -/
theorem understood_data : Understood SocketPacket.bincode
    (serverSays (Vector.replicate 64 0) ⟨1⟩ [.ProxyJoin 7, .ProxyData ⟨7, ⟨[16, 0]⟩⟩])
    [frameBytes (leBytes 4 3 ++ (Vector.replicate 64 0).toList), frameBytes (leBytes 4 5 ++ [1, 0]),
      frameBytes (leBytes 4 6 ++ [7, 0]),
      frameBytes (leBytes 4 10 ++ (leBytes 2 7 ++ (leBytes 8 2 ++ [16, 0])))] := by
  have hdata := bincode_proxyData 7 [16, 0] (by decide)
  exact (understood_iff SocketPacket.bincode fixintLayout_bincode _ _
    [.ProxyJoin 7, .ProxyData ⟨7, ⟨[16, 0]⟩⟩] (by decide) _
    (List.rel_append frames_greeting
      (.cons (frameOf_bytes (bincode_encode rfl) (by decide))
        (.cons (frameOf_bytes hdata (by decide)) .nil)))).mpr (by decide)

/-- A data packet with 498 bytes is taken for the beginning of a legacy connect. -/
theorem not_understood_connect : ∃ frames,
    List.Forall₂ (FrameOf SocketPacket.bincode) frames
      (serverSays (Vector.replicate 64 0) ⟨1⟩ [.ProxyData ⟨7, ⟨List.replicate 498 0⟩⟩]) ∧
    ¬Understood SocketPacket.bincode
      (serverSays (Vector.replicate 64 0) ⟨1⟩ [.ProxyData ⟨7, ⟨List.replicate 498 0⟩⟩]) frames := by
  have hlen : (List.replicate 498 (0 : UInt8)).length = 498 := List.length_replicate
  have henc := bincode_proxyData 7 (List.replicate 498 0) (by rw [hlen]; norm_num)
  have hframes := List.rel_append frames_greeting (.cons (frameOf_bytes henc (by
    simp only [List.length_append, leBytes_length, hlen]
    norm_num)) .nil)
  refine ⟨_, hframes, @not_understood _ fixintLayout_bincode _ [] _ _ hframes (by decide)
    (by decide) ?_⟩
  simp only [misread, hlen]
  decide

end CraftIp
