import CraftIp.Properties.Decoding

/-!
# The first packet and how it is split

The first packet of a connection has four parsers, and only one of them sees a length before
it looks at anything else. Still the packet they agree on depends on its own bytes only.

* `firstPacket_append` — bytes behind the packet change nothing
* `firstPacket_part` — a part of the packet is too small, never an error or another packet
* `first_packet_split` — the same about `decode`
-/

namespace CraftIp

open Infra Spec

variable {bincode : Codec SocketPacket} {codec : PacketCodec} {s r : Bytes} {p : SocketPacket}

/-! ## Frames -/

/-- A frame that was read: its length, and as many bytes of a packet. -/
theorem frame_eq_ok (h : frame bincode s = .ok (p, r)) :
    ∃ hi lo b, s = hi :: lo :: (b ++ r) ∧ b.length = hi.toNat * 256 + lo.toNat ∧
      deserialize bincode b = some p := by
  match s with
  | [] => cases h
  | [_] => cases h
  | hi :: lo :: s =>
    rw [frame_cons] at h
    split at h
    · cases h
    · next hlen =>
      cases hd : deserialize bincode (s.take (hi.toNat * 256 + lo.toNat)) with
      | none => rw [hd] at h; cases h
      | some q =>
        rw [hd] at h
        cases h
        exact ⟨hi, lo, _, by rw [List.take_append_drop], by rw [List.length_take]; omega, hd⟩

/-- Fewer bytes than announced are too small. -/
theorem frame_tooSmall (h : ∀ hi lo b, s = hi :: lo :: b → b.length < hi.toNat * 256 + lo.toNat) :
    frame bincode s = .error .TooSmall := by
  match s with
  | [] => rfl
  | [_] => rfl
  | hi :: lo :: b => rw [frame_cons, if_pos (h hi lo b rfl)]

/-- No bytes are no packet. -/
theorem deserialize_nil (hb : FixintLayout bincode) : deserialize bincode [] = none := by
  cases hd : bincode.decode [] with
  | none => rw [deserialize, hd, Option.map_none]
  | some v =>
    obtain ⟨p, r⟩ := v
    -- every byte string would begin with this packet
    have hall {q : SocketPacket} {b : Bytes} (hq : bincode.encode q = some b) : q = p := by
      have hback := bincode.decode_encode hq []
      have happend := bincode.decode_append hd b
      rw [List.append_nil] at hback
      rw [List.nil_append, hback] at happend
      exact congrArg Prod.fst (Option.some.inj happend)
    have hjoin := hall ((hb (.ProxyJoin 0)).trans (bincode_encode rfl))
    rw [← hall ((hb .Unknown).trans (bincode_encode rfl))] at hjoin
    cases hjoin

/-! ## The two ways to a first packet -/

theorem firstPacket_eq_ok (h : firstPacket bincode s = .ok (p, r)) :
    (∃ f, hello s = .ok (f, r) ∧ p = .MCHello (packetOf s f r)) ∨
      (GivenUp s ∧ frame bincode s = .ok (p, r)) := by
  unfold firstPacket at h
  cases hs : hello s with
  | ok v =>
    obtain ⟨f, r'⟩ := v
    rw [hs] at h
    cases h
    exact Or.inl ⟨f, rfl, rfl⟩
  | error e =>
    rw [hs] at h
    cases e with
    | NotMatching => exact Or.inr ⟨Or.inl hs, h⟩
    | NotValid => exact Or.inr ⟨Or.inr hs, h⟩
    | _ => cases h

/-- What a parser cut off does not depend on what follows. -/
theorem packetOf_append (f : MinecraftHelloPacket.Fields) {c r : Bytes} (t : Bytes) :
    packetOf (c ++ r ++ t) f (r ++ t) = packetOf (c ++ r) f r := by
  have hlen : (c ++ r ++ t).length - (r ++ t).length = c.length := by
    simp only [List.length_append]
    omega
  have hlen' : (c ++ r).length - r.length = c.length := by
    rw [List.length_append]
    omega
  rw [packetOf, packetOf, hlen, hlen', List.append_assoc, List.take_left, List.take_left]

/-! ## More bytes -/

/-- In a buffer of zero and another small byte, the second is the id of a handshake. -/
theorem hello_zeroLength {lo : UInt8} (hlo : lo ≠ 0) (hsmall : lo.toNat < 128) (s : Bytes) :
    hello (0 :: lo :: s) = .error .NotMatching := by
  have hid : Int32.ofNat lo.toNat ≠ 0 :=
    mt (ofNat_eq_zero (by omega)).mp (mt (byte_eq_zero_iff lo).mpr hlo)
  rw [hello_cons, if_neg (by rintro ⟨h, -⟩; cases h), if_neg (by decide)]
  exact modern_id_ne (varint_zero _) (varint_one hsmall _) hid

/-- **A frame that was given up by the parsers before it is given up with more bytes, too.** -/
theorem givenUp_append (hb : deserialize bincode [] = none) (hs : GivenUp s)
    (h : frame bincode s = .ok (p, r)) (t : Bytes) : GivenUp (s ++ t) := by
  obtain ⟨hi, lo, b, rfl, hlen, hd⟩ := frame_eq_ok h
  rcases hs with hs | hs
  · exact Or.inl (hello_notMatching hs t)
  · by_cases hlong : 20 ≤ (hi :: lo :: (b ++ r)).length
    · exact Or.inr (hello_notValid hlong hs t)
    · -- a frame this short announces its length in the second byte alone
      simp only [List.length_cons, List.length_append] at hlong
      have hhi : hi = 0 := UInt8.toNat_inj.mp (show hi.toNat = 0 by omega)
      subst hhi
      by_cases hlo : lo = 0
      · subst hlo
        rw [List.length_eq_zero_iff.mp hlen, hb] at hd
        cases hd
      · have hsmall : lo.toNat < 128 := by
          rw [show (0 : UInt8).toNat = 0 from rfl] at hlen
          omega
        rw [hello_zeroLength hlo hsmall] at hs
        cases hs

/-- **Bytes behind the first packet change nothing.** -/
theorem firstPacket_append (hb : deserialize bincode [] = none)
    (h : firstPacket bincode s = .ok (p, r)) (t : Bytes) :
    firstPacket bincode (s ++ t) = .ok (p, r ++ t) := by
  rcases firstPacket_eq_ok h with ⟨f, hf, rfl⟩ | ⟨hs, hframe⟩
  · obtain ⟨⟨c, rfl⟩, -⟩ := hello_takes hf
    rw [firstPacket_of_hello (hello_append hf t), packetOf_append]
  · rw [firstPacket_of_givenUp (givenUp_append hb hs hframe t), local_frame.append hframe t]

/-! ## Fewer bytes -/

/-- A handshake announces a length that is not zero, in its first byte. -/
theorem modern_first {a : UInt8} {c r : Bytes} {f : MinecraftHelloPacket.Fields}
    (h : modern (a :: c ++ r) = .ok (f, r)) : a ≠ 0 := by
  rintro rfl
  obtain ⟨pkgLength, hbody, hlen⟩ := modern_eq_ok h
  obtain ⟨v, m, hv, hm⟩ := Reader.bind_eq_ok.mp hbody
  have hzero : varint (0 :: c ++ r) = .ok (0, c ++ r) := varint_zero _
  rw [hzero] at hv
  cases hv
  obtain ⟨_, _, -, hm⟩ := Reader.bind_eq_ok.mp hm
  obtain ⟨_, _, -, hm⟩ := Reader.bind_eq_ok.mp hm
  obtain ⟨_, _, -, hm⟩ := Reader.bind_eq_ok.mp hm
  obtain ⟨_, _, -, hm⟩ := Reader.bind_eq_ok.mp hm
  obtain ⟨_, _, -, hm⟩ := Reader.bind_eq_ok.mp hm
  cases hm
  have hz : asUsize 0 = 0 := by decide
  simp only [hz, List.length_append, List.length_cons] at hlen
  omega

/-- A part of a hello that is not valid yet is too short for a frame. -/
theorem frame_of_helloPart {s t r : Bytes} {f : MinecraftHelloPacket.Fields}
    (h : hello (s ++ t ++ r) = .ok (f, r)) (hs : hello s = .error .NotValid) :
    frame bincode s = .error .TooSmall := by
  refine frame_tooSmall ?_
  intro a b s' hs'
  subst hs'
  have hshort : (a :: b :: s').length < 20 := by
    by_contra hlong
    rw [List.append_assoc, hello_notValid (by omega) hs (t ++ r)] at h
    cases h
  simp only [List.length_cons] at hshort
  obtain ⟨hping, hconnect⟩ := hello_notValid_short (by omega) hs
  have hmodern : modern (a :: (b :: (s' ++ t)) ++ r) = .ok (f, r) := by
    have h' : hello (a :: b :: (s' ++ t ++ r)) = .ok (f, r) := h
    rw [hello_cons, if_neg hping, if_neg hconnect] at h'
    exact h'
  have ha : a.toNat ≠ 0 := fun h0 => modern_first hmodern (UInt8.toNat_inj.mp h0)
  omega

/-- A part of a frame is too small. -/
theorem frame_of_framePart {s t r : Bytes} (ht : t ≠ [])
    (h : frame bincode (s ++ t ++ r) = .ok (p, r)) : frame bincode s = .error .TooSmall := by
  refine frame_tooSmall ?_
  intro a b s' hs'
  subst hs'
  obtain ⟨hi, lo, c, hc, hlen, -⟩ := frame_eq_ok h
  have hpos := List.length_pos_iff.mpr ht
  injection hc with ha hc
  injection hc with hb hc
  have hcount : (s' ++ t ++ r).length = (c ++ r).length := congrArg List.length hc
  simp only [List.length_append] at hcount
  rw [ha, hb]
  omega

/-- An error before the last one: more bytes are awaited, or the parsers have given up. -/
theorem hello_error_cases {e : PacketError} (hs : hello s = .error e) :
    hello s = .error .TooSmall ∨ GivenUp s ∨ ∀ t, hello (s ++ t) = .error e ∧ Lasting e := by
  by_cases hsmall : PacketError.TooSmall = e
  · exact Or.inl (hsmall ▸ hs)
  · by_cases hvalid : PacketError.NotValid = e
    · exact Or.inr (Or.inl (Or.inr (hvalid ▸ hs)))
    · by_cases hmatch : PacketError.NotMatching = e
      · exact Or.inr (Or.inl (Or.inl (hmatch ▸ hs)))
      · have he : Lasting e := ⟨hsmall, hvalid, hmatch⟩
        exact Or.inr (Or.inr fun t => ⟨hello_lasting he s hs t, he⟩)

theorem hello_ne_ok_of_notMatching {f : MinecraftHelloPacket.Fields}
    (hs : hello s = .error .NotMatching) (t : Bytes) : hello (s ++ t) ≠ .ok (f, r) := by
  intro h
  rw [hello_notMatching hs t] at h
  cases h

/-- A part of a hello. -/
theorem firstPacket_helloPart {s t r : Bytes} {f : MinecraftHelloPacket.Fields} (ht : t ≠ [])
    (h : hello (s ++ t ++ r) = .ok (f, r)) : firstPacket bincode s = .error .TooSmall := by
  have hpos := List.length_pos_iff.mpr ht
  cases hs : hello s with
  | ok v =>
    obtain ⟨f', r'⟩ := v
    have hlong := hello_append hs (t ++ r)
    rw [← List.append_assoc, h] at hlong
    have hlen := congrArg (fun v => v.toOption.map fun w => w.2.length) hlong
    simp [Except.toOption] at hlen
    omega
  | error e =>
    rcases hello_error_cases hs with hsmall | hup | hlast
    · rw [firstPacket, hsmall]
    · rw [firstPacket_of_givenUp hup]
      rcases hup with hup | hup
      · rw [List.append_assoc] at h
        exact absurd h (hello_ne_ok_of_notMatching hup _)
      · exact frame_of_helloPart h hup
    · rw [List.append_assoc, (hlast (t ++ r)).1] at h
      cases h

/-- A part of a frame that the parsers before it give up. -/
theorem firstPacket_framePart {s t r : Bytes} (ht : t ≠ []) (hup : GivenUp (s ++ t ++ r))
    (h : frame bincode (s ++ t ++ r) = .ok (p, r)) : firstPacket bincode s = .error .TooSmall := by
  have hpart := frame_of_framePart ht h
  rw [List.append_assoc] at hup
  cases hs : hello s with
  | ok v =>
    obtain ⟨f', r'⟩ := v
    exact absurd (hello_append hs (t ++ r)) (hup.ne_ok _)
  | error e =>
    rcases hello_error_cases hs with hsmall | hup' | hlast
    · rw [firstPacket, hsmall]
    · rw [firstPacket_of_givenUp hup', hpart]
    · obtain ⟨hlong, he⟩ := hlast (t ++ r)
      rcases hup with hup | hup <;> rw [hlong] at hup <;> cases hup
      · exact absurd rfl he.notMatching
      · exact absurd rfl he.notValid

/-- **A part of the first packet is too small**: no parser accepts it, and none fails on it. -/
theorem firstPacket_part {s t r : Bytes} (ht : t ≠ [])
    (h : firstPacket bincode (s ++ t ++ r) = .ok (p, r)) :
    firstPacket bincode s = .error .TooSmall := by
  rcases firstPacket_eq_ok h with ⟨f, hf, -⟩ | ⟨hup, hframe⟩
  · exact firstPacket_helloPart ht hf
  · exact firstPacket_framePart ht hup hframe

/-! ## The decoder -/

/-- The first packet is taken off the front of the buffer. -/
theorem firstPacket_takes (h : firstPacket bincode s = .ok (p, r)) :
    (∃ c, s = c ++ r) ∧ r.length < s.length := by
  rcases firstPacket_eq_ok h with ⟨f, hf, -⟩ | ⟨-, hframe⟩
  · exact hello_takes hf
  · refine ⟨local_frame.takes_front hframe, ?_⟩
    obtain ⟨hi, lo, b, rfl, -⟩ := frame_eq_ok hframe
    simp only [List.length_cons, List.length_append]
    omega

/-- A packet from an undecided codec is the first packet of the buffer. -/
theorem firstPacket_of_decode {codec' : PacketCodec} (hc : codec.protocol = .Unknown)
    (h : codec.decode bincode s = (.ok (some p), codec', r)) :
    s ≠ [] ∧ firstPacket bincode s = .ok (p, r) ∧ codec' = codec.after p := by
  by_cases hnil : s = []
  · rw [hnil, decode_nil] at h
    cases h
  · rw [decode_eq codec hnil, hc, reading] at h
    cases hs : firstPacket bincode s with
    | ok v =>
      obtain ⟨q, r'⟩ := v
      rw [hs] at h
      cases h
      exact ⟨hnil, rfl, rfl⟩
    | error e =>
      rw [hs] at h
      cases e <;> cases h

/--
**The first packet does not depend on how the stream is split.**

`c` are the bytes it takes. On a part of them the codec waits, and with more bytes behind
them it returns the same packet. Of the serialiser it is used that no bytes are no packet.
-/
theorem first_packet_split (bincode : Codec SocketPacket) (hb : deserialize bincode [] = none)
    (codec codec' : PacketCodec) (hc : codec.protocol = .Unknown) (s rest : Bytes)
    (p : SocketPacket) (h : codec.decode bincode s = (.ok (some p), codec', rest)) :
    ∃ c, s = c ++ rest ∧
      (∀ a b, c = a ++ b → b ≠ [] → codec.decode bincode a = (.ok none, codec, a)) ∧
      ∀ t, codec.decode bincode (s ++ t) = (.ok (some p), codec', rest ++ t) := by
  obtain ⟨hnil, hfirst, rfl⟩ := firstPacket_of_decode hc h
  obtain ⟨⟨c, rfl⟩, -⟩ := firstPacket_takes hfirst
  refine ⟨c, rfl, ?_, ?_⟩
  · intro a b hab hne
    by_cases ha : a = []
    · rw [ha, decode_nil]
    · rw [hab] at hfirst
      exact decode_of_tooSmall hc ha (firstPacket_part hne hfirst)
  · intro t
    exact decode_of_firstPacket hc (List.append_ne_nil_of_left_ne_nil hnil t)
      (firstPacket_append hb hfirst t)

/--
One packet of each parser: a legacy ping, a legacy connect, a handshake, and a frame whose length
byte is also the id of a handshake.
-/
def firstOfEach : List (Bytes × SocketPacket) :=
  [(OLD_MINECRAFT_START ++ [0, 9, 73, 0, 1, 0, 104, 0, 0, 99, 221],
      .MCHello ⟨38, 0, 73, "h", 25565,
        OLD_MINECRAFT_START ++ [0, 9, 73, 0, 1, 0, 104, 0, 0, 99, 221]⟩),
    ([2, 73, 0, 1, 0, 97, 0, 1, 0, 104, 0, 0, 99, 221],
      .MCHello ⟨14, 0, 73, "h", 25565, [2, 73, 0, 1, 0, 97, 0, 1, 0, 104, 0, 0, 99, 221]⟩),
    ([7, 0, 47, 1, 104, 99, 221], .MCHello ⟨7, 0, 47, "h", 25565, [7, 0, 47, 1, 104, 99, 221]⟩),
    ([0, 6, 6, 0, 0, 0, 7, 0], .ProxyJoin 7)]

theorem first_packet_split_each : firstOfEach.Forall fun v =>
    PacketCodec.decode SocketPacket.bincode (.new 8192) (v.1.take 4)
        = (.ok none, .new 8192, v.1.take 4) ∧
      ∀ t, PacketCodec.decode SocketPacket.bincode (.new 8192) (v.1 ++ t)
        = (.ok (some v.2), PacketCodec.after (.new 8192) v.2, t) := by
  have hdecode : ∀ v ∈ firstOfEach, PacketCodec.decode SocketPacket.bincode (.new 8192) v.1
      = (.ok (some v.2), PacketCodec.after (.new 8192) v.2, []) := by decide +kernel
  have hlong : ∀ v ∈ firstOfEach, v.1.drop 4 ≠ [] := by decide
  refine List.forall_iff_forall_mem.mpr fun v hv => ?_
  obtain ⟨c, hc, hpart, hmore⟩ := first_packet_split SocketPacket.bincode
    (deserialize_nil fixintLayout_bincode) (.new 8192) _ rfl v.1 [] v.2 (hdecode v hv)
  rw [List.append_nil] at hc
  exact ⟨hpart _ (v.1.drop 4) (by rw [List.take_append_drop, hc]) (hlong v hv), hmore⟩

end CraftIp
