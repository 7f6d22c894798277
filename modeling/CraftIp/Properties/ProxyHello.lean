import CraftIp.Properties.Splitting

/-!
# The hello of a proxy client

A proxy client and a Minecraft client come to the same port, and the codec tells them apart
by their first packet. The frame of a `ProxyHello` starts with its length, and there the
parsers of `minecraft.rs` look for their own first bytes.

* `proxyHello_payload` — what a `ProxyHello` looks like, and how long it is
* `proxy_hello_recognised_iff` — it is recognised unless its hostname has one of 257 lengths
-/

namespace CraftIp

open Infra Spec

variable {bincode : Codec SocketPacket} {codec : PacketCodec}

/-! ## The layout of a hello -/

theorem string_length {s : String} {b : Bytes} (h : Codec.string.encode s = some b) :
    b.length = 8 + s.utf8ByteSize := by
  rw [Codec.vec_length (show Codec.vec.encode (utf8 s) = some b from h), utf8_length]

/-- A tag of four bytes, and a key of 32. -/
theorem authenticator_length {a : ProxyAuthenticator} {b : Bytes}
    (h : ProxyAuthenticator.bincode.encode a = some b) : b.length = 36 := by
  obtain ⟨x, y, hx, hkey, rfl⟩ := Codec.Variants.tagged_eq_some h
  rw [uint32_encode] at hx
  cases hx
  cases a with
  | PublicKey key =>
    obtain rfl : key.key.toList = y := Option.some.inj hkey
    rw [List.length_append, leBytes_length, Vector.length_toList]

/-- Tag 2, the version in two bytes, the hostname with its length in eight, and the key. -/
theorem proxyHello_payload {p : ProxyHelloPacket} {b : Bytes}
    (h : SocketPacket.bincode.encode (.ProxyHello p) = some b) :
    (∃ s, b = 2 :: 0 :: 0 :: 0 :: s) ∧ b.length = 50 + p.hostname.utf8ByteSize := by
  obtain ⟨fields, hf, rfl⟩ := bincode_eq_some h
  obtain ⟨x, y, hx, hy, rfl⟩ := Codec.pair_eq_some (c := Codec.uint16)
    (d := Codec.string.pair ProxyAuthenticator.bincode) hf
  obtain ⟨u, v, hu, hv, rfl⟩ := Codec.pair_eq_some hy
  refine ⟨⟨x ++ (u ++ v), leBytes_tag 2 _⟩, ?_⟩
  rw [uint16_encode] at hx
  cases hx
  simp only [List.length_append, leBytes_length, string_length hu, authenticator_length hv]
  omega

/-- Every hello that fits into a frame has one. -/
theorem proxyHello_frame (p : ProxyHelloPacket) (h : p.hostname.utf8ByteSize ≤ 65485) :
    ∃ f, FrameOf SocketPacket.bincode f (.ProxyHello p) := by
  obtain ⟨version, hostname, ⟨key⟩⟩ := p
  have hstring : Codec.string.encode hostname
      = some (leBytes 8 (utf8 hostname).length ++ utf8 hostname) :=
    Codec.vec_encode (by rw [utf8_length]; exact Nat.lt_of_le_of_lt h (by decide))
  have hauth : ProxyAuthenticator.bincode.encode (.PublicKey key)
      = some (leBytes 4 0 ++ key.key.toList) := rfl
  have hfields : (SocketPacket.ProxyHello ⟨version, hostname, .PublicKey key⟩).encodeFields
      = some (leBytes 2 version.toNat ++ ((leBytes 8 (utf8 hostname).length ++ utf8 hostname)
          ++ (leBytes 4 0 ++ key.key.toList))) := by
    show (Codec.uint16.encode version).bind (fun x => ((Codec.string.encode hostname).bind fun y =>
      (ProxyAuthenticator.bincode.encode (.PublicKey key)).map (y ++ ·)).map (x ++ ·)) = _
    rw [uint16_encode, hstring, hauth]
    rfl
  have henc := bincode_encode hfields
  refine ⟨_, frameOf_bytes henc ?_⟩
  rw [(proxyHello_payload henc).2]
  exact Nat.add_le_of_le_sub' (by decide) h

/-! ## Recognising a hello -/

/-- The codec recognises the hello at the front of the buffer and leaves the rest. -/
def Recognised (bincode : Codec SocketPacket) (codec : PacketCodec) (p : ProxyHelloPacket)
    (f rest : Bytes) : Prop :=
  codec.decode bincode (f ++ rest)
    = (.ok (some (.ProxyHello p)), { codec with protocol := .Proxy p.version.toUInt32 }, rest)

theorem recognised_of_clear (hb : FixintLayout bincode) (hc : codec.protocol = .Unknown)
    {p : ProxyHelloPacket} {b : Bytes} (henc : bincode.encode (.ProxyHello p) = some b)
    (hlen : b.length ≤ 65535) (hclear : ClearLength 2 b.length) (rest : Bytes) :
    Recognised bincode codec p (frameBytes b) rest := by
  obtain ⟨⟨s, hs⟩, -⟩ := proxyHello_payload ((hb _).symm.trans henc)
  have hfirst : firstPacket bincode (frameBytes b ++ rest) = .ok (.ProxyHello p, rest) := by
    rw [firstPacket_of_givenUp (givenUp_frame (by decide) hs hlen hclear rest),
      frame_frameBytes henc hlen]
  have hafter : codec.after (.ProxyHello p)
      = { codec with protocol := .Proxy p.version.toUInt32 } := by
    rw [PacketCodec.after, hc]
    rfl
  rw [Recognised, decode_of_firstPacket hc (by simp) hfirst, hafter]

/-- With another length the frame is not even shown to `decode_proxy`. -/
theorem not_recognised (hb : FixintLayout bincode) (hc : codec.protocol = .Unknown)
    {p : ProxyHelloPacket} {b : Bytes} (henc : bincode.encode (.ProxyHello p) = some b)
    (hlen : b.length ≤ 65535) (hclear : ¬ClearLength 2 b.length) (rest : Bytes) :
    ¬Recognised bincode codec p (frameBytes b) rest := by
  obtain ⟨⟨s, hs⟩, -⟩ := proxyHello_payload ((hb _).symm.trans henc)
  intro h
  obtain ⟨-, hfirst, -⟩ := firstPacket_of_decode hc h
  rcases firstPacket_eq_ok hfirst with ⟨_, -, hkind⟩ | ⟨hup, -⟩
  · cases hkind
  · exact not_givenUp_frame (by decide) hs hlen hclear rest hup

/--
**A proxy client is recognised exactly when the length of its hello is not taken for the
first bytes of a Minecraft packet.**

A hostname of 462 to 717 bytes makes the length start with `0x02`, as a legacy connect does,
and one of 1486 bytes makes it `0x0600`, which is a complete handshake of six bytes.
-/
theorem proxy_hello_recognised_iff (bincode : Codec SocketPacket) (hb : FixintLayout bincode)
    (codec : PacketCodec) (hc : codec.protocol = .Unknown) (p : ProxyHelloPacket) (f : Bytes)
    (hf : FrameOf bincode f (.ProxyHello p)) (rest : Bytes) :
    Recognised bincode codec p f rest
      ↔ ¬(462 ≤ p.hostname.utf8ByteSize ∧ p.hostname.utf8ByteSize ≤ 717) ∧
        p.hostname.utf8ByteSize ≠ 1486 := by
  obtain ⟨b, henc, hlen, rfl⟩ := hf.bytes
  obtain ⟨-, hsize⟩ := proxyHello_payload ((hb _).symm.trans henc)
  have hclear : ClearLength 2 b.length
      ↔ ¬(462 ≤ p.hostname.utf8ByteSize ∧ p.hostname.utf8ByteSize ≤ 717) ∧
        p.hostname.utf8ByteSize ≠ 1486 := by
    rw [clearLength_iff (by decide)]
    omega
  rw [← hclear]
  constructor
  · intro h
    by_contra hbad
    exact not_recognised hb hc henc hlen hbad rest h
  · intro hgood
    exact recognised_of_clear hb hc henc hlen hgood rest

/-- The hello of a client whose hostname has `n` letters. -/
def helloOf (n : Nat) : ProxyHelloPacket :=
  ⟨1, String.ofList (List.replicate n 'a'), .PublicKey ⟨.replicate 32 0⟩⟩

theorem helloOf_size (n : Nat) : (helloOf n).hostname.utf8ByteSize = n := utf8ByteSize_replicate n

theorem proxy_hello_recognised_short : ∃ f,
    FrameOf SocketPacket.bincode f (.ProxyHello (helloOf 34)) ∧
      Recognised SocketPacket.bincode (.new 8192) (helloOf 34) f [1, 2] := by
  obtain ⟨f, hf⟩ := proxyHello_frame (helloOf 34) (by rw [helloOf_size]; decide)
  exact ⟨f, hf, (proxy_hello_recognised_iff SocketPacket.bincode fixintLayout_bincode (.new 8192)
    rfl (helloOf 34) f hf [1, 2]).mpr (by rw [helloOf_size]; decide)⟩

/-- A hostname of 500 letters: the frame starts with `0x02`. -/
theorem proxy_hello_misread : ∃ f,
    FrameOf SocketPacket.bincode f (.ProxyHello (helloOf 500)) ∧
      ¬Recognised SocketPacket.bincode (.new 8192) (helloOf 500) f [] := by
  obtain ⟨f, hf⟩ := proxyHello_frame (helloOf 500) (by rw [helloOf_size]; decide)
  obtain ⟨b, henc, hlen, rfl⟩ := hf.bytes
  refine ⟨_, hf, not_recognised fixintLayout_bincode rfl henc hlen ?_ []⟩
  rw [(proxyHello_payload henc).2, helloOf_size]
  exact fun h => h.1 (by decide)

end CraftIp
