import CraftIp.Properties.Framing
import CraftIp.Spec.Header

/-!
# One call of the decoder

`PacketCodec::decode` as a whole: which reader sees the buffer in which state
(`reading`), and what becomes of its answer (`decode_eq`).

The first packet of a connection has two sources. `firstPacket` gives the three hellos of
`minecraft.rs` the first look and leaves the rest to `decode_proxy`.
-/

namespace CraftIp

open Infra Spec

variable {bincode : Codec SocketPacket} {codec : PacketCodec} {buf r : Bytes}

/-! ## The decoder as a reader -/

/-- `parse_first_package`. -/
def firstPacket (bincode : Codec SocketPacket) : Reader PacketError SocketPacket := fun s =>
  match hello s with
  | .ok (f, r) => .ok (.MCHello (packetOf s f r), r)
  | .error .NotValid => frame bincode s
  | .error .NotMatching => frame bincode s
  | .error e => .error e

theorem firstPacket_of_givenUp (h : GivenUp buf) :
    firstPacket bincode buf = frame bincode buf := by
  rcases h with h | h <;> rw [firstPacket, h]

theorem firstPacket_of_hello {f : MinecraftHelloPacket.Fields} (h : hello buf = .ok (f, r)) :
    firstPacket bincode buf = .ok (.MCHello (packetOf buf f r), r) := by
  rw [firstPacket, h]

theorem firstPacket_of_tooSmall (h : hello buf = .error .TooSmall) :
    firstPacket bincode buf = .error .TooSmall := by
  rw [firstPacket, h]

/-- The parser for a protocol. -/
def reading (bincode : Codec SocketPacket) : Protocol → Reader PacketError SocketPacket
  | .Unknown => firstPacket bincode
  | .MC _ => fun s => .ok (.MCData ⟨s⟩, [])
  | .Proxy _ => frame bincode

/-- The codec after it has returned a packet: only the first one settles the protocol. -/
def PacketCodec.after (codec : PacketCodec) (p : SocketPacket) : PacketCodec :=
  match codec.protocol with
  | .Unknown => { codec with protocol := PacketCodec.protocolAfter (.ok p) }
  | _ => codec

/-- What `decode` returns for what the parser made of the buffer. -/
def answer (codec : PacketCodec) (buf : Bytes) :
    Except PacketError (SocketPacket × Bytes) → Outcome (Option SocketPacket) × PacketCodec × Bytes
  | .ok (p, r) => (.ok (some p), codec.after p, r)
  | .error .TooSmall => (.ok none, codec, buf)
  | .error e => (.error (.error e), codec, buf)

theorem parseFirstPackage_eq (buf : Bytes) :
    SocketPacket.parseFirstPackage bincode buf = advanced buf (firstPacket bincode buf) := by
  unfold SocketPacket.parseFirstPackage firstPacket
  rw [new_eq]
  cases h : hello buf with
  | ok v => rw [cutOff_ok h]; rfl
  | error e =>
    rw [cutOff_error h]
    cases e <;> first | exact decodeProxy_eq buf | rfl

/-- **`decode` is the reader of its state**, on every buffer that is not empty. -/
theorem decode_eq (codec : PacketCodec) (hbuf : buf ≠ []) :
    codec.decode bincode buf = answer codec buf (reading bincode codec.protocol buf) := by
  obtain ⟨maxLength, protocol⟩ := codec
  rw [PacketCodec.decode, if_neg (mt List.isEmpty_iff.mp hbuf)]
  cases protocol with
  | Unknown =>
    simp only [PacketCodec.parse, parseFirstPackage_eq, reading]
    cases firstPacket bincode buf with
    | ok v => rfl
    | error e => cases e <;> rfl
  | MC version =>
    simp [PacketCodec.parse, SocketPacket.parsePacket, MinecraftDataPacket.new, splitTo, reading,
      answer, PacketCodec.after]
  | Proxy version =>
    simp only [PacketCodec.parse, SocketPacket.parsePacket, decodeProxy_eq, reading]
    cases frame bincode buf with
    | ok v => rfl
    | error e => cases e <;> rfl

theorem decode_nil (codec : PacketCodec) : codec.decode bincode [] = (.ok none, codec, []) := rfl

/-- A codec that asks for more bytes has changed nothing. -/
theorem unchanged_of_none {codec' : PacketCodec}
    (h : codec.decode bincode buf = (.ok none, codec', r)) : codec' = codec ∧ r = buf := by
  by_cases hnil : buf = []
  · rw [hnil, decode_nil] at h
    cases h
    exact ⟨rfl, hnil.symm⟩
  · rw [decode_eq codec hnil] at h
    cases hs : reading bincode codec.protocol buf with
    | ok v => rw [hs] at h; cases h
    | error e => rw [hs] at h; cases e <;> cases h; exact ⟨rfl, rfl⟩

/-! ## The first packet -/

/-- A packet from an undecided codec settles its protocol. -/
theorem decode_of_firstPacket {p : SocketPacket} (hc : codec.protocol = .Unknown) (hbuf : buf ≠ [])
    (h : firstPacket bincode buf = .ok (p, r)) :
    codec.decode bincode buf = (.ok (some p), codec.after p, r) := by
  rw [decode_eq codec hbuf, hc, reading, h, answer]

theorem decode_of_tooSmall (hc : codec.protocol = .Unknown) (hbuf : buf ≠ [])
    (h : firstPacket bincode buf = .error .TooSmall) :
    codec.decode bincode buf = (.ok none, codec, buf) := by
  rw [decode_eq codec hbuf, hc, reading, h, answer]

/-! ## The first bytes of a frame -/

/-- The length in two bytes, and the tag. -/
theorem frameBytes_eq {b s : Bytes} {t : UInt8} (hb : b = t :: 0 :: 0 :: 0 :: s) (more : Bytes) :
    frameBytes b ++ more = UInt8.ofNat (b.length / 256) :: UInt8.ofNat b.length
      :: t :: 0 :: 0 :: 0 :: (s ++ more) := by
  conv_lhs => rw [frameBytes, hb]
  rw [hb]
  rfl

theorem lengthBytes {n : Nat} (hn : n ≤ 65535) :
    (UInt8.ofNat (n / 256)).toNat = n / 256 ∧ (UInt8.ofNat n).toNat = n % 256 := by
  rw [toNat_ofNat_byte, toNat_ofNat_byte]
  exact ⟨Nat.mod_eq_of_lt (by omega), rfl⟩

theorem beValue_lengthBytes {n : Nat} (hn : n ≤ 65535) :
    (UInt8.ofNat (n / 256)).toNat * 256 + (UInt8.ofNat n).toNat = n := by
  rw [← beValue_pair]
  exact beValue_be16 (by omega)

section Header

variable {b s : Bytes} {t : UInt8} (ht : t.toNat < 128) (hb : b = t :: 0 :: 0 :: 0 :: s)
  (hlen : b.length ≤ 65535)

include ht hb hlen

/-- **The parsers give up a frame with a clear length**, whatever follows it. -/
theorem givenUp_frame (hclear : ClearLength t b.length) (more : Bytes) :
    GivenUp (frameBytes b ++ more) := by
  have hlength := beValue_lengthBytes hlen
  rw [frameBytes_eq hb]
  refine hello_header ht ?_ (by rw [hlength]; exact hclear)
  rw [hlength, hb]
  simp only [List.length_cons, List.length_append]
  omega

/-- A frame with another length stays with the parsers: it is no packet of the proxy. -/
theorem not_givenUp_frame (hclear : ¬ClearLength t b.length) (more : Bytes) :
    ¬GivenUp (frameBytes b ++ more) := by
  have hlength := beValue_lengthBytes hlen
  rw [frameBytes_eq hb]
  refine not_givenUp_header ht ?_ (by rw [hlength]; exact hclear)
  rw [hlength, hb]
  simp only [List.length_cons, List.length_append]
  omega

end Header

end CraftIp
