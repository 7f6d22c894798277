import CraftIp.Shared.SocketPacket

/-!
# `shared/src/packet_codec.rs`

The codec of a connection: which parser sees the buffer depends on the protocol, and the
protocol is settled by the first packet. `Receiver` is the reading half of
`tokio_util`'s `Framed`: it appends what was read to the buffer and decodes until the
codec asks for more.
-/

namespace CraftIp

open Infra

/-- `PacketCodec`. -/
structure PacketCodec where
  maxLength : Nat
  protocol : Protocol
  deriving DecidableEq, Repr

namespace PacketCodec

variable (bincode : Codec SocketPacket)

/-- `PacketCodec::new`. -/
def new (maxLength : Nat) : PacketCodec := { maxLength := maxLength, protocol := .Unknown }

/-- The protocol after the first packet was parsed. -/
def protocolAfter : Outcome SocketPacket → Protocol
  | .ok (.ProxyHello pkg) => .Proxy pkg.version.toUInt32
  | .ok (.MCHello pkg) => .MC pkg.version.toUInt32
  | _ => .Unknown

/-- The `match self.protocol` of `decode`. -/
def parse (self : PacketCodec) (buf : Bytes) : Outcome SocketPacket × PacketCodec × Bytes :=
  match self.protocol with
  | .Unknown =>
    let (result, buf) := SocketPacket.parseFirstPackage bincode buf
    (result, { self with protocol := protocolAfter result }, buf)
  | protocol =>
    let (result, buf) := SocketPacket.parsePacket bincode buf protocol
    (result, self, buf)

/--
`PacketCodec::decode`.

`none` asks for more bytes. The error of the source is the same one, wrapped in a
`PacketCodecError`.
-/
def decode (self : PacketCodec) (buf : Bytes) :
    Outcome (Option SocketPacket) × PacketCodec × Bytes :=
  if buf.isEmpty then (.ok none, self, buf)
  else
    match self.parse bincode buf with
    | (.ok packet, self, buf) => (.ok (some packet), self, buf)
    | (.error (.error .TooSmall), self, buf) => (.ok none, self, buf)
    | (.error e, self, buf) => (.error e, self, buf)

/-- `Encoder<SocketPacket>::encode`: what is appended to the send buffer. -/
def encode (pkg : SocketPacket) : Except PacketError Bytes :=
  match pkg with
  | .MCHello packet => .ok packet.data
  | .MCData packet => .ok packet.data
  | .Unknown => .ok (utf8 "UnknownPacket")
  | packet => packet.encode bincode

end PacketCodec

/-! ## Reading a connection -/

/-- The reading half of a `Framed`, with the packets it has yielded so far. -/
structure Receiver where
  codec : PacketCodec
  buf : Bytes
  packets : List SocketPacket
  failed : Option Fault
  deriving DecidableEq, Repr

namespace Receiver

variable (bincode : Codec SocketPacket)

/-- `Framed::new`. -/
def new (codec : PacketCodec) : Receiver :=
  { codec := codec, buf := [], packets := [], failed := none }

/--
Decode until the codec asks for more or fails.

Every packet takes at least one byte, so as many rounds as there are bytes are enough.
-/
def drain : Nat → Receiver → Receiver
  | 0, r => r
  | rounds + 1, r =>
    match r.codec.decode bincode r.buf with
    | (.ok (some p), codec, buf) =>
      drain rounds { r with codec := codec, buf := buf, packets := r.packets ++ [p] }
    | (.ok none, codec, buf) => { r with codec := codec, buf := buf }
    | (.error e, codec, buf) => { r with codec := codec, buf := buf, failed := some e }

/-- One read from the socket. Nothing is read after an error. -/
def read (r : Receiver) (chunk : Bytes) : Receiver :=
  if r.failed.isSome then r
  else drain bincode (r.buf ++ chunk).length { r with buf := r.buf ++ chunk }

/-- Reads in a row. -/
def readAll (r : Receiver) (chunks : List Bytes) : Receiver := chunks.foldl (read bincode) r

end Receiver

end CraftIp
