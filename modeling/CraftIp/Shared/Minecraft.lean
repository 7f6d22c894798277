import CraftIp.Shared.Cursor

/-!
# `shared/src/minecraft.rs`

The packets of a Minecraft connection, and the three parsers of a first packet:
the legacy ping, the legacy connect and the modern handshake.

A parser gets the receive buffer as `&mut BytesMut`. It works on a cursor over a copy and
touches the buffer only when it succeeds, so here it returns its result together with
the buffer it leaves.
-/

namespace CraftIp

open Infra

/-- `OLD_MINECRAFT_START`. -/
def OLD_MINECRAFT_START : Bytes :=
  [0xFE, 0x01, 0xFA, 0x00, 0x0B, 0x00, 0x4D, 0x00, 0x43, 0x00, 0x7C, 0x00, 0x50, 0x00, 0x69, 0x00,
   0x6E, 0x00, 0x67, 0x00, 0x48, 0x00, 0x6F, 0x00, 0x73, 0x00, 0x74]

/-- `MinecraftHelloPacket`. `usize` has 64 bits. -/
structure MinecraftHelloPacket where
  length : UInt64
  id : Int32
  version : Int32
  hostname : String
  port : UInt32
  data : Bytes
  deriving DecidableEq, Repr

/-- `MinecraftDataPacket`. -/
structure MinecraftDataPacket where
  data : Bytes
  deriving DecidableEq, Repr

/-- `BytesMut::split_to`: the first `n` bytes, and the rest stays in the buffer. -/
def splitTo (buf : Bytes) (n : Nat) : Outcome (Bytes × Bytes) :=
  if n ≤ buf.length then .ok (buf.take n, buf.drop n) else .error .panic

namespace MinecraftDataPacket

/-- `MinecraftDataPacket::new`: everything that is in the buffer. -/
def new (buf : Bytes) : Outcome MinecraftDataPacket × Bytes :=
  match splitTo buf buf.length with
  | .error e => (.error e, buf)
  | .ok (data, rest) => (.ok ⟨data⟩, rest)

end MinecraftDataPacket

namespace MinecraftHelloPacket

open Cursor

/-- The fields a parser has read when it builds the packet. -/
structure Fields where
  id : Int32
  version : Int32
  hostname : String
  port : UInt32
  deriving DecidableEq, Repr

/-- The packet of the two legacy parsers: no id, and a version of one byte. -/
def Fields.legacy (version : UInt8) (hostname : String) (port : UInt32) : Fields :=
  { id := 0, version := version.toUInt32.toInt32, hostname := hostname, port := port }

/-- The end of every parser: the position is the length, and that much leaves the buffer. -/
def finish (buf : Bytes) (parsed : Outcome (Fields × Cursor)) :
    Outcome MinecraftHelloPacket × Bytes :=
  match parsed with
  | .error e => (.error e, buf)
  | .ok (f, cursor) =>
    match splitTo buf cursor.pos with
    | .error e => (.error e, buf)
    | .ok (data, rest) =>
      (.ok { length := UInt64.ofNat cursor.pos, id := f.id, version := f.version,
             hostname := f.hostname, port := f.port, data := data }, rest)

/-- The reads of `old_ping_pkg`. -/
def oldPingFields : CursorM Fields := do
  failIf (!(← matchBytes [0xFE, 0x01])) .NotMatching
  -- wait for the packet to fully arrive
  throwErrorIfSmaller 32
  failIf (!(← matchBytes (OLD_MINECRAFT_START.drop (← position)))) .NotValid
  let restData := (← getU16).toNat
  let version ← getU8
  let hostname ← getUtf16String
  failIf (7 + hostname.utf8ByteSize * 2 ≠ restData) .NotValid
  throwErrorIfSmaller 4
  let port ← getU32
  return Fields.legacy version hostname port

/-- `old_ping_pkg`. -/
def oldPingPkg (buf : Bytes) : Outcome MinecraftHelloPacket × Bytes :=
  finish buf (oldPingFields (Cursor.new buf))

/-- The reads of `old_connect_pkg`. -/
def oldConnectFields : CursorM Fields := do
  failIf (!(← matchBytes [0x02])) .NotMatching
  throwErrorIfSmaller 1
  let version ← getU8
  let _username ← getUtf16String
  let hostname ← getUtf16String
  throwErrorIfSmaller 4
  let port ← getU32
  return Fields.legacy version hostname port

/-- `old_connect_pkg`. -/
def oldConnectPkg (buf : Bytes) : Outcome MinecraftHelloPacket × Bytes :=
  finish buf (oldConnectFields (Cursor.new buf))

/-- The reads of `new_pkg`. -/
def newFields : CursorM Fields := do
  let pkgLength ← Cursor.getVarint
  let pkgId ← Cursor.getVarint
  failIf (pkgId ≠ 0) .NotMatching
  let version ← Cursor.getVarint
  let hostname ← getUtf8String
  throwErrorIfSmaller 2
  let port ← getU16
  failIf ((← position) ≠ asUsize pkgLength) .NotValid
  return { id := pkgId, version := version, hostname := hostname, port := port.toUInt32 }

/-- `new_pkg`. -/
def newPkg (buf : Bytes) : Outcome MinecraftHelloPacket × Bytes :=
  finish buf (newFields (Cursor.new buf))

/-- `MinecraftHelloPacket::new`: the three parsers in turn, as long as they do not match. -/
def new (buf : Bytes) : Outcome MinecraftHelloPacket × Bytes :=
  match oldPingPkg buf with
  | (.error (.error .NotMatching), buf) =>
    match oldConnectPkg buf with
    | (.error (.error .NotMatching), buf) => newPkg buf
    | result => result
  | result => result

end MinecraftHelloPacket

end CraftIp
