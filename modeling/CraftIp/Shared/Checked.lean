import CraftIp.Shared.PacketCodec

/-!
# The decoder with overflow checks

The release profile keeps the overflow checks. An addition, a multiplication or a shift that
overflows is a panic then, like an index or a slice that is out of range.

These are the functions of `PacketCodec::decode` with every such check in them, operation by
operation. In the other modules positions and sizes are natural numbers, and a read of a byte
that is not there is the error that the source returns before it.

`usize` and `u64` have 64 bits, so casts between them change nothing.
-/

namespace CraftIp

open Infra

/-- `BytesMut`: an allocation has at most `isize::MAX` bytes. -/
structure BytesMut where
  bytes : Bytes
  fits : bytes.length < 2 ^ 63

namespace Checked

/-! ## Operations that may panic -/

/-- `a + b` in `usize` or `u64`. -/
def addUsize (a b : Nat) : Outcome Nat := if a + b < 2 ^ 64 then .ok (a + b) else .error .panic

/-- `a * b` in `usize`. -/
def mulUsize (a b : Nat) : Outcome Nat := if a * b < 2 ^ 64 then .ok (a * b) else .error .panic

/-- `a + b` in `i32`. -/
def addI32 (a b : Int32) : Outcome Int32 :=
  if -2 ^ 31 ≤ a.toInt + b.toInt ∧ a.toInt + b.toInt < 2 ^ 31 then .ok (a + b) else .error .panic

/-- `a << n` in `i32`: the amount has to be below the width. -/
def shlI32 (a n : Int32) : Outcome Int32 :=
  if 0 ≤ n.toInt ∧ n.toInt < 32 then .ok (a <<< n) else .error .panic

/-- `xs[i]`. -/
def index (xs : Bytes) (i : Nat) : Outcome UInt8 :=
  match xs[i]? with
  | some b => .ok b
  | none => .error .panic

/-- `&xs[n..]`. -/
def sliceFrom (xs : Bytes) (n : Nat) : Outcome Bytes :=
  if n ≤ xs.length then .ok (xs.drop n) else .error .panic

/-! ## `datatypes.rs` -/

/-- The loop of `get_varint`. The first argument is `5 - size`. -/
def getVarintLoop (buf : Bytes) (start : Nat) :
    Nat → Nat → Int32 → Int32 → Outcome (Int32 × Nat)
  | 0, _, _, _ => .error (.error .NotValid)
  | left + 1, size, position, value => do
    if buf.length ≤ (← addUsize size start) then
      throw (.error .NotValid)
    else
      let currentByte ← index buf (← addUsize size start)
      let value := value ||| (← shlI32 (currentByte &&& 0x7F).toUInt32.toInt32 position)
      let position ← addI32 position 7
      let size ← addUsize size 1
      if currentByte &&& 0x80 = 0 then
        return (value, size)
      else
        getVarintLoop buf start left size position value

/-- `get_varint`. -/
def getVarint (buf : Bytes) (start : Nat) : Outcome (Int32 × Nat) :=
  getVarintLoop buf start 5 0 0 0

/-! ## `cursor.rs` -/

namespace Cursor

open CraftIp.Cursor (position setPosition fail failIf slice getU8 getU16 getU32 getUnits
  throwErrorIfSmaller)

/-- `CustomCursor::get_varint`. -/
def getVarint : CursorM Int32 := fun c => do
  let (value, size) ← Checked.getVarint c.buf c.pos
  return (value, { c with pos := ← addUsize c.pos size })

/-- `get_utf8_string`. -/
def getUtf8String : CursorM String := do
  let startPosition ← position
  let size := asUsize (← getVarint)
  throwErrorIfSmaller size
  let blob ← slice (← position) (← addUsize (← position) size)
  setPosition (← addUsize (← position) size)
  match fromUtf8 blob with
  | some s => return s
  | none => do
    setPosition startPosition
    fail .NotValidStringEncoding

/-- `get_utf16_string`. -/
def getUtf16String : CursorM String := do
  let cursorStart ← position
  throwErrorIfSmaller 2
  let size := (← getU16).toNat
  failIf ((← get).remaining ≤ (← mulUsize size 2)) .TooSmall
  throwErrorIfSmaller (← mulUsize size 2)
  match decodeUtf16 (← getUnits size) with
  | some s => return String.ofList s
  | none => do
    setPosition cursorStart
    fail .NotValidStringEncoding

/-- The loop of `match_bytes`, from the `i`-th byte on. -/
def matchLoop (buf : Bytes) (pos : Nat) : Nat → Bytes → Outcome Bool
  | _, [] => .ok true
  | i, byte :: bytes => do
    if (← index buf (← addUsize pos i)) ≠ byte then
      return false
    else
      matchLoop buf pos (i + 1) bytes

/-- `match_bytes`. -/
def matchBytes (bytes : Bytes) : CursorM Bool := fun c => do
  if c.remaining < bytes.length then
    return (false, c)
  else if ← matchLoop c.buf c.pos 0 bytes then
    return (true, { c with pos := ← addUsize c.pos bytes.length })
  else
    return (false, c)

end Cursor

/-! ## `minecraft.rs` -/

namespace MinecraftHelloPacket

open CraftIp.Cursor (position failIf getU8 getU16 getU32 throwErrorIfSmaller)
open CraftIp.MinecraftHelloPacket (Fields finish)
open Checked.Cursor (getUtf8String getUtf16String matchBytes)

/-- The reads of `old_ping_pkg`. -/
def oldPingFields : CursorM Fields := do
  failIf (!(← matchBytes [0xFE, 0x01])) .NotMatching
  throwErrorIfSmaller 32
  failIf (!(← matchBytes (← sliceFrom OLD_MINECRAFT_START (← position)))) .NotValid
  let restData := (← getU16).toNat
  let version ← getU8
  let hostname ← getUtf16String
  failIf ((← addUsize 7 (← mulUsize hostname.utf8ByteSize 2)) ≠ restData) .NotValid
  throwErrorIfSmaller 4
  let port ← getU32
  return Fields.legacy version hostname port

/-- `old_ping_pkg`. -/
def oldPingPkg (buf : Bytes) : Outcome MinecraftHelloPacket × Bytes :=
  finish buf (oldPingFields (.new buf))

/-- The reads of `old_connect_pkg`. -/
def oldConnectFields : CursorM Fields := do
  failIf (!(← matchBytes [0x02])) .NotMatching
  throwErrorIfSmaller 1
  let version ← getU8
  let _username ← getUtf16String
  let hostname ← getUtf16String
  throwErrorIfSmaller 4
  let port ← getU32
  return Fields.legacy version hostname port

/-- `old_connect_pkg`. -/
def oldConnectPkg (buf : Bytes) : Outcome MinecraftHelloPacket × Bytes :=
  finish buf (oldConnectFields (.new buf))

/-- The reads of `new_pkg`. -/
def newFields : CursorM Fields := do
  let pkgLength ← Cursor.getVarint
  let pkgId ← Cursor.getVarint
  failIf (pkgId ≠ 0) .NotMatching
  let version ← Cursor.getVarint
  let hostname ← getUtf8String
  throwErrorIfSmaller 2
  let port ← getU16
  failIf ((← position) ≠ asUsize pkgLength) .NotValid
  return { id := pkgId, version := version, hostname := hostname, port := port.toUInt32 }

/-- `new_pkg`. -/
def newPkg (buf : Bytes) : Outcome MinecraftHelloPacket × Bytes :=
  finish buf (newFields (.new buf))

/-- `MinecraftHelloPacket::new`. -/
def new (buf : Bytes) : Outcome MinecraftHelloPacket × Bytes :=
  match oldPingPkg buf with
  | (.error (.error .NotMatching), buf) =>
    match oldConnectPkg buf with
    | (.error (.error .NotMatching), buf) => newPkg buf
    | result => result
  | result => result

end MinecraftHelloPacket

/-! ## `socket_packet.rs` and `packet_codec.rs` -/

section

variable (bincode : Codec SocketPacket)

open CraftIp.Cursor (position fail slice getU16 throwErrorIfSmaller)

/-- The reads of `SocketPacket::decode_proxy`: the packet and how far the buffer advances. -/
def decodeProxyCursor : CursorM (SocketPacket × Nat) := do
  throwErrorIfSmaller 2
  let length := (← getU16).toNat
  throwErrorIfSmaller length
  match deserialize bincode (← slice (← position) (← addUsize (← position) length)) with
  | none => fail .NotValid
  | some packet => return (packet, ← addUsize (← position) length)

/-- `SocketPacket::decode_proxy`. -/
def decodeProxy (buf : Bytes) : Outcome SocketPacket × Bytes :=
  match decodeProxyCursor bincode (.new buf) with
  | .error e => (.error e, buf)
  | .ok ((packet, length), _) =>
    -- `buf.advance(length)`
    if length ≤ buf.length then (.ok packet, buf.drop length) else (.error .panic, buf)

/-- `SocketPacket::parse_first_package`. -/
def parseFirstPackage (buf : Bytes) : Outcome SocketPacket × Bytes :=
  match MinecraftHelloPacket.new buf with
  | (.ok pkg, buf) => (.ok (.MCHello pkg), buf)
  | (.error (.error .NotValid), buf) => decodeProxy bincode buf
  | (.error (.error .NotMatching), buf) => decodeProxy bincode buf
  | (.error e, buf) => (.error e, buf)

/-- `SocketPacket::parse_packet`. `Protocol::Unknown` is `unimplemented!()`. -/
def parsePacket (buf : Bytes) : Protocol → Outcome SocketPacket × Bytes
  | .MC _ =>
    match MinecraftDataPacket.new buf with
    | (.ok pkg, buf) => (.ok (.MCData pkg), buf)
    | (.error e, buf) => (.error e, buf)
  | .Proxy _ => decodeProxy bincode buf
  | .Unknown => (.error .panic, buf)

/-- The `match self.protocol` of `decode`. -/
def parse (self : PacketCodec) (buf : Bytes) : Outcome SocketPacket × PacketCodec × Bytes :=
  match self.protocol with
  | .Unknown =>
    let (result, buf) := parseFirstPackage bincode buf
    (result, { self with protocol := PacketCodec.protocolAfter result }, buf)
  | protocol =>
    let (result, buf) := parsePacket bincode buf protocol
    (result, self, buf)

/-- `PacketCodec::decode`. -/
def decode (self : PacketCodec) (buf : Bytes) :
    Outcome (Option SocketPacket) × PacketCodec × Bytes :=
  if buf.isEmpty then (.ok none, self, buf)
  else
    match parse bincode self buf with
    | (.ok packet, self, buf) => (.ok (some packet), self, buf)
    | (.error (.error .TooSmall), self, buf) => (.ok none, self, buf)
    | (.error e, self, buf) => (.error e, self, buf)

end

end Checked

end CraftIp
