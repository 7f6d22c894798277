import CraftIp.Infra.Codec
import CraftIp.Shared.Proxy

/-!
# `shared/src/socket_packet.rs`

The packets of a socket and how they are framed: two bytes of length, then the packet
as `bincode` writes it.

`bincode` is not part of the repository. The framing takes it as a `Codec SocketPacket`,
so all it may use is that what was serialised is read back and that reading depends on
the bytes it is given only. `SocketPacket.bincode` is the layout `bincode` 1.3 has by
default (tags of 32 bits, lengths of 64 bits, everything little endian); results that
depend on the layout ask for it as `FixintLayout`.
-/

namespace CraftIp

open Infra

/-- `SocketPacket`. `PingPacket` and `ClientID` are both `u16`. -/
inductive SocketPacket
  | MCHello (packet : MinecraftHelloPacket)
  | MCData (packet : MinecraftDataPacket)
  | ProxyHello (packet : ProxyHelloPacket)
  | ProxyAuthRequest (challenge : ChallengeDataType)
  | ProxyAuthResponse (signature : SignatureDataType)
  | ProxyHelloResponse (packet : ProxyConnectedResponse)
  | ProxyJoin (clientId : UInt16)
  | ProxyDisconnect (clientId : UInt16)
  | ProxyDisconnectAck (clientId : UInt16)
  | ProxyError (message : String)
  | ProxyData (packet : ProxyDataPacket)
  | ProxyPing (ping : UInt16)
  | ProxyPong (ping : UInt16)
  | Unknown
  deriving DecidableEq, Repr

/-! ## The derived layout of the fields -/

namespace MinecraftHelloPacket

def bincode : Codec MinecraftHelloPacket :=
  (Codec.uint64.pair (Codec.int32.pair (Codec.int32.pair
      (Codec.string.pair (Codec.uint32.pair Codec.vec))))).imap
    (fun (length, id, version, hostname, port, data) => ⟨length, id, version, hostname, port, data⟩)
    (fun p => (p.length, p.id, p.version, p.hostname, p.port, p.data)) fun _ => rfl

end MinecraftHelloPacket

def MinecraftDataPacket.bincode : Codec MinecraftDataPacket :=
  Codec.vec.imap MinecraftDataPacket.mk MinecraftDataPacket.data fun _ => rfl

def ServerPublicKey.bincode : Codec ServerPublicKey :=
  (Codec.array 32).imap ServerPublicKey.mk ServerPublicKey.key fun _ => rfl

/-- The fields of the one variant, `PublicKey`. -/
def ProxyAuthenticator.publicKey : Codec ProxyAuthenticator :=
  ServerPublicKey.bincode.imap PublicKey (fun | PublicKey key => key) fun _ => rfl

/-- One variant only, with tag 0. -/
def ProxyAuthenticator.bincode : Codec ProxyAuthenticator :=
  Codec.Variants.tagged
    { tag := fun _ => 0
      encode := publicKey.encode
      decode := fun i s => if i = 0 then publicKey.decode s else none
      decode_encode := by
        intro a b h rest
        rw [if_pos rfl]
        exact publicKey.decode_encode h rest
      decode_append := by
        intro i s a r h t
        split at h
        · next hi =>
          rw [if_pos hi]
          exact publicKey.decode_append h t
        · cases h }

def ProxyHelloPacket.bincode : Codec ProxyHelloPacket :=
  (Codec.uint16.pair (Codec.string.pair ProxyAuthenticator.bincode)).imap
    (fun (version, hostname, auth) => ⟨version, hostname, auth⟩)
    (fun p => (p.version, p.hostname, p.auth)) fun _ => rfl

def ProxyConnectedResponse.bincode : Codec ProxyConnectedResponse :=
  Codec.uint16.imap ProxyConnectedResponse.mk ProxyConnectedResponse.version fun _ => rfl

def ProxyDataPacket.bincode : Codec ProxyDataPacket :=
  (Codec.uint16.pair MinecraftDataPacket.bincode).imap
    (fun (clientId, packet) => ⟨clientId, packet⟩) (fun p => (p.clientId, p.packet)) fun _ => rfl

namespace SocketPacket

/-- The position of a variant in the enumeration. -/
def tag : SocketPacket → UInt32
  | MCHello _ => 0
  | MCData _ => 1
  | ProxyHello _ => 2
  | ProxyAuthRequest _ => 3
  | ProxyAuthResponse _ => 4
  | ProxyHelloResponse _ => 5
  | ProxyJoin _ => 6
  | ProxyDisconnect _ => 7
  | ProxyDisconnectAck _ => 8
  | ProxyError _ => 9
  | ProxyData _ => 10
  | ProxyPing _ => 11
  | ProxyPong _ => 12
  | Unknown => 13

/-- The fields of a variant, after the tag. -/
def encodeFields : SocketPacket → Option Bytes
  | MCHello p => MinecraftHelloPacket.bincode.encode p
  | MCData p => MinecraftDataPacket.bincode.encode p
  | ProxyHello p => ProxyHelloPacket.bincode.encode p
  | ProxyAuthRequest c => (Codec.array 64).encode c
  | ProxyAuthResponse s => (Codec.array 64).encode s
  | ProxyHelloResponse p => ProxyConnectedResponse.bincode.encode p
  | ProxyJoin id => Codec.uint16.encode id
  | ProxyDisconnect id => Codec.uint16.encode id
  | ProxyDisconnectAck id => Codec.uint16.encode id
  | ProxyError e => Codec.string.encode e
  | ProxyData p => ProxyDataPacket.bincode.encode p
  | ProxyPing n => Codec.uint16.encode n
  | ProxyPong n => Codec.uint16.encode n
  | Unknown => Codec.unit.encode ()

/-- Put the fields that were read into a variant. -/
def as {α : Type} (c : Codec α) (f : α → SocketPacket) (s : Bytes) : Option (SocketPacket × Bytes) :=
  (c.decode s).map fun v => (f v.1, v.2)

/-- The fields of the variant with this tag. -/
def decodeFields (i : UInt32) (s : Bytes) : Option (SocketPacket × Bytes) :=
  match i.toNat with
  | 0 => as MinecraftHelloPacket.bincode MCHello s
  | 1 => as MinecraftDataPacket.bincode MCData s
  | 2 => as ProxyHelloPacket.bincode ProxyHello s
  | 3 => as (Codec.array 64) ProxyAuthRequest s
  | 4 => as (Codec.array 64) ProxyAuthResponse s
  | 5 => as ProxyConnectedResponse.bincode ProxyHelloResponse s
  | 6 => as Codec.uint16 ProxyJoin s
  | 7 => as Codec.uint16 ProxyDisconnect s
  | 8 => as Codec.uint16 ProxyDisconnectAck s
  | 9 => as Codec.string ProxyError s
  | 10 => as ProxyDataPacket.bincode ProxyData s
  | 11 => as Codec.uint16 ProxyPing s
  | 12 => as Codec.uint16 ProxyPong s
  | 13 => as Codec.unit (fun _ => Unknown) s
  | _ => none

theorem as_encode {α : Type} (c : Codec α) (f : α → SocketPacket) {a : α} {b : Bytes}
    (h : c.encode a = some b) (rest : Bytes) : as c f (b ++ rest) = some (f a, rest) := by
  rw [as, c.decode_encode h, Option.map_some]

theorem as_append {α : Type} {c : Codec α} {f : α → SocketPacket} {s r : Bytes} {p : SocketPacket}
    (h : as c f s = some (p, r)) (t : Bytes) : as c f (s ++ t) = some (p, r ++ t) := by
  obtain ⟨⟨a, r'⟩, ha, hp⟩ := Option.map_eq_some_iff.mp h
  cases hp
  rw [as, c.decode_append ha, Option.map_some]

theorem decodeFields_encodeFields {p : SocketPacket} {b : Bytes} (h : encodeFields p = some b)
    (rest : Bytes) : decodeFields (tag p) (b ++ rest) = some (p, rest) := by
  cases p
  case Unknown => exact as_encode Codec.unit (fun _ => Unknown) h rest
  all_goals exact as_encode _ _ h rest

theorem decodeFields_append {i : UInt32} {s r : Bytes} {p : SocketPacket}
    (h : decodeFields i s = some (p, r)) (t : Bytes) :
    decodeFields i (s ++ t) = some (p, r ++ t) := by
  unfold decodeFields at h ⊢
  split at h <;> first | exact as_append h t | cases h

/-- What `#[derive(Serialize, Deserialize)]` and `bincode` 1.3 make of a `SocketPacket`. -/
def bincode : Codec SocketPacket :=
  Codec.Variants.tagged
    { tag := tag
      encode := encodeFields
      decode := decodeFields
      decode_encode := decodeFields_encodeFields
      decode_append := decodeFields_append }

end SocketPacket

/-- A codec that lays packets out as `bincode` 1.3 does by default. -/
def FixintLayout (bincode : Codec SocketPacket) : Prop :=
  ∀ p, bincode.encode p = SocketPacket.bincode.encode p

theorem fixintLayout_bincode : FixintLayout SocketPacket.bincode := fun _ => rfl

/-! ## Only what was written is read -/

theorem MinecraftHelloPacket.canonical_bincode : MinecraftHelloPacket.bincode.Canonical :=
  Codec.canonical_imap (Codec.canonical_pair Codec.canonical_uint64
    (Codec.canonical_pair Codec.canonical_int32 (Codec.canonical_pair Codec.canonical_int32
      (Codec.canonical_pair Codec.canonical_string (Codec.canonical_pair Codec.canonical_uint32
        Codec.canonical_vec))))) fun _ => rfl

theorem MinecraftDataPacket.canonical_bincode : MinecraftDataPacket.bincode.Canonical :=
  Codec.canonical_imap Codec.canonical_vec fun _ => rfl

theorem ProxyAuthenticator.canonical_publicKey : ProxyAuthenticator.publicKey.Canonical :=
  Codec.canonical_imap (Codec.canonical_imap (Codec.canonical_array 32) fun _ => rfl) fun _ => rfl

theorem ProxyAuthenticator.canonical_bincode : ProxyAuthenticator.bincode.Canonical :=
  Codec.canonical_tagged fun {i s a r} h => by
    have hif : (if i = 0 then publicKey.decode s else none) = some (a, r) := h
    split at hif
    · next hi => exact ⟨hi.symm, ProxyAuthenticator.canonical_publicKey hif⟩
    · cases hif

theorem ProxyHelloPacket.canonical_bincode : ProxyHelloPacket.bincode.Canonical :=
  Codec.canonical_imap (Codec.canonical_pair Codec.canonical_uint16
    (Codec.canonical_pair Codec.canonical_string ProxyAuthenticator.canonical_bincode)) fun _ => rfl

theorem ProxyConnectedResponse.canonical_bincode : ProxyConnectedResponse.bincode.Canonical :=
  Codec.canonical_imap Codec.canonical_uint16 fun _ => rfl

theorem ProxyDataPacket.canonical_bincode : ProxyDataPacket.bincode.Canonical :=
  Codec.canonical_imap (Codec.canonical_pair Codec.canonical_uint16
    MinecraftDataPacket.canonical_bincode) fun _ => rfl

namespace SocketPacket

/-- The fields of one variant, when they are written as they are read. -/
theorem as_canonical {α : Type} {c : Codec α} (f : α → SocketPacket) (hc : c.Canonical) {i : UInt32}
    (hf : ∀ a, tag (f a) = i ∧ encodeFields (f a) = c.encode a) {s r : Bytes} {p : SocketPacket}
    (h : as c f s = some (p, r)) : tag p = i ∧ ∃ b, encodeFields p = some b ∧ s = b ++ r := by
  obtain ⟨⟨a, r'⟩, ha, hp⟩ := Option.map_eq_some_iff.mp h
  cases hp
  obtain ⟨b, hb, rfl⟩ := hc ha
  exact ⟨(hf a).1, b, (hf a).2.trans hb, rfl⟩

theorem decodeFields_canonical {i : UInt32} {s r : Bytes} {p : SocketPacket}
    (h : decodeFields i s = some (p, r)) : tag p = i ∧ ∃ b, encodeFields p = some b ∧ s = b ++ r := by
  obtain ⟨n, hn⟩ : ∃ n, i.toNat = n := ⟨_, rfl⟩
  have hi : i = UInt32.ofNat n := by rw [← hn, UInt32.ofNat_toNat]
  rw [decodeFields, hn] at h
  subst hi
  match n with
  | 0 => exact as_canonical MCHello MinecraftHelloPacket.canonical_bincode (fun _ => ⟨rfl, rfl⟩) h
  | 1 => exact as_canonical MCData MinecraftDataPacket.canonical_bincode (fun _ => ⟨rfl, rfl⟩) h
  | 2 => exact as_canonical ProxyHello ProxyHelloPacket.canonical_bincode (fun _ => ⟨rfl, rfl⟩) h
  | 3 => exact as_canonical ProxyAuthRequest (Codec.canonical_array 64) (fun _ => ⟨rfl, rfl⟩) h
  | 4 => exact as_canonical ProxyAuthResponse (Codec.canonical_array 64) (fun _ => ⟨rfl, rfl⟩) h
  | 5 => exact as_canonical ProxyHelloResponse ProxyConnectedResponse.canonical_bincode (fun _ => ⟨rfl, rfl⟩) h
  | 6 => exact as_canonical ProxyJoin Codec.canonical_uint16 (fun _ => ⟨rfl, rfl⟩) h
  | 7 => exact as_canonical ProxyDisconnect Codec.canonical_uint16 (fun _ => ⟨rfl, rfl⟩) h
  | 8 => exact as_canonical ProxyDisconnectAck Codec.canonical_uint16 (fun _ => ⟨rfl, rfl⟩) h
  | 9 => exact as_canonical ProxyError Codec.canonical_string (fun _ => ⟨rfl, rfl⟩) h
  | 10 => exact as_canonical ProxyData ProxyDataPacket.canonical_bincode (fun _ => ⟨rfl, rfl⟩) h
  | 11 => exact as_canonical ProxyPing Codec.canonical_uint16 (fun _ => ⟨rfl, rfl⟩) h
  | 12 => exact as_canonical ProxyPong Codec.canonical_uint16 (fun _ => ⟨rfl, rfl⟩) h
  | 13 => exact as_canonical (fun _ => Unknown) Codec.canonical_unit (fun _ => ⟨rfl, rfl⟩) h
  | _ + 14 => cases h

theorem canonical_bincode : SocketPacket.bincode.Canonical :=
  Codec.canonical_tagged decodeFields_canonical

end SocketPacket

/-! ## Framing -/

section

variable (bincode : Codec SocketPacket)

/-- `SocketPacket::encode`. The length in front is cast to 16 bits. -/
def SocketPacket.encode (p : SocketPacket) : Except PacketError Bytes :=
  match bincode.encode p with
  | none => .error .EncodingError
  | some packet => .ok (be16 (UInt16.ofNat packet.length).toNat ++ packet)

/-- `bincode::deserialize`, which does not mind bytes after the packet. -/
def deserialize (s : Bytes) : Option SocketPacket := (bincode.decode s).map Prod.fst

/-- The reads of `SocketPacket::decode_proxy`: the packet and how far the buffer advances. -/
def SocketPacket.decodeProxyCursor : CursorM (SocketPacket × Nat) := do
  Cursor.throwErrorIfSmaller 2
  let length := (← Cursor.getU16).toNat
  Cursor.throwErrorIfSmaller length
  let position ← Cursor.position
  match deserialize bincode (← Cursor.slice position (position + length)) with
  | none => Cursor.fail .NotValid
  | some packet => return (packet, position + length)

/-- `SocketPacket::decode_proxy`. -/
def SocketPacket.decodeProxy (buf : Bytes) : Outcome SocketPacket × Bytes :=
  match SocketPacket.decodeProxyCursor bincode (Cursor.new buf) with
  | .error e => (.error e, buf)
  | .ok ((packet, length), _) =>
    -- `buf.advance(length)`
    if length ≤ buf.length then (.ok packet, buf.drop length) else (.error .panic, buf)

/-- `SocketPacket::parse_first_package`. -/
def SocketPacket.parseFirstPackage (buf : Bytes) : Outcome SocketPacket × Bytes :=
  match MinecraftHelloPacket.new buf with
  | (.ok pkg, buf) => (.ok (.MCHello pkg), buf)
  | (.error (.error .NotValid), buf) => SocketPacket.decodeProxy bincode buf
  | (.error (.error .NotMatching), buf) => SocketPacket.decodeProxy bincode buf
  | (.error e, buf) => (.error e, buf)

/-- `SocketPacket::parse_packet`. `Protocol::Unknown` is `unimplemented!()`. -/
def SocketPacket.parsePacket (buf : Bytes) : Protocol → Outcome SocketPacket × Bytes
  | .MC _ =>
    match MinecraftDataPacket.new buf with
    | (.ok pkg, buf) => (.ok (.MCData pkg), buf)
    | (.error e, buf) => (.error e, buf)
  | .Proxy _ => SocketPacket.decodeProxy bincode buf
  | .Unknown => (.error .panic, buf)

end

end CraftIp
