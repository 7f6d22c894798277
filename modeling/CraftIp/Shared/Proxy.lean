import CraftIp.Shared.Minecraft

/-!
# `shared/src/proxy.rs` and the keys of `shared/src/crypto.rs`

The packets of the proxy protocol that carry more than a number.
-/

namespace CraftIp

open Infra

/-- `ChallengeDataType`. -/
abbrev ChallengeDataType := Vector UInt8 64

/-- `SignatureDataType`. -/
abbrev SignatureDataType := Vector UInt8 64

/-- `ServerPublicKey`. -/
structure ServerPublicKey where
  key : Vector UInt8 32
  deriving DecidableEq, Repr

/-- `ProxyAuthenticator`. -/
inductive ProxyAuthenticator
  | PublicKey (key : ServerPublicKey)
  deriving DecidableEq, Repr

/-- `ProxyHelloPacket`: the first packet sent by the client to the proxy. -/
structure ProxyHelloPacket where
  version : UInt16
  hostname : String
  auth : ProxyAuthenticator
  deriving DecidableEq, Repr

/-- `ProxyConnectedResponse`. -/
structure ProxyConnectedResponse where
  version : UInt16
  deriving DecidableEq, Repr

/-- `ProxyDataPacket`. -/
structure ProxyDataPacket where
  clientId : UInt16
  packet : MinecraftDataPacket
  deriving DecidableEq, Repr

/-- `ProxyDataPacket::new`. -/
def ProxyDataPacket.new (packet : MinecraftDataPacket) (clientId : UInt16) : ProxyDataPacket :=
  { clientId := clientId, packet := packet }

/-- `MinecraftDataPacket::from(ProxyDataPacket)`. -/
def MinecraftDataPacket.ofProxyData (packet : ProxyDataPacket) : MinecraftDataPacket :=
  packet.packet

/-- `config::PROTOCOL_VERSION`. -/
def PROTOCOL_VERSION : UInt16 := 1

/-- `config::MAXIMUM_CLIENTS`. -/
def MAXIMUM_CLIENTS : UInt16 := 255

end CraftIp
