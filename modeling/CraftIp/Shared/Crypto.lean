import CraftIp.Infra.BaseX
import CraftIp.Shared.Proxy

/-!
# `shared/src/crypto.rs`: the hostname of a key, and signatures

`ring`'s SHA-256 and `base_x::encode` are parameters. Of the first it is known that a digest
has 32 bytes. So is `ring`'s Ed25519, of which only its functions are known.
-/

namespace CraftIp

open Infra

/-- `BASE36_ENCODER_STRING`. -/
def BASE36_ENCODER_STRING : String := "0123456789abcdefghijklmnopqrstuvwxyz"

/-- `PREFIX`. -/
def PREFIX : String := "CraftIPServerHost"

/-- `HOSTNAME_LENGTH`. -/
def HOSTNAME_LENGTH : Nat := 20

/-- `config::KEY_SERVER_SUFFIX`. -/
def KEY_SERVER_SUFFIX : String := ".t.craftip.net"

/-- `s[0..n]` for a `str`. It panics when `n` is behind the end or inside a character. -/
def strTo (s : String) (n : Nat) : Outcome String :=
  if n ≤ (utf8 s).length then
    match fromUtf8 ((utf8 s).take n) with
    | some t => .ok t
    | none => .error .panic
  else .error .panic

namespace ServerPublicKey

variable (sha256 : Bytes → Vector UInt8 32) (encode : String → Bytes → String)

/-- `ServerPublicKey::get_host`. -/
def getHost (self : ServerPublicKey) : Outcome String :=
  let checksum := utf8 PREFIX ++ self.key.toList
  let checksum := sha256 checksum
  let checksum := encode BASE36_ENCODER_STRING checksum.toList
  strTo checksum HOSTNAME_LENGTH

/-- `ServerPublicKey::get_hostname`. -/
def getHostname (self : ServerPublicKey) : Outcome String := do
  let host ← self.getHost sha256 encode
  return host ++ KEY_SERVER_SUFFIX

end ServerPublicKey

/-! ## Signatures -/

/-- `ring`'s Ed25519, with the key pairs that it reads from PKCS#8. -/
structure Ed25519 where
  KeyPair : Type
  fromPkcs8 : Bytes → Option KeyPair
  publicKey : KeyPair → Vector UInt8 32
  sign : KeyPair → Bytes → Vector UInt8 64
  verify : Vector UInt8 32 → Bytes → Vector UInt8 64 → Bool

/-- What a key pair has signed is accepted under its public key. -/
def Ed25519.Correct (ring : Ed25519) : Prop :=
  ∀ keyPair data, ring.verify (ring.publicKey keyPair) data (ring.sign keyPair data) = true

/-- `create_challenge`. -/
def createChallenge (data : Bytes) : Bytes := utf8 PREFIX ++ data

/-- `ServerPrivateKey`: a document of 83 bytes. -/
structure ServerPrivateKey where
  key : Bytes
  deriving DecidableEq

/-- `Ed25519KeyPair::from_pkcs8(..).unwrap()`. -/
def ServerPrivateKey.keyPair (ring : Ed25519) (self : ServerPrivateKey) : Outcome ring.KeyPair :=
  match ring.fromPkcs8 self.key with
  | some keyPair => .ok keyPair
  | none => .error .panic

/-- `ServerPrivateKey::sign`. -/
def ServerPrivateKey.sign (ring : Ed25519) (self : ServerPrivateKey) (data : ChallengeDataType) :
    Outcome SignatureDataType := do
  let keyPair ← self.keyPair ring
  return ring.sign keyPair (createChallenge data.toList)

/-- `ServerPrivateKey::get_public_key`. -/
def ServerPrivateKey.getPublicKey (ring : Ed25519) (self : ServerPrivateKey) :
    Outcome ServerPublicKey := do
  let keyPair ← self.keyPair ring
  return ⟨ring.publicKey keyPair⟩

/-- `ServerPublicKey::verify`. -/
def ServerPublicKey.verify (ring : Ed25519) (self : ServerPublicKey) (data : ChallengeDataType)
    (signature : SignatureDataType) : Bool :=
  ring.verify self.key (createChallenge data.toList) signature

/-- A key pair signs every challenge so that its public key accepts it. -/
theorem verify_sign {ring : Ed25519} (hring : ring.Correct) {key : ServerPrivateKey}
    {publicKey : ServerPublicKey} (hkey : key.getPublicKey ring = .ok publicKey)
    (data : ChallengeDataType) :
    ∃ signature, key.sign ring data = .ok signature ∧
      publicKey.verify ring data signature = true := by
  unfold ServerPrivateKey.getPublicKey at hkey
  unfold ServerPrivateKey.sign
  cases hpair : key.keyPair ring with
  | error e =>
    rw [hpair] at hkey
    cases hkey
  | ok keyPair =>
    rw [hpair] at hkey
    cases hkey
    exact ⟨_, rfl, hring keyPair _⟩

/-! ## Slices of ASCII text -/

theorem strTo_ascii {s : String} {n : Nat} (hs : ∀ c ∈ s.toList, c.toNat < 128)
    (hn : n ≤ s.toList.length) : strTo s n = .ok (String.ofList (s.toList.take n)) := by
  have hbytes := utf8_ascii hs
  rw [String.ofList_toList] at hbytes
  have hfront : (utf8 s).take n = utf8 (String.ofList (s.toList.take n)) := by
    rw [utf8_ascii fun c hc => hs c (List.mem_of_mem_take hc), hbytes, List.map_take]
  rw [strTo, if_pos (by rw [hbytes, List.length_map]; exact hn), hfront, fromUtf8_utf8]

end CraftIp
