import CraftIp.Server.ProcessSocket
import CraftIp.Shared.Crypto

/-!
# The hostname of a key

* `getHost_total` — whatever the digest is, its text has the 20 letters that `get_host` takes
-/

namespace CraftIp

open Infra

/--
`base_x::encode` in base 36 is the usual text of the number: the digits of the big-endian
number, behind one zero for each zero byte at the front but the last byte.
-/
def UsualBase36 (encode : String → Bytes → String) : Prop :=
  ∀ bytes, bytes ≠ [] → encode BASE36_ENCODER_STRING bytes
    = String.ofList (baseX BASE36_ENCODER_STRING.toList bytes)

theorem length_alphabet : BASE36_ENCODER_STRING.toList.length = 36 := by decide

theorem alphabet_ascii : ∀ c ∈ BASE36_ENCODER_STRING.toList, c.toNat < 128 := by
  simp [BASE36_ENCODER_STRING]

/-! ## The text of a digest -/

/-- The first 20 letters of the text. -/
def hostOf (digest : Vector UInt8 32) : String :=
  String.ofList ((baseX BASE36_ENCODER_STRING.toList digest.toList).take HOSTNAME_LENGTH)

theorem digest_ne_nil (digest : Vector UInt8 32) : digest.toList ≠ [] := by
  intro hnil
  have hlen := digest.length_toList
  rw [hnil] at hlen
  cases hlen

/-- Every digest has a text of at least 32 letters. -/
theorem length_text (digest : Vector UInt8 32) :
    32 ≤ (baseX BASE36_ENCODER_STRING.toList digest.toList).length := by
  have hle := @length_le_baseX Char _ BASE36_ENCODER_STRING.toList
    (by rw [length_alphabet]; decide) (by rw [length_alphabet]; decide) _ (digest_ne_nil digest)
  rwa [digest.length_toList] at hle

theorem mem_alphabet {digest : Vector UInt8 32} {c : Char}
    (hc : c ∈ baseX BASE36_ENCODER_STRING.toList digest.toList) :
    c ∈ BASE36_ENCODER_STRING.toList :=
  mem_of_mem_baseX (by rw [length_alphabet]; decide) hc

theorem length_hostOf (digest : Vector UInt8 32) : (hostOf digest).toList.length = 20 := by
  rw [hostOf, String.toList_ofList, List.length_take]
  exact Nat.min_eq_left (Nat.le_trans (by decide) (length_text digest))

theorem hostOf_mem {digest : Vector UInt8 32} {c : Char} (hc : c ∈ (hostOf digest).toList) :
    c ∈ BASE36_ENCODER_STRING.toList := by
  rw [hostOf, String.toList_ofList] at hc
  exact mem_alphabet (List.mem_of_mem_take hc)

/-! ## The host of a key -/

section
variable (sha256 : Bytes → Vector UInt8 32) {encode : String → Bytes → String}
  (hencode : UsualBase36 encode) (key : ServerPublicKey)

include hencode

theorem getHost_eq :
    key.getHost sha256 encode = .ok (hostOf (sha256 (utf8 PREFIX ++ key.key.toList))) := by
  generalize hdigest : sha256 (utf8 PREFIX ++ key.key.toList) = digest
  have htext := hencode digest.toList (digest_ne_nil digest)
  have hslice : strTo (encode BASE36_ENCODER_STRING digest.toList) HOSTNAME_LENGTH
      = .ok (hostOf digest) := by
    have hascii :=
      strTo_ascii (s := encode BASE36_ENCODER_STRING digest.toList) (n := HOSTNAME_LENGTH)
    rw [htext, String.toList_ofList] at hascii
    rw [htext]
    refine hascii (fun c hc => alphabet_ascii c (mem_alphabet hc)) ?_
    exact Nat.le_trans (by decide) (length_text digest)
  rw [ServerPublicKey.getHost, hdigest]
  exact hslice

theorem getHostname_eq : key.getHostname sha256 encode
    = .ok (hostOf (sha256 (utf8 PREFIX ++ key.key.toList)) ++ KEY_SERVER_SUFFIX) := by
  rw [ServerPublicKey.getHostname, getHost_eq sha256 hencode key]
  rfl

/--
**`get_host` returns the first 20 letters of the encoded digest**, for every key and every digest:
there are as many, and all of them are letters of the alphabet.
-/
theorem getHost_total :
    ∃ host, key.getHost sha256 encode = .ok host ∧
      key.getHostname sha256 encode = .ok (host ++ KEY_SERVER_SUFFIX) ∧
      host.toList = (encode BASE36_ENCODER_STRING
        (sha256 (utf8 PREFIX ++ key.key.toList)).toList).toList.take 20 ∧
      host.toList.length = 20 ∧ ∀ c ∈ host.toList, c ∈ BASE36_ENCODER_STRING.toList := by
  refine ⟨_, getHost_eq sha256 hencode key, getHostname_eq sha256 hencode key, ?_,
    length_hostOf _, fun _ => hostOf_mem⟩
  rw [hencode _ (digest_ne_nil _), hostOf, String.toList_ofList, String.toList_ofList]
  rfl

end

/-- The digest of the key of zeros. -/
def zerosDigest : Vector UInt8 32 := #v[
  0xB0, 0xDC, 0xC3, 0x6D, 0x4C, 0x20, 0x81, 0x2E, 0x9F, 0x33, 0x93, 0x39, 0x5B, 0x5C, 0x0B,
  0x4F, 0xAC, 0x9C, 0xF6, 0x64, 0x25, 0x26, 0xCB, 0x7B, 0x57, 0xFE, 0x0E, 0x51, 0x22, 0x34,
  0xA8, 0x32]

/-- The usual text, in any alphabet. -/
def usualText (alphabet : String) (bytes : Bytes) : String :=
  String.ofList (baseX alphabet.toList bytes)

theorem getHost_total_zeros : ∃ host,
    ServerPublicKey.getHost (fun _ => zerosDigest) usualText ⟨.replicate 32 0⟩ = .ok host ∧
      host.toList.length = 20 := by
  have husual : UsualBase36 usualText := fun _ _ => rfl
  obtain ⟨host, hhost, -, -, hlen, -⟩ := getHost_total (fun _ => zerosDigest) husual ⟨.replicate 32 0⟩
  exact ⟨host, hhost, hlen⟩

end CraftIp
