import CraftIp.Spec.Header

/-!
# The handshake of a modern client

A handshake is a length and as many bytes of body. The parser stops in front of the last
byte, `next_state`, and compares the announced length with its own position, which counts
the bytes of the length.

* `modernBody_handshake` — the fields of every handshake are read
* `handshake_parsed_iff` — it is accepted when both errors cancel out
-/

namespace CraftIp

open Infra Spec

/-! ## Writing a handshake -/

/-- A modern client's hello. -/
structure Handshake where
  version : Int32
  hostname : String
  port : UInt16
  nextState : Nat

namespace Handshake

/-- What a client may send: names are limited to 255 characters. -/
structure WellFormed (p : Handshake) : Prop where
  version : 0 ≤ p.version
  hostname : p.hostname.toList.length ≤ 255
  nextState : p.nextState = 1 ∨ p.nextState = 2

/-- What stands between the id and `next_state`. -/
def details (p : Handshake) : Bytes :=
  leb p.version.toInt.toNat ++ (leb (utf8 p.hostname).length ++
    (utf8 p.hostname ++ be16 p.port.toNat))

/-- The body up to the port. -/
def fields (p : Handshake) : Bytes := leb 0 ++ p.details

def body (p : Handshake) : Bytes := p.fields ++ leb p.nextState

/-- The frame up to the port. -/
def front (p : Handshake) : Bytes := leb p.body.length ++ p.fields

def frame (p : Handshake) : Bytes := leb p.body.length ++ p.body

theorem frame_eq (p : Handshake) : p.frame = p.front ++ leb p.nextState := by
  rw [frame, front, List.append_assoc]
  rfl

theorem nextState_length {p : Handshake} (hp : p.WellFormed) : (leb p.nextState).length = 1 := by
  rw [leb_length_eq_one_iff]
  rcases hp.nextState with h | h <;> omega

theorem version_lt {p : Handshake} : p.version.toInt.toNat < 2 ^ 31 := by
  have := p.version.toInt_lt
  omega

theorem hostname_lt {p : Handshake} (hp : p.WellFormed) : (utf8 p.hostname).length ≤ 1020 := by
  have h1 := utf8ByteSize_le p.hostname
  have h2 := hp.hostname
  rw [utf8_length]
  omega

/-- The sizes of the body: the id, `next_state` and the port take four bytes. -/
theorem body_length {p : Handshake} (hp : p.WellFormed) : p.body.length = p.fields.length + 1 ∧
    (utf8 p.hostname).length + 6 ≤ p.body.length ∧
    p.body.length ≤ (utf8 p.hostname).length + 11 := by
  have hversion : (leb p.version.toInt.toNat).length ≤ 5 :=
    leb_length_le (k := 4) (Nat.lt_trans version_lt (by decide))
  have hsize : (leb (utf8 p.hostname).length).length ≤ 2 :=
    leb_length_le (k := 1) (Nat.lt_of_le_of_lt (hostname_lt hp) (by decide))
  have hpos := List.length_pos_iff.mpr (isLeb_leb p.version.toInt.toNat).ne_nil
  have hpos' := List.length_pos_iff.mpr (isLeb_leb (utf8 p.hostname).length).ne_nil
  have hzero : (leb 0).length = 1 := leb_length_eq_one_iff.mpr (by decide)
  rw [body, List.length_append, nextState_length hp]
  refine ⟨rfl, ?_⟩
  simp only [fields, details, List.length_append, hzero, be16_length]
  omega

/-- Two groups are enough for the length of the body. -/
theorem body_lt {p : Handshake} (hp : p.WellFormed) : p.body.length < 128 ^ 2 := by
  have h := (body_length hp).2.2
  have hname := hostname_lt hp
  omega

end Handshake

/-! ## Reading it -/

/-- The third byte of a legacy ping. -/
theorem oldPing_third {c : UInt8} {s : Bytes} {v : MinecraftHelloPacket.Fields × Bytes}
    (h : oldPing (0xFE :: 0x01 :: c :: s) = .ok v) : c = 0xFA := by
  obtain ⟨f, r⟩ := v
  obtain ⟨_, m, hstart, h⟩ := Reader.bind_eq_ok.mp h
  obtain ⟨_, m', hlong, h⟩ := Reader.bind_eq_ok.mp h
  obtain ⟨_, m'', hmagic, -⟩ := Reader.bind_eq_ok.mp h
  have hm : [0xFE, 0x01] ++ (c :: s) = [0xFE, 0x01] ++ m := expect_eq_ok hstart
  obtain rfl : c :: s = m := List.append_cancel_left hm
  obtain ⟨-, rfl⟩ := atLeast_eq_ok hlong
  have hc := expect_eq_ok hmagic
  injection hc

namespace Handshake

variable {p : Handshake}

/-- The fields that are read from a handshake. -/
def read (p : Handshake) : MinecraftHelloPacket.Fields :=
  { id := 0, version := p.version, hostname := p.hostname, port := p.port.toUInt32 }

/-- **The fields of every handshake are read**, and its last byte is not. -/
theorem modernBody_handshake (hp : p.WellFormed) (rest : Bytes) :
    modernBody (p.front ++ rest) = .ok ((Int32.ofNat p.body.length, p.read), rest) := by
  have hlength : p.body.length < 2 ^ 31 := Nat.lt_trans (body_lt hp) (by decide)
  have hversion : Int32.ofNat p.version.toInt.toNat = p.version := by
    have hpos : 0 ≤ p.version.toInt := Int32.le_iff_toInt_le.mp hp.version
    rw [← Int32.toInt_inj, Int32.toInt_ofNat_of_lt version_lt, Int.toNat_of_nonneg hpos]
  have hname : (utf8 p.hostname).length < 2 ^ 31 := Nat.lt_of_le_of_lt (hostname_lt hp) (by decide)
  rw [front, fields, details]
  simp only [List.append_assoc]
  refine (Reader.bind_ok (varint_leb_of_lt hlength _)).trans ?_
  refine (Reader.bind_ok (varint_leb_of_lt (by decide) _)).trans ?_
  refine (Reader.bind_ok (refuse_of_not (by decide) .NotMatching _)).trans ?_
  refine (Reader.bind_ok (varint_leb_of_lt version_lt _)).trans ?_
  refine (Reader.bind_ok (utf8String_utf8 hname _)).trans ?_
  refine (Reader.bind_ok (u16_be16 (UInt16.toNat_lt p.port) _)).trans ?_
  rw [hversion, UInt16.ofNat_toNat]
  rfl

/-- The comparison of the position, which counts the length but not `next_state`. -/
theorem modern_handshake (hp : p.WellFormed) (rest : Bytes) :
    modern (p.front ++ rest)
      = if p.body.length < 128 then .ok (p.read, rest) else .error .NotValid := by
  have hbody := (body_length hp).1
  have hlength : p.body.length < 2 ^ 31 := Nat.lt_trans (body_lt hp) (by decide)
  have hfront : p.front.length = (leb p.body.length).length + p.fields.length := by
    rw [front, List.length_append]
  have hposition : (p.front ++ rest).length - rest.length
      ≠ asUsize (Int32.ofNat p.body.length) ↔ ¬p.body.length < 128 := by
    rw [List.length_append, Nat.add_sub_cancel, asUsize_ofNat hlength, hfront,
      ← leb_length_eq_one_iff]
    omega
  rw [modern, modernBody_handshake hp]
  simp only [hposition, ite_not]

theorem fields_eq (p : Handshake) : p.fields = 0 :: p.details := by
  rw [fields, leb_of_lt (by decide)]
  rfl

/-- A short length takes one byte, and the id is the second. -/
theorem front_short (h : p.body.length < 128) :
    p.front = UInt8.ofNat p.body.length :: 0 :: p.details := by
  rw [front, leb_of_lt h, fields_eq]
  rfl

/-- A longer one takes two, and the id is the third. -/
theorem front_long (hp : p.WellFormed) (h : 128 ≤ p.body.length) :
    p.front = UInt8.ofNat (p.body.length % 128 + 128) :: UInt8.ofNat (p.body.length / 128)
      :: 0 :: p.details := by
  have hlt := body_lt hp
  have hhigh : leb (p.body.length / 128) = [UInt8.ofNat (p.body.length / 128)] :=
    leb_of_lt (by omega)
  rw [front, leb_of_le h, hhigh, fields_eq]
  rfl

/-- **A short handshake is a hello**: the legacy parsers leave it alone. -/
theorem hello_handshake (hp : p.WellFormed) (h : p.body.length < 128) (rest : Bytes) :
    hello (p.front ++ rest) = .ok (p.read, rest) := by
  have hmodern := modern_handshake hp rest
  have hbyte : (UInt8.ofNat p.body.length).toNat = p.body.length := by
    rw [toNat_ofNat_byte]
    omega
  have hsix := (body_length hp).2.1
  have hping : UInt8.ofNat p.body.length ≠ 0xFE := fun he => by
    rw [he, show (0xFE : UInt8).toNat = 254 from rfl] at hbyte
    omega
  have hconnect : UInt8.ofNat p.body.length ≠ 0x02 := fun he => by
    rw [he, show (0x02 : UInt8).toNat = 2 from rfl] at hbyte
    omega
  rw [if_pos h, front_short h] at hmodern
  rw [front_short h]
  exact (hello_cons _ _ _).trans
    ((if_neg fun hp => hping hp.1).trans ((if_neg hconnect).trans hmodern))

/-- **A longer handshake is never accepted.** -/
theorem hello_handshake_long (hp : p.WellFormed) (h : 128 ≤ p.body.length) (rest : Bytes)
    (v : MinecraftHelloPacket.Fields × Bytes) : hello (p.front ++ rest) ≠ .ok v := by
  have hmodern := modern_handshake hp rest
  have hbyte : 128 ≤ (UInt8.ofNat (p.body.length % 128 + 128)).toNat := by
    rw [toNat_ofNat_byte]
    omega
  have hconnect : UInt8.ofNat (p.body.length % 128 + 128) ≠ 0x02 := fun he => by
    rw [he, show (0x02 : UInt8).toNat = 2 from rfl] at hbyte
    omega
  rw [if_neg (by omega), front_long hp h] at hmodern
  rw [front_long hp h]
  intro hok
  have hcons := (hello_cons _ _ _).symm.trans hok
  split at hcons
  · next hping =>
    -- the id is not the third byte of a legacy ping
    obtain ⟨ha, hb⟩ := hping
    rw [ha, hb] at hcons
    exact absurd (oldPing_third hcons) (by decide)
  · cases hmodern.symm.trans hcons

end Handshake

/--
The parsers return this handshake.

The packet has the fields of the handshake, its data are the bytes that left the buffer, and
these are the frame up to the port.
-/
def Handshake.Parsed (p : Handshake) (rest : Bytes) : Prop :=
  ∃ packet, MinecraftHelloPacket.new (p.frame ++ rest) = (.ok packet, leb p.nextState ++ rest) ∧
    packet.version = p.version ∧ packet.hostname = p.hostname ∧ packet.port = p.port.toUInt32 ∧
    packet.data = p.front

theorem parsed_of_short {p : Handshake} (hp : p.WellFormed) (hshort : p.body.length < 128)
    (rest : Bytes) : p.Parsed rest := by
  have h := Handshake.hello_handshake hp hshort (leb p.nextState ++ rest)
  have hdata : (packetOf (p.front ++ (leb p.nextState ++ rest)) p.read
      (leb p.nextState ++ rest)).data = p.front := by
    rw [packetOf, List.length_append, Nat.add_sub_cancel]
    exact List.take_left
  refine ⟨_, ?_, rfl, rfl, rfl, hdata⟩
  rw [Handshake.frame_eq, List.append_assoc, new_eq, cutOff_ok h]

theorem not_parsed_of_long {p : Handshake} (hp : p.WellFormed) (hlong : 128 ≤ p.body.length)
    (rest : Bytes) : ¬p.Parsed rest := by
  rintro ⟨packet, hnew, -⟩
  rw [Handshake.frame_eq, List.append_assoc, new_eq] at hnew
  cases h : hello (p.front ++ (leb p.nextState ++ rest)) with
  | ok v => exact Handshake.hello_handshake_long hp hlong _ v h
  | error e =>
    rw [cutOff_error h] at hnew
    cases hnew

/--
**A handshake is parsed exactly when its body has at most 127 bytes.**

The length is compared with the position behind the port. That position counts the bytes of
the length, which the length does not, and it does not count `next_state`, which the length
does. Both are one byte only for a short body.
-/
theorem handshake_parsed_iff (p : Handshake) (hp : p.WellFormed) (rest : Bytes) :
    p.Parsed rest ↔ p.body.length ≤ 127 := by
  constructor
  · intro h
    by_contra hlong
    exact not_parsed_of_long hp (by omega) rest h
  · intro hshort
    exact parsed_of_short hp (by omega) rest

/-- The handshake of version 761 whose hostname has `n` letters. -/
def lettersHandshake (n : Nat) : Handshake :=
  ⟨761, String.ofList (List.replicate n 'a'), 25565, 1⟩

theorem lettersHandshake_wellFormed {n : Nat} (hn : n ≤ 255) : (lettersHandshake n).WellFormed where
  version := show (0 : Int32) ≤ 761 by decide
  hostname := by
    rw [lettersHandshake, String.toList_ofList, List.length_replicate]
    exact hn
  nextState := Or.inl rfl

theorem lettersHandshake_size (n : Nat) : (utf8 (lettersHandshake n).hostname).length = n :=
  utf8ByteSize_replicate n

theorem handshake_parsed_short : (lettersHandshake 9).Parsed [1, 0] := by
  have hp := lettersHandshake_wellFormed (n := 9) (by decide)
  have hsize := lettersHandshake_size 9
  have hbody := (Handshake.body_length hp).2.2
  exact (handshake_parsed_iff (lettersHandshake 9) hp [1, 0]).mpr (by omega)

/-- With 122 letters or more the announced length takes two bytes. -/
theorem handshake_not_parsed : ¬(lettersHandshake 122).Parsed [] := by
  have hp := lettersHandshake_wellFormed (n := 122) (by decide)
  have hsize := lettersHandshake_size 122
  have hbody := (Handshake.body_length hp).2.1
  exact not_parsed_of_long hp (by omega) []

end CraftIp
