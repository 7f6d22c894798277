import CraftIp.Properties.HelloSize

/-!
# The packets of a legacy client

A legacy client writes its hostname in 16-bit units. A ping also announces how many bytes
follow, and the parser computes this number again from the hostname it has decoded.

* `legacyPing_parsed_iff` — it counts bytes of UTF-8, so a ping is accepted when its
  hostname is ASCII, and only then
* `legacyConnect_parsed` — a connect has no such check: every one is accepted, and
  whatever is accepted behind `0x02` is one
-/

namespace CraftIp

open Infra Spec

/-! ## What is accepted leaves the buffer -/

/-- The packet of a legacy client whose bytes are `data`. -/
def legacyPacket (version : UInt8) (hostname : String) (port : UInt32) (data : Bytes) :
    MinecraftHelloPacket :=
  { length := UInt64.ofNat data.length, id := 0, version := version.toUInt32.toInt32,
    hostname := hostname, port := port, data := data }

theorem packetOf_legacy (version : UInt8) (hostname : String) (port : UInt32) (data rest : Bytes) :
    packetOf (data ++ rest) (.legacy version hostname port) rest
      = legacyPacket version hostname port data := by
  rw [packetOf, List.length_append, Nat.add_sub_cancel, List.take_left]
  rfl

/--
The parsers return a packet with these fields.

Its data are the first `length` bytes of the buffer, and these are all that leaves it.
-/
def LegacyParsed (version : UInt8) (hostname : String) (port : UInt32) (length : Nat)
    (data rest : Bytes) : Prop :=
  ∃ packet, MinecraftHelloPacket.new (data ++ rest) = (.ok packet, rest) ∧
    packet.version = version.toUInt32.toInt32 ∧ packet.hostname = hostname ∧
    packet.port = port ∧ packet.length = UInt64.ofNat length ∧ packet.data = data

theorem legacyParsed_of_hello {version : UInt8} {hostname : String} {port : UInt32}
    {length : Nat} {data : Bytes} (h : hello data = .ok (.legacy version hostname port, []))
    (hlength : data.length = length) (rest : Bytes) :
    LegacyParsed version hostname port length data rest := by
  have hfront := hello_append h rest
  refine ⟨legacyPacket version hostname port data, ?_, rfl, rfl, rfl, ?_, rfl⟩
  · rw [new_eq, cutOff_ok hfront, List.nil_append, packetOf_legacy]
  · rw [legacyPacket, hlength]

/-! ## The legacy ping -/

/-- The packet a legacy client sends to ask for the status of a server. -/
def legacyPing (version : UInt8) (hostname : List UInt16) (port : UInt32) : Bytes :=
  OLD_MINECRAFT_START ++ (be16 (7 + 2 * hostname.length)
    ++ version :: (utf16Bytes hostname ++ portBytes port))

theorem legacyPing_length (version : UInt8) (hostname : List UInt16) (port : UInt32) :
    (legacyPing version hostname port).length = 36 + 2 * hostname.length := by
  simp only [legacyPing, utf16Bytes, portBytes, List.length_cons, List.length_append,
    unitBytes_length, be16_length, OLD_MINECRAFT_START, List.length_nil]
  omega

/-- **The announced length is compared with the bytes of the hostname in UTF-8.** -/
theorem hello_legacyPing (version : UInt8) (hostname : String) (port : UInt32)
    (hlen : 7 + 2 * (encodeUtf16 hostname.toList).length ≤ 65535) :
    hello (legacyPing version (encodeUtf16 hostname.toList) port)
      = if (encodeUtf16 hostname.toList).length = hostname.utf8ByteSize then
          .ok (.legacy version hostname port, [])
        else .error .NotValid := by
  have hlong := legacyPing_length version (encodeUtf16 hostname.toList) port
  have hport : portBytes port ≠ [] := by simp [portBytes, be16]
  have hdata : (UInt16.ofNat (7 + 2 * (encodeUtf16 hostname.toList).length)).toNat
      = 7 + 2 * (encodeUtf16 hostname.toList).length := toNat_ofNat_unit (by omega)
  have hping : legacyPing version (encodeUtf16 hostname.toList) port
      = 0xFE :: 0x01 :: (legacyPing version (encodeUtf16 hostname.toList) port).drop 2 := rfl
  have hstart : hello (legacyPing version (encodeUtf16 hostname.toList) port)
      = oldPing (legacyPing version (encodeUtf16 hostname.toList) port) := by
    rw [hping]
    exact hello_of_ping (oldPing_ne_notMatching _)
  have hfull (s : Bytes) (hs : 32 ≤ s.length) : atLeast 32 s = .ok ((), s) :=
    if_neg (Nat.not_lt.mpr hs)
  rw [hstart]
  refine (Reader.bind_ok (expect_append [0xFE, 0x01] _ .NotMatching)).trans ?_
  refine (Reader.bind_ok (hfull _ ?_)).trans ?_
  · have hsplit := congrArg List.length hping
    rw [List.length_cons, List.length_cons, hlong] at hsplit
    show 32 ≤ ((legacyPing version (encodeUtf16 hostname.toList) port).drop 2).length
    omega
  refine (Reader.bind_ok (expect_append (OLD_MINECRAFT_START.drop 2) _ .NotValid)).trans ?_
  refine (Reader.bind_ok (u16_be16 (by omega) _)).trans ?_
  refine (Reader.bind_ok (u8_cons version _)).trans ?_
  refine (Reader.bind_ok
    (utf16String_utf16Bytes (by omega) (decodeUtf16_encodeUtf16 _) hport)).trans ?_
  rw [String.ofList_toList, hdata]
  split
  · next heq =>
    refine (Reader.bind_ok (refuse_of_not (by omega) .NotValid _)).trans ?_
    exact Reader.bind_ok (u32_portBytes port)
  · next hne => exact Reader.bind_error (refuse_of (by omega) .NotValid _)

/--
**A legacy ping is parsed exactly when its hostname is ASCII.**

The announced length counts units, and the parser counts the bytes of the decoded string.
-/
theorem legacyPing_parsed_iff (version : UInt8) (hostname : String) (port : UInt32) (rest : Bytes)
    (hlen : 7 + 2 * (encodeUtf16 hostname.toList).length ≤ 65535) :
    LegacyParsed version hostname port (36 + 2 * (encodeUtf16 hostname.toList).length)
        (legacyPing version (encodeUtf16 hostname.toList) port) rest
      ↔ ∀ c ∈ hostname.toList, c.toNat < 128 := by
  have hhello := hello_legacyPing version hostname port hlen
  rw [← encodeUtf16_length_eq_iff]
  constructor
  · rintro ⟨packet, hnew, -⟩
    by_contra hne
    rw [if_neg hne] at hhello
    have hlasting := hello_notValid (by rw [legacyPing_length]; omega) hhello rest
    rw [new_eq, cutOff_error hlasting] at hnew
    cases hnew
  · intro heq
    rw [if_pos heq] at hhello
    exact legacyParsed_of_hello hhello (legacyPing_length _ _ _) rest

theorem legacyPing_parsed_hi :
    LegacyParsed 73 "hi" 25565 (36 + 2 * (encodeUtf16 "hi".toList).length)
      (legacyPing 73 (encodeUtf16 "hi".toList) 25565) [1] :=
  (legacyPing_parsed_iff 73 "hi" 25565 [1] (by decide)).mpr (by simp)

/-- One letter outside ASCII is one unit, but two bytes of UTF-8. -/
theorem legacyPing_not_parsed : ¬LegacyParsed 73 "ä" 25565 38
    (legacyPing 73 (encodeUtf16 "ä".toList) 25565) [] := by
  have hhello := hello_legacyPing 73 "ä" 25565 (by decide)
  rw [if_neg (by decide)] at hhello
  rintro ⟨packet, hnew, -⟩
  rw [List.append_nil, new_eq, cutOff_error hhello] at hnew
  cases hnew

/-! ## The legacy connect -/

/-- **What is accepted behind `0x02` is a legacy connect.** -/
theorem legacyConnect_of_hello {s r : Bytes} {f : MinecraftHelloPacket.Fields}
    (h : hello (0x02 :: s) = .ok (f, r)) :
    ∃ (version : UInt8) (username hostname : String) (port : UInt32),
      (encodeUtf16 username.toList).length < 65536 ∧ (encodeUtf16 hostname.toList).length < 65536 ∧
      0x02 :: s = legacyConnect version (encodeUtf16 username.toList)
        (encodeUtf16 hostname.toList) port ++ r ∧ f = .legacy version hostname port := by
  have hconnect : hello (0x02 :: s) = oldConnect (0x02 :: s) := by
    match s with
    | [] => exact hello_of_connect rfl (oldConnect_ne_notMatching [])
    | b :: s => rw [hello_cons, if_neg (by rintro ⟨h, -⟩; cases h), if_pos rfl]
  rw [hconnect] at h
  obtain ⟨version, username, hostname, port, s₁, s₂, s₃, hs, h₁, h₂, h₃, rfl⟩ := oldConnect_eq_ok h
  obtain ⟨huser, hs₁⟩ := utf16String_takes h₁
  obtain ⟨hhost, hs₂⟩ := utf16String_takes h₂
  refine ⟨version, username, hostname, port, huser, hhost, ?_, rfl⟩
  rw [hs, hs₁, hs₂, u32_takes h₃]
  simp only [legacyConnect, List.cons_append, List.append_assoc]

/--
**Every legacy connect is parsed, and only legacy connects are parsed behind `0x02`.**

The username is any text: it is read and forgotten.
-/
theorem legacyConnect_parsed :
    (∀ (version : UInt8) (username hostname : String) (port : UInt32) (rest : Bytes),
      (encodeUtf16 username.toList).length ≤ 65535 → (encodeUtf16 hostname.toList).length ≤ 65535 →
        LegacyParsed version hostname port
          (10 + 2 * (encodeUtf16 username.toList).length + 2 * (encodeUtf16 hostname.toList).length)
          (legacyConnect version (encodeUtf16 username.toList) (encodeUtf16 hostname.toList) port)
          rest) ∧
    ∀ (s rest : Bytes) (packet : MinecraftHelloPacket),
      MinecraftHelloPacket.new (0x02 :: s) = (.ok packet, rest) →
        ∃ (version : UInt8) (username hostname : String) (port : UInt32),
          (encodeUtf16 username.toList).length ≤ 65535 ∧
          (encodeUtf16 hostname.toList).length ≤ 65535 ∧
          0x02 :: s = legacyConnect version (encodeUtf16 username.toList)
            (encodeUtf16 hostname.toList) port ++ rest ∧
          packet = legacyPacket version hostname port (legacyConnect version
            (encodeUtf16 username.toList) (encodeUtf16 hostname.toList) port) := by
  constructor
  · intro version username hostname port rest huser hhost
    have hhello := hello_legacyConnect version port (Nat.lt_succ_of_le huser)
      (Nat.lt_succ_of_le hhost) (decodeUtf16_encodeUtf16 username.toList)
      (decodeUtf16_encodeUtf16 hostname.toList)
    rw [String.ofList_toList] at hhello
    exact legacyParsed_of_hello hhello (legacyConnect_length _ _ _ _) rest
  · intro s rest packet hnew
    rw [new_eq] at hnew
    cases hh : hello (0x02 :: s) with
    | error e => rw [cutOff_error hh] at hnew; cases hnew
    | ok v =>
      obtain ⟨f, r⟩ := v
      rw [cutOff_ok hh] at hnew
      injection hnew with hpacket hrest
      injection hpacket with hpacket
      subst hrest
      obtain ⟨version, username, hostname, port, huser, hhost, hs, rfl⟩ :=
        legacyConnect_of_hello hh
      rw [hs, packetOf_legacy] at hpacket
      exact ⟨version, username, hostname, port, Nat.le_of_lt_succ huser,
        Nat.le_of_lt_succ hhost, hs, hpacket.symm⟩

theorem legacyConnect_parsed_localhost :
    LegacyParsed 73 "localhost" 25565 (10 + 2 * (encodeUtf16 "PennerQueen".toList).length
        + 2 * (encodeUtf16 "localhost".toList).length)
      (legacyConnect 73 (encodeUtf16 "PennerQueen".toList) (encodeUtf16 "localhost".toList) 25565)
      [1, 0] :=
  legacyConnect_parsed.1 73 "PennerQueen" "localhost" 25565 [1, 0] (by decide) (by decide)

end CraftIp
