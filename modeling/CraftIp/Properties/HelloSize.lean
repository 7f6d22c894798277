import CraftIp.Properties.Framing
import CraftIp.Spec.Hello

/-!
# The size of a hello packet

How many bytes each of the three parsers takes for a given hostname, and what that means
for the frame the hello travels in.

* `oldPing_length`, `modern_length` — the legacy ping and the modern handshake are bounded
  by their hostname
* `oldConnect_length` — the legacy connect is not: its username is skipped, and its length is
  whatever the sender announces
* `hello_legacyConnect` — and every username is accepted, so the bound is exact
* `framedRight_hello_iff` — a hello fits into a frame unless it is a legacy connect with
  more than 32721 units of username
-/

namespace CraftIp

open Infra Spec

/-! ## Sizes of the three packets -/

/-- A legacy ping with a plain hostname. -/
theorem oldPing_length {s r : Bytes} {f : MinecraftHelloPacket.Fields} (h : oldPing s = .ok (f, r))
    (hp : Plain f.hostname) : s.length = r.length + 36 + 2 * f.hostname.toList.length := by
  obtain ⟨_, s1, h1, h⟩ := Reader.bind_eq_ok.mp h
  obtain ⟨_, s2, h2, h⟩ := Reader.bind_eq_ok.mp h
  obtain ⟨_, s3, h3, h⟩ := Reader.bind_eq_ok.mp h
  obtain ⟨restData, s4, h4, h⟩ := Reader.bind_eq_ok.mp h
  obtain ⟨version, s5, h5, h⟩ := Reader.bind_eq_ok.mp h
  obtain ⟨hostname, s6, h6, h⟩ := Reader.bind_eq_ok.mp h
  obtain ⟨_, s7, h7, h⟩ := Reader.bind_eq_ok.mp h
  obtain ⟨port, s8, h8, h⟩ := Reader.bind_eq_ok.mp h
  cases h
  obtain ⟨-, rfl⟩ := atLeast_eq_ok h2
  obtain ⟨-, rfl⟩ := refuse_eq_ok h7
  obtain ⟨b, rfl⟩ := u8_eq_ok h5
  have e1 := expect_length h1
  have e3 := expect_length h3
  have e4 := (u16_eq_ok h4).2
  have e6 := utf16String_length h6
  have e6' := utf16String_units h6 hp
  have e8 := u32_length h8
  simp only [OLD_MINECRAFT_START, List.drop_succ_cons, List.drop_zero, List.length_cons,
    List.length_nil] at e1 e3 e4
  show s.length = r.length + 36 + 2 * hostname.toList.length
  omega

/-- A modern handshake. -/
theorem modern_length {s r : Bytes} {f : MinecraftHelloPacket.Fields} (h : modern s = .ok (f, r)) :
    s.length ≤ r.length + 22 + f.hostname.utf8ByteSize := by
  obtain ⟨pkgLength, hbody, -⟩ := modern_eq_ok h
  obtain ⟨_, s1, h1, hbody⟩ := Reader.bind_eq_ok.mp hbody
  obtain ⟨_, s2, h2, hbody⟩ := Reader.bind_eq_ok.mp hbody
  obtain ⟨_, s3, h3, hbody⟩ := Reader.bind_eq_ok.mp hbody
  obtain ⟨version, s4, h4, hbody⟩ := Reader.bind_eq_ok.mp hbody
  obtain ⟨hostname, s5, h5, hbody⟩ := Reader.bind_eq_ok.mp hbody
  obtain ⟨port, s6, h6, hbody⟩ := Reader.bind_eq_ok.mp hbody
  cases hbody
  obtain ⟨-, rfl⟩ := refuse_eq_ok h3
  have e1 := varint_length h1
  have e2 := varint_length h2
  have e4 := varint_length h4
  have e5 := utf8String_length h5
  have e6 := (u16_eq_ok h6).2
  show s.length ≤ r.length + 22 + hostname.utf8ByteSize
  omega

/-- The announced length of the username of a legacy connect, in units. -/
def usernameUnits (buf : Bytes) : Nat := beValue ((buf.drop 2).take 2)

theorem usernameUnits_lt (buf : Bytes) : usernameUnits buf < 65536 := by
  unfold usernameUnits
  match h : (buf.drop 2).take 2 with
  | [] => decide
  | [a] =>
    have ha := UInt8.toNat_lt a
    show 0 * 256 + a.toNat < 65536
    omega
  | [a, b] =>
    have ha := UInt8.toNat_lt a
    have hb := UInt8.toNat_lt b
    rw [beValue_pair]
    omega
  | _ :: _ :: _ :: _ =>
    have hlen := List.length_take_le 2 (buf.drop 2)
    rw [h] at hlen
    simp at hlen

/-- A legacy connect with a plain hostname: the username counts in full. -/
theorem oldConnect_length {s r : Bytes} {f : MinecraftHelloPacket.Fields}
    (h : oldConnect s = .ok (f, r)) (hp : Plain f.hostname) :
    s.length = r.length + 10 + 2 * usernameUnits s + 2 * f.hostname.toList.length := by
  obtain ⟨version, username, hostname, port, s₁, s₂, s₃, rfl, h₁, h₂, h₃, rfl⟩ := oldConnect_eq_ok h
  have huser := utf16String_length h₁
  have hhost := utf16String_length h₂
  have hunits := utf16String_units h₂ hp
  have hport := u32_length h₃
  show (0x02 :: version :: s₁).length
    = r.length + 10 + 2 * beValue (s₁.take 2) + 2 * hostname.toList.length
  rw [List.length_cons, List.length_cons]
  omega

/-! ## A legacy connect of any size -/

/-- The packet a client of the legacy protocol sends to connect. -/
def legacyConnect (version : UInt8) (username hostname : List UInt16) (port : UInt32) : Bytes :=
  0x02 :: version :: (utf16Bytes username ++ (utf16Bytes hostname ++ portBytes port))

theorem legacyConnect_length (version : UInt8) (username hostname : List UInt16) (port : UInt32) :
    (legacyConnect version username hostname port).length
      = 10 + 2 * username.length + 2 * hostname.length := by
  simp only [legacyConnect, utf16Bytes, portBytes, List.length_cons, List.length_append,
    unitBytes_length, be16_length]
  omega

/-- **A legacy connect is accepted** with every username and hostname that is valid UTF-16. -/
theorem hello_legacyConnect (version : UInt8) {username hostname : List UInt16}
    {name host : List Char} (port : UInt32) (hname : username.length < 65536)
    (hhost : hostname.length < 65536) (hn : decodeUtf16 username = some name)
    (hh : decodeUtf16 hostname = some host) :
    hello (legacyConnect version username hostname port)
      = .ok (.legacy version (String.ofList host) port, []) := by
  have hport : portBytes port ≠ [] := by simp [portBytes, be16]
  have hrest : utf16Bytes hostname ++ portBytes port ≠ [] := by simp [hport]
  rw [legacyConnect, hello_cons, if_neg (by rintro ⟨h, -⟩; cases h), if_pos rfl]
  refine (Reader.bind_ok (expect_append [0x02] _ .NotMatching)).trans ?_
  refine (Reader.bind_ok (u8_cons version _)).trans ?_
  refine (Reader.bind_ok (utf16String_utf16Bytes hname hn hrest)).trans ?_
  refine (Reader.bind_ok (utf16String_utf16Bytes hhost hh hport)).trans ?_
  exact Reader.bind_ok (u32_portBytes port)

/-! ## The frame of a hello -/

/-- The hostname of a registered server: 34 ASCII bytes. -/
structure RegisteredHostname (hostname : String) : Prop where
  ascii : ∀ c ∈ hostname.toList, c.toNat < 128
  length : hostname.toList.length = 34

/-- The announced length is the true one, and the frame is read back with nothing left over. -/
def FramedRight (bincode : Codec SocketPacket) (p : SocketPacket) : Prop :=
  ∃ hi lo payload, p.encode bincode = .ok (hi :: lo :: payload) ∧
    beValue [hi, lo] = payload.length ∧
      SocketPacket.decodeProxy bincode (hi :: lo :: payload) = (.ok p, [])

theorem RegisteredHostname.plain {hostname : String} (h : RegisteredHostname hostname) :
    Plain hostname := fun c hc => by
  have := h.ascii c hc
  omega

theorem RegisteredHostname.size {hostname : String} (h : RegisteredHostname hostname) :
    hostname.utf8ByteSize = 34 := by
  rw [utf8ByteSize_ascii h.ascii, h.length]

/-- A packet is framed right when it fits, and only then. -/
theorem framedRight_iff {bincode : Codec SocketPacket} {p : SocketPacket} {b : Bytes}
    (h : bincode.encode p = some b) : FramedRight bincode p ↔ b.length ≤ 65535 := by
  constructor
  · rintro ⟨hi, lo, payload, henc, hlen, -⟩
    rw [encode_eq h] at henc
    injection henc with henc
    obtain ⟨-, rfl⟩ : [hi, lo] = be16 (b.length % 65536) ∧ payload = b := by
      have hsplit : be16 (b.length % 65536) ++ b = [hi, lo] ++ payload := henc
      obtain ⟨h1, h2⟩ := List.append_inj hsplit rfl
      exact ⟨h1.symm, h2.symm⟩
    have h1 := UInt8.toNat_lt hi
    have h2 := UInt8.toNat_lt lo
    rw [beValue_pair] at hlen
    omega
  · intro hlen
    have hback := decodeProxy_frame h hlen []
    rw [List.append_nil] at hback
    exact ⟨_, _, b, encode_of_le h hlen, beValue_be16 (by omega), hback⟩

/-- 14 bytes go in front of the data. -/
theorem framedRight_proxyData_iff {bincode : Codec SocketPacket} (hb : FixintLayout bincode)
    (id : UInt16) {data : Bytes} (h : data.length < 256 ^ 8) :
    FramedRight bincode (.ProxyData ⟨id, ⟨data⟩⟩) ↔ data.length ≤ 65521 := by
  rw [framedRight_iff ((hb _).trans (bincode_proxyData id data h))]
  simp only [List.length_append, leBytes_length]
  omega

/-- The bytes of a hello with the hostname of a registered server. -/
theorem hello_length {s r : Bytes} {f : MinecraftHelloPacket.Fields} (h : hello s = .ok (f, r))
    (hf : RegisteredHostname f.hostname) :
    if s.head? = some 0x02 then s.length = r.length + 78 + 2 * usernameUnits s
    else s.length ≤ r.length + 104 := by
  obtain ⟨a, b, s, rfl⟩ := two_of_hello_ok h
  have hlen := hf.length
  rw [hello_cons] at h
  simp only [List.head?_cons, Option.some_inj]
  split at h
  · next hab =>
    have hsize := oldPing_length h hf.plain
    rw [if_neg (by rw [hab.1]; decide)]
    omega
  · split at h
    · next ha =>
      have hsize := oldConnect_length h hf.plain
      rw [if_pos ha]
      omega
    · next ha =>
      have hsize := modern_length h
      rw [hf.size] at hsize
      rw [if_neg ha]
      omega

/-- The data a hello packet carries is what it took off the buffer. -/
theorem hello_data_length {buf rest : Bytes} {h : MinecraftHelloPacket}
    (hnew : MinecraftHelloPacket.new buf = (.ok h, rest)) (hhost : RegisteredHostname h.hostname) :
    if buf.head? = some 0x02 then h.data.length = 78 + 2 * usernameUnits buf
    else h.data.length ≤ 104 := by
  rw [new_eq] at hnew
  cases hf : hello buf with
  | error e => rw [cutOff_error hf] at hnew; cases hnew
  | ok v =>
    obtain ⟨f, r⟩ := v
    rw [cutOff_ok hf] at hnew
    obtain ⟨rfl, rfl⟩ : packetOf buf f r = h ∧ r = rest := by
      injection hnew with h1 h2
      injection h1 with h1
      exact ⟨h1, h2⟩
    have hsize := hello_length hf hhost
    have hdata : (packetOf buf f r).data.length = buf.length - r.length := by
      rw [packetOf, List.length_take]
      omega
    rw [hdata]
    split at hsize
    · next hhead => rw [if_pos hhead]; omega
    · next hhead => rw [if_neg hhead]; omega

/--
**The hello of a Minecraft client is framed right unless it is a legacy connect with more
than 32721 units of username.**

The username is read and forgotten, so nothing bounds it but its own 16-bit length.
-/
theorem framedRight_hello_iff (bincode : Codec SocketPacket) (hb : FixintLayout bincode)
    (buf rest : Bytes) (h : MinecraftHelloPacket)
    (hnew : MinecraftHelloPacket.new buf = (.ok h, rest))
    (hhost : RegisteredHostname h.hostname) (id : UInt16) :
    FramedRight bincode (.ProxyData (.new ⟨h.data⟩ id))
      ↔ (buf.head? = some 0x02 → usernameUnits buf ≤ 32721) := by
  have hsize := hello_data_length hnew hhost
  have hunits := usernameUnits_lt buf
  split at hsize
  · next hhead =>
    rw [ProxyDataPacket.new, framedRight_proxyData_iff hb id (by omega), hsize]
    constructor
    · intro hle _
      omega
    · intro hle
      have := hle hhead
      omega
  · next hhead =>
    rw [ProxyDataPacket.new, framedRight_proxyData_iff hb id (by omega)]
    exact ⟨fun _ hh => absurd hh hhead, fun _ => by omega⟩

/-- `n` times the letter `a`. -/
def letters (n : Nat) : List UInt16 := List.replicate n 0x61

theorem letters_length (n : Nat) : (letters n).length = n := List.length_replicate

theorem decodeUtf16_letters (n : Nat) : decodeUtf16 (letters n) = some (List.replicate n 'a') :=
  decodeUtf16_replicate (by decide) n

/-- A legacy connect to a registered hostname, with a username of `n` letters, is accepted. -/
theorem new_letters {n : Nat} (hn : n < 65536) : ∃ h,
    MinecraftHelloPacket.new (legacyConnect 0x4A (letters n) (letters 34) 25565) = (.ok h, []) ∧
      RegisteredHostname h.hostname ∧
        h.data = legacyConnect 0x4A (letters n) (letters 34) 25565 := by
  have hhello := hello_legacyConnect 0x4A 25565
    (by rw [letters_length]; exact hn) (by rw [letters_length]; omega)
    (decodeUtf16_letters n) (decodeUtf16_letters 34)
  refine ⟨_, (new_eq _).trans (cutOff_ok hhello), ⟨?_, ?_⟩, List.take_length⟩
  · show ∀ c ∈ (String.ofList (List.replicate 34 'a')).toList, c.toNat < 128
    rw [String.toList_ofList]
    intro c hc
    rw [List.eq_of_mem_replicate hc]
    decide
  · show (String.ofList (List.replicate 34 'a')).toList.length = 34
    rw [String.toList_ofList, List.length_replicate]

theorem framedRight_letters_two :
    FramedRight SocketPacket.bincode
      (.ProxyData (.new ⟨legacyConnect 0x4A (letters 2) (letters 34) 25565⟩ 7)) := by
  obtain ⟨h, hnew, hhost, hdata⟩ := new_letters (n := 2) (by decide)
  rw [← hdata]
  exact (framedRight_hello_iff _ fixintLayout_bincode _ _ h hnew hhost 7).mpr fun _ => by decide

/-- A username of 32722 letters makes the packet 65536 bytes long. -/
theorem hello_wraps :
    ¬ ∀ h rest, MinecraftHelloPacket.new (legacyConnect 0x4A (letters 32722) (letters 34) 25565)
        = (.ok h, rest) → RegisteredHostname h.hostname →
      ∀ id, FramedRight SocketPacket.bincode (.ProxyData (.new ⟨h.data⟩ id)) := by
  intro hall
  obtain ⟨h, hnew, hhost, hdata⟩ := new_letters (n := 32722) (by decide)
  have hgood := hall h [] hnew hhost 0
  have hlen : h.data.length = 65522 := by
    rw [hdata, legacyConnect_length, letters_length, letters_length]
  rw [ProxyDataPacket.new, framedRight_proxyData_iff fixintLayout_bincode 0 (by omega), hlen] at hgood
  omega

end CraftIp
