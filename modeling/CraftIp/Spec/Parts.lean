import CraftIp.Spec.FirstPacket

/-!
# The parts of a first packet

What each reader takes, read off a success, and the bytes it takes, written down.

* `utf16String_length`, `utf8String_length` — how far a string reaches
* `utf16String_utf16Bytes`, `u32_portBytes` — strings and ports are read back
-/

namespace CraftIp

open Infra Spec

/-! ## Sizes of the parts -/

theorem u8_eq_ok {s r : Bytes} {n : UInt8} (h : u8 s = .ok (n, r)) : ∃ b, s = b :: r := by
  obtain ⟨v, m, hv, hm⟩ := Reader.bind_eq_ok.mp h
  cases hm
  obtain ⟨rfl, hlen⟩ := Reader.bytes_eq_ok hv
  obtain ⟨b, rfl⟩ := List.length_eq_one_iff.mp hlen
  exact ⟨b, rfl⟩

theorem u16_eq_ok {s r : Bytes} {n : UInt16} (h : u16 s = .ok (n, r)) :
    n.toNat = beValue (s.take 2) ∧ s.length = r.length + 2 := by
  obtain ⟨v, m, hv, hm⟩ := Reader.bind_eq_ok.mp h
  cases hm
  obtain ⟨rfl, hlen⟩ := Reader.bytes_eq_ok hv
  obtain ⟨a, b, rfl⟩ := List.length_eq_two.mp hlen
  refine ⟨?_, by rw [List.length_append, hlen, Nat.add_comm]⟩
  rw [u16_toNat, ← beValue_pair]
  rfl

theorem u32_length {s r : Bytes} {n : UInt32} (h : u32 s = .ok (n, r)) :
    s.length = r.length + 4 := by
  obtain ⟨v, m, hv, hm⟩ := Reader.bind_eq_ok.mp h
  cases hm
  obtain ⟨rfl, hlen⟩ := Reader.bytes_eq_ok hv
  rw [List.length_append, hlen, Nat.add_comm]

theorem varint_length : varint.AtMost 5 := fun _ _ _ h => by
  obtain ⟨n, -, -, hn, hle, rfl⟩ := varint_eq_ok h
  rw [List.length_drop]
  omega

theorem units_length : ∀ b : Bytes, (units b).length = b.length / 2
  | [] => rfl
  | [_] => by simp [units]
  | _ :: _ :: rest => by
    rw [units, List.length_cons, units_length rest, List.length_cons, List.length_cons]
    omega

/-- Text of one unit for each character: everything up to `U+FFFF`. -/
def Plain (t : String) : Prop := ∀ c ∈ t.toList, c.toNat < 0x10000

theorem utf16Text_eq_ok {b s r : Bytes} {t : String} (h : utf16Text b s = .ok (t, r)) :
    decodeUtf16 (units b) = some t.toList ∧ r = s := by
  unfold utf16Text at h
  cases hd : decodeUtf16 (units b) with
  | none => rw [hd] at h; cases h
  | some cs =>
    rw [hd] at h
    cases h
    exact ⟨by rw [String.toList_ofList], rfl⟩

theorem utf8Text_eq_ok {b s r : Bytes} {t : String} (h : utf8Text b s = .ok (t, r)) :
    utf8 t = b ∧ r = s := by
  unfold utf8Text at h
  cases hd : fromUtf8 b with
  | none => rw [hd] at h; cases h
  | some t' =>
    rw [hd] at h
    cases h
    exact ⟨utf8_of_fromUtf8 hd, rfl⟩

/-- The announced number of units, and where the string ends. -/
theorem utf16String_length {s r : Bytes} {t : String} (h : utf16String s = .ok (t, r)) :
    s.length = r.length + 2 + beValue (s.take 2) * 2 := by
  obtain ⟨n, m, hn, hm⟩ := Reader.bind_eq_ok.mp h
  obtain ⟨b, m', hb, ht⟩ := Reader.bind_eq_ok.mp hm
  obtain ⟨hval, hlen⟩ := u16_eq_ok hn
  obtain ⟨rfl, hblen, -⟩ := bytesAndMore_eq_ok hb
  obtain ⟨-, rfl⟩ := utf16Text_eq_ok ht
  rw [hlen, List.length_append, hblen, hval]
  omega

theorem atMost_utf16String : utf16String.AtMost (2 + 65535 * 2) := fun s _ _ h => by
  have hlt : beValue (s.take 2) < 65536 := by
    obtain ⟨n, m, hn, -⟩ := Reader.bind_eq_ok.mp h
    rw [← (u16_eq_ok hn).1]
    exact UInt16.toNat_lt n
  rw [utf16String_length h]
  omega

theorem utf16String_units {s r : Bytes} {t : String} (h : utf16String s = .ok (t, r))
    (ht : Plain t) : beValue (s.take 2) = t.toList.length := by
  obtain ⟨n, m, hn, hm⟩ := Reader.bind_eq_ok.mp h
  obtain ⟨b, m', hb, htext⟩ := Reader.bind_eq_ok.mp hm
  obtain ⟨-, hblen, -⟩ := bytesAndMore_eq_ok hb
  have hcount := decodeUtf16_length (utf16Text_eq_ok htext).1 ht
  rw [units_length, hblen, (u16_eq_ok hn).1, Nat.mul_div_cancel _ (by omega)] at hcount
  exact hcount

theorem utf8String_length {s r : Bytes} {t : String} (h : utf8String s = .ok (t, r)) :
    s.length ≤ r.length + 5 + t.utf8ByteSize := by
  obtain ⟨v, m, hv, hm⟩ := Reader.bind_eq_ok.mp h
  obtain ⟨b, m', hb, ht⟩ := Reader.bind_eq_ok.mp hm
  obtain ⟨rfl, -⟩ := Reader.bytes_eq_ok hb
  have hsize := varint_length hv
  obtain ⟨hblob, rfl⟩ := utf8Text_eq_ok ht
  rw [List.length_append, ← hblob, utf8_length] at hsize
  omega

theorem expect_length {bs s r : Bytes} {e : PacketError} {u : Unit}
    (h : expect bs e s = .ok (u, r)) : s.length = bs.length + r.length := by
  rw [expect_eq_ok h, List.length_append]

theorem refuse_eq_ok {cond : Prop} [Decidable cond] {e : PacketError} {s r : Bytes} {u : Unit}
    (h : refuse cond e s = .ok (u, r)) : ¬cond ∧ r = s := by
  unfold refuse at h
  split at h
  · cases h
  · next hc => cases h; exact ⟨hc, rfl⟩

theorem refuse_of_not {cond : Prop} [Decidable cond] (h : ¬cond) (e : PacketError) (s : Bytes) :
    refuse cond e s = .ok ((), s) := by
  rw [refuse, if_neg h]
  rfl

theorem refuse_of {cond : Prop} [Decidable cond] (h : cond) (e : PacketError) (s : Bytes) :
    refuse cond e s = .error e := by
  rw [refuse, if_pos h]
  rfl

theorem atMost_refuse (cond : Prop) [Decidable cond] (e : PacketError) :
    (refuse cond e).AtMost 0 := fun s _ r h => by
  rw [(refuse_eq_ok h).2]
  exact Nat.le_refl _

theorem atLeast_eq_ok {n : Nat} {s r : Bytes} {u : Unit} (h : atLeast n s = .ok (u, r)) :
    n ≤ s.length ∧ r = s := by
  unfold atLeast at h
  split at h
  · cases h
  · next hn => cases h; exact ⟨by omega, rfl⟩

theorem atMost_u8 : u8.AtMost 1 := fun s _ r h => by
  obtain ⟨b, rfl⟩ := u8_eq_ok h
  exact Nat.le_refl _

theorem atMost_u16 : u16.AtMost 2 := fun _ _ _ h => Nat.le_of_eq (u16_eq_ok h).2

theorem atMost_u32 : u32.AtMost 4 := fun _ _ _ h => Nat.le_of_eq (u32_length h)

theorem atMost_expect (bs : Bytes) (e : PacketError) : (expect bs e).AtMost bs.length :=
  fun _ _ _ h => Nat.le_of_eq ((expect_length h).trans (Nat.add_comm _ _))

theorem atMost_atLeast (n : Nat) : (atLeast n).AtMost 0 := fun _ _ _ h =>
  Nat.le_of_eq (congrArg List.length (atLeast_eq_ok h).2.symm)

/-- The legacy packets have two strings of 16-bit length at most. -/
theorem atMost_oldConnect : oldConnect.AtMost 262150 :=
  (atMost_expect _ _).bind fun _ => atMost_u8.bind fun _ => atMost_utf16String.bind fun _ =>
    atMost_utf16String.bind fun _ => atMost_u32.bind fun _ => Reader.atMost_pure _

theorem atMost_oldPing : oldPing.AtMost 131106 :=
  (atMost_expect _ _).bind fun _ => (atMost_atLeast _).bind fun _ =>
    (atMost_expect _ _).bind fun _ => atMost_u16.bind fun _ => atMost_u8.bind fun _ =>
      atMost_utf16String.bind fun _ => (atMost_refuse _ _).bind fun _ =>
        atMost_u32.bind fun _ => Reader.atMost_pure _

/-! ## Writing the parts -/

/-- The bytes of 16-bit units. -/
def unitBytes (us : List UInt16) : Bytes := us.flatMap fun u => be16 u.toNat

/-- A length in units, and the units. -/
def utf16Bytes (us : List UInt16) : Bytes := be16 us.length ++ unitBytes us

theorem unitBytes_length (us : List UInt16) : (unitBytes us).length = us.length * 2 := by
  rw [unitBytes, List.length_flatMap]
  simp

theorem units_unitBytes (us : List UInt16) : units (unitBytes us) = us := by
  induction us with
  | nil => rfl
  | cons u us ih =>
    have hu : UInt16.ofNat (beValue (be16 u.toNat)) = u := by
      rw [beValue_be16 (UInt16.toNat_lt u), UInt16.ofNat_toNat]
    rw [unitBytes, List.flatMap_cons]
    show UInt16.ofNat (beValue (be16 u.toNat)) :: units (unitBytes us) = _
    rw [hu, ih]

theorem u16_be16 {n : Nat} (hn : n < 65536) (s : Bytes) :
    u16 (be16 n ++ s) = .ok (UInt16.ofNat n, s) := by
  show u16 (UInt8.ofNat (n / 256) :: UInt8.ofNat n :: s) = _
  rw [u16_cons]
  show Except.ok (UInt16.ofNat (beValue (be16 n)), s) = _
  rw [beValue_be16 hn]

/-- A string in front of more bytes is read. -/
theorem utf16String_utf16Bytes {us : List UInt16} {cs : List Char} {s : Bytes}
    (hlen : us.length < 65536) (hcs : decodeUtf16 us = some cs) (hs : s ≠ []) :
    utf16String (utf16Bytes us ++ s) = .ok (String.ofList cs, s) := by
  have hsize : (UInt16.ofNat us.length).toNat * 2 = (unitBytes us).length := by
    rw [UInt16.toNat_ofNat_of_lt' (by rw [show UInt16.size = 65536 from rfl]; omega),
      unitBytes_length]
  have htext : utf16Text (unitBytes us) = pure (String.ofList cs) := by
    rw [utf16Text, units_unitBytes, hcs]
  rw [utf16Bytes, List.append_assoc, utf16String, Reader.bind_ok (u16_be16 hlen _), hsize,
    Reader.bind_ok (bytesAndMore_append hs), htext]
  rfl

/-- The four bytes of a port. -/
def portBytes (port : UInt32) : Bytes := be16 (port.toNat / 65536) ++ be16 port.toNat

theorem u32_portBytes (port : UInt32) : u32 (portBytes port) = .ok (port, []) := by
  have hbytes := Reader.bytes_append PacketError.TooSmall (portBytes port) []
  rw [List.append_nil] at hbytes
  have hval : beValue (portBytes port) = port.toNat := by
    have hlt := UInt32.toNat_lt port
    simp only [beValue, portBytes, be16, List.cons_append, List.nil_append, List.foldl_cons,
      List.foldl_nil, toNat_ofNat_byte]
    omega
  refine (Reader.bind_ok hbytes).trans ?_
  rw [hval, UInt32.ofNat_toNat]
  rfl

theorem u8_cons (b : UInt8) (s : Bytes) : u8 (b :: s) = .ok (b, s) := by
  refine (Reader.bind_ok (Reader.bytes_append PacketError.TooSmall [b] s)).trans ?_
  have hval : beValue [b] = b.toNat := Nat.zero_add _
  rw [hval, UInt8.ofNat_toNat]
  rfl

/-! ## Only what is written is read -/

theorem u8_takes {s r : Bytes} {n : UInt8} (h : u8 s = .ok (n, r)) : s = n :: r := by
  obtain ⟨b, rfl⟩ := u8_eq_ok h
  rw [u8_cons] at h
  cases h
  rfl

theorem u16_takes {s r : Bytes} {n : UInt16} (h : u16 s = .ok (n, r)) : s = be16 n.toNat ++ r := by
  obtain ⟨v, m, hv, hm⟩ := Reader.bind_eq_ok.mp h
  cases hm
  obtain ⟨rfl, hlen⟩ := Reader.bytes_eq_ok hv
  obtain ⟨a, b, rfl⟩ := List.length_eq_two.mp hlen
  rw [u16_toNat, be16_pair]

theorem u32_takes {s r : Bytes} {n : UInt32} (h : u32 s = .ok (n, r)) : s = portBytes n ++ r := by
  obtain ⟨v, m, hv, hm⟩ := Reader.bind_eq_ok.mp h
  cases hm
  obtain ⟨rfl, hlen⟩ := Reader.bytes_eq_ok hv
  match v, hlen with
  | [a, b, c, d], _ =>
    have ha := UInt8.toNat_lt a
    have hb := UInt8.toNat_lt b
    have hc := UInt8.toNat_lt c
    have hd := UInt8.toNat_lt d
    have hval : beValue [a, b, c, d]
        = (a.toNat * 256 + b.toNat) * 65536 + (c.toNat * 256 + d.toNat) := by
      simp only [beValue, List.foldl_cons, List.foldl_nil]
      omega
    have hhigh : beValue [a, b, c, d] / 65536 = a.toNat * 256 + b.toNat := by omega
    have hlow : beValue [a, b, c, d] % 65536 = c.toNat * 256 + d.toNat := by omega
    have hnum : (UInt32.ofNat (beValue [a, b, c, d])).toNat = beValue [a, b, c, d] :=
      UInt32.toNat_ofNat_of_lt' (by rw [show UInt32.size = 4294967296 from rfl]; omega)
    rw [portBytes, hnum, ← be16_mod (beValue [a, b, c, d]), hhigh, hlow, be16_pair, be16_pair]
    rfl

/-- An even number of bytes is made of units. -/
theorem unitBytes_units : ∀ b : Bytes, b.length % 2 = 0 → unitBytes (units b) = b
  | [], _ => rfl
  | [_], h => by cases h
  | x :: y :: rest, h => by
    have hrest : rest.length % 2 = 0 := by
      rw [List.length_cons, List.length_cons] at h
      omega
    rw [units, unitBytes, List.flatMap_cons, u16_toNat, be16_pair]
    show [x, y] ++ unitBytes (units rest) = _
    rw [unitBytes_units rest hrest]
    rfl

/-- **A string that is read was written**, as the units of its text. -/
theorem utf16String_takes {s r : Bytes} {t : String} (h : utf16String s = .ok (t, r)) :
    (encodeUtf16 t.toList).length < 65536 ∧ s = utf16Bytes (encodeUtf16 t.toList) ++ r := by
  obtain ⟨n, m, hn, hm⟩ := Reader.bind_eq_ok.mp h
  obtain ⟨b, m', hb, ht⟩ := Reader.bind_eq_ok.mp hm
  obtain ⟨rfl, hblen, -⟩ := bytesAndMore_eq_ok hb
  obtain ⟨htext, rfl⟩ := utf16Text_eq_ok ht
  have hunits := encodeUtf16_of_decodeUtf16 htext
  have hlen : (units b).length = n.toNat := by
    rw [units_length, hblen, Nat.mul_div_cancel _ (by decide)]
  have hlt := UInt16.toNat_lt n
  rw [hunits, hlen, utf16Bytes, hlen, unitBytes_units b (by omega), List.append_assoc]
  exact ⟨hlt, u16_takes hn⟩

/-- The parts of a legacy connect, each with the bytes that are left behind it. -/
theorem oldConnect_eq_ok {s r : Bytes} {f : MinecraftHelloPacket.Fields}
    (h : oldConnect s = .ok (f, r)) :
    ∃ version username hostname port s₁ s₂ s₃, s = 0x02 :: version :: s₁ ∧
      utf16String s₁ = .ok (username, s₂) ∧ utf16String s₂ = .ok (hostname, s₃) ∧
      u32 s₃ = .ok (port, r) ∧ f = .legacy version hostname port := by
  obtain ⟨_, m, hstart, h⟩ := Reader.bind_eq_ok.mp h
  obtain ⟨version, s₁, hversion, h⟩ := Reader.bind_eq_ok.mp h
  obtain ⟨username, s₂, huser, h⟩ := Reader.bind_eq_ok.mp h
  obtain ⟨hostname, s₃, hhost, h⟩ := Reader.bind_eq_ok.mp h
  obtain ⟨port, r', hport, h⟩ := Reader.bind_eq_ok.mp h
  cases h
  refine ⟨version, username, hostname, port, s₁, s₂, s₃, ?_, huser, hhost, hport, rfl⟩
  rw [expect_eq_ok hstart, u8_takes hversion]
  rfl

end CraftIp
