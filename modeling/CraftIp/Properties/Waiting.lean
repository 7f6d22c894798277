import CraftIp.Properties.Decoding
import CraftIp.Shared.Checked

/-!
# What the decoder waits for

Every parser that asks for more bytes compares a number with the bytes that remain. With
16 bits, as in the legacy packets and in the frames of the proxy, some buffer is long enough.
The hostname of a modern handshake has its size in a signed varint, and a negative one becomes a
`usize` that no buffer reaches.

* `waiting_ends_iff` — the decoder waits for something unless a hostname has a negative size
-/

namespace CraftIp

open Infra Spec

variable {α β : Type} {bincode : Codec SocketPacket} {codec : PacketCodec} {s r : Bytes}

/-! ## Enough bytes -/

theorem neverFrom_bytes (n : Nat) : (Reader.bytes PacketError.TooSmall n).NeverFrom n .TooSmall :=
  fun _ hn hs => absurd (Reader.bytes_eq_error hs).2 (Nat.not_lt.mpr hn)

theorem neverFrom_u8 : u8.NeverFrom 1 .TooSmall :=
  (neverFrom_bytes 1).bind_never fun _ => Reader.never_pure _ _

theorem neverFrom_u16 : u16.NeverFrom 2 .TooSmall :=
  (neverFrom_bytes 2).bind_never fun _ => Reader.never_pure _ _

theorem neverFrom_u32 : u32.NeverFrom 4 .TooSmall :=
  (neverFrom_bytes 4).bind_never fun _ => Reader.never_pure _ _

theorem neverFrom_atLeast (n : Nat) : (atLeast n).NeverFrom n .TooSmall := fun _ hn hs => by
  rw [atLeast, if_neg (Nat.not_lt.mpr hn)] at hs
  cases hs

theorem neverFrom_bytesAndMore (n : Nat) : (bytesAndMore n).NeverFrom (n + 1) .TooSmall :=
  fun _ hn hs => by
    rw [bytesAndMore, if_neg (Nat.not_le.mpr hn)] at hs
    cases hs

/-- The size of a UTF-16 string has 16 bits. -/
theorem neverFrom_utf16String : utf16String.NeverFrom (2 + 131071) .TooSmall := by
  refine Reader.NeverFrom.bind atMost_u16 (neverFrom_u16.mono (by decide)) ?_
  intro size
  have hsize := UInt16.toNat_lt size
  refine ((neverFrom_bytesAndMore _).mono (by omega)).bind_never ?_
  intro b
  exact never_utf16Text (by decide) b

theorem neverFrom_oldConnect :
    oldConnect.NeverFrom (1 + (1 + (131072 + (131072 + 4)))) .TooSmall := by
  refine Reader.NeverFrom.bind (atMost_expect [0x02] .NotMatching)
    ((never_expect (by decide) _).neverFrom _) fun _ => ?_
  refine Reader.NeverFrom.bind atMost_u8 (neverFrom_u8.mono (by decide)) ?_
  intro _
  refine Reader.NeverFrom.bind atMost_utf16String (neverFrom_utf16String.mono (by decide))
    fun _ => ?_
  refine Reader.NeverFrom.bind atMost_utf16String (neverFrom_utf16String.mono (by decide))
    fun _ => ?_
  exact neverFrom_u32.bind_never fun _ => Reader.never_pure _ _

theorem neverFrom_oldPing :
    oldPing.NeverFrom (2 + (0 + (25 + (2 + (1 + (131072 + (0 + 4))))))) .TooSmall := by
  refine Reader.NeverFrom.bind (atMost_expect [0xFE, 0x01] .NotMatching)
    ((never_expect (by decide) _).neverFrom _) fun _ => ?_
  refine Reader.NeverFrom.bind (atMost_atLeast 32) ((neverFrom_atLeast 32).mono (by decide))
    fun _ => ?_
  refine Reader.NeverFrom.bind (atMost_expect (OLD_MINECRAFT_START.drop 2) .NotValid)
    ((never_expect (by decide) _).neverFrom _) fun _ => ?_
  refine Reader.NeverFrom.bind atMost_u16 (neverFrom_u16.mono (by decide)) ?_
  intro _
  refine Reader.NeverFrom.bind atMost_u8 (neverFrom_u8.mono (by decide)) ?_
  intro _
  refine Reader.NeverFrom.bind atMost_utf16String (neverFrom_utf16String.mono (by decide))
    fun _ => ?_
  refine Reader.NeverFrom.bind (atMost_refuse _ _) ((never_refuse (by decide) _).neverFrom _)
    fun _ => ?_
  exact neverFrom_u32.bind_never fun _ => Reader.never_pure _ _

/-- The length of a frame has 16 bits. -/
theorem neverFrom_frame : (frame bincode).NeverFrom (2 + 65535) .TooSmall := by
  refine Reader.NeverFrom.bind atMost_u16 (neverFrom_u16.mono (by decide)) ?_
  intro length
  have hlength := UInt16.toNat_lt length
  refine ((neverFrom_bytes _).mono (by omega)).bind_never ?_
  intro blob
  cases deserialize bincode blob with
  | none => exact Reader.never_error (by decide)
  | some p => exact Reader.never_pure _ _

/-! ## The size of a hostname -/

/-- The varints of `new_pkg` up to the size of the hostname. -/
def hostnameSize : Reader PacketError Int32 := do
  let _pkgLength ← varint
  let pkgId ← varint
  refuse (pkgId ≠ 0) .NotMatching
  let _version ← varint
  varint

theorem local_hostnameSize : hostnameSize.Local :=
  local_varint.bind fun _ => local_varint.bind fun _ => (local_refuse _ _).bind fun _ =>
    local_varint.bind fun _ => local_varint

theorem atMost_hostnameSize : hostnameSize.AtMost (5 + (5 + (0 + (5 + 5)))) :=
  varint_length.bind fun _ => varint_length.bind fun _ => (atMost_refuse _ _).bind fun _ =>
    varint_length.bind fun _ => varint_length

theorem asUsize_of_nonneg {size : Int32} (h : 0 ≤ size) : asUsize size < 2 ^ 31 := by
  have hlt := size.toInt_lt
  have hnonneg : 0 ≤ size.toInt := Int32.le_iff_toInt_le.mp h
  unfold asUsize
  omega

theorem asUsize_of_neg {size : Int32} (h : size < 0) : 2 ^ 63 ≤ asUsize size := by
  have hle := size.le_toInt
  have hneg : size.toInt < 0 := Int32.lt_iff_toInt_lt.mp h
  unfold asUsize
  omega

/-- A handshake that asks for more knows the size of its hostname. -/
theorem hostnameSize_of_modernBody (h : modernBody s = .error .TooSmall) :
    ∃ size r, hostnameSize s = .ok (size, r) ∧ r.length < asUsize size + 2 := by
  have hvarint : varint.Never .TooSmall := never_varint (by decide)
  rcases Reader.bind_eq_error.mp h with h | ⟨pkgLength, s1, h1, h⟩
  · exact absurd h (hvarint _)
  rcases Reader.bind_eq_error.mp h with h | ⟨pkgId, s2, h2, h⟩
  · exact absurd h (hvarint _)
  rcases Reader.bind_eq_error.mp h with h | ⟨_, s3, h3, h⟩
  · exact absurd h (never_refuse (by decide) _ _)
  rcases Reader.bind_eq_error.mp h with h | ⟨version, s4, h4, h⟩
  · exact absurd h (hvarint _)
  have hsize {size : Int32} {r : Bytes} (h5 : varint s4 = .ok (size, r)) :
      hostnameSize s = .ok (size, r) :=
    (Reader.bind_ok h1).trans ((Reader.bind_ok h2).trans ((Reader.bind_ok h3).trans
      ((Reader.bind_ok h4).trans h5)))
  rcases Reader.bind_eq_error.mp h with h | ⟨hostname, s5, h5, h⟩
  · -- the hostname is not there
    rcases Reader.bind_eq_error.mp h with h | ⟨size, r, h5, h⟩
    · exact absurd h (hvarint _)
    rcases Reader.bind_eq_error.mp h with h | ⟨blob, m, -, h⟩
    · have hlen := (Reader.bytes_eq_error h).2
      exact ⟨size, r, hsize h5, by omega⟩
    · exact absurd h (never_utf8Text (by decide) _ _)
  · -- the port is not there
    obtain ⟨size, r, h5, h6⟩ := Reader.bind_eq_ok.mp h5
    obtain ⟨blob, m, h6, h7⟩ := Reader.bind_eq_ok.mp h6
    obtain ⟨rfl, hlen⟩ := Reader.bytes_eq_ok h6
    obtain ⟨-, rfl⟩ := utf8Text_eq_ok h7
    have hport : s5.length < 2 := by
      by_contra hlong
      have hnever : (u16 >>= fun port => (pure (pkgLength, (⟨pkgId, version, hostname,
          port.toUInt32⟩ : MinecraftHelloPacket.Fields)) : Reader PacketError _)).NeverFrom 2
            .TooSmall := neverFrom_u16.bind_never fun _ => Reader.never_pure _ _
      exact hnever (Nat.not_lt.mp hlong) h
    refine ⟨size, _, hsize h5, ?_⟩
    rw [List.length_append]
    omega

/-- A hostname that is longer than the rest of the buffer. -/
theorem modernBody_of_hostnameSize {size : Int32} (h : hostnameSize s = .ok (size, r))
    (hlen : r.length < asUsize size) : modernBody s = .error .TooSmall := by
  obtain ⟨pkgLength, s1, h1, h⟩ := Reader.bind_eq_ok.mp h
  obtain ⟨pkgId, s2, h2, h⟩ := Reader.bind_eq_ok.mp h
  obtain ⟨_, s3, h3, h⟩ := Reader.bind_eq_ok.mp h
  obtain ⟨version, s4, h4, h5⟩ := Reader.bind_eq_ok.mp h
  refine (Reader.bind_ok h1).trans ((Reader.bind_ok h2).trans ((Reader.bind_ok h3).trans
    ((Reader.bind_ok h4).trans (Reader.bind_error ?_))))
  exact (Reader.bind_ok h5).trans (Reader.bind_error (Reader.bytes_short hlen))

theorem modern_tooSmall_iff : modern s = .error .TooSmall ↔ modernBody s = .error .TooSmall := by
  unfold modern
  cases modernBody s with
  | error e => simp only [Except.error.injEq]
  | ok v =>
    simp only
    split
    · exact ⟨fun h => (by cases h), fun h => (by cases h)⟩
    · exact ⟨fun h => (by cases h), fun h => (by cases h)⟩

/-! ## Zeros behind a buffer -/

def zeros (n : Nat) : Bytes := List.replicate n 0

/-- On zeros behind `s`, either `p` stays inside `s`, or it leaves only zeros and `P` holds. -/
def Padded (p : Reader PacketError α) (P : α → Prop) : Prop :=
  ∀ ⦃s : Bytes⦄ ⦃n : Nat⦄ ⦃a : α⦄ ⦃r : Bytes⦄, p (s ++ zeros n) = .ok (a, r) →
    (∃ r', p s = .ok (a, r') ∧ r = r' ++ zeros n) ∨ (P a ∧ ∃ m, r = zeros m)

theorem Padded.bind {p : Reader PacketError α} {q : α → Reader PacketError β} {P : α → Prop}
    {Q : β → Prop} (hp : Padded p P) (hq : ∀ a, Padded (q a) Q) (hnil : ∀ a v, q a [] ≠ .ok v) :
    Padded (p >>= q) Q := by
  intro s n b r h
  obtain ⟨a, m, ha, hb⟩ := Reader.bind_eq_ok.mp h
  rcases hp ha with ⟨m', hs, rfl⟩ | ⟨-, k, rfl⟩
  · rcases hq a hb with ⟨r', hm, hr⟩ | hzeros
    · exact Or.inl ⟨r', (Reader.bind_ok hs).trans hm, hr⟩
    · exact Or.inr hzeros
  · rcases hq a (s := []) hb with ⟨r', hm, -⟩ | hzeros
    · exact absurd hm (hnil a _)
    · exact Or.inr hzeros

/-- A number that goes on into the zeros ends there, and has less than 31 bits. -/
theorem padded_varint : Padded varint (0 ≤ ·) := by
  intro s n v r h
  obtain ⟨bs, hbs, hlen, hsplit, rfl⟩ := varint_takes h
  rcases List.append_eq_append_iff.mp hsplit with ⟨c, rfl, hzeros⟩ | ⟨c, rfl, rfl⟩
  · obtain ⟨hcount, hc, hr⟩ := List.append_eq_replicate_iff.mp hzeros.symm
    rcases c with _ | ⟨b, c⟩
    · rw [List.append_nil] at hbs hlen ⊢
      refine Or.inl ⟨[], ?_, hzeros.symm⟩
      have hback := varint_leb hbs hlen []
      rwa [List.append_nil] at hback
    · rw [hc, List.length_cons] at hbs hlen ⊢
      have hvalue := lebValue_append_zeros hbs
      rw [List.length_append, List.length_replicate] at hlen
      have hsmall : 128 ^ s.length ≤ 128 ^ 4 := Nat.pow_le_pow_right (by decide) (by omega)
      refine Or.inr ⟨Int32.le_iff_toInt_le.mpr ?_, _, hr⟩
      rw [Int32.toInt_ofNat_of_lt (by omega)]
      exact Int.natCast_nonneg _
  · exact Or.inl ⟨c, varint_leb hbs hlen c, rfl⟩

theorem padded_refuse (cond : Prop) [Decidable cond] (e : PacketError) (P : Unit → Prop) :
    Padded (refuse cond e) P := by
  intro s n u r h
  obtain ⟨hcond, rfl⟩ := refuse_eq_ok h
  exact Or.inl ⟨s, refuse_of_not hcond e s, rfl⟩

theorem varint_nil : varint [] = .error .NotValid := rfl

/-- **A negative size is in the buffer already**, zeros do not make one. -/
theorem padded_hostnameSize : Padded hostnameSize (0 ≤ ·) := by
  have hnil (q : Int32 → Reader PacketError Int32) (v) : (varint >>= q) [] ≠ .ok v := by
    rw [Reader.bind_error varint_nil]
    exact fun h => by cases h
  refine padded_varint.bind (fun _ => padded_varint.bind (fun pkgId => ?_) fun pkgId v h => ?_)
    fun _ v => hnil _ v
  · refine (padded_refuse _ _ fun _ => True).bind
      (fun _ => padded_varint.bind (fun _ => padded_varint) fun _ v h => ?_) fun _ v => hnil _ v
    cases varint_nil.symm.trans h
  · obtain ⟨_, m, hm, h⟩ := Reader.bind_eq_ok.mp (show _ = Except.ok (v.1, v.2) from h)
    obtain ⟨-, rfl⟩ := refuse_eq_ok hm
    exact hnil _ _ h

/-! ## Waiting -/

/-- A handshake, and no legacy packet, whose hostname has a negative size. -/
def NegativeHostname (s : Bytes) : Prop :=
  s.take 2 ≠ [0xFE, 0x01] ∧ s.head? ≠ some 0x02 ∧
    ∃ size r, hostnameSize s = .ok (size, r) ∧ size < 0

theorem two_le_of_hostnameSize {size : Int32} (h : hostnameSize s = .ok (size, r)) :
    2 ≤ s.length := by
  obtain ⟨pkgLength, s1, h1, h⟩ := Reader.bind_eq_ok.mp h
  obtain ⟨pkgId, s2, h2, -⟩ := Reader.bind_eq_ok.mp h
  have hfirst := advances_varint h1
  have hsecond := advances_varint h2
  omega

/-- In a buffer of this length only a negative size can ask for more. -/
theorem negative_of_hello {a b : UInt8} (hlong : 2 ^ 32 ≤ (a :: b :: s).length)
    (h : hello (a :: b :: s) = .error .TooSmall) : NegativeHostname (a :: b :: s) := by
  rw [hello_cons] at h
  split at h
  · exact absurd h (neverFrom_oldPing (by omega))
  · next hping =>
    split at h
    · exact absurd h (neverFrom_oldConnect (by omega))
    · next hconnect =>
      obtain ⟨size, r, hsize, hlen⟩ := hostnameSize_of_modernBody (modern_tooSmall_iff.mp h)
      have htaken := atMost_hostnameSize hsize
      refine ⟨?_, ?_, size, r, hsize, ?_⟩
      · intro hstart
        injection hstart with ha hstart
        injection hstart with hb
        exact hping ⟨ha, hb⟩
      · intro hhead
        exact hconnect (Option.some.inj hhead)
      · by_contra hneg
        have hsmall := asUsize_of_nonneg (Int32.not_lt.mp hneg)
        omega

theorem negative_of_firstPacket (hlong : 2 ^ 32 ≤ s.length)
    (h : firstPacket bincode s = .error .TooSmall) : NegativeHostname s := by
  obtain ⟨a, b, s, rfl⟩ := exists_two (b := s) (by omega)
  unfold firstPacket at h
  cases hh : hello (a :: b :: s) with
  | ok v => rw [hh] at h; cases h
  | error e =>
    rw [hh] at h
    cases e with
    | TooSmall => exact negative_of_hello hlong hh
    | NotValid => exact absurd h (neverFrom_frame (by omega))
    | NotMatching => exact absurd h (neverFrom_frame (by omega))
    | _ => cases h

theorem negative_of_zeros (hs : s ≠ []) {n : Nat} (h : NegativeHostname (s ++ zeros n)) :
    NegativeHostname s := by
  obtain ⟨hping, hconnect, size, r, hsize, hneg⟩ := h
  refine ⟨fun hstart => hping ?_, fun hhead => hconnect ?_, size, ?_⟩
  · have htwo : 2 ≤ s.length := by
      have hlen := congrArg List.length hstart
      rw [List.length_take] at hlen
      simp only [List.length_cons, List.length_nil] at hlen
      omega
    rw [List.take_append_of_le_length htwo, hstart]
  · rw [List.head?_append_of_ne_nil _ hs, hhead]
  · rcases padded_hostnameSize hsize with ⟨r', hr', -⟩ | ⟨hnonneg, -⟩
    · exact ⟨r', hr', hneg⟩
    · exact absurd hneg (Int32.not_lt.mpr hnonneg)

/-- **With a negative size every buffer is too small.** -/
theorem firstPacket_of_negative (h : NegativeHostname s) {x : Bytes}
    (hfits : (s ++ x).length < 2 ^ 63) : firstPacket bincode (s ++ x) = .error .TooSmall := by
  obtain ⟨hping, hconnect, size, r, hsize, hneg⟩ := h
  have hbody : modern (s ++ x) = .error .TooSmall := by
    have hlen := local_hostnameSize.length_le hsize
    have hbig := asUsize_of_neg hneg
    rw [List.length_append] at hfits
    have hsize' := local_hostnameSize.append hsize x
    refine modern_tooSmall_iff.mpr (modernBody_of_hostnameSize hsize' ?_)
    rw [List.length_append]
    omega
  obtain ⟨a, b, s, rfl⟩ := exists_two (two_le_of_hostnameSize hsize)
  refine firstPacket_of_tooSmall ((hello_cons a b (s ++ x)).trans ?_)
  rw [if_neg (fun h => hping (by rw [h.1, h.2]; rfl)), if_neg (fun h => hconnect (by rw [h]; rfl))]
  exact hbody

theorem tooSmall_of_decode (hs : s ≠ []) (h : (codec.decode bincode s).1 = .ok none) :
    reading bincode codec.protocol s = .error .TooSmall := by
  rw [decode_eq codec hs] at h
  cases hr : reading bincode codec.protocol s with
  | ok v => rw [hr] at h; cases h
  | error e => rw [hr] at h; cases e <;> first | rfl | cases h

theorem decode_of_negative (hc : codec.protocol = .Unknown) (h : NegativeHostname s) {x : Bytes}
    (hfits : (s ++ x).length < 2 ^ 63) : (codec.decode bincode (s ++ x)).1 = .ok none := by
  have hs : s ++ x ≠ [] := by
    obtain ⟨-, -, size, r, hsize, -⟩ := h
    obtain ⟨a, b, s, rfl⟩ := exists_two (two_le_of_hostnameSize hsize)
    exact List.cons_ne_nil _ _
  rw [decode_of_tooSmall hc hs (firstPacket_of_negative h hfits)]

/-- Without one there is a buffer that is long enough. -/
theorem decode_of_not_negative (buf : BytesMut) (hne : buf.bytes ≠ [])
    (hnone : (codec.decode bincode buf.bytes).1 = .ok none)
    (h : ¬(codec.protocol = .Unknown ∧ NegativeHostname buf.bytes)) :
    (buf.bytes ++ zeros (2 ^ 32)).length < 2 ^ 63 ∧
      (codec.decode bincode (buf.bytes ++ zeros (2 ^ 32))).1 ≠ .ok none := by
  have hne' : buf.bytes ++ zeros (2 ^ 32) ≠ [] := List.append_ne_nil_of_left_ne_nil hne _
  have hlong : 2 ^ 32 ≤ (buf.bytes ++ zeros (2 ^ 32)).length := by
    rw [List.length_append, zeros, List.length_replicate]
    exact Nat.le_add_left _ _
  -- what a reader that is not too small on the long buffer says about the short one
  have hshort {t : Bytes} (ht : reading bincode codec.protocol t = .error .TooSmall) :
      t.length < 2 ^ 32 ∨ (codec.protocol = .Unknown ∧ NegativeHostname t) := by
    rw [or_iff_not_imp_left, Nat.not_lt]
    intro hlen
    cases hp : codec.protocol with
    | Unknown => rw [hp] at ht; exact ⟨rfl, negative_of_firstPacket hlen ht⟩
    | MC version => rw [hp] at ht; cases ht
    | Proxy version => rw [hp] at ht; exact absurd ht (neverFrom_frame (by omega))
  have hnone' : reading bincode codec.protocol buf.bytes = .error .TooSmall :=
    tooSmall_of_decode hne hnone
  constructor
  · have hlen : buf.bytes.length < 2 ^ 32 := (hshort hnone').resolve_right h
    rw [List.length_append, zeros, List.length_replicate]
    omega
  · intro hmore
    obtain ⟨hc, hneg⟩ := (hshort (tooSmall_of_decode hne' hmore)).resolve_left (by omega)
    exact h ⟨hc, negative_of_zeros hne hneg⟩

/--
**The decoder waits for bytes that help, unless the size of a hostname is negative.**

`more` is any longer buffer that a connection can have. With a negative size the answer is
`none` for all of them, and otherwise some of them is answered with a packet or an error.
-/
theorem waiting_ends_iff (bincode : Codec SocketPacket) (codec : PacketCodec) (buf : BytesMut)
    (hne : buf.bytes ≠ []) (hnone : (codec.decode bincode buf.bytes).1 = .ok none) :
    (∃ (x : Bytes) (more : BytesMut), more.bytes = buf.bytes ++ x ∧
        (codec.decode bincode more.bytes).1 ≠ .ok none)
      ↔ ¬(codec.protocol = .Unknown ∧ NegativeHostname buf.bytes) := by
  constructor
  · rintro ⟨x, more, hmore, hends⟩ ⟨hc, hneg⟩
    have hfits := more.fits
    rw [hmore] at hends hfits
    exact hends (decode_of_negative hc hneg hfits)
  · intro h
    obtain ⟨hfits, hends⟩ := decode_of_not_negative buf hne hnone h
    exact ⟨_, ⟨_, hfits⟩, rfl, hends⟩

/-- Half of a frame. -/
theorem waiting_ends_join : ∃ (x : Bytes) (more : BytesMut), more.bytes = [0, 6, 6, 0] ++ x ∧
    (PacketCodec.decode SocketPacket.bincode (.new 8192) more.bytes).1 ≠ .ok none := by
  refine (waiting_ends_iff SocketPacket.bincode (.new 8192) ⟨[0, 6, 6, 0], by decide⟩ (by decide)
    (by decide +kernel)).mpr ?_
  rintro ⟨-, -, -, size, r, hsize, -⟩
  have hid : hostnameSize [0, 6, 6, 0] = .error .NotMatching := rfl
  cases hid.symm.trans hsize

/-- The handshake of length 6, id 0 and version 0 whose hostname has the size -1. -/
theorem waiting_never_ends :
    (PacketCodec.decode SocketPacket.bincode (.new 8192)
        [6, 0, 0, 0xFF, 0xFF, 0xFF, 0xFF, 0x0F]).1 = .ok none
      ∧ ¬∃ (x : Bytes) (more : BytesMut),
        more.bytes = [6, 0, 0, 0xFF, 0xFF, 0xFF, 0xFF, 0x0F] ++ x ∧
          (PacketCodec.decode SocketPacket.bincode (.new 8192) more.bytes).1 ≠ .ok none := by
  have hneg : NegativeHostname [6, 0, 0, 0xFF, 0xFF, 0xFF, 0xFF, 0x0F] :=
    ⟨by decide, by decide, -1, [], rfl, by decide⟩
  constructor
  · exact decode_of_negative (x := []) rfl hneg (by decide)
  · rintro ⟨x, more, hmore, hends⟩
    have hfits := more.fits
    rw [hmore] at hends hfits
    exact hends (decode_of_negative rfl hneg hfits)

end CraftIp
