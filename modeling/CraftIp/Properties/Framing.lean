import CraftIp.Shared.PacketCodec
import CraftIp.Spec.Readers
import Mathlib.Tactic.NormNum

/-!
# Framing

What `SocketPacket::encode` writes and what `SocketPacket::decode_proxy` reads.

* `decodeProxy_eq` — the decoder is the reader `frame`, which takes a 16-bit length and
  that many bytes
* `decodeProxy_frame` — a frame whose length fits is read back, whatever follows it
* `encode_decodes_iff` — and these are all the frames that are read back: the length is
  cast to 16 bits, so a longer packet is announced with the wrong length
-/

namespace CraftIp

open Infra Spec

variable {bincode : Codec SocketPacket}

/-! ## The decoder as a reader -/

/-- A length of 16 bits and a packet of that length. -/
def frame (bincode : Codec SocketPacket) : Reader PacketError SocketPacket := do
  let length ← u16
  let blob ← Reader.bytes .TooSmall length.toNat
  match deserialize bincode blob with
  | some p => pure p
  | none => Reader.error .NotValid

theorem frame_cons (hi lo : UInt8) (s : Bytes) :
    frame bincode (hi :: lo :: s) =
      if s.length < hi.toNat * 256 + lo.toNat then .error .TooSmall
      else
        match deserialize bincode (s.take (hi.toNat * 256 + lo.toNat)) with
        | some p => .ok (p, s.drop (hi.toNat * 256 + lo.toNat))
        | none => .error .NotValid := by
  rw [frame, Reader.bind_ok (u16_cons hi lo s), u16_toNat]
  by_cases h : s.length < hi.toNat * 256 + lo.toNat
  · rw [if_pos h, Reader.bind_error (Reader.bytes_short h)]
  · have hbytes : Reader.bytes PacketError.TooSmall (hi.toNat * 256 + lo.toNat) s
        = .ok (s.take (hi.toNat * 256 + lo.toNat), s.drop (hi.toNat * 256 + lo.toNat)) := if_neg h
    rw [if_neg h, Reader.bind_ok hbytes]
    cases deserialize bincode (s.take (hi.toNat * 256 + lo.toNat)) <;> rfl

/-- The outcome of `decode_proxy`, given what the reader makes of the buffer. -/
def advanced (buf : Bytes) : Except PacketError (SocketPacket × Bytes) → Outcome SocketPacket × Bytes
  | .error e => (.error (.error e), buf)
  | .ok (p, r) => (.ok p, r)

theorem getU16_cons (hi lo : UInt8) (s : Bytes) :
    Cursor.getU16 (Cursor.new (hi :: lo :: s))
      = .ok (UInt16.ofNat (beValue [hi, lo]), ⟨hi :: lo :: s, 2⟩) :=
  CursorM.bind_ok (getBytes_of_le (by simp [Cursor.new, Cursor.remaining]))

/-- **`decode_proxy` is the reader `frame`.** It never panics, and an error leaves the buffer. -/
theorem decodeProxy_eq (buf : Bytes) :
    SocketPacket.decodeProxy bincode buf = advanced buf (frame bincode buf) := by
  match buf with
  | [] => rfl
  | [_] => rfl
  | hi :: lo :: s =>
    have hcheck : Cursor.throwErrorIfSmaller 2 (Cursor.new (hi :: lo :: s))
        = .ok ((), Cursor.new (hi :: lo :: s)) :=
      throwErrorIfSmaller_of_le (by simp [Cursor.new, Cursor.remaining])
    have hcode : SocketPacket.decodeProxyCursor bincode (Cursor.new (hi :: lo :: s)) = _ :=
      (CursorM.bind_ok hcheck).trans (CursorM.bind_ok (getU16_cons hi lo s))
    have hn := u16_toNat hi lo
    rw [SocketPacket.decodeProxy, hcode, frame_cons]
    simp only [hn]
    generalize hi.toNat * 256 + lo.toNat = n
    by_cases h : s.length < n
    · have hlt : Cursor.remaining ⟨hi :: lo :: s, 2⟩ < n := by simpa [Cursor.remaining] using h
      rw [CursorM.bind_error (throwErrorIfSmaller_of_lt hlt), if_pos h]
      rfl
    · have hle : n ≤ Cursor.remaining ⟨hi :: lo :: s, 2⟩ := by
        simp only [Cursor.remaining, List.length_cons]; omega
      have hslice : Cursor.slice 2 (2 + n) ⟨hi :: lo :: s, 2⟩
          = .ok (s.take n, ⟨hi :: lo :: s, 2⟩) := by
        rw [Cursor.slice, if_pos ⟨by omega, by simp only [List.length_cons]; omega⟩,
          Nat.add_comm 2 n]
        rfl
      rw [CursorM.bind_ok (throwErrorIfSmaller_of_le hle), CursorM.bind_ok rfl, if_neg h,
        CursorM.bind_ok hslice]
      cases deserialize bincode (s.take n) with
      | none => rfl
      | some p =>
        show (if 2 + n ≤ (hi :: lo :: s).length then _ else _) = _
        rw [if_pos (by simp only [List.length_cons]; omega), Nat.add_comm 2 n]
        rfl

theorem frame_be16 {n : Nat} (hn : n < 65536) (s : Bytes) :
    frame bincode (be16 n ++ s) =
      if s.length < n then .error .TooSmall
      else
        match deserialize bincode (s.take n) with
        | some p => .ok (p, s.drop n)
        | none => .error .NotValid := by
  have hlen : (UInt8.ofNat (n / 256)).toNat * 256 + (UInt8.ofNat n).toNat = n := by
    rw [← beValue_pair]
    exact beValue_be16 hn
  show frame bincode (UInt8.ofNat (n / 256) :: UInt8.ofNat n :: s) = _
  rw [frame_cons, hlen]

/-- Reading a frame takes a front of the stream and does not look at the rest. -/
theorem local_frame : (frame bincode).Local := by
  refine local_u16.bind fun _ => (Reader.local_bytes _ _).bind ?_
  intro blob
  cases deserialize bincode blob with
  | none => exact Reader.local_error _
  | some p => exact Reader.local_pure p

/-! ## What the serialiser guarantees -/

theorem deserialize_encode {p : SocketPacket} {b : Bytes} (h : bincode.encode p = some b) :
    deserialize bincode b = some p := by
  have hd := bincode.decode_encode h []
  rw [List.append_nil] at hd
  rw [deserialize, hd, Option.map_some]

theorem deserialize_truncated {p : SocketPacket} {b s t : Bytes} (h : bincode.encode p = some b)
    (hb : b = s ++ t) (ht : t ≠ []) : deserialize bincode s = none := by
  rw [deserialize, bincode.decode_truncated h hb ht, Option.map_none]

/-! ## Reading frames back -/

/-- The bytes of a frame whose packet is announced with its own length. -/
def frameBytes (b : Bytes) : Bytes := be16 b.length ++ b

@[simp] theorem frameBytes_length (b : Bytes) : (frameBytes b).length = b.length + 2 := by
  simp [frameBytes, Nat.add_comm]

@[simp] theorem frameBytes_ne_nil (b : Bytes) : frameBytes b ≠ [] := List.cons_ne_nil _ _

theorem encode_eq {p : SocketPacket} {b : Bytes} (h : bincode.encode p = some b) :
    p.encode bincode = .ok (be16 (b.length % 65536) ++ b) := by
  rw [SocketPacket.encode, h]
  simp only [UInt16.toNat_ofNat', Nat.reducePow]

theorem encode_eq_ok {p : SocketPacket} {bytes : Bytes} (h : p.encode bincode = .ok bytes) :
    ∃ b, bincode.encode p = some b ∧ bytes = be16 (b.length % 65536) ++ b := by
  cases hb : bincode.encode p with
  | none => rw [SocketPacket.encode, hb] at h; cases h
  | some b =>
    rw [encode_eq hb] at h
    cases h
    exact ⟨b, rfl, rfl⟩

theorem encode_of_le {p : SocketPacket} {b : Bytes} (h : bincode.encode p = some b)
    (hlen : b.length ≤ 65535) : p.encode bincode = .ok (frameBytes b) := by
  rw [encode_eq h, Nat.mod_eq_of_lt (by omega)]
  rfl

theorem frame_frameBytes {p : SocketPacket} {b : Bytes} (h : bincode.encode p = some b)
    (hlen : b.length ≤ 65535) (rest : Bytes) :
    frame bincode (frameBytes b ++ rest) = .ok (p, rest) := by
  rw [frameBytes, List.append_assoc, frame_be16 (by omega),
    if_neg (by rw [List.length_append]; omega), List.take_left, List.drop_left,
    deserialize_encode h]

/-- **A packet that fits into a frame is read back**, and the bytes behind it stay. -/
theorem decodeProxy_frame {p : SocketPacket} {b : Bytes} (h : bincode.encode p = some b)
    (hlen : b.length ≤ 65535) (rest : Bytes) :
    SocketPacket.decodeProxy bincode (frameBytes b ++ rest) = (.ok p, rest) := by
  rw [decodeProxy_eq, frame_frameBytes h hlen]
  rfl

/-- A packet past the limit: the announced length cuts it short, and reading fails. -/
theorem decodeProxy_oversized {p : SocketPacket} {b : Bytes} (h : bincode.encode p = some b)
    (hlen : 65535 < b.length) :
    (SocketPacket.decodeProxy bincode (be16 (b.length % 65536) ++ b)).1
      = .error (.error .NotValid) := by
  have hn : b.length % 65536 < b.length := by omega
  have hcut : deserialize bincode (b.take (b.length % 65536)) = none := by
    refine deserialize_truncated h (List.take_append_drop (b.length % 65536) b).symm ?_
    intro he
    have := congrArg List.length he
    rw [List.length_drop, List.length_nil] at this
    omega
  rw [decodeProxy_eq, frame_be16 (by omega), if_neg (by omega), hcut]
  rfl

/--
**`encode` emits a frame that decodes back exactly when the packet has at most 65535 bytes.**

The left side is about every byte string behind the frame.
-/
theorem encode_decodes_iff (bincode : Codec SocketPacket) (p : SocketPacket) :
    (∀ bytes rest, p.encode bincode = .ok bytes →
        SocketPacket.decodeProxy bincode (bytes ++ rest) = (.ok p, rest))
      ↔ ∀ b, bincode.encode p = some b → b.length ≤ 65535 := by
  constructor
  · intro h b hb
    by_contra hlong
    have hback := h _ [] (encode_eq hb)
    rw [List.append_nil] at hback
    have herr := decodeProxy_oversized hb (by omega)
    rw [hback] at herr
    cases herr
  · intro h bytes rest he
    obtain ⟨b, hb, rfl⟩ := encode_eq_ok he
    have hlen := h b hb
    rw [Nat.mod_eq_of_lt (by omega)]
    exact decodeProxy_frame hb hlen rest

/-! ## Frames of packets -/

/-- `f` is the frame of the packet `p`, whose serialisation fits into it. -/
structure FrameOf (bincode : Codec SocketPacket) (f : Bytes) (p : SocketPacket) : Prop where
  encoded : p.encode bincode = .ok f
  fits : ∀ b, bincode.encode p = some b → b.length ≤ 65535

theorem FrameOf.bytes {p : SocketPacket} {f : Bytes} (h : FrameOf bincode f p) :
    ∃ b, bincode.encode p = some b ∧ b.length ≤ 65535 ∧ f = frameBytes b := by
  obtain ⟨b, hb, hf⟩ := encode_eq_ok h.encoded
  have hlen := h.fits b hb
  exact ⟨b, hb, hlen, by rw [hf, Nat.mod_eq_of_lt (by omega), frameBytes]⟩

theorem frameOf_bytes {p : SocketPacket} {b : Bytes} (h : bincode.encode p = some b)
    (hlen : b.length ≤ 65535) : FrameOf bincode (frameBytes b) p where
  encoded := encode_of_le h hlen
  fits b' h' := by
    rw [h] at h'
    cases h'
    exact hlen

/-! ## The layout of a data packet -/

theorem uint16_encode (n : UInt16) : Codec.uint16.encode n = some (leBytes 2 n.toNat) :=
  Codec.word_encode (UInt16.toNat_lt n)

theorem uint32_encode (n : UInt32) : Codec.uint32.encode n = some (leBytes 4 n.toNat) :=
  Codec.word_encode (UInt32.toNat_lt n)

/-- A variant is its tag in four bytes, followed by its fields. -/
theorem bincode_encode {p : SocketPacket} {fields : Bytes} (h : p.encodeFields = some fields) :
    SocketPacket.bincode.encode p = some (leBytes 4 p.tag.toNat ++ fields) := by
  show (Codec.uint32.encode p.tag).bind (fun x => p.encodeFields.map (x ++ ·)) = _
  rw [uint32_encode, h]
  rfl

theorem bincode_eq_some {p : SocketPacket} {b : Bytes} (h : SocketPacket.bincode.encode p = some b) :
    ∃ fields, p.encodeFields = some fields ∧ b = leBytes 4 p.tag.toNat ++ fields := by
  have hbind : (Codec.uint32.encode p.tag).bind (fun x => p.encodeFields.map (x ++ ·)) = some b := h
  rw [uint32_encode, Option.bind_some] at hbind
  obtain ⟨fields, hf, rfl⟩ := Option.map_eq_some_iff.mp hbind
  exact ⟨fields, hf, rfl⟩

/-- A small tag is one byte and three zeros. -/
theorem leBytes_tag (t : UInt8) (fields : Bytes) :
    leBytes 4 t.toNat ++ fields = t :: 0 :: 0 :: 0 :: fields := by
  have hlt := UInt8.toNat_lt t
  simp only [leBytes, UInt8.ofNat_toNat, Nat.div_eq_of_lt hlt, Nat.zero_div]
  rfl

/-- Tag 10, the id in two bytes, the length of the data in eight, and the data. -/
theorem bincode_proxyData (id : UInt16) (data : Bytes) (h : data.length < 256 ^ 8) :
    SocketPacket.bincode.encode (.ProxyData ⟨id, ⟨data⟩⟩)
      = some (leBytes 4 10 ++ (leBytes 2 id.toNat ++ (leBytes 8 data.length ++ data))) := by
  refine bincode_encode ?_
  show (Codec.uint16.encode id).bind (fun x => (Codec.vec.encode data).map (x ++ ·)) = _
  rw [uint16_encode, Codec.vec_encode h]
  rfl

/-- `ProxyData` with 65522 bytes takes 65536, so it is announced with length 0. -/
theorem encode_proxyData_wraps :
    ¬ ∀ bytes rest,
      (SocketPacket.ProxyData ⟨0, ⟨List.replicate 65522 0⟩⟩).encode SocketPacket.bincode = .ok bytes →
      SocketPacket.decodeProxy SocketPacket.bincode (bytes ++ rest)
        = (.ok (.ProxyData ⟨0, ⟨List.replicate 65522 0⟩⟩), rest) := by
  intro h
  have hdata : (List.replicate 65522 (0 : UInt8)).length = 65522 := List.length_replicate
  have hb := bincode_proxyData 0 (List.replicate 65522 0) (by rw [hdata]; norm_num)
  have hlen : (leBytes 4 10 ++ (leBytes 2 (0 : UInt16).toNat ++
      (leBytes 8 (List.replicate 65522 (0 : UInt8)).length ++ List.replicate 65522 0))).length
        = 65536 := by
    simp only [List.length_append, leBytes_length, hdata]
  have hback := h _ [] (encode_eq hb)
  rw [List.append_nil] at hback
  have herr := decodeProxy_oversized hb (by rw [hlen]; norm_num)
  rw [hback] at herr
  cases herr

end CraftIp
