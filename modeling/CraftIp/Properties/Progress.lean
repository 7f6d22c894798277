import CraftIp.Properties.Splitting

/-!
# What a call of the decoder leaves behind

* `decode_progress` — a call without a packet leaves the buffer and the protocol as they
  were, a call with one takes at least a byte, and so there are no more packets than bytes

A last call sees the end of the packets, so there may be one call more than there are bytes
(`one_more_call`).
-/

namespace CraftIp

open Infra Spec

variable {bincode : Codec SocketPacket} {codec codec' : PacketCodec} {buf r : Bytes}

/-! ## One call -/

theorem PacketCodec.after_of_settled (h : codec.protocol ≠ .Unknown) (p : SocketPacket) :
    codec.after p = codec := by
  unfold after
  split
  · next hu => exact absurd hu h
  · rfl

/-- Every parser takes at least one byte off the front. -/
theorem reading_takes {protocol : Protocol} {p : SocketPacket} (hbuf : buf ≠ [])
    (h : reading bincode protocol buf = .ok (p, r)) : ∃ c, c ≠ [] ∧ buf = c ++ r := by
  have hcut (htakes : (∃ c, buf = c ++ r) ∧ r.length < buf.length) :
      ∃ c, c ≠ [] ∧ buf = c ++ r := by
    obtain ⟨⟨c, rfl⟩, hlt⟩ := htakes
    refine ⟨c, ?_, rfl⟩
    intro hnil
    rw [hnil] at hlt
    exact Nat.lt_irrefl _ hlt
  cases protocol with
  | Unknown => exact hcut (firstPacket_takes h)
  | MC version => cases h; exact ⟨buf, hbuf, (List.append_nil buf).symm⟩
  | Proxy version =>
    refine hcut ⟨local_frame.takes_front h, ?_⟩
    obtain ⟨hi, lo, b, rfl, -⟩ := frame_eq_ok h
    simp only [List.length_cons, List.length_append]
    omega

/-- What a call of `decode` can do. -/
inductive Decoded (bincode : Codec SocketPacket) (codec : PacketCodec) (buf : Bytes) :
    Outcome (Option SocketPacket) → PacketCodec → Bytes → Prop
  | packet {p c r} (hc : c ≠ []) (hbuf : buf = c ++ r) :
      Decoded bincode codec buf (.ok (some p)) (codec.after p) r
  | none : Decoded bincode codec buf (.ok none) codec buf
  | error {e} : Decoded bincode codec buf (.error e) codec buf

theorem decode_cases (bincode : Codec SocketPacket) (codec : PacketCodec) (buf : Bytes) :
    Decoded bincode codec buf (codec.decode bincode buf).1 (codec.decode bincode buf).2.1
      (codec.decode bincode buf).2.2 := by
  by_cases hbuf : buf = []
  · rw [hbuf, decode_nil]
    exact .none
  · rw [decode_eq codec hbuf]
    cases h : reading bincode codec.protocol buf with
    | ok v =>
      obtain ⟨p, r⟩ := v
      obtain ⟨c, hc, heq⟩ := reading_takes hbuf h
      exact .packet hc heq
    | error e =>
      cases e with
      | TooSmall => exact .none
      | _ => exact .error

/-- What a call leaves behind, in every state and on every buffer. -/
structure DecodeEffect (bincode : Codec SocketPacket) (codec : PacketCodec) (buf : Bytes) : Prop where
  unchanged : (∀ p, (codec.decode bincode buf).1 ≠ .ok (some p)) →
    (codec.decode bincode buf).2 = (codec, buf)
  takes : ∀ p, (codec.decode bincode buf).1 = .ok (some p) →
    ∃ c, c ≠ [] ∧ buf = c ++ (codec.decode bincode buf).2.2
  settled : codec.protocol ≠ .Unknown → (codec.decode bincode buf).2.1 = codec

theorem decodeEffect (bincode : Codec SocketPacket) (codec : PacketCodec) (buf : Bytes) :
    DecodeEffect bincode codec buf := by
  have h := decode_cases bincode codec buf
  generalize hout : codec.decode bincode buf = out at h
  obtain ⟨result, codec', r⟩ := out
  refine ⟨fun hnone => ?_, fun p hp => ?_, fun hs => ?_⟩ <;> rw [hout] at *
  · cases h with
    | packet => exact absurd rfl (hnone _)
    | none => rfl
    | error => rfl
  · cases h with
    | packet hc hbuf => exact ⟨_, hc, hbuf⟩
    | none => cases hp
    | error => cases hp
  · cases h with
    | packet => exact codec.after_of_settled hs _
    | none => rfl
    | error => rfl

/-! ## Call after call -/

/-- `decode` returns `n` packets in a row, and none at the call after them. -/
inductive Yields (bincode : Codec SocketPacket) : PacketCodec → Bytes → Nat → Prop
  | stop {codec : PacketCodec} {buf : Bytes}
      (h : ∀ p, (codec.decode bincode buf).1 ≠ .ok (some p)) : Yields bincode codec buf 0
  | packet {codec codec' : PacketCodec} {buf r : Bytes} {p : SocketPacket} {n : Nat}
      (h : codec.decode bincode buf = (.ok (some p), codec', r))
      (hn : Yields bincode codec' r n) : Yields bincode codec buf (n + 1)

/-- A packet leaves less. -/
theorem length_lt_of_decode {p : SocketPacket}
    (h : codec.decode bincode buf = (.ok (some p), codec', r)) : r.length < buf.length := by
  obtain ⟨c, hc, hbuf⟩ : ∃ c, c ≠ [] ∧ buf = c ++ r := by
    have htakes := (decodeEffect bincode codec buf).takes p
    rw [h] at htakes
    exact htakes rfl
  have hpos := List.length_pos_iff.mpr hc
  rw [hbuf, List.length_append]
  omega

theorem Yields.le_length {n : Nat} (h : Yields bincode codec buf n) : n ≤ buf.length := by
  induction h with
  | stop => exact Nat.zero_le _
  | packet h _ ih => exact Nat.lt_of_le_of_lt ih (length_lt_of_decode h)

theorem exists_yields (bincode : Codec SocketPacket) (codec : PacketCodec) (buf : Bytes) :
    ∃ n, Yields bincode codec buf n := by
  induction hlen : buf.length using Nat.strongRecOn generalizing codec buf with
  | ind len ih =>
    subst hlen
    rcases h : codec.decode bincode buf with ⟨e | _ | p, codec', r⟩
    · exact ⟨0, .stop fun p hp => by rw [h] at hp; cases hp⟩
    · exact ⟨0, .stop fun p hp => by rw [h] at hp; cases hp⟩
    · obtain ⟨n, hn⟩ := ih _ (length_lt_of_decode h) codec' r rfl
      exact ⟨n + 1, .packet h hn⟩

/--
**A call without a packet changes nothing, and a call with one takes at least a byte.** So
decoding until there is no packet ends, after at most as many packets as there are bytes.
-/
theorem decode_progress (bincode : Codec SocketPacket) (codec : PacketCodec) (buf : Bytes) :
    DecodeEffect bincode codec buf ∧ ∃ n ≤ buf.length, Yields bincode codec buf n := by
  obtain ⟨n, hn⟩ := exists_yields bincode codec buf
  exact ⟨decodeEffect bincode codec buf, n, hn.le_length, hn⟩

/-- One byte of a Minecraft client: the first call returns it, and it takes a second one to stop. -/
theorem one_more_call : ∃ (codec : PacketCodec) (buf : Bytes),
    ∀ n, Yields SocketPacket.bincode codec buf n → ¬n + 1 ≤ buf.length := by
  refine ⟨⟨1024, .MC 0⟩, [0], ?_⟩
  intro n h
  cases h with
  | stop h => exact absurd rfl (h (.MCData ⟨[0]⟩))
  | packet h hn => simp

end CraftIp
