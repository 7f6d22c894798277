import CraftIp.Shared.PacketCodec
import Mathlib.Data.List.Forall2

/-!
# Reading a stream of frames

`Frame codec f p` says that the codec, in its present state, takes the bytes `f` for the
packet `p` whatever follows them, and waits while only a part of them is there.

`readAll_seen` is what that gives for a whole connection: however the stream is cut into
reads, exactly the packets whose frames have arrived are yielded.
-/

namespace CraftIp

open Infra

variable {bincode : Codec SocketPacket} {codec : PacketCodec}

/-- The codec reads the bytes `f` as the packet `p`, and stays as it is. -/
structure Frame (bincode : Codec SocketPacket) (codec : PacketCodec) (f : Bytes)
    (p : SocketPacket) : Prop where
  nonempty : f ≠ []
  whole : ∀ t, codec.decode bincode (f ++ t) = (.ok (some p), codec, t)
  part : ∀ s t, f = s ++ t → t ≠ [] → codec.decode bincode s = (.ok none, codec, s)

/-! ## How many frames have arrived -/

/-- The number of frames that are complete within the first `n` bytes. -/
def arrived : List Bytes → Nat → Nat
  | [], _ => 0
  | f :: fs, n => if f.length ≤ n then arrived fs (n - f.length) + 1 else 0

/-- The bytes of these frames. -/
def arrivedBytes (fs : List Bytes) (n : Nat) : Nat := (fs.take (arrived fs n)).flatten.length

theorem arrived_cons_of_le {f : Bytes} {fs : List Bytes} {n : Nat} (h : f.length ≤ n) :
    arrived (f :: fs) n = arrived fs (n - f.length) + 1 := if_pos h

theorem arrived_cons_of_lt {f : Bytes} {fs : List Bytes} {n : Nat} (h : n < f.length) :
    arrived (f :: fs) n = 0 := if_neg (by omega)

theorem arrivedBytes_cons_of_le {f : Bytes} {fs : List Bytes} {n : Nat} (h : f.length ≤ n) :
    arrivedBytes (f :: fs) n = f.length + arrivedBytes fs (n - f.length) := by
  rw [arrivedBytes, arrived_cons_of_le h, List.take_succ_cons, List.flatten_cons,
    List.length_append, arrivedBytes]

theorem arrivedBytes_cons_of_lt {f : Bytes} {fs : List Bytes} {n : Nat} (h : n < f.length) :
    arrivedBytes (f :: fs) n = 0 := by
  rw [arrivedBytes, arrived_cons_of_lt h]
  rfl

theorem arrivedBytes_le (fs : List Bytes) (n : Nat) : arrivedBytes fs n ≤ n := by
  induction fs generalizing n with
  | nil => exact Nat.zero_le n
  | cons f fs ih =>
    by_cases h : f.length ≤ n
    · have hrest := ih (n - f.length)
      rw [arrivedBytes_cons_of_le h]
      omega
    · rw [arrivedBytes_cons_of_lt (by omega)]
      exact Nat.zero_le n

/-- Behind the frames that have arrived, no other one has. -/
theorem arrived_rest (fs : List Bytes) (n : Nat) :
    arrived (fs.drop (arrived fs n)) (n - arrivedBytes fs n) = 0 := by
  induction fs generalizing n with
  | nil => simp [arrived]
  | cons f fs ih =>
    by_cases h : f.length ≤ n
    · rw [arrived_cons_of_le h, arrivedBytes_cons_of_le h, List.drop_succ_cons, ← Nat.sub_sub]
      exact ih (n - f.length)
    · rw [arrivedBytes_cons_of_lt (by omega), arrived_cons_of_lt (by omega)]
      exact arrived_cons_of_lt (by omega)

/-- Counting on from the frames that have arrived. -/
theorem arrived_add (fs : List Bytes) (n m : Nat) :
    arrived fs (n + m)
      = arrived fs n + arrived (fs.drop (arrived fs n)) (n - arrivedBytes fs n + m) := by
  induction fs generalizing n with
  | nil => simp [arrived]
  | cons f fs ih =>
    by_cases h : f.length ≤ n
    · rw [arrived_cons_of_le h, arrivedBytes_cons_of_le h, List.drop_succ_cons, ← Nat.sub_sub,
        arrived_cons_of_le (by omega), show n + m - f.length = n - f.length + m from by omega, ih]
      omega
    · rw [arrivedBytes_cons_of_lt (by omega), arrived_cons_of_lt (n := n) (by omega),
        List.drop_zero, Nat.sub_zero, Nat.zero_add]

theorem arrivedBytes_add (fs : List Bytes) (n m : Nat) :
    arrivedBytes fs (n + m)
      = arrivedBytes fs n
        + arrivedBytes (fs.drop (arrived fs n)) (n - arrivedBytes fs n + m) := by
  rw [arrivedBytes, arrived_add, List.take_add, List.flatten_append, List.length_append]
  rfl

theorem arrived_append (n : Nat) (fs gs : List Bytes) :
    arrived (fs ++ gs) (fs.flatten.length + n) = fs.length + arrived gs n := by
  induction fs with
  | nil => simp
  | cons f fs ih =>
    rw [List.cons_append, List.flatten_cons, List.length_append, arrived_cons_of_le (by omega),
      show f.length + fs.flatten.length + n - f.length = fs.flatten.length + n from by omega,
      ih, List.length_cons]
    omega

/-- All frames arrive with the last byte. -/
theorem arrived_all (fs : List Bytes) : arrived fs fs.flatten.length = fs.length := by
  simpa [arrived] using arrived_append 0 fs []

theorem arrived_zero {fs : List Bytes} {ps : List SocketPacket}
    (h : List.Forall₂ (Frame bincode codec) fs ps) : arrived fs 0 = 0 := by
  cases h with
  | nil => rfl
  | cons hf _ => exact arrived_cons_of_lt (List.length_pos_iff.mpr hf.nonempty)

/-! ## Decoding what has arrived -/

namespace Receiver

/-- A prefix of a stream holds the first frame or is a part of it. -/
theorem prefix_cases {buf f rest : Bytes} (h : buf <+: f ++ rest) :
    (∃ t, buf = f ++ t ∧ t <+: rest) ∨ ∃ t, f = buf ++ t ∧ t ≠ [] := by
  obtain ⟨u, hu⟩ := h
  rcases List.append_eq_append_iff.mp hu with ⟨t, hf, -⟩ | ⟨t, hbuf, hrest⟩
  · cases t with
    | nil =>
      rw [List.append_nil] at hf
      exact Or.inl ⟨[], by rw [hf, List.append_nil], List.nil_prefix⟩
    | cons b t => exact Or.inr ⟨b :: t, hf, by simp⟩
  · exact Or.inl ⟨t, hbuf, ⟨u, hrest.symm⟩⟩

/-- Decoding a prefix of the stream yields the packets that have arrived. -/
theorem drain_frames {fs : List Bytes} {ps : List SocketPacket}
    (h : List.Forall₂ (Frame bincode codec) fs ps) :
    ∀ (rounds : Nat) (buf : Bytes) (packets : List SocketPacket), buf.length ≤ rounds →
      buf <+: fs.flatten →
      drain bincode rounds ⟨codec, buf, packets, none⟩
        = ⟨codec, buf.drop (arrivedBytes fs buf.length),
            packets ++ ps.take (arrived fs buf.length), none⟩ := by
  induction h with
  | nil =>
    intro rounds buf packets _ hbuf
    obtain rfl : buf = [] := List.prefix_nil.mp hbuf
    cases rounds <;> simp [drain, PacketCodec.decode, arrived]
  | @cons f p fs ps hf hfs ih =>
    intro rounds buf packets hrounds hbuf
    rw [List.flatten_cons] at hbuf
    rcases prefix_cases hbuf with ⟨t, rfl, ht⟩ | ⟨t, rfl, ht⟩
    · have hlen : f.length ≤ (f ++ t).length := by rw [List.length_append]; omega
      have hpos := List.length_pos_iff.mpr hf.nonempty
      rw [List.length_append] at hrounds
      obtain ⟨rounds, rfl⟩ : ∃ n, rounds = n + 1 := ⟨rounds - 1, by omega⟩
      rw [drain]
      simp only [hf.whole t]
      rw [ih rounds t (packets ++ [p]) (by omega) ht, arrived_cons_of_le hlen,
        arrivedBytes_cons_of_le hlen, List.length_append, Nat.add_sub_cancel_left, ← List.drop_drop,
        List.drop_left, List.take_succ_cons, List.append_assoc, List.singleton_append]
    · have hlt : buf.length < (buf ++ t).length := by
        have := List.length_pos_iff.mpr ht
        rw [List.length_append]
        omega
      rw [arrivedBytes_cons_of_lt hlt, arrived_cons_of_lt hlt, List.drop_zero, List.take_zero,
        List.append_nil]
      cases rounds with
      | zero => rfl
      | succ rounds =>
        rw [drain]
        simp only [hf.part buf t rfl ht]

/-- Packets that were yielded stay yielded. -/
theorem drain_packets (rounds : Nat) (r : Receiver) :
    r.packets <+: (drain bincode rounds r).packets := by
  induction rounds generalizing r with
  | zero => exact List.prefix_rfl
  | succ rounds ih =>
    rw [drain]
    split
    · next p codec buf _ =>
      have hrest := ih { r with codec, buf, packets := r.packets ++ [p] }
      exact (List.prefix_append _ _).trans hrest
    · exact List.prefix_rfl
    · exact List.prefix_rfl

theorem prefix_drop {s rest l : Bytes} {n : Nat} (hn : n ≤ s.length) (h : s ++ rest <+: l) :
    s.drop n ++ rest <+: l.drop n := by
  obtain ⟨u, rfl⟩ := h
  refine ⟨u, ?_⟩
  rw [List.append_assoc s, List.drop_append_of_le_length hn, List.append_assoc]

theorem flatten_drop_take (fs : List Bytes) (k : Nat) :
    fs.flatten.drop (fs.take k).flatten.length = (fs.drop k).flatten := by
  conv_lhs => rw [← List.take_append_drop k fs, List.flatten_append]
  rw [List.take_append_drop, List.drop_left]

/-- The receiver when the bytes `s` of the stream have arrived, however they were cut. -/
def seen (codec : PacketCodec) (fs : List Bytes) (ps : List SocketPacket) (s : Bytes) : Receiver :=
  { codec := codec, buf := s.drop (arrivedBytes fs s.length),
    packets := ps.take (arrived fs s.length), failed := none }

theorem seen_nil {fs : List Bytes} {ps : List SocketPacket}
    (h : List.Forall₂ (Frame bincode codec) fs ps) : seen codec fs ps [] = new codec := by
  rw [seen, List.drop_nil, List.length_nil, arrived_zero h]
  rfl

/-- **One read takes the receiver from what had arrived to what has arrived now.** -/
theorem read_seen {fs : List Bytes} {ps : List SocketPacket}
    (h : List.Forall₂ (Frame bincode codec) fs ps) {s chunk : Bytes}
    (hpre : s ++ chunk <+: fs.flatten) :
    read bincode (seen codec fs ps s) chunk = seen codec fs ps (s ++ chunk) := by
  have hle := arrivedBytes_le fs s.length
  have hrest := prefix_drop hle hpre
  rw [arrivedBytes, flatten_drop_take, ← arrivedBytes] at hrest
  have hlen : (s.drop (arrivedBytes fs s.length) ++ chunk).length
      = s.length - arrivedBytes fs s.length + chunk.length := by
    rw [List.length_append, List.length_drop]
  have hdrain := drain_frames (List.forall₂_drop (arrived fs s.length) h) _ _
    (ps.take (arrived fs s.length)) (Nat.le_refl _) hrest
  refine hdrain.trans ?_
  have hbytes := arrivedBytes_add fs s.length chunk.length
  have hcount := arrived_add fs s.length chunk.length
  rw [seen, hlen, List.length_append, hbytes, hcount, List.take_add, ← List.drop_drop,
    List.drop_append_of_le_length hle]

/-- **However a stream of frames is cut into reads, the packets that have arrived are yielded.** -/
theorem readAll_seen {fs : List Bytes} {ps : List SocketPacket}
    (h : List.Forall₂ (Frame bincode codec) fs ps) : ∀ (chunks : List Bytes) (s : Bytes),
    s ++ chunks.flatten <+: fs.flatten →
      readAll bincode (seen codec fs ps s) chunks = seen codec fs ps (s ++ chunks.flatten) := by
  intro chunks
  induction chunks with
  | nil =>
    intro s _
    rw [List.flatten_nil, List.append_nil]
    rfl
  | cons chunk chunks ih =>
    intro s hpre
    rw [List.flatten_cons, ← List.append_assoc] at hpre ⊢
    rw [readAll, List.foldl_cons, read_seen h ((List.prefix_append _ _).trans hpre)]
    exact ih (s ++ chunk) hpre

theorem readAll_append (r : Receiver) (xs ys : List Bytes) :
    readAll bincode r (xs ++ ys) = readAll bincode (readAll bincode r xs) ys :=
  List.foldl_append

theorem readAll_new {fs : List Bytes} {ps : List SocketPacket}
    (h : List.Forall₂ (Frame bincode codec) fs ps) {chunks : List Bytes}
    (hpre : chunks.flatten <+: fs.flatten) :
    readAll bincode (.new codec) chunks = seen codec fs ps chunks.flatten := by
  rw [← seen_nil h, readAll_seen h chunks [] hpre, List.nil_append]

/-- At the end of the stream all packets are there, and the buffer is empty. -/
theorem seen_all {fs : List Bytes} {ps : List SocketPacket}
    (h : List.Forall₂ (Frame bincode codec) fs ps) :
    seen codec fs ps fs.flatten = ⟨codec, [], ps, none⟩ := by
  rw [seen, arrivedBytes, arrived_all, List.take_length, List.drop_length, h.length_eq,
    List.take_length]

/-- A part of the first frame makes the codec wait. -/
theorem decode_part {fs : List Bytes} {ps : List SocketPacket}
    (h : List.Forall₂ (Frame bincode codec) fs ps) {buf : Bytes} (hpre : buf <+: fs.flatten)
    (hnone : arrived fs buf.length = 0) : (codec.decode bincode buf).1 = .ok none := by
  cases h with
  | nil =>
    obtain rfl : buf = [] := List.prefix_nil.mp hpre
    rfl
  | @cons f p fs ps hf hfs =>
    rw [List.flatten_cons] at hpre
    rcases prefix_cases hpre with ⟨t, rfl, -⟩ | ⟨t, rfl, ht⟩
    · rw [arrived_cons_of_le (by rw [List.length_append]; omega)] at hnone
      cases hnone
    · rw [hf.part buf t rfl ht]

/-- After a read the codec waits for the rest of a frame. -/
theorem seen_waits {fs : List Bytes} {ps : List SocketPacket}
    (h : List.Forall₂ (Frame bincode codec) fs ps) {s : Bytes} (hpre : s <+: fs.flatten) :
    (codec.decode bincode (seen codec fs ps s).buf).1 = .ok none := by
  have hle := arrivedBytes_le fs s.length
  have hwhole : s ++ [] <+: fs.flatten := by rwa [List.append_nil]
  have hrest := prefix_drop hle hwhole
  rw [List.append_nil, arrivedBytes, flatten_drop_take, ← arrivedBytes] at hrest
  refine decode_part (List.forall₂_drop (arrived fs s.length) h) hrest ?_
  rw [seen, List.length_drop]
  exact arrived_rest fs s.length

end Receiver

end CraftIp
