import CraftIp.Properties.Splitting
import CraftIp.Properties.Stream

/-!
# Frames in proxy mode

Once the protocol of a connection is settled to be the proxy's, every frame is left to
`decode_proxy`, and how the stream is cut into reads does not matter.

* `frame_of_proxy` — the codec takes a frame whole, whatever follows it, and waits for a part
* `proxy_segmentation` — so each packet is returned by the read that completes its frame
-/

namespace CraftIp

open Infra Spec

variable {bincode : Codec SocketPacket} {codec : PacketCodec}

/-- **In proxy mode the frame of a packet is a frame of the codec.** -/
theorem frame_of_proxy {version : UInt32} (hc : codec.protocol = .Proxy version) {p : SocketPacket}
    {f : Bytes} (hf : FrameOf bincode f p) : Frame bincode codec f p := by
  obtain ⟨b, hb, hlen, rfl⟩ := hf.bytes
  have hne : frameBytes b ≠ [] := frameBytes_ne_nil b
  have hafter : codec.after p = codec := by rw [PacketCodec.after, hc]
  refine ⟨hne, ?_, ?_⟩
  · intro t
    rw [decode_eq codec (by simp [hne]), hc, reading, frame_frameBytes hb hlen, answer, hafter]
  · intro s t hs ht
    by_cases hnil : s = []
    · rw [hnil]
      exact decode_nil codec
    · have hwhole := frame_frameBytes hb hlen []
      rw [hs] at hwhole
      rw [decode_eq codec hnil, hc, reading, frame_of_framePart ht hwhole, answer]

theorem frames_of_proxy {version : UInt32} (hc : codec.protocol = .Proxy version)
    {ps : List SocketPacket} {frames : List Bytes}
    (hf : List.Forall₂ (FrameOf bincode) frames ps) :
    List.Forall₂ (Frame bincode codec) frames ps :=
  hf.imp fun _ _ h => frame_of_proxy hc h

/-- A packet has arrived when the last byte of its frame has. -/
theorem lt_arrived_iff : ∀ (fs : List Bytes) (i n : Nat),
    i < arrived fs n ↔ i < fs.length ∧ (fs.take (i + 1)).flatten.length ≤ n := by
  intro fs
  induction fs with
  | nil => intro i n; simp [arrived]
  | cons f fs ih =>
    intro i n
    by_cases h : f.length ≤ n
    · rw [arrived_cons_of_le h]
      cases i with
      | zero => simp [h]
      | succ i =>
        rw [Nat.add_lt_add_iff_right, ih, List.length_cons, Nat.add_lt_add_iff_right,
          List.take_succ_cons, List.flatten_cons, List.length_append]
        omega
    · rw [arrived_cons_of_lt (by omega), List.take_succ_cons, List.flatten_cons, List.length_append]
      omega

/--
A receiver is up to date with the first `n` bytes of the frames.

Packet `i` has been returned exactly when these bytes include its whole frame, and nothing
else was. The codec waits for more, and has not failed.
-/
structure UpToDate (bincode : Codec SocketPacket) (ps : List SocketPacket) (frames : List Bytes)
    (n : Nat) (r : Receiver) : Prop where
  inOrder : r.packets <+: ps
  returned : ∀ i, i < r.packets.length ↔
    i < ps.length ∧ (frames.take (i + 1)).flatten.length ≤ n
  waits : (r.codec.decode bincode r.buf).1 = .ok none
  failed : r.failed = none

theorem upToDate_seen {fs : List Bytes} {ps : List SocketPacket}
    (h : List.Forall₂ (Frame bincode codec) fs ps) {s : Bytes} (hpre : s <+: fs.flatten) :
    UpToDate bincode ps fs s.length (Receiver.seen codec fs ps s) where
  inOrder := List.take_prefix _ _
  returned i := by
    rw [← h.length_eq, ← lt_arrived_iff, Receiver.seen, List.length_take, ← h.length_eq]
    have hle := (lt_arrived_iff fs i s.length).mp
    omega
  waits := Receiver.seen_waits h hpre
  failed := rfl

/--
**Framing in proxy mode does not depend on how the stream is cut into reads.**

After all of them the packets are there in order and the buffer is empty, and after each of
them the receiver is up to date.
-/
theorem proxy_segmentation (bincode : Codec SocketPacket) (codec : PacketCodec) (version : UInt32)
    (hc : codec.protocol = .Proxy version) (ps : List SocketPacket) (frames : List Bytes)
    (hframes : List.Forall₂ (FrameOf bincode) frames ps) (chunks : List Bytes)
    (hchunks : chunks.flatten = frames.flatten) :
    Receiver.readAll bincode (.new codec) chunks = ⟨codec, [], ps, none⟩ ∧
      ∀ n, UpToDate bincode ps frames (chunks.take n).flatten.length
        (Receiver.readAll bincode (.new codec) (chunks.take n)) := by
  have hread := frames_of_proxy hc hframes
  constructor
  · rw [Receiver.readAll_new hread (hchunks ▸ List.prefix_rfl), hchunks, Receiver.seen_all hread]
  · intro n
    have hpre : (chunks.take n).flatten <+: frames.flatten := by
      rw [← hchunks]
      exact ⟨(chunks.drop n).flatten, by rw [← List.flatten_append, List.take_append_drop]⟩
    rw [Receiver.readAll_new hread hpre]
    exact upToDate_seen hread hpre

/-- Two packets, cut inside the second frame's length. -/
theorem proxy_segmentation_two :
    Receiver.readAll SocketPacket.bincode (.new ⟨8192, .Proxy 1⟩)
        [frameBytes (leBytes 4 6 ++ [7, 0]) ++ [0], [6, 11, 0], [], [0, 0, 3, 0]]
      = ⟨⟨8192, .Proxy 1⟩, [], [.ProxyJoin 7, .ProxyPing 3], none⟩ :=
  (proxy_segmentation SocketPacket.bincode ⟨8192, .Proxy 1⟩ 1 rfl [.ProxyJoin 7, .ProxyPing 3]
    [frameBytes (leBytes 4 6 ++ [7, 0]), frameBytes (leBytes 4 11 ++ [3, 0])]
    (.cons (frameOf_bytes (bincode_encode rfl) (by decide))
      (.cons (frameOf_bytes (bincode_encode rfl) (by decide)) .nil)) _ (by decide)).1

end CraftIp
