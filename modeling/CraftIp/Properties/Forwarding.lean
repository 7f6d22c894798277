import CraftIp.Properties.Splitting

/-!
# What the server forwards of a Minecraft connection

The server hands on the data of the hello and of every data packet behind it. When these
data together are what was taken off the stream, the real Minecraft server sees exactly the
bytes its client sent.

* `packetOf_exact` — the parsers of `minecraft.rs` put what they take into the hello
* `takenAll_mc` — behind a hello everything that arrives is data
* `forwarded_iff` — so the bytes are the client's, unless the hello came in a frame
-/

namespace CraftIp

open Infra Spec

variable {bincode : Codec SocketPacket} {codec : PacketCodec} {s r : Bytes}

/-! ## The packets and the bytes they take -/

namespace Receiver

variable (bincode : Codec SocketPacket)

/-- The packets that `drain` yields, each with the number of bytes it takes off the buffer. -/
def taken : Nat → Receiver → List (SocketPacket × Nat)
  | 0, _ => []
  | rounds + 1, r =>
    match r.codec.decode bincode r.buf with
    | (.ok (some p), codec, buf) =>
      (p, r.buf.length - buf.length)
        :: taken rounds { r with codec := codec, buf := buf, packets := r.packets ++ [p] }
    | _ => []

/-- The packets of one read. -/
def takenRead (r : Receiver) (chunk : Bytes) : List (SocketPacket × Nat) :=
  if r.failed.isSome then []
  else taken bincode (r.buf ++ chunk).length { r with buf := r.buf ++ chunk }

/-- The packets of reads in a row. -/
def takenAll (r : Receiver) : List Bytes → List (SocketPacket × Nat)
  | [] => []
  | chunk :: chunks => takenRead bincode r chunk ++ takenAll (read bincode r chunk) chunks

variable {bincode}

/-- One round of decoding, by what the codec returns. -/
theorem round_some {r : Receiver} {n : Nat} {p : SocketPacket} {codec : PacketCodec} {buf : Bytes}
    (h : r.codec.decode bincode r.buf = (.ok (some p), codec, buf)) :
    drain bincode (n + 1) r
        = drain bincode n { r with codec := codec, buf := buf, packets := r.packets ++ [p] } ∧
      taken bincode (n + 1) r = (p, r.buf.length - buf.length)
        :: taken bincode n { r with codec := codec, buf := buf, packets := r.packets ++ [p] } := by
  constructor <;> simp only [drain, taken, h]

theorem round_none {r : Receiver} {n : Nat} {codec : PacketCodec} {buf : Bytes}
    (h : r.codec.decode bincode r.buf = (.ok none, codec, buf)) :
    drain bincode (n + 1) r = { r with codec := codec, buf := buf } ∧
      taken bincode (n + 1) r = [] := by
  constructor <;> simp only [drain, taken, h]

theorem round_error {r : Receiver} {n : Nat} {e : Fault} {codec : PacketCodec} {buf : Bytes}
    (h : r.codec.decode bincode r.buf = (.error e, codec, buf)) :
    drain bincode (n + 1) r = { r with codec := codec, buf := buf, failed := some e } ∧
      taken bincode (n + 1) r = [] := by
  constructor <;> simp only [drain, taken, h]

theorem takenAll_failed (chunks : List Bytes) {r : Receiver} (h : r.failed.isSome = true) :
    takenAll bincode r chunks = [] := by
  induction chunks with
  | nil => rfl
  | cons chunk chunks ih =>
    rw [takenAll, takenRead, if_pos h, read, if_pos h, ih]
    rfl

end Receiver

/-! ## Behind a hello -/

/-- What the server hands on of a packet. -/
def forwarded : SocketPacket → Bytes
  | .MCHello h => h.data
  | .MCData d => d.data
  | _ => []

/-- Everything in the buffer, as one packet. -/
def dataOf (buf : Bytes) : List (SocketPacket × Nat) :=
  if buf = [] then [] else [(.MCData ⟨buf⟩, buf.length)]

theorem drain_nil (bincode : Codec SocketPacket) (n : Nat) (codec : PacketCodec)
    (ps : List SocketPacket) :
    Receiver.drain bincode n ⟨codec, [], ps, none⟩ = ⟨codec, [], ps, none⟩ ∧
      Receiver.taken bincode n ⟨codec, [], ps, none⟩ = [] := by
  cases n with
  | zero => exact ⟨rfl, rfl⟩
  | succ n => exact Receiver.round_none (decode_nil codec)

/-- In data mode a round takes all that is there. -/
theorem drain_mc (bincode : Codec SocketPacket) {version : UInt32}
    (hc : codec.protocol = .MC version) {n : Nat} {buf : Bytes} (ps : List SocketPacket)
    (hn : buf.length ≤ n) :
    (∃ ps', Receiver.drain bincode n ⟨codec, buf, ps, none⟩ = ⟨codec, [], ps', none⟩) ∧
      Receiver.taken bincode n ⟨codec, buf, ps, none⟩ = dataOf buf := by
  by_cases hbuf : buf = []
  · subst hbuf
    obtain ⟨hdrain, htaken⟩ := drain_nil bincode n codec ps
    exact ⟨⟨ps, hdrain⟩, htaken⟩
  · have hpos := List.length_pos_iff.mpr hbuf
    obtain ⟨n, rfl⟩ : ∃ m, n = m + 1 := ⟨n - 1, by omega⟩
    have hdecode : codec.decode bincode buf = (.ok (some (.MCData ⟨buf⟩)), codec, []) := by
      have hafter : codec.after (.MCData ⟨buf⟩) = codec := by rw [PacketCodec.after, hc]
      rw [decode_eq codec hbuf, hc, reading, answer, hafter]
    obtain ⟨hdrain, htaken⟩ := Receiver.round_some (n := n) (r := ⟨codec, buf, ps, none⟩) hdecode
    obtain ⟨hdrain', htaken'⟩ := drain_nil bincode n codec (ps ++ [.MCData ⟨buf⟩])
    rw [hdrain, htaken]
    refine ⟨⟨_, hdrain'⟩, ?_⟩
    rw [htaken', dataOf, if_neg hbuf]
    rfl

/-- The data of the packets behind a hello, and that they are nothing but data. -/
structure DataOnly (trace : List (SocketPacket × Nat)) (s : Bytes) : Prop where
  isData : ∀ v ∈ trace, ∃ d, v = (.MCData d, d.data.length)
  data : (trace.map fun v => forwarded v.1).flatten = s
  size : (trace.map Prod.snd).sum = s.length

theorem dataOnly_nil : DataOnly [] [] := ⟨by simp, rfl, rfl⟩

theorem dataOnly_dataOf (buf : Bytes) : DataOnly (dataOf buf) buf := by
  unfold dataOf
  split
  · next h => rw [h]; exact dataOnly_nil
  · exact ⟨by simp, by simp [forwarded], by simp⟩

theorem DataOnly.append {xs ys : List (SocketPacket × Nat)} {s t : Bytes} (hx : DataOnly xs s)
    (hy : DataOnly ys t) : DataOnly (xs ++ ys) (s ++ t) where
  isData v hv := by
    rcases List.mem_append.mp hv with h | h
    · exact hx.isData v h
    · exact hy.isData v h
  data := by rw [List.map_append, List.flatten_append, hx.data, hy.data]
  size := by rw [List.map_append, List.sum_append, hx.size, hy.size, List.length_append]

/-- **Behind a hello everything that arrives is data.** -/
theorem takenAll_mc (bincode : Codec SocketPacket) {version : UInt32}
    (hc : codec.protocol = .MC version) :
    ∀ (chunks : List Bytes) (ps : List SocketPacket),
      DataOnly (Receiver.takenAll bincode ⟨codec, [], ps, none⟩ chunks) chunks.flatten
  | [], _ => dataOnly_nil
  | chunk :: chunks, ps => by
    obtain ⟨⟨ps', hdrain⟩, htaken⟩ := drain_mc bincode hc ps (Nat.le_refl chunk.length)
    have hread : Receiver.read bincode ⟨codec, [], ps, none⟩ chunk = ⟨codec, [], ps', none⟩ :=
      hdrain
    have htrace : Receiver.takenRead bincode ⟨codec, [], ps, none⟩ chunk = dataOf chunk := htaken
    rw [Receiver.takenAll, hread, htrace, List.flatten_cons]
    exact (dataOnly_dataOf chunk).append (takenAll_mc bincode hc chunks ps')

/-! ## The first packet of a connection -/

/--
A connection whose first packet is a hello.

`pre` is what had arrived when the hello was taken off its front. Everything else is data.
-/
def HelloFirst (bincode : Codec SocketPacket) (s : Bytes) (h : MinecraftHelloPacket) (k : Nat)
    (rest : List (SocketPacket × Nat)) : Prop :=
  ∃ pre post r, s = pre ++ post ∧ firstPacket bincode pre = .ok (.MCHello h, r) ∧
    k = pre.length - r.length ∧ DataOnly rest (r ++ post)

theorem protocol_after_hello (hc : codec.protocol = .Unknown) (h : MinecraftHelloPacket) :
    (codec.after (.MCHello h)).protocol = .MC h.version.toUInt32 := by
  rw [PacketCodec.after, hc]
  rfl

/-- A hello, and behind it the data that had arrived with it. -/
theorem round_hello (hc : codec.protocol = .Unknown) {h : MinecraftHelloPacket} {n : Nat}
    (hd : codec.decode bincode s = (.ok (some (.MCHello h)), codec.after (.MCHello h), r))
    (hn : r.length ≤ n) :
    (∃ ps, Receiver.drain bincode (n + 1) ⟨codec, s, [], none⟩
        = ⟨codec.after (.MCHello h), [], ps, none⟩) ∧
      Receiver.taken bincode (n + 1) ⟨codec, s, [], none⟩
        = (.MCHello h, s.length - r.length) :: dataOf r := by
  obtain ⟨hdrain, htaken⟩ := Receiver.round_some (n := n) (r := ⟨codec, s, [], none⟩) hd
  obtain ⟨⟨ps, hrest⟩, hdata⟩ := drain_mc bincode (protocol_after_hello hc h) [.MCHello h] hn
  rw [hdrain, htaken, List.nil_append, hrest, hdata]
  exact ⟨⟨ps, rfl⟩, rfl⟩

theorem helloFirst_of_taken (hc : codec.protocol = .Unknown) {h : MinecraftHelloPacket} {k : Nat}
    {rest : List (SocketPacket × Nat)} (chunks : List Bytes) : ∀ buf : Bytes,
      Receiver.takenAll bincode ⟨codec, buf, [], none⟩ chunks = (.MCHello h, k) :: rest →
        HelloFirst bincode (buf ++ chunks.flatten) h k rest := by
  induction chunks with
  | nil =>
    intro buf htrace
    cases htrace
  | cons chunk chunks ih =>
    intro buf htrace
    rw [List.flatten_cons, ← List.append_assoc]
    rw [Receiver.takenAll] at htrace
    have hread : Receiver.read bincode ⟨codec, buf, [], none⟩ chunk
      = Receiver.drain bincode (buf ++ chunk).length ⟨codec, buf ++ chunk, [], none⟩ := rfl
    have htaken : Receiver.takenRead bincode ⟨codec, buf, [], none⟩ chunk
      = Receiver.taken bincode (buf ++ chunk).length ⟨codec, buf ++ chunk, [], none⟩ := rfl
    rw [hread, htaken] at htrace
    generalize buf ++ chunk = pre at htrace ⊢
    by_cases hpre : pre = []
    · subst hpre
      exact ih [] htrace
    · have hpos := List.length_pos_iff.mpr hpre
      obtain ⟨n, hn⟩ : ∃ n, pre.length = n + 1 := ⟨pre.length - 1, by omega⟩
      rw [hn] at htrace
      rcases hd : codec.decode bincode pre with ⟨e | _ | p, codec', r⟩
      · -- nothing is read after an error
        obtain ⟨hdrain, htaken⟩ := Receiver.round_error (n := n)
          (r := ⟨codec, pre, [], none⟩) hd
        rw [hdrain, htaken, Receiver.takenAll_failed chunks rfl] at htrace
        cases htrace
      · obtain ⟨hdrain, htaken⟩ := Receiver.round_none (n := n) (r := ⟨codec, pre, [], none⟩) hd
        obtain ⟨rfl, rfl⟩ := unchanged_of_none hd
        rw [hdrain, htaken] at htrace
        exact ih _ htrace
      · obtain ⟨-, hfirst, rfl⟩ := firstPacket_of_decode hc hd
        obtain rfl : p = .MCHello h := by
          rw [(Receiver.round_some (n := n) (r := ⟨codec, pre, [], none⟩) hd).2] at htrace
          injection htrace with hhead _
          exact congrArg Prod.fst hhead
        have hlt := (firstPacket_takes hfirst).2
        obtain ⟨⟨ps, hdrain⟩, htaken⟩ := round_hello hc (n := n) hd (by omega)
        rw [hdrain, htaken, List.cons_append] at htrace
        injection htrace with hhead htail
        have hrest := takenAll_mc bincode (protocol_after_hello hc h) chunks ps
        refine ⟨pre, chunks.flatten, r, rfl, hfirst, (congrArg Prod.snd hhead).symm, ?_⟩
        rw [← htail]
        exact (dataOnly_dataOf r).append hrest

/-! ## What a hello carries -/

/-- The parsers take fewer bytes than a 64-bit length can count. -/
theorem hello_size {f : MinecraftHelloPacket.Fields} (h : hello s = .ok (f, r)) :
    s.length - r.length < 2 ^ 64 := by
  obtain ⟨a, b, s, rfl⟩ := two_of_hello_ok h
  rw [hello_cons] at h
  split at h
  · have hsize := atMost_oldPing h
    omega
  · split at h
    · have hsize := atMost_oldConnect h
      omega
    · obtain ⟨pkgLength, -, hlen⟩ := modern_eq_ok h
      rw [hlen, asUsize]
      omega

/-- **The parsers put what they take into the hello**, and count it. -/
theorem packetOf_exact {c r : Bytes} {f : MinecraftHelloPacket.Fields}
    (h : hello (c ++ r) = .ok (f, r)) :
    (packetOf (c ++ r) f r).data = c ∧ (packetOf (c ++ r) f r).length.toNat = c.length := by
  have hlen : (c ++ r).length - r.length = c.length := by
    rw [List.length_append]
    omega
  have hsize := hello_size h
  rw [hlen] at hsize
  rw [packetOf, hlen]
  exact ⟨List.take_left, UInt64.toNat_ofNat_of_lt' hsize⟩

/-! ## Hellos in a frame -/

/--
The stream starts with a frame that holds a serialised hello.

`junk` is what else fits into the frame: `deserialize` does not look at it. The frame has a
length with which the parsers of `minecraft.rs` leave it to `decode_proxy`.
-/
def ForgedHello (bincode : Codec SocketPacket) (s : Bytes) : Prop :=
  ∃ h b junk rest, bincode.encode (.MCHello h) = some b ∧ s = frameBytes (b ++ junk) ++ rest ∧
    (b ++ junk).length ≤ 65535 ∧ ClearLength 0 (b ++ junk).length

theorem ForgedHello.append (h : ForgedHello bincode s) (t : Bytes) :
    ForgedHello bincode (s ++ t) := by
  obtain ⟨p, b, junk, rest, hb, rfl, hlen, hclear⟩ := h
  exact ⟨p, b, junk, rest ++ t, hb, List.append_assoc .., hlen, hclear⟩

/-- A serialised hello has tag 0, and is longer than its data. -/
theorem mcHello_payload {h : MinecraftHelloPacket} {b : Bytes}
    (hb : SocketPacket.bincode.encode (.MCHello h) = some b) :
    (∃ s, b = 0 :: 0 :: 0 :: 0 :: s) ∧ h.data.length ≤ b.length := by
  obtain ⟨fields, hf, rfl⟩ := bincode_eq_some hb
  refine ⟨⟨fields, leBytes_tag 0 fields⟩, ?_⟩
  obtain ⟨_, _, -, h₁, rfl⟩ := Codec.pair_eq_some (c := Codec.uint64) (d := Codec.int32.pair
    (Codec.int32.pair (Codec.string.pair (Codec.uint32.pair Codec.vec)))) hf
  obtain ⟨_, _, -, h₂, rfl⟩ := Codec.pair_eq_some h₁
  obtain ⟨_, _, -, h₃, rfl⟩ := Codec.pair_eq_some h₂
  obtain ⟨_, _, -, h₄, rfl⟩ := Codec.pair_eq_some h₃
  obtain ⟨_, _, -, h₅, rfl⟩ := Codec.pair_eq_some h₄
  have hdata : _ = 8 + h.data.length := Codec.vec_length h₅
  simp only [List.length_append]
  omega

theorem forged_of_frame (hb : FixintLayout bincode) (hcan : bincode.Canonical)
    {h : MinecraftHelloPacket} (hup : GivenUp s) (hframe : frame bincode s = .ok (.MCHello h, r)) :
    ForgedHello bincode s := by
  obtain ⟨hi, lo, blob, rfl, hlen, hd⟩ := frame_eq_ok hframe
  obtain ⟨⟨_, junk⟩, hdecode, rfl⟩ := Option.map_eq_some_iff.mp hd
  obtain ⟨b, henc, rfl⟩ := hcan hdecode
  have hlt := UInt8.toNat_lt hi
  have hlt' := UInt8.toNat_lt lo
  have hle : (b ++ junk).length ≤ 65535 := by omega
  have hframe : hi :: lo :: (b ++ junk ++ r) = frameBytes (b ++ junk) ++ r := by
    rw [frameBytes, hlen, be16_pair]
    rfl
  rw [hframe] at hup ⊢
  refine ⟨h, b, junk, r, henc, rfl, hle, ?_⟩
  by_contra hclear
  obtain ⟨⟨s, rfl⟩, -⟩ := mcHello_payload ((hb _).symm.trans henc)
  exact not_givenUp_frame (by decide) rfl hle hclear r hup

/-- **A forged hello is returned as the first packet**, and its data are not the frame. -/
theorem firstPacket_of_forged (hb : FixintLayout bincode) (hs : ForgedHello bincode s) :
    ∃ h r, firstPacket bincode s = .ok (.MCHello h, r) ∧ h.data.length + r.length < s.length := by
  obtain ⟨h, b, junk, rest, henc, rfl, hlen, hclear⟩ := hs
  obtain ⟨⟨s, hbytes⟩, hdata⟩ := mcHello_payload ((hb _).symm.trans henc)
  have hpayload : b ++ junk = 0 :: 0 :: 0 :: 0 :: (s ++ junk) := by
    rw [hbytes]
    rfl
  have hup := givenUp_frame (by decide) hpayload hlen hclear rest
  have hd : deserialize bincode (b ++ junk) = some (.MCHello h) := by
    rw [deserialize, bincode.decode_encode henc, Option.map_some]
  refine ⟨h, rest, ?_, ?_⟩
  · rw [firstPacket_of_givenUp hup, frameBytes, List.append_assoc, frame_be16 (by omega),
      if_neg (by rw [List.length_append]; omega), List.take_left, List.drop_left, hd]
  · simp only [List.length_append, frameBytes_length]
    omega

/-! ## Forwarding -/

/-- What the server forwards after these reads is what was taken off the stream. -/
def Forwards (s : Bytes) (trace : List (SocketPacket × Nat)) : Prop :=
  ∀ h k rest, trace = (.MCHello h, k) :: rest →
    h.length.toNat = k ∧ (∀ v ∈ rest, ∃ d, v.1 = .MCData d) ∧
      (trace.map fun v => forwarded v.1).flatten = s.take (trace.map Prod.snd).sum

theorem forwards_of_not_forged (hb : FixintLayout bincode) (hcan : bincode.Canonical)
    (hc : codec.protocol = .Unknown) {chunks : List Bytes}
    (hs : ¬ForgedHello bincode chunks.flatten) :
    Forwards chunks.flatten (Receiver.takenAll bincode (.new codec) chunks) := by
  intro h k rest htrace
  obtain ⟨pre, post, r, hsplit, hfirst, rfl, hrest⟩ := helloFirst_of_taken hc chunks [] htrace
  rw [List.nil_append] at hsplit
  rcases firstPacket_eq_ok hfirst with ⟨f, hf, hp⟩ | ⟨hup, hframe⟩
  · obtain ⟨⟨c, rfl⟩, -⟩ := hello_takes hf
    injection hp with hp
    obtain ⟨hdata, hlength⟩ := packetOf_exact hf
    have hcount : (c ++ r).length - r.length = c.length := by
      rw [List.length_append]
      omega
    rw [htrace, hsplit, hcount]
    refine ⟨by rw [hp, hlength], ?_, ?_⟩
    · intro v hv
      obtain ⟨d, rfl⟩ := hrest.isData v hv
      exact ⟨d, rfl⟩
    · rw [List.map_cons, List.flatten_cons, hrest.data, List.map_cons, List.sum_cons, hrest.size,
        List.take_of_length_le (by simp only [List.length_append]; omega), List.append_assoc]
      show h.data ++ (r ++ post) = _
      rw [hp, hdata]
  · have hforged := forged_of_frame hb hcan hup hframe
    rw [hsplit] at hs
    exact absurd (hforged.append post) hs

/-- A forged hello that arrives in one read. -/
theorem not_forwards_of_forged (hb : FixintLayout bincode) (hc : codec.protocol = .Unknown)
    (hs : ForgedHello bincode s) :
    ¬Forwards s (Receiver.takenAll bincode (.new codec) [s]) := by
  obtain ⟨h, r, hfirst, hlt⟩ := firstPacket_of_forged hb hs
  have hne : s ≠ [] := List.length_pos_iff.mp (by omega)
  obtain ⟨n, hn⟩ : ∃ n, s.length = n + 1 := ⟨s.length - 1, by omega⟩
  have htaken := (round_hello hc (n := n) (decode_of_firstPacket hc hne hfirst) (by omega)).2
  have htrace : Receiver.takenAll bincode (.new codec) [s]
      = (.MCHello h, s.length - r.length) :: dataOf r := by
    have hread : Receiver.takenAll bincode (.new codec) [s]
      = Receiver.taken bincode s.length ⟨codec, s, [], none⟩ := List.append_nil _
    rw [hread, hn, htaken, hn]
  intro hall
  have hdata := (hall h _ _ htrace).2.2
  have hrestData := dataOnly_dataOf r
  rw [htrace, List.map_cons, List.flatten_cons, hrestData.data, List.map_cons, List.sum_cons,
    hrestData.size, List.take_of_length_le (by omega)] at hdata
  have hlen : (h.data ++ r).length = s.length := congrArg List.length hdata
  rw [List.length_append] at hlen
  omega

/--
**The server forwards what the client sent, unless the client's stream starts with a
serialised hello in a frame.**

Such a hello is taken for the packet of a Minecraft client, with the data it says it has.
-/
theorem forwarded_iff (bincode : Codec SocketPacket) (hb : FixintLayout bincode)
    (hcan : bincode.Canonical) (codec : PacketCodec) (hc : codec.protocol = .Unknown) (s : Bytes) :
    (∀ chunks : List Bytes, chunks.flatten = s →
        Forwards s (Receiver.takenAll bincode (.new codec) chunks)) ↔ ¬ForgedHello bincode s := by
  constructor
  · intro h hforged
    exact not_forwards_of_forged hb hc hforged (h [s] (by simp))
  · rintro h chunks rfl
    exact forwards_of_not_forged hb hcan hc h

/-- A handshake of six bytes, and more, in two reads. -/
theorem forwarded_handshake :
    Forwards [6, 0, 4, 0, 99, 221, 1, 2] (Receiver.takenAll SocketPacket.bincode (.new (.new 8192))
      [[6, 0, 4], [0, 99, 221, 1, 2]]) := by
  refine (forwarded_iff SocketPacket.bincode fixintLayout_bincode SocketPacket.canonical_bincode
    (.new 8192) rfl _).mpr ?_ _ rfl
  rintro ⟨h, b, junk, rest, henc, hs, -, hclear⟩
  obtain ⟨⟨s, rfl⟩, -⟩ := mcHello_payload henc
  have hs := hs.trans (frameBytes_eq (b := 0 :: 0 :: 0 :: 0 :: s ++ junk) rfl rest)
  -- the third byte is the tag
  injection hs with _ hs
  injection hs with _ hs
  injection hs with htag _
  cases htag

/-- The frame of a hello with nothing in it: 40 zeros. -/
theorem not_forwarded_zeros :
    ¬∀ chunks : List Bytes, chunks.flatten = 0 :: 40 :: List.replicate 40 0 →
      Forwards (0 :: 40 :: List.replicate 40 0)
        (Receiver.takenAll SocketPacket.bincode (.new (.new 8192)) chunks) := by
  have henc : SocketPacket.bincode.encode (.MCHello ⟨0, 0, 0, "", 0, []⟩)
      = some (List.replicate 40 0) := bincode_encode rfl
  have hforged : ForgedHello SocketPacket.bincode (0 :: 40 :: List.replicate 40 0) :=
    ⟨_, _, [], [], henc, rfl, by decide, by decide⟩
  intro h
  exact not_forwards_of_forged fixintLayout_bincode rfl hforged (h [_] (List.append_nil _))

end CraftIp
