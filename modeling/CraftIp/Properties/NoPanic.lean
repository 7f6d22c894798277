import CraftIp.Properties.Decoding
import CraftIp.Shared.Checked

/-!
# The decoder does not panic

With the overflow checks in it the decoder does exactly what the model without them does
(`decode_checked`), so no check ever fails.

What a check needs is known where it stands: a position lies inside the buffer and a buffer is
shorter than `2 ^ 63`, a size was compared with the remaining bytes or has 16 bits, and the
shift of a varint stops after five groups.
-/

namespace CraftIp

open Infra Spec

variable {α β : Type}

/-! ## Arithmetic that fits -/

namespace Checked

theorem ok_bind (a : α) (f : α → Outcome β) : ((Except.ok a : Outcome α) >>= f) = f a := rfl

theorem addUsize_of_lt {a b : Nat} (h : a + b < 2 ^ 64) : addUsize a b = .ok (a + b) := if_pos h

theorem mulUsize_of_lt {a b : Nat} (h : a * b < 2 ^ 64) : mulUsize a b = .ok (a * b) := if_pos h

theorem index_of_getElem? {xs : Bytes} {i : Nat} {b : UInt8} (h : xs[i]? = some b) :
    index xs i = .ok b := by
  rw [index, h]

theorem sliceFrom_of_le {xs : Bytes} {n : Nat} (h : n ≤ xs.length) :
    sliceFrom xs n = .ok (xs.drop n) := if_pos h

/-- The shift of the `size`-th group. -/
theorem toInt_position {size : Nat} (h : size ≤ 5) :
    (Int32.ofNat (7 * size)).toInt = 7 * size := by
  rw [Int32.toInt_ofNat_of_lt (by omega)]
  rfl

theorem shlI32_position {size : Nat} (h : size < 5) (x : Int32) :
    shlI32 x (Int32.ofNat (7 * size)) = .ok (x <<< Int32.ofNat (7 * size)) := by
  have hposition := toInt_position (Nat.le_of_lt h)
  exact if_pos ⟨by omega, by omega⟩

theorem addI32_position {size : Nat} (h : size < 5) :
    addI32 (Int32.ofNat (7 * size)) 7 = .ok (Int32.ofNat (7 * (size + 1))) := by
  have hposition := toInt_position (Nat.le_of_lt h)
  have hseven : (7 : Int32).toInt = 7 := rfl
  rw [addI32, if_pos ⟨by omega, by omega⟩, position_succ]

/-! ## Varints -/

/-- An `Err` of the source, among the ways not to return `Ok`. -/
def raised (x : Except PacketError α) : Outcome α := x.mapError .error

/-- **The loop of `get_varint` reads inside the buffer and shifts by at most 28.** -/
theorem getVarintLoop_eq {buf : Bytes} {start : Nat} (hbuf : buf.length < 2 ^ 63)
    (hstart : start ≤ buf.length) : ∀ (left size : Nat) {value : Int32}, size + left = 5 →
      getVarintLoop buf start left size (Int32.ofNat (7 * size)) value
        = raised (CraftIp.getVarintLoop buf start left size (Int32.ofNat (7 * size)) value) := by
  intro left
  induction left with
  | zero => intro size value _; rfl
  | succ left ih =>
    intro size value h
    have hindex : addUsize size start = .ok (size + start) := addUsize_of_lt (by omega)
    have hsize : addUsize size 1 = .ok (size + 1) := addUsize_of_lt (by omega)
    rw [getVarintLoop, CraftIp.getVarintLoop, hindex, ok_bind]
    by_cases hlen : buf.length ≤ size + start
    · rw [if_pos hlen, List.getElem?_eq_none hlen]
      rfl
    · have hbyte : buf[size + start]? = some buf[size + start] :=
        List.getElem?_eq_getElem (by omega)
      rw [if_neg hlen, ok_bind, index_of_getElem? hbyte, ok_bind, shlI32_position (by omega),
        ok_bind, addI32_position (by omega), ok_bind, hsize, ok_bind, hbyte]
      simp only
      split
      · rfl
      · rw [position_succ]
        exact ih (size + 1) (by omega)

/-! ## The cursor methods -/

/-- A cursor inside a buffer. -/
structure Fits (c : CraftIp.Cursor) : Prop where
  pos : c.pos ≤ c.buf.length
  buf : c.buf.length < 2 ^ 63

/-- Both sides agree at this cursor when they agree step by step. -/
theorem bind_congr {m' m : CursorM α} {f' f : α → CursorM β} {c : CraftIp.Cursor}
    (hm : m' c = m c) (hf : ∀ a d, m c = .ok (a, d) → f' a d = f a d) :
    (m' >>= f') c = (m >>= f) c := by
  rw [CursorM.bind_apply, CursorM.bind_apply, hm]
  cases h : m c with
  | error e => rfl
  | ok v => exact hf v.1 v.2 h

/-- A check that holds. -/
theorem lift_bind {x : Outcome α} {a : α} (h : x = .ok a) (f : α → CursorM β)
    (c : CraftIp.Cursor) : ((liftM x : CursorM α) >>= f) c = f a c := by
  subst h
  rfl

theorem fits_new (buf : BytesMut) : Fits (.new buf.bytes) := ⟨Nat.zero_le _, buf.fits⟩

theorem failIf_ok {cond : Prop} [Decidable cond] {e : PacketError} {c d : CraftIp.Cursor} {u : Unit}
    (h : CraftIp.Cursor.failIf cond e c = .ok (u, d)) : d = c := by
  unfold CraftIp.Cursor.failIf at h
  split at h <;> cases h
  rfl

theorem throwErrorIfSmaller_ok {n : Nat} {c d : CraftIp.Cursor} {u : Unit}
    (h : CraftIp.Cursor.throwErrorIfSmaller n c = .ok (u, d)) : d = c ∧ n ≤ c.remaining := by
  unfold CraftIp.Cursor.throwErrorIfSmaller at h
  split at h
  · cases h
  · next hlt => cases h; exact ⟨rfl, by omega⟩

/-- A read moves the position by what it takes. -/
theorem Fits.getBytes {n : Nat} {f : Bytes → α} {c d : CraftIp.Cursor} {a : α} (hc : Fits c)
    (h : (CraftIp.Cursor.getBytes n >>= fun v => pure (f v)) c = .ok (a, d)) : Fits d := by
  rw [CursorM.bind_apply] at h
  unfold CraftIp.Cursor.getBytes CraftIp.Cursor.remaining at h
  have hpos := hc.pos
  split at h
  · cases h
  · next hv =>
    split at hv <;> cases hv
    cases h
    exact ⟨by simp only; omega, hc.buf⟩

/-- A comparison moves the position by the bytes that match. -/
theorem Fits.matchBytes {bytes : Bytes} {c d : CraftIp.Cursor} {b : Bool} (hc : Fits c)
    (h : CraftIp.Cursor.matchBytes bytes c = .ok (b, d)) :
    Fits d ∧ d.pos ≤ c.pos + bytes.length := by
  unfold CraftIp.Cursor.matchBytes CraftIp.Cursor.remaining at h
  have hpos := hc.pos
  split at h
  · cases h
    exact ⟨hc, Nat.le_add_right _ _⟩
  · split at h <;> cases h
    · exact ⟨hc, Nat.le_add_right _ _⟩
    · exact ⟨⟨by simp only; omega, hc.buf⟩, Nat.le_refl _⟩

theorem Fits.of_reads {m : CursorM α} {p : Reader PacketError α} {c d : CraftIp.Cursor} {a : α}
    (hc : Fits c) (h : Reads m p) (hm : m c = .ok (a, d)) : Fits d := by
  rw [h.run c hc.pos] at hm
  cases hp : p (c.buf.drop c.pos) with
  | error e => rw [atCursor_error hp] at hm; cases hm
  | ok v =>
    rw [atCursor_ok hp] at hm
    cases hm
    exact ⟨Nat.sub_le _ _, hc.buf⟩

namespace Cursor

theorem getVarint_eq {c : CraftIp.Cursor} (hc : Fits c) :
    Cursor.getVarint c = CraftIp.Cursor.getVarint c := by
  have hloop : Checked.getVarint c.buf c.pos = raised (CraftIp.getVarint c.buf c.pos) :=
    getVarintLoop_eq hc.buf hc.pos 5 0 rfl
  rw [Cursor.getVarint, CraftIp.Cursor.getVarint, hloop]
  cases hg : CraftIp.getVarint c.buf c.pos with
  | error e => rfl
  | ok v =>
    obtain ⟨value, n⟩ := v
    have hn : n ≤ 5 := by
      have hdrop := (getVarintLoop_drop c.buf c.pos 5 0 0 0).symm.trans hg
      obtain ⟨-, hle, -⟩ := getVarintLoop_ok _ _ _ _ hdrop
      omega
    have hpos := hc.pos
    have hbuf := hc.buf
    have hadd : addUsize c.pos n = .ok (c.pos + n) := addUsize_of_lt (by omega)
    show (addUsize c.pos n >>= fun pos => pure (value, { c with pos := pos })) = _
    rw [hadd]
    rfl

theorem getUtf8String_eq {c : CraftIp.Cursor} (hc : Fits c) :
    Cursor.getUtf8String c = CraftIp.Cursor.getUtf8String c := by
  refine bind_congr rfl ?_
  intro start c' hstart
  cases hstart
  refine bind_congr (getVarint_eq hc) ?_
  intro size d hsize
  have hd := hc.of_reads reads_getVarint hsize
  refine bind_congr rfl ?_
  intro _ d' hcheck
  obtain ⟨rfl, hle⟩ := throwErrorIfSmaller_ok hcheck
  have hadd : addUsize d'.pos (asUsize size) = .ok (d'.pos + asUsize size) := by
    have hpos := hd.pos
    have hbuf := hd.buf
    unfold CraftIp.Cursor.remaining at hle
    exact addUsize_of_lt (by omega)
  refine bind_congr rfl ?_
  intro pos e hpos
  cases hpos
  refine bind_congr rfl ?_
  intro pos e hpos
  cases hpos
  refine (lift_bind hadd _ _).trans (bind_congr rfl ?_)
  intro blob e hblob
  obtain rfl : e = d' := by
    unfold CraftIp.Cursor.slice at hblob
    split at hblob <;> cases hblob
    rfl
  refine bind_congr rfl ?_
  intro pos e' hpos
  cases hpos
  exact lift_bind hadd _ _

/-- Twice a `u16` always fits. -/
theorem getUtf16String_eq (c : CraftIp.Cursor) :
    Cursor.getUtf16String c = CraftIp.Cursor.getUtf16String c := by
  refine bind_congr rfl fun _ _ _ => bind_congr rfl fun _ _ _ => bind_congr rfl ?_
  intro size _ _
  have hmul : mulUsize size.toNat 2 = .ok (size.toNat * 2) := by
    have hlt := UInt16.toNat_lt size
    exact mulUsize_of_lt (by omega)
  exact bind_congr rfl fun _ _ _ =>
    (lift_bind hmul _ _).trans (bind_congr rfl fun _ _ _ => lift_bind hmul _ _)

/-- The loop of `match_bytes` compares as many bytes as it was given. -/
theorem matchLoop_eq {buf : Bytes} (hbuf : buf.length < 2 ^ 63) {pos : Nat} :
    ∀ {i : Nat} {bytes : Bytes}, pos + i + bytes.length ≤ buf.length →
      matchLoop buf pos i bytes = .ok (decide ((buf.drop (pos + i)).take bytes.length = bytes)) := by
  intro i bytes h
  induction bytes generalizing i with
  | nil => simp [matchLoop]
  | cons byte bytes ih =>
    rw [List.length_cons] at h
    have hadd : addUsize pos i = .ok (pos + i) := addUsize_of_lt (by omega)
    have hbyte : buf[pos + i]? = some buf[pos + i] := List.getElem?_eq_getElem (by omega)
    have hrest : matchLoop buf pos (i + 1) bytes
        = .ok (decide ((buf.drop (pos + (i + 1))).take bytes.length = bytes)) := ih (by omega)
    rw [matchLoop, hadd, ok_bind, index_of_getElem? hbyte, ok_bind,
      List.drop_eq_getElem_cons (by omega), List.length_cons, List.take_succ_cons]
    by_cases heq : buf[pos + i] = byte
    · rw [if_neg (not_not.mpr heq), hrest, heq]
      simp only [List.cons.injEq, true_and]
      rfl
    · rw [if_pos heq]
      simp only [List.cons.injEq, heq, false_and, decide_false]
      rfl

theorem matchBytes_eq (bytes : Bytes) {c : CraftIp.Cursor} (hc : Fits c) :
    Cursor.matchBytes bytes c = CraftIp.Cursor.matchBytes bytes c := by
  have hpos := hc.pos
  have hbuf := hc.buf
  rw [Cursor.matchBytes, CraftIp.Cursor.matchBytes]
  split
  · rfl
  · next hlt =>
    unfold CraftIp.Cursor.remaining at hlt
    have hadd : addUsize c.pos bytes.length = .ok (c.pos + bytes.length) :=
      addUsize_of_lt (by omega)
    rw [matchLoop_eq hbuf (i := 0) (by omega), ok_bind, hadd, Nat.add_zero]
    by_cases heq : (c.buf.drop c.pos).take bytes.length = bytes
    · rw [if_neg (not_not.mpr heq), if_pos (decide_eq_true heq)]
      rfl
    · rw [if_pos heq, if_neg (by simpa using heq)]
      rfl

end Cursor

/-! ## The parsers -/

open Checked.Cursor

/-- A decoded string has at most three times as many bytes as a `u16` counts units. -/
theorem utf8ByteSize_lt {c d : CraftIp.Cursor} {t : String} (hc : Fits c)
    (h : CraftIp.Cursor.getUtf16String c = .ok (t, d)) : t.utf8ByteSize < 2 ^ 18 := by
  rw [reads_getUtf16String.run c hc.pos] at h
  cases hp : utf16String (c.buf.drop c.pos) with
  | error e => rw [atCursor_error hp] at h; cases h
  | ok v =>
    obtain ⟨t', r⟩ := v
    rw [atCursor_ok hp] at h
    cases h
    have hunits := (utf16String_takes hp).1
    have hchars := length_le_encodeUtf16 t.toList
    have hbytes := utf8ByteSize_le t
    omega

namespace MinecraftHelloPacket

theorem oldPingFields_eq {c : CraftIp.Cursor} (hc : Fits c) (hstart : c.pos = 0) :
    oldPingFields c = CraftIp.MinecraftHelloPacket.oldPingFields c := by
  refine bind_congr (matchBytes_eq _ hc) ?_
  intro b d hmatch
  obtain ⟨hd, hpos⟩ := hc.matchBytes hmatch
  rw [hstart] at hpos
  refine bind_congr rfl ?_
  intro _ d' hfail
  obtain rfl := failIf_ok hfail
  refine bind_congr rfl ?_
  intro _ d hcheck
  obtain ⟨rfl, -⟩ := throwErrorIfSmaller_ok hcheck
  refine bind_congr rfl ?_
  intro pos e hposition
  cases hposition
  -- the magic bytes of the start are two of 27
  have hslice : sliceFrom OLD_MINECRAFT_START d.pos = .ok (OLD_MINECRAFT_START.drop d.pos) :=
    sliceFrom_of_le (Nat.le_trans hpos (by decide))
  refine (lift_bind hslice _ _).trans (bind_congr (matchBytes_eq _ hd) ?_)
  intro b e hmatch
  have he := (hd.matchBytes hmatch).1
  refine bind_congr rfl ?_
  intro _ e' hfail
  obtain rfl := failIf_ok hfail
  refine bind_congr rfl ?_
  intro restData e hrest
  have he := he.getBytes hrest
  refine bind_congr rfl ?_
  intro version e' hversion
  have he := he.getBytes hversion
  refine bind_congr (getUtf16String_eq _) ?_
  intro hostname e hhost
  have hsize := utf8ByteSize_lt he hhost
  have hmul : mulUsize hostname.utf8ByteSize 2 = .ok (hostname.utf8ByteSize * 2) :=
    mulUsize_of_lt (by omega)
  have hadd : addUsize 7 (hostname.utf8ByteSize * 2) = .ok (7 + hostname.utf8ByteSize * 2) :=
    addUsize_of_lt (by omega)
  exact (lift_bind hmul _ _).trans (lift_bind hadd _ _)

theorem oldConnectFields_eq {c : CraftIp.Cursor} (hc : Fits c) :
    oldConnectFields c = CraftIp.MinecraftHelloPacket.oldConnectFields c := by
  refine bind_congr (matchBytes_eq _ hc) ?_
  intro _ _ _
  refine bind_congr rfl fun _ _ _ => bind_congr rfl ?_
  intro _ _ _
  refine bind_congr rfl fun _ _ _ => bind_congr (getUtf16String_eq _) ?_
  intro _ _ _
  exact bind_congr (getUtf16String_eq _) fun _ _ _ => rfl

theorem newFields_eq {c : CraftIp.Cursor} (hc : Fits c) :
    newFields c = CraftIp.MinecraftHelloPacket.newFields c := by
  refine bind_congr (getVarint_eq hc) ?_
  intro pkgLength d hlength
  have hd := hc.of_reads reads_getVarint hlength
  refine bind_congr (getVarint_eq hd) ?_
  intro pkgId e hid
  have he := hd.of_reads reads_getVarint hid
  refine bind_congr rfl ?_
  intro _ e' hfail
  obtain rfl := failIf_ok hfail
  refine bind_congr (getVarint_eq he) ?_
  intro version d hversion
  have hd := he.of_reads reads_getVarint hversion
  exact bind_congr (getUtf8String_eq hd) fun _ _ _ => rfl

/-- A parser that fails leaves the buffer alone, so the next one sees the same bytes. -/
theorem new_eq (buf : BytesMut) : new buf.bytes = CraftIp.MinecraftHelloPacket.new buf.bytes := by
  have hfits := fits_new buf
  have hping : oldPingPkg buf.bytes = cutOff oldPing buf.bytes := by
    rw [← Spec.oldPingPkg_eq, oldPingPkg, oldPingFields_eq hfits rfl]
    rfl
  have hconnect : oldConnectPkg buf.bytes = cutOff oldConnect buf.bytes := by
    rw [← Spec.oldConnectPkg_eq, oldConnectPkg, oldConnectFields_eq hfits]
    rfl
  have hmodern : newPkg buf.bytes = cutOff modern buf.bytes := by
    rw [← Spec.newPkg_eq, newPkg, newFields_eq hfits]
    rfl
  unfold new CraftIp.MinecraftHelloPacket.new
  rw [hping, Spec.oldPingPkg_eq]
  cases hp : oldPing buf.bytes with
  | ok v => rw [cutOff_ok hp]
  | error e =>
    rw [cutOff_error hp]
    cases e with
    | NotMatching =>
      simp only
      rw [hconnect, Spec.oldConnectPkg_eq]
      cases hc : oldConnect buf.bytes with
      | ok v => rw [cutOff_ok hc]
      | error e =>
        rw [cutOff_error hc]
        cases e with
        | NotMatching => exact hmodern.trans (Spec.newPkg_eq _).symm
        | _ => rfl
    | _ => rfl

end MinecraftHelloPacket

/-! ## Frames and the codec -/

section

variable (bincode : Codec SocketPacket)

theorem decodeProxyCursor_eq {c : CraftIp.Cursor} (hc : Fits c) :
    decodeProxyCursor bincode c = SocketPacket.decodeProxyCursor bincode c := by
  refine bind_congr rfl ?_
  intro _ d hcheck
  obtain ⟨rfl, -⟩ := throwErrorIfSmaller_ok hcheck
  refine bind_congr rfl ?_
  intro length e hlength
  have he := hc.getBytes hlength
  refine bind_congr rfl ?_
  intro _ e' hcheck
  obtain ⟨rfl, hle⟩ := throwErrorIfSmaller_ok hcheck
  have hadd : addUsize e'.pos length.toNat = .ok (e'.pos + length.toNat) := by
    have hpos := he.pos
    have hbuf := he.buf
    unfold CraftIp.Cursor.remaining at hle
    exact addUsize_of_lt (by omega)
  refine bind_congr rfl ?_
  intro pos e hpos
  cases hpos
  refine (CursorM.bind_ok rfl).trans ((lift_bind hadd _ _).trans ?_)
  refine bind_congr rfl ?_
  intro blob e hblob
  obtain rfl : e = e' := by
    unfold CraftIp.Cursor.slice at hblob
    split at hblob <;> cases hblob
    rfl
  cases deserialize bincode blob with
  | none => rfl
  | some packet => exact (CursorM.bind_ok rfl).trans (lift_bind hadd _ _)

theorem decodeProxy_eq (buf : BytesMut) :
    decodeProxy bincode buf.bytes = SocketPacket.decodeProxy bincode buf.bytes := by
  rw [decodeProxy, decodeProxyCursor_eq bincode (fits_new buf)]
  rfl

theorem parseFirstPackage_eq (buf : BytesMut) :
    parseFirstPackage bincode buf.bytes = SocketPacket.parseFirstPackage bincode buf.bytes := by
  unfold parseFirstPackage SocketPacket.parseFirstPackage
  rw [MinecraftHelloPacket.new_eq, Spec.new_eq]
  cases h : hello buf.bytes with
  | ok v => rw [cutOff_ok h]
  | error e =>
    rw [cutOff_error h]
    cases e <;> first | exact decodeProxy_eq bincode buf | rfl

/-- **With the checks in it the decoder does what it does without them.** -/
theorem decode_checked (codec : PacketCodec) (buf : BytesMut) :
    decode bincode codec buf.bytes = codec.decode bincode buf.bytes := by
  have hparse : parse bincode codec buf.bytes = codec.parse bincode buf.bytes := by
    obtain ⟨maxLength, protocol⟩ := codec
    cases protocol with
    | Unknown =>
      simp only [parse, PacketCodec.parse]
      rw [parseFirstPackage_eq]
    | MC version => rfl
    | Proxy version =>
      simp only [parse, PacketCodec.parse, parsePacket, SocketPacket.parsePacket]
      rw [decodeProxy_eq]
  rw [decode, hparse]
  rfl

end

end Checked

/-- The model without the checks has no panic either. -/
theorem decode_ne_panic (bincode : Codec SocketPacket) (codec : PacketCodec) (buf : Bytes) :
    (codec.decode bincode buf).1 ≠ .error .panic := by
  by_cases hnil : buf = []
  · rw [hnil, decode_nil]
    intro h
    cases h
  · rw [decode_eq codec hnil]
    cases reading bincode codec.protocol buf with
    | ok v => intro h; cases h
    | error e => cases e <;> intro h <;> cases h

/--
**`decode` never panics**, whatever the codec has seen and whatever is in the buffer.

The serialiser returns a result on every slice; nothing else is asked of it.
-/
theorem decode_never_panics (bincode : Codec SocketPacket) (codec : PacketCodec) (buf : BytesMut) :
    (Checked.decode bincode codec buf.bytes).1 ≠ .error .panic := by
  rw [Checked.decode_checked]
  exact decode_ne_panic bincode codec buf.bytes

end CraftIp
