import CraftIp.Infra.Reader
import CraftIp.Shared.SocketPacket

/-!
# The cursor methods as readers

The parsers work on positions in a copied buffer and use reads that panic when bytes are
missing. Here each of them is described by a reader of the remaining bytes, which has no
position and no panic, and `Reads` says that the method does what the reader says.

`Reads` is kept by `>>=`, so a parser is connected to its reader method by method.
-/

namespace CraftIp.Spec

open Infra

variable {α β : Type}

/-! ## Running a reader at a cursor -/

/-- The reader `p` run on what remains of the buffer. -/
def atCursor (p : Reader PacketError α) : CursorM α := fun c =>
  match p (c.buf.drop c.pos) with
  | .error e => .error (.error e)
  | .ok (a, r) => .ok (a, ⟨c.buf, c.buf.length - r.length⟩)

/-- At every position inside the buffer, `m` does what `p` does on the remaining bytes. -/
structure Reads (m : CursorM α) (p : Reader PacketError α) : Prop where
  isLocal : p.Local
  run : ∀ c : Cursor, c.pos ≤ c.buf.length → m c = atCursor p c

theorem atCursor_error {p : Reader PacketError α} {c : Cursor} {e : PacketError}
    (h : p (c.buf.drop c.pos) = .error e) : atCursor p c = .error (.error e) := by
  rw [atCursor, h]

theorem atCursor_ok {p : Reader PacketError α} {c : Cursor} {a : α} {r : Bytes}
    (h : p (c.buf.drop c.pos) = .ok (a, r)) :
    atCursor p c = .ok (a, ⟨c.buf, c.buf.length - r.length⟩) := by
  rw [atCursor, h]

theorem CursorM.bind_apply (m : CursorM α) (f : α → CursorM β) (c : Cursor) :
    (m >>= f) c = match m c with
      | .error e => .error e
      | .ok (a, c') => f a c' := by
  simp only [bind, StateT.bind, Except.bind]
  cases m c <;> rfl

theorem CursorM.bind_ok {m : CursorM α} {f : α → CursorM β} {c d : Cursor} {a : α}
    (h : m c = .ok (a, d)) : (m >>= f) c = f a d := by
  rw [bind_apply, h]

theorem CursorM.bind_error {m : CursorM α} {f : α → CursorM β} {c : Cursor} {e : Fault}
    (h : m c = .error e) : (m >>= f) c = .error e := by
  rw [bind_apply, h]

/-- Dropping up to the new position leaves what the reader left. -/
theorem drop_of_front {p : Reader PacketError α} {c : Cursor} {a : α} {r : Bytes}
    (hp : p.Local) (hc : c.pos ≤ c.buf.length) (h : p (c.buf.drop c.pos) = .ok (a, r)) :
    c.buf.drop (c.buf.length - r.length) = r := by
  obtain ⟨x, hx⟩ := hp.takes_front h
  have hlen : c.buf.length - c.pos = x.length + r.length := by
    rw [← List.length_drop, hx, List.length_append]
  rw [show c.buf.length - r.length = c.pos + x.length from by omega, ← List.drop_drop, hx,
    List.drop_left]

namespace Reads

theorem pure (a : α) : Reads (pure a) (pure a) where
  isLocal := Reader.local_pure a
  run c hc := by
    rw [atCursor_ok (Reader.pure_apply a _), List.length_drop]
    show Except.ok (a, c) = _
    rw [show c.buf.length - (c.buf.length - c.pos) = c.pos from by omega]

theorem fail (e : PacketError) : Reads (Cursor.fail e : CursorM α) (Reader.error e) where
  isLocal := Reader.local_error e
  run _ _ := rfl

theorem bind {m : CursorM α} {p : Reader PacketError α} {f : α → CursorM β}
    {q : α → Reader PacketError β} (hm : Reads m p) (hf : ∀ a, Reads (f a) (q a)) :
    Reads (m >>= f) (p >>= q) where
  isLocal := hm.isLocal.bind fun a => (hf a).isLocal
  run c hc := by
    rw [CursorM.bind_apply, hm.run c hc]
    cases hp : p (c.buf.drop c.pos) with
    | error e => rw [atCursor_error hp, atCursor_error (Reader.bind_error hp)]
    | ok v =>
      obtain ⟨a, r⟩ := v
      have hrest := drop_of_front hm.isLocal hc hp
      rw [atCursor_ok hp]
      show f a ⟨c.buf, c.buf.length - r.length⟩ = _
      rw [(hf a).run _ (by simp), atCursor, atCursor]
      simp only [hrest, Reader.bind_ok hp]

end Reads

/-! ## Numbers -/

def u8 : Reader PacketError UInt8 := do
  return UInt8.ofNat (beValue (← Reader.bytes .TooSmall 1))

def u16 : Reader PacketError UInt16 := do
  return UInt16.ofNat (beValue (← Reader.bytes .TooSmall 2))

def u32 : Reader PacketError UInt32 := do
  return UInt32.ofNat (beValue (← Reader.bytes .TooSmall 4))

theorem throwErrorIfSmaller_of_lt {n : Nat} {c : Cursor} (h : c.remaining < n) :
    Cursor.throwErrorIfSmaller n c = .error (.error .TooSmall) := if_pos h

theorem throwErrorIfSmaller_of_le {n : Nat} {c : Cursor} (h : n ≤ c.remaining) :
    Cursor.throwErrorIfSmaller n c = .ok ((), c) := if_neg (by omega)

theorem getBytes_of_le {n : Nat} {c : Cursor} (h : n ≤ c.remaining) :
    Cursor.getBytes n c = .ok ((c.buf.drop c.pos).take n, { c with pos := c.pos + n }) := if_pos h

/-- Where enough bytes remain, `get_*` reads them. -/
theorem getBytes_atCursor {n : Nat} {c : Cursor} (hc : c.pos ≤ c.buf.length)
    (h : n ≤ c.remaining) : Cursor.getBytes n c = atCursor (Reader.bytes .TooSmall n) c := by
  unfold Cursor.remaining at h
  rw [getBytes_of_le h, atCursor, Reader.bytes, if_neg (by rw [List.length_drop]; omega)]
  simp only [List.length_drop]
  rw [show c.buf.length - (c.buf.length - c.pos - n) = c.pos + n from by omega]

/-- `throw_error_if_smaller(n)` in front of a read of `n` bytes keeps the read from panicking. -/
theorem reads_getBytes (n : Nat) :
    Reads (Cursor.throwErrorIfSmaller n >>= fun _ => Cursor.getBytes n)
      (Reader.bytes .TooSmall n) where
  isLocal := Reader.local_bytes _ _
  run c hc := by
    by_cases h : c.remaining < n
    · have hlen : (c.buf.drop c.pos).length < n := by rw [List.length_drop]; exact h
      rw [CursorM.bind_error (throwErrorIfSmaller_of_lt h),
        atCursor_error (Reader.bytes_short hlen)]
    · rw [CursorM.bind_ok (throwErrorIfSmaller_of_le (by omega)),
        getBytes_atCursor hc (by omega)]

/-- A checked read of a number, and what is done with it. -/
theorem Reads.checked {γ : Type} {n : Nat} (g : Bytes → γ) {f : γ → CursorM α}
    {q : γ → Reader PacketError α} (h : ∀ v, Reads (f v) (q v)) :
    Reads (Cursor.throwErrorIfSmaller n >>= fun _ =>
        (Cursor.getBytes n >>= fun b => Pure.pure (g b)) >>= f)
      ((Reader.bytes .TooSmall n >>= fun b => Pure.pure (g b)) >>= q) := by
  have h2 := ((reads_getBytes n).bind fun b => Reads.pure (g b)).bind h
  simpa only [bind_assoc] using h2

theorem Reads.getU8 {f : UInt8 → CursorM α} {q : UInt8 → Reader PacketError α}
    (h : ∀ n, Reads (f n) (q n)) :
    Reads (Cursor.throwErrorIfSmaller 1 >>= fun _ => Cursor.getU8 >>= f) (u8 >>= q) :=
  Reads.checked _ h

theorem Reads.getU16 {f : UInt16 → CursorM α} {q : UInt16 → Reader PacketError α}
    (h : ∀ n, Reads (f n) (q n)) :
    Reads (Cursor.throwErrorIfSmaller 2 >>= fun _ => Cursor.getU16 >>= f) (u16 >>= q) :=
  Reads.checked _ h

theorem Reads.getU32 {f : UInt32 → CursorM α} {q : UInt32 → Reader PacketError α}
    (h : ∀ n, Reads (f n) (q n)) :
    Reads (Cursor.throwErrorIfSmaller 4 >>= fun _ => Cursor.getU32 >>= f) (u32 >>= q) :=
  Reads.checked _ h

theorem local_u8 : u8.Local :=
  (Reader.local_bytes _ _).bind fun _ => Reader.local_pure _

theorem local_u16 : u16.Local :=
  (Reader.local_bytes _ _).bind fun _ => Reader.local_pure _

theorem local_u32 : u32.Local :=
  (Reader.local_bytes _ _).bind fun _ => Reader.local_pure _

theorem u16_cons (a b : UInt8) (s : Bytes) :
    u16 (a :: b :: s) = .ok (UInt16.ofNat (beValue [a, b]), s) :=
  Reader.bind_ok (Reader.bytes_append .TooSmall [a, b] s)

theorem u16_toNat (hi lo : UInt8) :
    (UInt16.ofNat (beValue [hi, lo])).toNat = hi.toNat * 256 + lo.toNat := by
  have h1 := UInt8.toNat_lt hi
  have h2 := UInt8.toNat_lt lo
  rw [beValue_pair, UInt16.toNat_ofNat_of_lt' (by rw [show UInt16.size = 65536 from rfl]; omega)]

/-! ## Varints -/

/-- The loop looks at the bytes from `start` on only. -/
theorem getVarintLoop_drop (buf : Bytes) (start : Nat) :
    ∀ (left size : Nat) (position value : Int32),
      getVarintLoop buf start left size position value
        = getVarintLoop (buf.drop start) 0 left size position value := by
  intro left
  induction left with
  | zero => intro size position value; rfl
  | succ left ih =>
    intro size position value
    rw [getVarintLoop, getVarintLoop, List.getElem?_drop,
      show start + (size + 0) = size + start from by omega]
    cases buf[size + start]? with
    | none => rfl
    | some b =>
      simp only
      split
      · rfl
      · exact ih _ _ _

/-- A varint that was read lies inside the buffer, and more bytes do not change it. -/
theorem getVarintLoop_ok {s : Bytes} {v : Int32} {n : Nat} :
    ∀ (left size : Nat) (position value : Int32),
      getVarintLoop s 0 left size position value = .ok (v, n) →
        size < n ∧ n ≤ size + left ∧ n ≤ s.length ∧
          ∀ t, getVarintLoop (s ++ t) 0 left size position value = .ok (v, n) := by
  intro left
  induction left with
  | zero => intro size position value h; cases h
  | succ left ih =>
    intro size position value h
    rw [getVarintLoop, Nat.add_zero] at h
    cases hb : s[size]? with
    | none => rw [hb] at h; cases h
    | some b =>
      have hlt : size < s.length := (List.getElem?_eq_some_iff.mp hb).1
      have hst (t : Bytes) : (s ++ t)[size]? = some b := by rw [List.getElem?_append_left hlt, hb]
      simp only [hb] at h
      split at h
      · next hlast =>
        cases h
        refine ⟨by omega, by omega, by omega, ?_⟩
        intro t
        rw [getVarintLoop, Nat.add_zero, hst]
        simp only
        rw [if_pos hlast]
      · next hmore =>
        obtain ⟨h1, h2, h3, h4⟩ := ih (size + 1) _ _ h
        refine ⟨by omega, by omega, h3, ?_⟩
        intro t
        rw [getVarintLoop, Nat.add_zero, hst]
        simp only
        rw [if_neg hmore]
        exact h4 t

def varint : Reader PacketError Int32 := fun s =>
  match CraftIp.getVarint s 0 with
  | .error e => .error e
  | .ok (v, n) => .ok (v, s.drop n)

theorem varint_eq_ok {s r : Bytes} {v : Int32} (h : varint s = .ok (v, r)) :
    ∃ n, CraftIp.getVarint s 0 = .ok (v, n) ∧ 0 < n ∧ n ≤ 5 ∧ n ≤ s.length ∧ r = s.drop n := by
  unfold varint at h
  cases hg : CraftIp.getVarint s 0 with
  | error e => rw [hg] at h; cases h
  | ok w =>
    obtain ⟨v', n⟩ := w
    rw [hg] at h
    cases h
    obtain ⟨h1, h2, h3, -⟩ := getVarintLoop_ok _ _ _ _ hg
    exact ⟨n, rfl, h1, h2, h3, rfl⟩

theorem local_varint : varint.Local where
  takes_front {s a r} h := by
    obtain ⟨n, -, -, -, -, rfl⟩ := varint_eq_ok h
    exact ⟨s.take n, (List.take_append_drop n s).symm⟩
  append {s a r} h t := by
    obtain ⟨n, hg, -, -, hn, rfl⟩ := varint_eq_ok h
    have hlong : CraftIp.getVarint (s ++ t) 0 = .ok (a, n) := (getVarintLoop_ok _ _ _ _ hg).2.2.2 t
    rw [varint, hlong]
    simp only [List.drop_append_of_le_length hn]

theorem reads_getVarint : Reads Cursor.getVarint varint where
  isLocal := local_varint
  run c hc := by
    have hd : CraftIp.getVarint c.buf c.pos = CraftIp.getVarint (c.buf.drop c.pos) 0 :=
      getVarintLoop_drop _ _ _ _ _ _
    unfold Cursor.getVarint atCursor varint
    rw [hd]
    cases hg : CraftIp.getVarint (c.buf.drop c.pos) 0 with
    | error e => rfl
    | ok w =>
      obtain ⟨v, n⟩ := w
      obtain ⟨-, -, hn, -⟩ := getVarintLoop_ok _ _ _ _ hg
      simp only [List.length_drop] at hn ⊢
      rw [show c.buf.length - (c.buf.length - c.pos - n) = c.pos + n from by omega]

/-! ## Strings -/

/-- The string with these UTF-8 bytes. -/
def utf8Text (blob : Bytes) : Reader PacketError String :=
  match fromUtf8 blob with
  | some s => pure s
  | none => Reader.error .NotValidStringEncoding

def utf8String : Reader PacketError String := do
  let size ← varint
  let blob ← Reader.bytes .TooSmall (asUsize size)
  utf8Text blob

theorem local_utf8Text (blob : Bytes) : (utf8Text blob).Local := by
  unfold utf8Text
  cases fromUtf8 blob with
  | none => exact Reader.local_error _
  | some s => exact Reader.local_pure s

theorem local_utf8String : utf8String.Local :=
  local_varint.bind fun _ => (Reader.local_bytes _ _).bind local_utf8Text

theorem reads_getUtf8String : Reads Cursor.getUtf8String utf8String where
  isLocal := local_utf8String
  run c hc := by
    -- the size first, then the check, the slice and the decoding at the cursor behind it
    have hsize : Reads (Cursor.getVarint >>= fun size =>
        Cursor.throwErrorIfSmaller (asUsize size) >>= fun _ =>
          Cursor.position >>= fun a => Cursor.position >>= fun b =>
            Cursor.slice a (b + asUsize size) >>= fun blob =>
              Cursor.position >>= fun p => Cursor.setPosition (p + asUsize size) >>= fun _ =>
                (match fromUtf8 blob with
                  | some s => (Pure.pure s : CursorM String)
                  | none => Cursor.setPosition c.pos >>= fun _ =>
                      Cursor.fail .NotValidStringEncoding)) utf8String := by
      refine reads_getVarint.bind fun size => ⟨(Reader.local_bytes _ _).bind local_utf8Text, ?_⟩
      intro c' hc'
      by_cases hlt : c'.remaining < asUsize size
      · have hshort : (c'.buf.drop c'.pos).length < asUsize size := by
          rw [List.length_drop]; exact hlt
        rw [CursorM.bind_error (throwErrorIfSmaller_of_lt hlt),
          atCursor_error (Reader.bind_error (Reader.bytes_short hshort))]
      · have hle : asUsize size ≤ c'.buf.length - c'.pos := by
          unfold Cursor.remaining at hlt; omega
        have hblob : (c'.buf.take (c'.pos + asUsize size)).drop c'.pos
            = (c'.buf.drop c'.pos).take (asUsize size) := by
          rw [List.drop_take, Nat.add_sub_cancel_left]
        have hslice : Cursor.slice c'.pos (c'.pos + asUsize size) c'
            = .ok ((c'.buf.drop c'.pos).take (asUsize size), c') := by
          rw [Cursor.slice, if_pos ⟨by omega, by omega⟩, hblob]
        have hbytes : Reader.bytes PacketError.TooSmall (asUsize size) (c'.buf.drop c'.pos)
            = .ok ((c'.buf.drop c'.pos).take (asUsize size),
                (c'.buf.drop c'.pos).drop (asUsize size)) :=
          if_neg (by rw [List.length_drop]; omega)
        rw [CursorM.bind_ok (throwErrorIfSmaller_of_le (by omega)),
          CursorM.bind_ok (d := c') rfl, CursorM.bind_ok (d := c') rfl,
          CursorM.bind_ok hslice, CursorM.bind_ok (d := c') rfl, CursorM.bind_ok rfl,
          atCursor, Reader.bind_ok hbytes]
        unfold utf8Text
        cases fromUtf8 ((c'.buf.drop c'.pos).take (asUsize size)) with
        | none => rfl
        | some s =>
          simp only [Reader.pure_apply, List.length_drop]
          rw [show c'.buf.length - (c'.buf.length - c'.pos - asUsize size)
            = c'.pos + asUsize size from by omega]
          rfl
    exact hsize.run c hc

/-- The big-endian 16-bit units of a byte string. -/
def units : Bytes → List UInt16
  | a :: b :: rest => UInt16.ofNat (beValue [a, b]) :: units rest
  | _ => []

/-- The first `n` bytes, when more than `n` remain. -/
def bytesAndMore (n : Nat) : Reader PacketError Bytes := fun s =>
  if s.length ≤ n then .error .TooSmall else .ok (s.take n, s.drop n)

theorem bytesAndMore_eq_ok {n : Nat} {s v r : Bytes} (h : bytesAndMore n s = .ok (v, r)) :
    s = v ++ r ∧ v.length = n ∧ r ≠ [] := by
  unfold bytesAndMore at h
  split at h
  · cases h
  · next hn =>
    cases h
    refine ⟨(List.take_append_drop n s).symm, by rw [List.length_take]; omega, ?_⟩
    intro he
    have hlen := congrArg List.length he
    rw [List.length_drop, List.length_nil] at hlen
    omega

theorem bytesAndMore_append {v r : Bytes} (h : r ≠ []) :
    bytesAndMore v.length (v ++ r) = .ok (v, r) := by
  have hr := List.length_pos_iff.mpr h
  rw [bytesAndMore, if_neg (by rw [List.length_append]; omega), List.take_left, List.drop_left]

theorem local_bytesAndMore (n : Nat) : (bytesAndMore n).Local where
  takes_front h := ⟨_, (bytesAndMore_eq_ok h).1⟩
  append {s a r} h t := by
    obtain ⟨rfl, rfl, hr⟩ := bytesAndMore_eq_ok h
    rw [List.append_assoc, bytesAndMore_append (by simp [hr])]

/-- The string with these UTF-16 units. -/
def utf16Text (b : Bytes) : Reader PacketError String :=
  match decodeUtf16 (units b) with
  | some s => pure (String.ofList s)
  | none => Reader.error .NotValidStringEncoding

def utf16String : Reader PacketError String := do
  let size ← u16
  let b ← bytesAndMore (size.toNat * 2)
  utf16Text b

theorem local_utf16Text (b : Bytes) : (utf16Text b).Local := by
  unfold utf16Text
  cases decodeUtf16 (units b) with
  | none => exact Reader.local_error _
  | some s => exact Reader.local_pure _

theorem local_utf16String : utf16String.Local :=
  local_u16.bind fun _ => (local_bytesAndMore _).bind local_utf16Text

theorem exists_two {b : Bytes} (h : 2 ≤ b.length) : ∃ x y s, b = x :: y :: s := by
  rcases b with _ | ⟨x, _ | ⟨y, s⟩⟩
  · cases h
  · rw [List.length_singleton] at h
    omega
  · exact ⟨x, y, s, rfl⟩

/-- Reading units does not panic while enough bytes remain. -/
theorem getUnits_ok : ∀ (n : Nat) (c : Cursor), n * 2 ≤ c.buf.length - c.pos →
    Cursor.getUnits n c
      = .ok (units ((c.buf.drop c.pos).take (n * 2)), { c with pos := c.pos + n * 2 }) := by
  intro n
  induction n with
  | zero =>
    intro c _
    show Except.ok ([], c) = _
    rw [Nat.zero_mul, List.take_zero]
    rfl
  | succ n ih =>
    intro c h
    obtain ⟨a, b, s, hs⟩ := exists_two (b := c.buf.drop c.pos) (by rw [List.length_drop]; omega)
    have hu16 : Cursor.getU16 c
        = .ok (UInt16.ofNat (beValue [a, b]), { c with pos := c.pos + 2 }) := by
      rw [Cursor.getU16, CursorM.bind_ok (getBytes_of_le (by unfold Cursor.remaining; omega)), hs]
      rfl
    have hrest : c.buf.drop (c.pos + 2) = s := by rw [← List.drop_drop, hs]; rfl
    have hunits := ih { c with pos := c.pos + 2 } (by simp only; omega)
    simp only [hrest] at hunits
    rw [Cursor.getUnits, CursorM.bind_ok hu16, CursorM.bind_ok hunits, hs,
      show (n + 1) * 2 = n * 2 + 1 + 1 from by omega, List.take_succ_cons, List.take_succ_cons,
      units, show c.pos + (n * 2 + 1 + 1) = c.pos + 2 + n * 2 from by omega]
    rfl

theorem reads_getUtf16String : Reads Cursor.getUtf16String utf16String where
  isLocal := local_utf16String
  run c hc := by
    have hsize : Reads (Cursor.throwErrorIfSmaller 2 >>= fun _ => Cursor.getU16 >>= fun size =>
        (get >>= fun c => Cursor.failIf (c.remaining ≤ size.toNat * 2) .TooSmall) >>= fun _ =>
          Cursor.throwErrorIfSmaller (size.toNat * 2) >>= fun _ =>
            Cursor.getUnits size.toNat >>= fun us =>
              (match decodeUtf16 us with
                | some s => (Pure.pure (String.ofList s) : CursorM String)
                | none => Cursor.setPosition c.pos >>= fun _ =>
                    Cursor.fail .NotValidStringEncoding)) utf16String := by
      refine Reads.getU16 fun size => ⟨(local_bytesAndMore _).bind local_utf16Text, ?_⟩
      intro c' hc'
      by_cases hle : c'.remaining ≤ size.toNat * 2
      · have hshort : bytesAndMore (size.toNat * 2) (c'.buf.drop c'.pos) = .error .TooSmall :=
          if_pos (by rw [List.length_drop]; exact hle)
        have hfail : (get >>= fun c => Cursor.failIf (c.remaining ≤ size.toNat * 2) .TooSmall) c'
            = .error (.error .TooSmall) := by
          rw [CursorM.bind_ok (d := c') rfl, Cursor.failIf, if_pos hle]
          rfl
        rw [CursorM.bind_error hfail, atCursor_error (Reader.bind_error hshort)]
      · have hlt : size.toNat * 2 < c'.buf.length - c'.pos := by
          unfold Cursor.remaining at hle; omega
        have hpass : (get >>= fun c => Cursor.failIf (c.remaining ≤ size.toNat * 2) .TooSmall) c'
            = .ok ((), c') := by
          rw [CursorM.bind_ok (d := c') rfl, Cursor.failIf, if_neg hle]
          rfl
        have hbytes : bytesAndMore (size.toNat * 2) (c'.buf.drop c'.pos)
            = .ok ((c'.buf.drop c'.pos).take (size.toNat * 2),
                (c'.buf.drop c'.pos).drop (size.toNat * 2)) :=
          if_neg (by rw [List.length_drop]; omega)
        rw [CursorM.bind_ok hpass, CursorM.bind_ok (throwErrorIfSmaller_of_le (by omega)),
          CursorM.bind_ok (getUnits_ok _ _ (by omega)), atCursor, Reader.bind_ok hbytes]
        unfold utf16Text
        cases decodeUtf16 (units ((c'.buf.drop c'.pos).take (size.toNat * 2))) with
        | none => rfl
        | some s =>
          simp only [Reader.pure_apply, List.length_drop]
          rw [show c'.buf.length - (c'.buf.length - c'.pos - size.toNat * 2)
            = c'.pos + size.toNat * 2 from by omega]
          rfl
    exact hsize.run c hc

end CraftIp.Spec
