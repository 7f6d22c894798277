import CraftIp.Spec.Readers

/-!
# The first packet as readers

`oldPing`, `oldConnect` and `modern` are the three parsers of `minecraft.rs` without
cursors, `hello` tries them in turn, and `new_eq` says that `MinecraftHelloPacket::new` is
`hello` followed by cutting the packet off the buffer. In particular it never panics.

`hello` is local: a hello that was accepted stays the same when more bytes arrive.
-/

namespace CraftIp.Spec

open Infra

variable {α β : Type}

/-! ## Steps of a parser -/

/-- The pointwise form of `Reads.bind`: both sides agree at this cursor. -/
theorem bind_atCursor {m : CursorM α} {p : Reader PacketError α} {f : α → CursorM β}
    {q : α → Reader PacketError β} {c : Cursor} (hp : p.Local) (hc : c.pos ≤ c.buf.length)
    (hm : m c = atCursor p c)
    (hf : ∀ a r, p (c.buf.drop c.pos) = .ok (a, r) → c.buf.drop (c.buf.length - r.length) = r →
      f a ⟨c.buf, c.buf.length - r.length⟩ = atCursor (q a) ⟨c.buf, c.buf.length - r.length⟩) :
    (m >>= f) c = atCursor (p >>= q) c := by
  rw [CursorM.bind_apply, hm]
  cases hs : p (c.buf.drop c.pos) with
  | error e => rw [atCursor_error hs, atCursor_error (Reader.bind_error hs)]
  | ok v =>
    obtain ⟨a, r⟩ := v
    have hrest := drop_of_front hp hc hs
    rw [atCursor_ok hs]
    show f a ⟨c.buf, c.buf.length - r.length⟩ = _
    rw [hf a r hs hrest, atCursor, atCursor]
    simp only [hrest, Reader.bind_ok hs]

/-- The bytes `bs`, or the error `e` when something else comes first. -/
def expect (bs : Bytes) (e : PacketError) : Reader PacketError Unit := fun s =>
  if s.take bs.length = bs then .ok ((), s.drop bs.length) else .error e

theorem expect_append (bs s : Bytes) (e : PacketError) : expect bs e (bs ++ s) = .ok ((), s) := by
  rw [expect, List.take_left, if_pos rfl, List.drop_left]

theorem expect_eq_ok {bs s r : Bytes} {e : PacketError} {u : Unit}
    (h : expect bs e s = .ok (u, r)) : s = bs ++ r := by
  unfold expect at h
  split at h
  · next hs =>
    cases h
    conv_lhs => rw [← List.take_append_drop bs.length s, hs]
  · cases h

theorem local_expect (bs : Bytes) (e : PacketError) : (expect bs e).Local where
  takes_front h := ⟨bs, expect_eq_ok h⟩
  append h t := by
    rw [expect_eq_ok h, List.append_assoc, expect_append]

theorem expect_atCursor (bs : Bytes) (e : PacketError) (c : Cursor) (hc : c.pos ≤ c.buf.length) :
    (Cursor.matchBytes bs >>= fun b => Cursor.failIf (!b) e) c = atCursor (expect bs e) c := by
  unfold atCursor expect
  rw [CursorM.bind_apply, Cursor.matchBytes, Cursor.remaining]
  by_cases hs : (c.buf.drop c.pos).take bs.length = bs
  · have hlen : bs.length ≤ c.buf.length - c.pos := by
      have := congrArg List.length hs
      rw [List.length_take, List.length_drop] at this
      omega
    rw [if_neg (by omega), if_neg (by simpa using hs), if_pos hs]
    simp only [List.length_drop]
    rw [show c.buf.length - (c.buf.length - c.pos - bs.length) = c.pos + bs.length from by omega]
    rfl
  · rw [if_neg hs]
    by_cases hlt : c.buf.length - c.pos < bs.length
    · rw [if_pos hlt]; rfl
    · rw [if_neg hlt, if_pos hs]; rfl

theorem Reads.expect {bs : Bytes} {e : PacketError} {f : CursorM α} {q : Reader PacketError α}
    (h : Reads f q) :
    Reads (Cursor.matchBytes bs >>= fun b => Cursor.failIf (!b) e >>= fun _ => f)
      (Spec.expect bs e >>= fun _ => q) where
  isLocal := (local_expect bs e).bind fun _ => h.isLocal
  run c hc := by
    have hb := bind_atCursor (f := fun _ => f) (q := fun _ => q) (local_expect bs e) hc
      (expect_atCursor bs e c hc) fun a r _ _ => h.run _ (by simp)
    rw [bind_assoc] at hb
    exact hb

/-- The check `if cond { return Err(e) }`. -/
def refuse (cond : Prop) [Decidable cond] (e : PacketError) : Reader PacketError Unit :=
  if cond then Reader.error e else pure ()

theorem local_refuse (cond : Prop) [Decidable cond] (e : PacketError) : (refuse cond e).Local := by
  unfold refuse
  split
  · exact Reader.local_error e
  · exact Reader.local_pure ()

theorem reads_failIf (cond : Prop) [Decidable cond] (e : PacketError) :
    Reads (Cursor.failIf cond e) (refuse cond e) := by
  unfold Cursor.failIf refuse
  split
  · exact Reads.fail e
  · exact Reads.pure ()

/-- `throw_error_if_smaller` alone. -/
def atLeast (n : Nat) : Reader PacketError Unit := fun s =>
  if s.length < n then .error .TooSmall else .ok ((), s)

theorem local_atLeast (n : Nat) : (atLeast n).Local where
  takes_front {s a r} h := by
    unfold atLeast at h
    split at h <;> cases h
    exact ⟨[], rfl⟩
  append {s a r} h t := by
    unfold atLeast at h ⊢
    split at h <;> cases h
    rw [if_neg (by rw [List.length_append]; omega)]

theorem reads_throwErrorIfSmaller (n : Nat) : Reads (Cursor.throwErrorIfSmaller n) (atLeast n) where
  isLocal := local_atLeast n
  run c hc := by
    unfold Cursor.throwErrorIfSmaller Cursor.remaining atCursor atLeast
    rw [List.length_drop]
    split
    · rfl
    · simp only [List.length_drop]
      rw [show c.buf.length - (c.buf.length - c.pos) = c.pos from by omega]

/-! ## The three parsers -/

open MinecraftHelloPacket (Fields)

/-- `old_connect_pkg`. -/
def oldConnect : Reader PacketError Fields := do
  expect [0x02] .NotMatching
  let version ← u8
  let _username ← utf16String
  let hostname ← utf16String
  let port ← u32
  return Fields.legacy version hostname port

/-- The fields of `old_ping_pkg` behind its magic bytes. -/
def oldPingBody : Reader PacketError Fields := do
  let restData ← u16
  let version ← u8
  let hostname ← utf16String
  refuse (7 + hostname.utf8ByteSize * 2 ≠ restData.toNat) .NotValid
  let port ← u32
  return Fields.legacy version hostname port

/-- `old_ping_pkg`. -/
def oldPing : Reader PacketError Fields := do
  expect [0xFE, 0x01] .NotMatching
  atLeast 32
  expect (OLD_MINECRAFT_START.drop 2) .NotValid
  oldPingBody

/-- The fields of `new_pkg`, with the announced length in front. -/
def modernBody : Reader PacketError (Int32 × Fields) := do
  let pkgLength ← varint
  let pkgId ← varint
  refuse (pkgId ≠ 0) .NotMatching
  let version ← varint
  let hostname ← utf8String
  let port ← u16
  return (pkgLength, { id := pkgId, version := version, hostname := hostname, port := port.toUInt32 })

/-- `new_pkg`: the announced length is the number of bytes taken. -/
def modern : Reader PacketError Fields := fun s =>
  match modernBody s with
  | .error e => .error e
  | .ok ((pkgLength, fields), r) =>
    if s.length - r.length ≠ asUsize pkgLength then .error .NotValid else .ok (fields, r)

/-- `MinecraftHelloPacket::new`: the three parsers in turn, as long as they do not match. -/
def hello : Reader PacketError Fields := fun s =>
  match oldPing s with
  | .error .NotMatching =>
    match oldConnect s with
    | .error .NotMatching => modern s
    | result => result
  | result => result

theorem local_oldConnect : oldConnect.Local :=
  (local_expect _ _).bind fun _ => local_u8.bind fun _ => local_utf16String.bind fun _ =>
    local_utf16String.bind fun _ => local_u32.bind fun _ => Reader.local_pure _

theorem local_oldPingBody : oldPingBody.Local :=
  local_u16.bind fun _ => local_u8.bind fun _ => local_utf16String.bind fun _ =>
    (local_refuse _ _).bind fun _ => local_u32.bind fun _ => Reader.local_pure _

theorem local_oldPing : oldPing.Local :=
  (local_expect _ _).bind fun _ => (local_atLeast _).bind fun _ => (local_expect _ _).bind fun _ =>
    local_oldPingBody

theorem local_modernBody : modernBody.Local :=
  local_varint.bind fun _ => local_varint.bind fun _ => (local_refuse _ _).bind fun _ =>
    local_varint.bind fun _ => local_utf8String.bind fun _ => local_u16.bind fun _ =>
      Reader.local_pure _

theorem modern_eq_ok {s r : Bytes} {f : Fields} (h : modern s = .ok (f, r)) :
    ∃ pkgLength, modernBody s = .ok ((pkgLength, f), r) ∧ s.length - r.length = asUsize pkgLength := by
  unfold modern at h
  cases hb : modernBody s with
  | error e => rw [hb] at h; cases h
  | ok v =>
    obtain ⟨⟨pkgLength, f'⟩, r'⟩ := v
    rw [hb] at h
    simp only at h
    split at h
    · cases h
    · next hl => cases h; exact ⟨pkgLength, rfl, by simpa using hl⟩

theorem local_modern : modern.Local where
  takes_front h := by
    obtain ⟨_, hb, _⟩ := modern_eq_ok h
    exact local_modernBody.takes_front hb
  append {s f r} h t := by
    obtain ⟨pkgLength, hb, hl⟩ := modern_eq_ok h
    have hle := local_modernBody.length_le hb
    rw [modern, local_modernBody.append hb t]
    simp only [List.length_append]
    rw [if_neg (by rw [← hl]; omega)]

/-! ## The code does what the readers say -/

open MinecraftHelloPacket

theorem reads_oldConnectFields : Reads oldConnectFields oldConnect :=
  Reads.expect (Reads.getU8 fun _ => reads_getUtf16String.bind fun _ =>
    reads_getUtf16String.bind fun _ => Reads.getU32 fun _ => Reads.pure _)

theorem getU16_atCursor {c : Cursor} (hc : c.pos ≤ c.buf.length) (h : 2 ≤ c.remaining) :
    Cursor.getU16 c = atCursor u16 c :=
  bind_atCursor (Reader.local_bytes _ _) hc (getBytes_atCursor hc h)
    fun _ _ _ _ => (Reads.pure _).run _ (by simp)

theorem getU8_atCursor {c : Cursor} (hc : c.pos ≤ c.buf.length) (h : 1 ≤ c.remaining) :
    Cursor.getU8 c = atCursor u8 c :=
  bind_atCursor (Reader.local_bytes _ _) hc (getBytes_atCursor hc h)
    fun _ _ _ _ => (Reads.pure _).run _ (by simp)

theorem u16_length {s r : Bytes} {n : UInt16} (h : u16 s = .ok (n, r)) :
    s.length = r.length + 2 := by
  obtain ⟨b, m, hb, hm⟩ := Reader.bind_eq_ok.mp h
  cases hm
  obtain ⟨rfl, hl⟩ := Reader.bytes_eq_ok hb
  rw [List.length_append, hl, Nat.add_comm]

/-- The fields of a legacy ping, at a cursor that has three bytes for the unchecked reads. -/
theorem oldPingBody_atCursor {c : Cursor} (hc : c.pos ≤ c.buf.length) (h : 3 ≤ c.remaining) :
    (do
      let restData := (← Cursor.getU16).toNat
      let version ← Cursor.getU8
      let hostname ← Cursor.getUtf16String
      Cursor.failIf (7 + hostname.utf8ByteSize * 2 ≠ restData) .NotValid
      Cursor.throwErrorIfSmaller 4
      let port ← Cursor.getU32
      return Fields.legacy version hostname port) c = atCursor oldPingBody c := by
  refine bind_atCursor local_u16 hc (getU16_atCursor hc (by omega)) ?_
  intro restData r hr hrest
  have hr2 := u16_length hr
  rw [List.length_drop] at hr2
  unfold Cursor.remaining at h
  refine bind_atCursor local_u8 (by simp) (getU8_atCursor (by simp) ?_) ?_
  · unfold Cursor.remaining; simp only; omega
  · intro version _ _ _
    exact (reads_getUtf16String.bind fun _ => (reads_failIf _ _).bind fun _ =>
      Reads.getU32 fun _ => Reads.pure _).run _ (by simp)

/-- `old_ping_pkg` checks the first 34 bytes at once, so its reads up to there cannot panic. -/
theorem oldPingFields_eq (buf : Bytes) :
    oldPingFields (Cursor.new buf) = atCursor oldPing (Cursor.new buf) := by
  have h0 : (Cursor.new buf).pos ≤ (Cursor.new buf).buf.length := Nat.zero_le _
  refine (congrFun (bind_assoc _ _ _).symm _).trans
    (bind_atCursor (local_expect [0xFE, 0x01] .NotMatching) h0 (expect_atCursor _ _ _ h0)
      fun _ r hr _ => ?_)
  -- the magic bytes are two, so the position is 2
  have hbuf : buf = [0xFE, 0x01] ++ r := expect_eq_ok hr
  have hpos : buf.length - r.length = 2 := by rw [hbuf, List.length_append]; simp
  refine bind_atCursor (local_atLeast 32) (by simp)
    ((reads_throwErrorIfSmaller 32).run _ (by simp)) fun _ r' hr' _ => ?_
  have hr32 : 32 ≤ r.length ∧ r' = r := by
    rw [show (Cursor.new buf).buf = buf from rfl, hpos, hbuf] at hr'
    unfold atLeast at hr'
    split at hr'
    · cases hr'
    · next hlen =>
      cases hr'
      exact ⟨by simpa using hlen, rfl⟩
  rw [hr32.2, show (Cursor.new buf).buf = buf from rfl, hpos]
  have hc2 : 2 ≤ buf.length := by rw [hbuf, List.length_append]; simp
  refine (CursorM.bind_ok (d := ⟨buf, 2⟩) rfl).trans ?_
  refine (congrFun (bind_assoc _ _ _).symm _).trans
    (bind_atCursor (local_expect (OLD_MINECRAFT_START.drop 2) .NotValid) hc2
      (expect_atCursor _ _ _ hc2) fun _ r2 hr2 _ => ?_)
  refine oldPingBody_atCursor (by simp) ?_
  have hr2' := congrArg List.length (expect_eq_ok hr2)
  have hlen := congrArg List.length hbuf
  simp [OLD_MINECRAFT_START, Cursor.remaining] at hr2' hlen ⊢
  omega

/-- The reads of `new_pkg` before the comparison with the position. -/
theorem reads_modernBody :
    Reads (do
      let pkgLength ← Cursor.getVarint
      let pkgId ← Cursor.getVarint
      Cursor.failIf (pkgId ≠ 0) .NotMatching
      let version ← Cursor.getVarint
      let hostname ← Cursor.getUtf8String
      Cursor.throwErrorIfSmaller 2
      let port ← Cursor.getU16
      return (pkgLength, (⟨pkgId, version, hostname, port.toUInt32⟩ : Fields))) modernBody :=
  reads_getVarint.bind fun _ => reads_getVarint.bind fun _ => (reads_failIf _ _).bind fun _ =>
    reads_getVarint.bind fun _ => reads_getUtf8String.bind fun _ => Reads.getU16 fun _ =>
      Reads.pure _

/-- The comparison of the position with the announced length. -/
theorem position_check (n : Nat) (fields : Fields) (c : Cursor) :
    (do
      Cursor.failIf ((← Cursor.position) ≠ n) .NotValid
      return fields) c
      = if c.pos ≠ n then .error (.error .NotValid) else .ok (fields, c) := by
  rw [CursorM.bind_ok rfl, Cursor.failIf]
  split <;> rfl

theorem newFields_eq (buf : Bytes) :
    newFields (Cursor.new buf) = atCursor modern (Cursor.new buf) := by
  have hsplit : newFields = (do
      let (pkgLength, fields) ← (do
        let pkgLength ← Cursor.getVarint
        let pkgId ← Cursor.getVarint
        Cursor.failIf (pkgId ≠ 0) .NotMatching
        let version ← Cursor.getVarint
        let hostname ← Cursor.getUtf8String
        Cursor.throwErrorIfSmaller 2
        let port ← Cursor.getU16
        return (pkgLength, (⟨pkgId, version, hostname, port.toUInt32⟩ : Fields)))
      Cursor.failIf ((← Cursor.position) ≠ asUsize pkgLength) .NotValid
      return fields) := by
    simp only [newFields, bind_assoc, pure_bind]
  have hrun := reads_modernBody.run (Cursor.new buf) (Nat.zero_le _)
  rw [hsplit]
  cases hb : modernBody buf with
  | error e =>
    rw [atCursor_error (c := Cursor.new buf) hb] at hrun
    rw [CursorM.bind_error hrun, atCursor_error (c := Cursor.new buf) (by
      show modern buf = _
      rw [modern, hb])]
  | ok v =>
    obtain ⟨⟨pkgLength, fields⟩, r⟩ := v
    rw [atCursor_ok (c := Cursor.new buf) hb] at hrun
    rw [CursorM.bind_ok hrun]
    refine (position_check _ _ _).trans ?_
    by_cases hl : buf.length - r.length ≠ asUsize pkgLength
    · have hm : modern buf = .error .NotValid := by rw [modern, hb]; exact if_pos hl
      rw [atCursor_error (c := Cursor.new buf) hm]
      exact if_pos hl
    · have hm : modern buf = .ok (fields, r) := by rw [modern, hb]; exact if_neg hl
      rw [atCursor_ok (c := Cursor.new buf) hm]
      exact if_neg hl

/-- The packet a parser builds from its fields and the bytes it took. -/
def packetOf (buf : Bytes) (f : Fields) (r : Bytes) : MinecraftHelloPacket :=
  { length := UInt64.ofNat (buf.length - r.length), id := f.id, version := f.version,
    hostname := f.hostname, port := f.port, data := buf.take (buf.length - r.length) }

/-- The result of a parser whose fields `p` reads. -/
def cutOff (p : Reader PacketError Fields) (buf : Bytes) : Outcome MinecraftHelloPacket × Bytes :=
  match p buf with
  | .error e => (.error (.error e), buf)
  | .ok (f, r) => (.ok (packetOf buf f r), r)

theorem cutOff_error {p : Reader PacketError Fields} {buf : Bytes} {e : PacketError}
    (h : p buf = .error e) : cutOff p buf = (.error (.error e), buf) := by
  rw [cutOff, h]

theorem cutOff_ok {p : Reader PacketError Fields} {buf : Bytes} {f : Fields} {r : Bytes}
    (h : p buf = .ok (f, r)) : cutOff p buf = (.ok (packetOf buf f r), r) := by
  rw [cutOff, h]

theorem finish_atCursor {p : Reader PacketError Fields} (hp : p.Local) (buf : Bytes) :
    finish buf (atCursor p (Cursor.new buf)) = cutOff p buf := by
  cases hb : p buf with
  | error e =>
    rw [atCursor_error (c := Cursor.new buf) hb, cutOff_error hb]
    rfl
  | ok v =>
    obtain ⟨f, r⟩ := v
    rw [atCursor_ok (c := Cursor.new buf) hb, cutOff_ok hb]
    have hsplit : splitTo buf (buf.length - r.length)
        = .ok (buf.take (buf.length - r.length), r) := by
      rw [splitTo, if_pos (by omega), hp.drop hb]
    unfold finish
    simp only [show (Cursor.new buf).buf = buf from rfl, hsplit]
    rfl

theorem oldPingPkg_eq (buf : Bytes) : oldPingPkg buf = cutOff oldPing buf := by
  rw [oldPingPkg, oldPingFields_eq, finish_atCursor local_oldPing]

theorem oldConnectPkg_eq (buf : Bytes) : oldConnectPkg buf = cutOff oldConnect buf := by
  rw [oldConnectPkg, reads_oldConnectFields.run _ (Nat.zero_le _),
    finish_atCursor local_oldConnect]

theorem newPkg_eq (buf : Bytes) : newPkg buf = cutOff modern buf := by
  rw [newPkg, newFields_eq, finish_atCursor local_modern]

/-- **`MinecraftHelloPacket::new` is `hello`, followed by cutting the packet off.** -/
theorem new_eq (buf : Bytes) : MinecraftHelloPacket.new buf = cutOff hello buf := by
  unfold MinecraftHelloPacket.new
  rw [oldPingPkg_eq]
  cases hp : oldPing buf with
  | ok v =>
    obtain ⟨f, r⟩ := v
    have hh : hello buf = .ok (f, r) := by rw [hello, hp]
    rw [cutOff_ok hp, cutOff_ok hh]
  | error e =>
    rw [cutOff_error hp]
    by_cases he : e = .NotMatching
    · subst he
      simp only
      rw [oldConnectPkg_eq]
      cases hc : oldConnect buf with
      | ok v =>
        obtain ⟨f, r⟩ := v
        have hh : hello buf = .ok (f, r) := by simp only [hello, hp, hc]
        rw [cutOff_ok hc, cutOff_ok hh]
      | error e =>
        rw [cutOff_error hc]
        by_cases he : e = .NotMatching
        · subst he
          have hh : hello buf = modern buf := by simp only [hello, hp, hc]
          simp only
          rw [newPkg_eq, cutOff, cutOff, hh]
        · have hh : hello buf = .error e := by
            simp only [hello, hp, hc]
            cases e <;> first | rfl | exact absurd rfl he
          rw [cutOff_error hh]
          cases e <;> first | rfl | exact absurd rfl he
    · have hh : hello buf = .error e := by
        simp only [hello, hp]
        cases e <;> first | rfl | exact absurd rfl he
      rw [cutOff_error hh]
      cases e <;> first | rfl | exact absurd rfl he

end CraftIp.Spec
