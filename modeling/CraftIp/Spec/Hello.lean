import CraftIp.Spec.Parts

/-!
# Which parser sees a first packet

Two bytes decide which of the three parsers a buffer is for (`hello_cons`), and with two
bytes there the answer does not change when more bytes arrive: a hello stays a hello
(`hello_append`), and an error stays the same error unless it is one of the three that
`parse_first_package` does not take for a failure (`hello_lasting`).
-/

namespace CraftIp.Spec

open Infra

variable {α β : Type}

/-! ## The errors of the parts -/

/-- An error that ends a connection: it neither asks for more bytes nor for another parser. -/
structure Lasting (e : PacketError) : Prop where
  tooSmall : PacketError.TooSmall ≠ e
  notValid : PacketError.NotValid ≠ e
  notMatching : PacketError.NotMatching ≠ e

theorem never_u8 {e : PacketError} (h : PacketError.TooSmall ≠ e) : u8.Never e :=
  (Reader.never_bytes h 1).bind fun _ => Reader.never_pure _ e

theorem never_u16 {e : PacketError} (h : PacketError.TooSmall ≠ e) : u16.Never e :=
  (Reader.never_bytes h 2).bind fun _ => Reader.never_pure _ e

theorem never_u32 {e : PacketError} (h : PacketError.TooSmall ≠ e) : u32.Never e :=
  (Reader.never_bytes h 4).bind fun _ => Reader.never_pure _ e

theorem never_atLeast {e : PacketError} (h : PacketError.TooSmall ≠ e) (n : Nat) :
    (atLeast n).Never e := fun s hs => by
  unfold atLeast at hs
  split at hs <;> cases hs
  exact h rfl

theorem never_bytesAndMore {e : PacketError} (h : PacketError.TooSmall ≠ e) (n : Nat) :
    (bytesAndMore n).Never e := fun s hs => by
  unfold bytesAndMore at hs
  split at hs <;> cases hs
  exact h rfl

theorem never_expect {e e' : PacketError} (h : e' ≠ e) (bs : Bytes) :
    (expect bs e').Never e := fun s hs => by
  unfold expect at hs
  split at hs <;> cases hs
  exact h rfl

theorem never_refuse {e e' : PacketError} (h : e' ≠ e) (cond : Prop) [Decidable cond] :
    (refuse cond e').Never e := by
  unfold refuse
  split
  · exact Reader.never_error h
  · exact Reader.never_pure () e

theorem getVarintLoop_error {buf : Bytes} {start : Nat} {e : PacketError} :
    ∀ {left size : Nat} {position value : Int32},
      getVarintLoop buf start left size position value = .error e → e = .NotValid := by
  intro left
  induction left with
  | zero => intro size position value h; cases h; rfl
  | succ left ih =>
    intro size position value h
    rw [getVarintLoop] at h
    cases hb : buf[size + start]? with
    | none => rw [hb] at h; cases h; rfl
    | some b =>
      simp only [hb] at h
      split at h
      · cases h
      · exact ih h

theorem never_varint {e : PacketError} (h : PacketError.NotValid ≠ e) : varint.Never e :=
  fun s hs => by
    unfold varint at hs
    cases hg : CraftIp.getVarint s 0 with
    | error e' =>
      rw [hg] at hs
      cases hs
      exact h (getVarintLoop_error hg).symm
    | ok v => rw [hg] at hs; cases hs

theorem never_utf16Text {e : PacketError} (h : PacketError.NotValidStringEncoding ≠ e)
    (b : Bytes) : (utf16Text b).Never e := by
  unfold utf16Text
  cases decodeUtf16 (units b) with
  | none => exact Reader.never_error h
  | some s => exact Reader.never_pure _ e

theorem never_utf8Text {e : PacketError} (h : PacketError.NotValidStringEncoding ≠ e)
    (b : Bytes) : (utf8Text b).Never e := by
  unfold utf8Text
  cases fromUtf8 b with
  | none => exact Reader.never_error h
  | some s => exact Reader.never_pure _ e

theorem never_utf16String {e : PacketError} (h : PacketError.TooSmall ≠ e)
    (h' : PacketError.NotValidStringEncoding ≠ e) : utf16String.Never e :=
  (never_u16 h).bind fun _ => (never_bytesAndMore h _).bind fun b => never_utf16Text h' b

/-! ## Which errors are final -/

theorem final_refuse (cond : Prop) [Decidable cond] (e e' : PacketError) :
    (refuse cond e').Final e := by
  unfold refuse
  split
  · exact Reader.final_error e' e
  · exact (Reader.never_pure () e).final

section Final

variable {e : PacketError} (hs : PacketError.TooSmall ≠ e)

include hs

theorem final_utf16String : utf16String.Final e := by
  refine (never_u16 hs).final.bind local_u16 fun n =>
    (never_bytesAndMore hs _).final.bind (local_bytesAndMore _) fun b => ?_
  unfold utf16Text
  cases decodeUtf16 (units b) with
  | none => exact Reader.final_error _ e
  | some s => exact (Reader.never_pure _ e).final

/-- A blob of announced size, and its text. -/
theorem final_utf8Blob (n : Nat) :
    (Reader.bytes PacketError.TooSmall n >>= utf8Text).Final e := by
  refine (Reader.never_bytes hs _).final.bind (Reader.local_bytes _ _) ?_
  intro b
  unfold utf8Text
  cases fromUtf8 b with
  | none => exact Reader.final_error _ e
  | some s => exact (Reader.never_pure _ e).final

theorem final_port (f : UInt16 → Int32 × MinecraftHelloPacket.Fields) :
    (u16 >>= fun port => (pure (f port) : Reader PacketError _)).Final e :=
  ((never_u16 hs).bind fun _ => Reader.never_pure _ e).final

theorem final_oldPingBody : oldPingBody.Final e :=
  (never_u16 hs).final.bind local_u16 fun _ => (never_u8 hs).final.bind local_u8 fun _ =>
    (final_utf16String hs).bind local_utf16String fun _ =>
      (final_refuse _ _ _).bind (local_refuse _ _) fun _ =>
        ((never_u32 hs).bind fun _ => Reader.never_pure _ e).final

theorem final_modernBody (hv : PacketError.NotValid ≠ e) : modernBody.Final e :=
  (never_varint hv).final.bind local_varint fun _ =>
    (never_varint hv).final.bind local_varint fun _ =>
      (final_refuse _ _ _).bind (local_refuse _ _) fun _ =>
        (never_varint hv).final.bind local_varint fun _ =>
          ((never_varint hv).final.bind local_varint fun _ => final_utf8Blob hs _).bind
            local_utf8String fun _ => final_port hs _

theorem final_modern (hv : PacketError.NotValid ≠ e) : modern.Final e := by
  intro s h t
  unfold modern at h
  cases hb : modernBody s with
  | error e' =>
    rw [hb] at h
    cases h
    rw [modern, final_modernBody hs hv _ hb t]
  | ok v =>
    obtain ⟨⟨pkgLength, f⟩, r⟩ := v
    rw [hb] at h
    simp only at h
    split at h <;> cases h
    exact absurd rfl hv

end Final

section Lasting

variable {e : PacketError} (he : Lasting e)

include he

theorem final_oldPing : oldPing.Final e :=
  (never_expect he.notMatching _).final.bind (local_expect _ _) fun _ =>
    (never_atLeast he.tooSmall _).final.bind (local_atLeast _) fun _ =>
      (never_expect he.notValid _).final.bind (local_expect _ _) fun _ =>
        final_oldPingBody he.tooSmall

theorem final_oldConnect : oldConnect.Final e :=
  (never_expect he.notMatching _).final.bind (local_expect _ _) fun _ =>
    (never_u8 he.tooSmall).final.bind local_u8 fun _ =>
      (final_utf16String he.tooSmall).bind local_utf16String fun _ =>
        (final_utf16String he.tooSmall).bind local_utf16String fun _ =>
          ((never_u32 he.tooSmall).bind fun _ => Reader.never_pure _ e).final

end Lasting

/-! ## What a parser that gave up needs to see -/

/-- With five bytes there, the loop of a varint does not look further. -/
theorem getVarintLoop_append {s t : Bytes} :
    ∀ {left size : Nat} {position value : Int32}, size + left ≤ s.length →
      getVarintLoop (s ++ t) 0 left size position value
        = getVarintLoop s 0 left size position value := by
  intro left
  induction left with
  | zero => intro size position value _; rfl
  | succ left ih =>
    intro size position value h
    rw [getVarintLoop, getVarintLoop, Nat.add_zero, List.getElem?_append_left (by omega)]
    cases s[size]? with
    | none => rfl
    | some b =>
      simp only
      split
      · rfl
      · exact ih (by omega)

theorem finalFrom_varint (e : PacketError) : varint.FinalFrom 5 e := by
  intro s hn h t
  have hsame : CraftIp.getVarint (s ++ t) 0 = CraftIp.getVarint s 0 := getVarintLoop_append (by omega)
  unfold varint at h ⊢
  rw [hsame]
  cases hg : CraftIp.getVarint s 0 with
  | error e' => rw [hg] at h; exact h
  | ok v => rw [hg] at h; cases h

theorem finalFrom_expect {bs : Bytes} {n : Nat} (hn : bs.length ≤ n) (e e' : PacketError) :
    (expect bs e').FinalFrom n e := by
  intro s hs h t
  unfold expect at h ⊢
  rw [List.take_append_of_le_length (by omega)]
  split at h
  · cases h
  · next hne => rw [if_neg hne]; exact h

/-- Four varints have at most twenty bytes. -/
theorem finalFrom_modernBody {e : PacketError} (hs : PacketError.TooSmall ≠ e) :
    modernBody.FinalFrom 20 e := by
  have hvarint (n : Nat) : varint.FinalFrom (5 + n) e :=
    fun s hn => finalFrom_varint e s (by omega)
  have hhostname : utf8String.FinalFrom (5 + 0) e :=
    (hvarint 0).bind_final local_varint fun _ => final_utf8Blob hs _
  refine (hvarint 15).bind local_varint varint_length ?_
  intro _
  refine (hvarint 10).bind local_varint varint_length ?_
  intro _
  refine ((final_refuse _ e _).from (0 + 10)).bind (local_refuse _ _) (atMost_refuse _ _) ?_
  intro _
  refine (hvarint 5).bind local_varint varint_length ?_
  intro _
  exact hhostname.bind_final local_utf8String fun _ => final_port hs _

theorem finalFrom_modern : modern.FinalFrom 20 .NotValid := by
  intro s hn h t
  unfold modern at h
  cases hb : modernBody s with
  | error e' =>
    rw [hb] at h
    cases h
    rw [modern, finalFrom_modernBody (by decide) _ hn hb t]
  | ok v =>
    obtain ⟨⟨pkgLength, f⟩, r⟩ := v
    have hle := local_modernBody.length_le hb
    rw [hb] at h
    simp only at h
    split at h
    · next hne =>
      rw [modern, local_modernBody.append hb t]
      simp only [List.length_append]
      rw [if_pos (by omega)]
    · cases h

/-! ## Two bytes decide -/

theorem oldPing_of_ne {a b : UInt8} (h : ¬(a = 0xFE ∧ b = 0x01)) (s : Bytes) :
    oldPing (a :: b :: s) = .error .NotMatching := by
  refine Reader.bind_error (if_neg fun hs => h ?_)
  injection hs with ha hs
  injection hs with hb
  exact ⟨ha, hb⟩

/-- Behind its magic bytes a legacy ping is not given up. -/
theorem oldPing_ne_notMatching (s : Bytes) : oldPing (0xFE :: 0x01 :: s) ≠ .error .NotMatching := by
  have hbody : (atLeast 32 >>= fun _ => expect (OLD_MINECRAFT_START.drop 2) .NotValid >>= fun _ =>
      oldPingBody).Never .NotMatching :=
    (never_atLeast (by decide) _).bind fun _ => (never_expect (by decide) _).bind fun _ =>
      (never_u16 (by decide)).bind fun _ => (never_u8 (by decide)).bind fun _ =>
        (never_utf16String (by decide) (by decide)).bind fun _ =>
          (never_refuse (by decide) _).bind fun _ =>
            (never_u32 (by decide)).bind fun _ => Reader.never_pure _ _
  have hmatch : expect [0xFE, 0x01] .NotMatching (0xFE :: 0x01 :: s) = .ok ((), s) :=
    expect_append _ _ _
  rw [oldPing, Reader.bind_ok hmatch]
  exact hbody s

theorem oldConnect_of_ne {a : UInt8} (h : a ≠ 0x02) (s : Bytes) :
    oldConnect (a :: s) = .error .NotMatching := by
  refine Reader.bind_error (if_neg fun hs => h ?_)
  injection hs

/-- Behind its first byte a legacy connect is not given up. -/
theorem oldConnect_ne_notMatching (s : Bytes) : oldConnect (0x02 :: s) ≠ .error .NotMatching := by
  have hbody : (u8 >>= fun version => utf16String >>= fun _ => utf16String >>= fun hostname =>
      u32 >>= fun port => pure (MinecraftHelloPacket.Fields.legacy version hostname port) :
        Reader PacketError _).Never .NotMatching :=
    (never_u8 (by decide)).bind fun _ => (never_utf16String (by decide) (by decide)).bind fun _ =>
      (never_utf16String (by decide) (by decide)).bind fun _ =>
        (never_u32 (by decide)).bind fun _ => Reader.never_pure _ _
  have hmatch : expect [0x02] .NotMatching (0x02 :: s) = .ok ((), s) := expect_append _ _ _
  rw [oldConnect, Reader.bind_ok hmatch]
  exact hbody s

theorem hello_of_ping {s : Bytes} (h : oldPing s ≠ .error .NotMatching) : hello s = oldPing s := by
  unfold hello
  split
  · next hp => exact absurd hp h
  · rfl

theorem hello_of_connect {s : Bytes} (hp : oldPing s = .error .NotMatching)
    (h : oldConnect s ≠ .error .NotMatching) : hello s = oldConnect s := by
  -- the equation of the last alternative holds by `h`
  simp only [hello, hp]

/-- **Two bytes decide which parser a buffer is for.** -/
theorem hello_cons (a b : UInt8) (s : Bytes) :
    hello (a :: b :: s) =
      if a = 0xFE ∧ b = 0x01 then oldPing (a :: b :: s)
      else if a = 0x02 then oldConnect (a :: b :: s)
      else modern (a :: b :: s) := by
  split
  · next h =>
    obtain ⟨rfl, rfl⟩ := h
    exact hello_of_ping (oldPing_ne_notMatching s)
  · next h =>
    have hping := oldPing_of_ne h s
    split
    · next h2 =>
      subst h2
      exact hello_of_connect hping (oldConnect_ne_notMatching _)
    · next h2 => simp only [hello, hping, oldConnect_of_ne h2]

/-- One byte is too little for every parser. -/
theorem hello_singleton (a : UInt8) :
    hello [a] = .error .TooSmall ∨ hello [a] = .error .NotValid := by
  have hping : oldPing [a] = .error .NotMatching := Reader.bind_error (if_neg (by simp))
  by_cases h : a = 0x02
  · subst h
    exact Or.inl (by rw [hello_of_connect hping (oldConnect_ne_notMatching [])]; rfl)
  · have hmodern : modern [a] = .error .NotValid := by
      have hbody : modernBody [a] = .error .NotValid := by
        cases hv : varint [a] with
        | error e =>
          have he : e = .NotValid := by
            by_contra hne
            exact never_varint (fun h => hne h.symm) _ hv
          rw [modernBody, Reader.bind_error hv, he]
        | ok v =>
          obtain ⟨pkgLength, r⟩ := v
          obtain ⟨n, -, hn, -, -, rfl⟩ := varint_eq_ok hv
          rw [modernBody, Reader.bind_ok hv, List.drop_of_length_le (by simp; omega)]
          rfl
      rw [modern, hbody]
    exact Or.inr (by simp only [hello, hping, oldConnect_of_ne h, hmodern])

theorem hello_nil : hello [] = .error .NotValid := rfl

/-- Every other answer is about two bytes at least. -/
theorem two_of_hello {s : Bytes} (hsmall : hello s ≠ .error .TooSmall)
    (hvalid : hello s ≠ .error .NotValid) : ∃ a b t, s = a :: b :: t := by
  match s with
  | [] => exact absurd hello_nil hvalid
  | [a] =>
    rcases hello_singleton a with h | h
    · exact absurd h hsmall
    · exact absurd h hvalid
  | a :: b :: t => exact ⟨a, b, t, rfl⟩

theorem two_of_hello_ok {s : Bytes} {v : MinecraftHelloPacket.Fields × Bytes}
    (h : hello s = .ok v) : ∃ a b t, s = a :: b :: t := by
  refine two_of_hello ?_ ?_
  · intro hsmall
    cases h.symm.trans hsmall
  · intro hvalid
    cases h.symm.trans hvalid

/-- The parsers of `minecraft.rs` leave the buffer to `decode_proxy`. -/
def GivenUp (s : Bytes) : Prop := hello s = .error .NotMatching ∨ hello s = .error .NotValid

theorem GivenUp.ne_ok {s : Bytes} (h : GivenUp s) (v : MinecraftHelloPacket.Fields × Bytes) :
    hello s ≠ .ok v := by
  intro hv
  rcases h with h | h
  · cases h.symm.trans hv
  · cases h.symm.trans hv

theorem never_oldConnect_notValid : oldConnect.Never .NotValid :=
  (never_expect (by decide) _).bind fun _ => (never_u8 (by decide)).bind fun _ =>
    (never_utf16String (by decide) (by decide)).bind fun _ =>
      (never_utf16String (by decide) (by decide)).bind fun _ =>
        (never_u32 (by decide)).bind fun _ => Reader.never_pure _ _

theorem not_givenUp_connect (b : UInt8) (s : Bytes) : ¬GivenUp (0x02 :: b :: s) := by
  have hconnect : hello (0x02 :: b :: s) = oldConnect (0x02 :: b :: s) := by
    rw [hello_cons, if_neg (by rintro ⟨h, -⟩; cases h), if_pos rfl]
  rintro (h | h) <;> rw [hconnect] at h
  · exact oldConnect_ne_notMatching _ h
  · exact never_oldConnect_notValid _ h

/-! ## The answer is there to stay -/

/-- **A hello stays a hello** when more bytes arrive. -/
theorem hello_append {s r : Bytes} {f : MinecraftHelloPacket.Fields} (h : hello s = .ok (f, r))
    (t : Bytes) : hello (s ++ t) = .ok (f, r ++ t) := by
  obtain ⟨a, b, s, rfl⟩ := two_of_hello_ok h
  rw [hello_cons] at h
  show hello (a :: b :: (s ++ t)) = _
  rw [hello_cons]
  split at h
  · next hab => rw [if_pos hab]; exact local_oldPing.append h t
  · next hab =>
    rw [if_neg hab]
    split at h
    · next ha => rw [if_pos ha]; exact local_oldConnect.append h t
    · next ha => rw [if_neg ha]; exact local_modern.append h t

theorem advances_expect {bs : Bytes} {e : PacketError} (h : bs ≠ []) : (expect bs e).Advances :=
  fun _ _ _ hs => by
    have hpos := List.length_pos_iff.mpr h
    rw [expect_length hs]
    omega

theorem advances_varint : varint.Advances := fun _ _ _ h => by
  obtain ⟨n, -, hpos, -, hlen, rfl⟩ := varint_eq_ok h
  rw [List.length_drop]
  omega

theorem advances_modern : modern.Advances := fun _ _ _ h => by
  obtain ⟨_, hbody, -⟩ := modern_eq_ok h
  have hadvances : modernBody.Advances := advances_varint.bind fun _ =>
    local_varint.bind fun _ => (local_refuse _ _).bind fun _ => local_varint.bind fun _ =>
      local_utf8String.bind fun _ => local_u16.bind fun _ => Reader.local_pure _
  exact hadvances hbody

/-- A hello is taken off the front of the buffer. -/
theorem hello_takes {s r : Bytes} {f : MinecraftHelloPacket.Fields} (h : hello s = .ok (f, r)) :
    (∃ c, s = c ++ r) ∧ r.length < s.length := by
  obtain ⟨a, b, s, rfl⟩ := two_of_hello_ok h
  rw [hello_cons] at h
  split at h
  · have hadvances : oldPing.Advances := (advances_expect (by simp)).bind fun _ =>
      (local_atLeast _).bind fun _ => (local_expect _ _).bind fun _ => local_oldPingBody
    exact ⟨local_oldPing.takes_front h, hadvances h⟩
  · split at h
    · have hadvances : oldConnect.Advances := (advances_expect (by simp)).bind fun _ =>
        local_u8.bind fun _ => local_utf16String.bind fun _ => local_utf16String.bind fun _ =>
          local_u32.bind fun _ => Reader.local_pure _
      exact ⟨local_oldConnect.takes_front h, hadvances h⟩
    · exact ⟨local_modern.takes_front h, advances_modern h⟩

/-- **An error that ends a connection stays the same error** when more bytes arrive. -/
theorem hello_lasting {e : PacketError} (he : Lasting e) : hello.Final e := by
  intro s h t
  obtain ⟨a, b, s, rfl⟩ := two_of_hello
    (fun hsmall => he.tooSmall (Except.error.inj (hsmall.symm.trans h)))
    (fun hvalid => he.notValid (Except.error.inj (hvalid.symm.trans h)))
  rw [hello_cons] at h
  show hello (a :: b :: (s ++ t)) = _
  rw [hello_cons]
  split at h
  · next hab => rw [if_pos hab]; exact final_oldPing he _ h t
  · next hab =>
    rw [if_neg hab]
    split at h
    · next ha => rw [if_pos ha]; exact final_oldConnect he _ h t
    · next ha => rw [if_neg ha]; exact final_modern he.tooSmall he.notValid _ h t

/-- **A buffer that no parser knows is not known later either.** -/
theorem hello_notMatching {s : Bytes} (h : hello s = .error .NotMatching) (t : Bytes) :
    hello (s ++ t) = .error .NotMatching := by
  obtain ⟨a, b, s, rfl⟩ := two_of_hello (fun hsmall => by cases h.symm.trans hsmall)
    fun hvalid => by cases h.symm.trans hvalid
  show hello (a :: b :: (s ++ t)) = _
  rw [hello_cons] at h ⊢
  split at h
  · next hab =>
    obtain ⟨rfl, rfl⟩ := hab
    exact absurd h (oldPing_ne_notMatching s)
  · next hab =>
    split at h
    · next ha =>
      subst ha
      exact absurd h (oldConnect_ne_notMatching _)
    · next ha =>
      rw [if_neg hab, if_neg ha]
      exact final_modern (by decide) (by decide) _ h t

/-- The bytes behind the first two are compared when 34 of them are there. -/
theorem final_oldPing_notValid : oldPing.Final .NotValid := by
  have hmagic : (atLeast 32 >>= fun _ => expect (OLD_MINECRAFT_START.drop 2) .NotValid >>= fun _ =>
      oldPingBody).Final .NotValid := by
    intro s h t
    rcases Reader.bind_eq_error.mp h with hshort | ⟨u, m, hlong, hm⟩
    · exact absurd hshort (never_atLeast (by decide) _ _)
    · obtain ⟨hlen, rfl⟩ := atLeast_eq_ok hlong
      have hrest : (expect (OLD_MINECRAFT_START.drop 2) .NotValid >>= fun _ =>
          oldPingBody).FinalFrom 25 .NotValid :=
        (finalFrom_expect (by decide) _ _).bind_final (local_expect _ _) fun _ =>
          final_oldPingBody (by decide)
      rw [Reader.bind_ok ((local_atLeast 32).append hlong t)]
      exact hrest m (by omega) hm t
  exact (never_expect (by decide) _).final.bind (local_expect _ _) fun _ => hmagic

/-- **What is not valid stays so**, once four varints are there. -/
theorem hello_notValid {s : Bytes} (hs : 20 ≤ s.length) (h : hello s = .error .NotValid)
    (t : Bytes) : hello (s ++ t) = .error .NotValid := by
  obtain ⟨a, b, s, rfl⟩ := exists_two (b := s) (by omega)
  show hello (a :: b :: (s ++ t)) = _
  rw [hello_cons] at h ⊢
  split at h
  · next hab =>
    rw [if_pos hab]
    exact final_oldPing_notValid _ h t
  · next hab =>
    split at h
    · next ha =>
      exact absurd h (never_oldConnect_notValid _)
    · next ha =>
      rw [if_neg hab, if_neg ha]
      exact finalFrom_modern _ hs h t

/-- Before that, only the modern handshake calls a buffer not valid. -/
theorem hello_notValid_short {a b : UInt8} {s : Bytes} (hs : s.length < 32)
    (h : hello (a :: b :: s) = .error .NotValid) : ¬(a = 0xFE ∧ b = 0x01) ∧ a ≠ 0x02 := by
  constructor
  · rintro ⟨rfl, rfl⟩
    have hshort : atLeast 32 s = .error .TooSmall := if_pos hs
    have hping : oldPing (0xFE :: 0x01 :: s) = .error .TooSmall :=
      (Reader.bind_ok (expect_append [0xFE, 0x01] s .NotMatching)).trans (Reader.bind_error hshort)
    rw [hello_cons, if_pos ⟨rfl, rfl⟩, hping] at h
    cases h
  · rintro rfl
    exact not_givenUp_connect _ _ (Or.inr h)

end CraftIp.Spec
