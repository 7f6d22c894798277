import CraftIp.Spec.Hello
import CraftIp.Spec.Varint

/-!
# A frame in front of the parsers

A frame of the proxy protocol starts with its length in two bytes and the tag of its packet
in four. The parsers of `minecraft.rs` read these six bytes first, as their own.

* `hello_header` — a frame with a clear length is given up
* `not_givenUp_header` — a frame with any other length is not
-/

namespace CraftIp

open Infra Spec

/-! ## Numbers in one, two and three bytes -/

theorem varint_one {a : UInt8} (ha : a.toNat < 128) (s : Bytes) :
    varint (a :: s) = .ok (Int32.ofNat a.toNat, s) := by
  have hleb : IsLeb [a] := (isLeb_cons_of_lt ha).mpr rfl
  have h := varint_leb hleb (by simp) s
  rw [lebValue, lebValue, Nat.mul_zero, Nat.add_zero, Nat.mod_eq_of_lt ha] at h
  exact h

theorem varint_two {a b : UInt8} (ha : 128 ≤ a.toNat) (hb : b.toNat < 128) (s : Bytes) :
    varint (a :: b :: s) = .ok (Int32.ofNat (a.toNat % 128 + 128 * b.toNat), s) := by
  have hleb : IsLeb [a, b] := (isLeb_cons_of_le ha).mpr ((isLeb_cons_of_lt hb).mpr rfl)
  have h := varint_leb hleb (by simp) s
  rw [lebValue, lebValue, lebValue, Nat.mul_zero, Nat.add_zero, Nat.mod_eq_of_lt hb] at h
  exact h

theorem varint_three {a b c : UInt8} (ha : 128 ≤ a.toNat) (hb : 128 ≤ b.toNat)
    (hc : c.toNat < 128) (s : Bytes) : varint (a :: b :: c :: s)
      = .ok (Int32.ofNat (a.toNat % 128 + 128 * (b.toNat % 128 + 128 * c.toNat)), s) := by
  have hleb : IsLeb [a, b, c] :=
    (isLeb_cons_of_le ha).mpr ((isLeb_cons_of_le hb).mpr ((isLeb_cons_of_lt hc).mpr rfl))
  have h := varint_leb hleb (by simp) s
  rw [lebValue, lebValue, lebValue, lebValue, Nat.mul_zero, Nat.add_zero, Nat.mod_eq_of_lt hc] at h
  exact h

theorem varint_zero (s : Bytes) : varint (0 :: s) = .ok (0, s) := varint_one (by decide) s

theorem ofNat_eq_zero {n : Nat} (hn : n < 2 ^ 31) : Int32.ofNat n = 0 ↔ n = 0 := by
  constructor
  · intro h
    rw [← asUsize_ofNat hn, h]
    rfl
  · rintro rfl
    rfl

/-! ## The three parsers -/

/-- An empty string in front of more bytes. -/
theorem utf8String_zero (s : Bytes) : utf8String (0 :: s) = .ok ("", s) := by
  have hempty : utf8 "" = [] := rfl
  have h := utf8String_utf8 (t := "") (by decide) s
  rw [hempty, List.length_nil, leb_of_lt (by decide)] at h
  exact h

theorem modern_id_ne {s m r : Bytes} {length id : Int32} (hlength : varint s = .ok (length, m))
    (hid : varint m = .ok (id, r)) (hne : id ≠ 0) : modern s = .error .NotMatching := by
  have hbody : modernBody s = .error .NotMatching := by
    refine (Reader.bind_ok hlength).trans ((Reader.bind_ok hid).trans ?_)
    exact Reader.bind_error (refuse_of hne .NotMatching r)
  rw [modern, hbody]

/-- A handshake with id zero and no hostname stands or falls with its announced length. -/
theorem modern_empty {s m m' r : Bytes} {length version : Int32} {a b : UInt8}
    (hlength : varint s = .ok (length, m)) (hid : varint m = .ok (0, m'))
    (hversion : varint m' = .ok (version, 0 :: a :: b :: r)) :
    ∃ f, modern s =
      if s.length - r.length ≠ asUsize length then .error .NotValid else .ok (f, r) := by
  have hpass : refuse ((0 : Int32) ≠ 0) .NotMatching m' = .ok ((), m') :=
    refuse_of_not (by decide) .NotMatching m'
  have hbody : modernBody s
      = .ok ((length, ⟨0, version, "", (UInt16.ofNat (beValue [a, b])).toUInt32⟩), r) := by
    refine (Reader.bind_ok hlength).trans ((Reader.bind_ok hid).trans ?_)
    refine (Reader.bind_ok hpass).trans ((Reader.bind_ok hversion).trans ?_)
    exact (Reader.bind_ok (utf8String_zero _)).trans (Reader.bind_ok (u16_cons a b r))
  exact ⟨_, by rw [modern, hbody]⟩

theorem byte_eq_zero_iff (b : UInt8) : b = 0 ↔ b.toNat = 0 :=
  ⟨fun h => by rw [h]; rfl, fun h => UInt8.toNat_inj.mp h⟩

/-! ## The six bytes of a frame -/

section Header

variable {hi lo t : UInt8} {s : Bytes}

/-- The lengths of the frames that start like a handshake of exactly this length. -/
def HandshakeLength (t : UInt8) (n : Nat) : Prop :=
  n = 1536 ∨ t.toNat = 0 ∧ (n = 1920 ∨ n = 34560 ∨ n = 34944)

instance (t : UInt8) (n : Nat) : Decidable (HandshakeLength t n) :=
  inferInstanceAs (Decidable (_ ∨ _))

/-- The lengths of the frames that no parser takes for its own. -/
def ClearLength (t : UInt8) (n : Nat) : Prop := ¬(512 ≤ n ∧ n < 768) ∧ ¬HandshakeLength t n

instance (t : UInt8) (n : Nat) : Decidable (ClearLength t n) :=
  inferInstanceAs (Decidable (_ ∧ _))

theorem clearLength_iff {n : Nat} (ht : t ≠ 0) :
    ClearLength t n ↔ ¬(512 ≤ n ∧ n < 768) ∧ n ≠ 1536 := by
  simp [ClearLength, HandshakeLength, mt (byte_eq_zero_iff t).mpr ht]

/-- A handshake without a hostname, of `n` bytes in all. -/
theorem modern_of_length {p : Prop} [Decidable p] {s r : Bytes} {f : MinecraftHelloPacket.Fields}
    {k n : Nat} (h : modern s = if s.length - r.length ≠ asUsize (Int32.ofNat n) then
      .error .NotValid else .ok (f, r)) (hn : n < 2 ^ 31) (hk : s.length = r.length + k)
    (hp : p ↔ n = k) :
    if p then ∃ f r, modern s = .ok (f, r)
    else modern s = .error .NotMatching ∨ modern s = .error .NotValid := by
  rw [asUsize_ofNat hn, hk, Nat.add_sub_cancel_left] at h
  split
  · next hyes => exact ⟨f, r, by rw [h, if_neg (fun hne => hne (hp.mp hyes).symm)]⟩
  · next hno => exact Or.inr (by rw [h, if_pos fun he => hno (hp.mpr he.symm)])

/-- What the handshake parser says to a frame. -/
theorem modern_header (ht : t.toNat < 128) (hs : hi.toNat * 256 + lo.toNat ≤ 4 + s.length) :
    if HandshakeLength t (hi.toNat * 256 + lo.toNat) then
      ∃ f r, modern (hi :: lo :: t :: 0 :: 0 :: 0 :: s) = .ok (f, r)
    else modern (hi :: lo :: t :: 0 :: 0 :: 0 :: s) = .error .NotMatching ∨
      modern (hi :: lo :: t :: 0 :: 0 :: 0 :: s) = .error .NotValid := by
  have hlt := UInt8.toNat_lt hi
  have hlt' := UInt8.toNat_lt lo
  have hother {id : Nat} (hid : id ≠ 0) (hid' : id < 2 ^ 31) : Int32.ofNat id ≠ 0 :=
    mt (ofNat_eq_zero hid').mp hid
  by_cases hhi : hi.toNat < 128
  · by_cases hlo : lo.toNat < 128
    · by_cases hlo0 : lo.toNat = 0
      · -- the length, id zero, the tag as the version
        obtain rfl := (byte_eq_zero_iff lo).mpr hlo0
        obtain ⟨f, hf⟩ := modern_empty (varint_one hhi _) (varint_zero _)
          (varint_one ht (0 :: 0 :: 0 :: s))
        exact modern_of_length hf (by omega) (k := 6) rfl (by unfold HandshakeLength; omega)
      · rw [if_neg (by unfold HandshakeLength; omega)]
        exact Or.inl (modern_id_ne (varint_one hhi _) (varint_one hlo _) (hother hlo0 (by omega)))
    · by_cases hid : lo.toNat % 128 + 128 * t.toNat = 0
      · -- the id is zero in two bytes
        have hid2 := varint_two (a := lo) (by omega) ht (0 :: 0 :: 0 :: s)
        rw [hid] at hid2
        obtain ⟨a, s, rfl⟩ : ∃ a s', s = a :: s' := List.exists_cons_of_length_pos (by omega)
        obtain ⟨f, hf⟩ := modern_empty (varint_one hhi _) hid2 (varint_zero (0 :: 0 :: a :: s))
        exact modern_of_length hf (by omega) (k := 7) rfl (by unfold HandshakeLength; omega)
      · rw [if_neg (by unfold HandshakeLength; omega)]
        exact Or.inl (modern_id_ne (varint_one hhi _) (varint_two (by omega) ht _)
          (hother hid (by omega)))
  · have hhi' : 128 ≤ hi.toNat := by omega
    by_cases hlo : lo.toNat < 128
    · by_cases ht0 : t.toNat = 0
      · -- a length in two bytes, and the tag is the id
        obtain rfl := (byte_eq_zero_iff t).mpr ht0
        obtain ⟨a, s, rfl⟩ : ∃ a s', s = a :: s' := List.exists_cons_of_length_pos (by omega)
        obtain ⟨f, hf⟩ := modern_empty (varint_two hhi' hlo _) (varint_zero _)
          (varint_zero (0 :: 0 :: a :: s))
        exact modern_of_length hf (by omega) (k := 7) rfl (by unfold HandshakeLength; omega)
      · rw [if_neg (by unfold HandshakeLength; omega)]
        exact Or.inl (modern_id_ne (varint_two hhi' hlo _) (varint_one ht _)
          (hother ht0 (by omega)))
    · -- a length in three bytes, the tag the last one
      have hlo' : 128 ≤ lo.toNat := by omega
      obtain ⟨a, b, s, rfl⟩ := exists_two (b := s) (by omega)
      obtain ⟨f, hf⟩ := modern_empty (varint_three hhi' hlo' ht _) (varint_zero _)
        (varint_zero (0 :: a :: b :: s))
      exact modern_of_length hf (by omega) (k := 8) rfl (by unfold HandshakeLength; omega)

/-- **A frame with a clear length is given up.** -/
theorem hello_header (ht : t.toNat < 128) (hs : hi.toNat * 256 + lo.toNat ≤ 4 + s.length)
    (hclear : ClearLength t (hi.toNat * 256 + lo.toNat)) :
    GivenUp (hi :: lo :: t :: 0 :: 0 :: 0 :: s) := by
  obtain ⟨hconnect, hhandshake⟩ := hclear
  have h2 : hi ≠ 2 := by
    rintro rfl
    have := UInt8.toNat_lt lo
    have h2 : (2 : UInt8).toNat = 2 := rfl
    omega
  rw [GivenUp, hello_cons, if_neg h2]
  split
  · next hping =>
    obtain ⟨rfl, rfl⟩ := hping
    have hlong : atLeast 32 (t :: 0 :: 0 :: 0 :: s) = .ok ((), t :: 0 :: 0 :: 0 :: s) := by
      refine if_neg ?_
      have h1 : (0xFE : UInt8).toNat = 254 := rfl
      simp only [List.length_cons]
      omega
    have hmagic : expect (OLD_MINECRAFT_START.drop 2) .NotValid (t :: 0 :: 0 :: 0 :: s)
        = .error .NotValid := by
      refine if_neg ?_
      intro h
      injection h with h
      rw [h] at ht
      exact absurd ht (by decide)
    right
    refine (Reader.bind_ok (expect_append [0xFE, 0x01] _ .NotMatching)).trans ?_
    exact (Reader.bind_ok hlong).trans (Reader.bind_error hmagic)
  · have hmodern := modern_header ht hs
    rwa [if_neg hhandshake] at hmodern

/-- The length byte `2`: a legacy connect whose username has not arrived. -/
theorem hello_connectLength {lo t : UInt8} {s : Bytes} (hs : s.length + 2 ≤ t.toNat * 512) :
    hello (0x02 :: lo :: t :: 0 :: 0 :: 0 :: s) = .error .TooSmall := by
  have hshort : bytesAndMore ((UInt16.ofNat (beValue [t, 0])).toNat * 2) (0 :: 0 :: s)
      = .error .TooSmall := by
    refine if_pos ?_
    rw [u16_toNat, List.length_cons, List.length_cons, show (0 : UInt8).toNat = 0 from rfl]
    omega
  rw [hello_cons, if_neg (by rintro ⟨h, -⟩; cases h), if_pos rfl]
  refine (Reader.bind_ok (expect_append [0x02] _ .NotMatching)).trans ?_
  refine (Reader.bind_ok (u8_cons lo _)).trans ?_
  refine Reader.bind_error ((Reader.bind_ok (u16_cons t 0 _)).trans ?_)
  exact Reader.bind_error hshort

/-- A frame with another length looks like a legacy connect, or is a handshake. -/
theorem hello_notClear (ht : t.toNat < 128) (hs : hi.toNat * 256 + lo.toNat ≤ 4 + s.length)
    (hclear : ¬ClearLength t (hi.toNat * 256 + lo.toNat)) :
    hi = 2 ∨ ∃ f r, hello (hi :: lo :: t :: 0 :: 0 :: 0 :: s) = .ok (f, r) := by
  by_cases h2 : hi = 2
  · exact Or.inl h2
  · have hlt := UInt8.toNat_lt lo
    have hhi : hi.toNat ≠ 2 := fun h => h2 (UInt8.toNat_inj.mp h)
    have hhandshake : HandshakeLength t (hi.toNat * 256 + lo.toNat) := by
      by_contra hno
      exact hclear ⟨by omega, hno⟩
    have hping : ¬(hi = 0xFE ∧ lo = 0x01) := by
      rintro ⟨rfl, rfl⟩
      have hlength : (0xFE : UInt8).toNat * 256 + (0x01 : UInt8).toNat = 65025 := rfl
      rw [hlength] at hhandshake
      unfold HandshakeLength at hhandshake
      omega
    have hmodern := modern_header ht hs
    rw [if_pos hhandshake] at hmodern
    rw [hello_cons, if_neg hping, if_neg h2]
    exact Or.inr hmodern

/-- **A frame with another length is not given up.** -/
theorem not_givenUp_header (ht : t.toNat < 128) (hs : hi.toNat * 256 + lo.toNat ≤ 4 + s.length)
    (hclear : ¬ClearLength t (hi.toNat * 256 + lo.toNat)) :
    ¬GivenUp (hi :: lo :: t :: 0 :: 0 :: 0 :: s) := by
  rcases hello_notClear ht hs hclear with rfl | ⟨f, r, hf⟩
  · exact not_givenUp_connect _ _
  · exact fun hup => hup.ne_ok _ hf

end Header

end CraftIp
