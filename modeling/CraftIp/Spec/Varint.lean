import CraftIp.Infra.Leb128
import CraftIp.Spec.Readers

/-!
# Varints

`get_varint` collects the groups of a LEB128 number with shifts and ors in an `i32`.
`varint_leb` says what comes out of it: the number, cut to 32 bits.
-/

namespace CraftIp.Spec

open Infra

/-! ## One byte -/

/-- The highest bit of a byte. -/
theorem and_0x80_eq_zero_iff (b : UInt8) : b &&& 0x80 = 0 ↔ b.toNat < 128 := by
  have htable : ∀ i : Fin 256, UInt8.ofNat i &&& 0x80 = 0 ↔ i.val < 128 := by decide +kernel
  have h := htable ⟨b.toNat, UInt8.toNat_lt b⟩
  simpa only [UInt8.ofNat_toNat] using h

/-- The seven lowest bits of a byte. -/
theorem and_0x7F_toNat (b : UInt8) : (b &&& 0x7F).toNat = b.toNat % 128 := by
  rw [UInt8.toNat_and]
  exact Nat.and_two_pow_sub_one_eq_mod b.toNat 7

/-! ## The accumulator -/

/-- The bits of an `i32` as a number. -/
def bits (v : Int32) : Nat := v.toBitVec.toNat

/-- The shift of the `k`-th group. -/
theorem shift_eq {k : Nat} (hk : k < 5) (x : Int32) :
    (x <<< Int32.ofNat (7 * k)).toBitVec = x.toBitVec <<< (7 * k) := by
  have hmod : ((Int32.ofNat (7 * k)).toBitVec.smod 32).toNat = 7 * k := by
    match k, hk with
    | 0, _ | 1, _ | 2, _ | 3, _ | 4, _ => decide
  rw [Int32.toBitVec_shiftLeft, BitVec.shiftLeft_eq', hmod]

/-- The position of the next group. -/
theorem position_succ (k : Nat) : Int32.ofNat (7 * k) + 7 = Int32.ofNat (7 * (k + 1)) := by
  rw [Nat.mul_add, Int32.ofNat_add]
  rfl

/-- A group goes where no bit is set yet, so `or` adds it. -/
theorem bits_or_shift {v : Int32} {x : UInt8} {k : Nat} (hk : k < 5) (hv : bits v < 2 ^ (7 * k)) :
    bits (v ||| x.toUInt32.toInt32 <<< Int32.ofNat (7 * k))
      = (bits v + x.toNat * 2 ^ (7 * k)) % 2 ^ 32 := by
  have hx : x.toUInt32.toInt32.toBitVec.toNat = x.toNat := UInt8.toNat_toUInt32 x
  have hpow : 2 ^ 32 = 2 ^ (32 - 7 * k) * 2 ^ (7 * k) := by
    rw [← pow_add, Nat.sub_add_cancel (by omega)]
  -- only the lowest bits of the last group fit
  have hcut : x.toNat * 2 ^ (7 * k) % 2 ^ 32 = 2 ^ (7 * k) * (x.toNat % 2 ^ (32 - 7 * k)) := by
    rw [hpow, Nat.mul_mod_mul_right, Nat.mul_comm]
  have hsmall : bits v < 2 ^ 32 := v.toBitVec.isLt
  have hbelow : v.toBitVec.toNat < 2 ^ (7 * k) := hv
  have hfit : bits v + 2 ^ (7 * k) * (x.toNat % 2 ^ (32 - 7 * k)) < 2 ^ 32 := by
    have hlt : x.toNat % 2 ^ (32 - 7 * k) < 2 ^ (32 - 7 * k) := Nat.mod_lt _ (Nat.two_pow_pos _)
    calc bits v + 2 ^ (7 * k) * (x.toNat % 2 ^ (32 - 7 * k))
        < 2 ^ (7 * k) * (x.toNat % 2 ^ (32 - 7 * k) + 1) := by rw [Nat.mul_add]; omega
      _ ≤ 2 ^ (7 * k) * 2 ^ (32 - 7 * k) := Nat.mul_le_mul_left _ hlt
      _ = 2 ^ 32 := by rw [hpow, Nat.mul_comm]
  rw [bits, Int32.toBitVec_or, BitVec.toNat_or, shift_eq hk, BitVec.toNat_shiftLeft, hx,
    Nat.shiftLeft_eq, hcut, Nat.or_comm, ← Nat.two_pow_add_eq_or_of_lt hbelow, ← Nat.add_mod_mod,
    hcut, Nat.mod_eq_of_lt hfit, Nat.add_comm, bits]

theorem ofNat_bits (v : Int32) : Int32.ofNat (bits v) = v := by
  rw [← Int32.toBitVec_inj, Int32.toBitVec_ofNat', bits, BitVec.ofNat_toNat, BitVec.setWidth_eq]

theorem ofNat_mod (n : Nat) : Int32.ofNat (n % 2 ^ 32) = Int32.ofNat n := by
  rw [← Int32.toBitVec_inj, Int32.toBitVec_ofNat', Int32.toBitVec_ofNat', ← BitVec.toNat_inj,
    BitVec.toNat_ofNat, BitVec.toNat_ofNat, Nat.mod_mod]

/-! ## The loop -/

/-- **The loop reads one number**, from the group it has come to. -/
theorem getVarintLoop_leb : ∀ (bs pre s : Bytes) (left : Nat) (v : Int32), IsLeb bs →
    pre.length + left = 5 → bs.length ≤ left → bits v < 2 ^ (7 * pre.length) →
      getVarintLoop (pre ++ (bs ++ s)) 0 left pre.length (Int32.ofNat (7 * pre.length)) v
        = .ok (Int32.ofNat (bits v + lebValue bs * 2 ^ (7 * pre.length)), pre.length + bs.length) := by
  intro bs
  induction bs with
  | nil => intro pre s left v h; exact absurd h id
  | cons b bs ih =>
    intro pre s left v h hleft hlen hv
    rw [List.length_cons] at hlen
    obtain ⟨left, rfl⟩ : ∃ n, left = n + 1 := ⟨left - 1, by omega⟩
    have hbyte : (pre ++ (b :: bs ++ s))[pre.length + 0]? = some b := by
      rw [Nat.add_zero, List.getElem?_append_right (Nat.le_refl _), Nat.sub_self]
      rfl
    have hgroup := bits_or_shift (x := b &&& 0x7F) (k := pre.length) (by omega) hv
    rw [and_0x7F_toNat] at hgroup
    rw [getVarintLoop, hbyte]
    simp only
    generalize hv' : v ||| (b &&& 0x7F).toUInt32.toInt32 <<< Int32.ofNat (7 * pre.length) = v' at *
    by_cases hb : b.toNat < 128
    · obtain rfl := (isLeb_cons_of_lt hb).mp h
      have hsum : Int32.ofNat (bits v + lebValue [b] * 2 ^ (7 * pre.length)) = v' := by
        rw [lebValue, lebValue, Nat.mul_zero, Nat.add_zero, ← ofNat_mod, ← hgroup, ofNat_bits]
      rw [if_pos ((and_0x80_eq_zero_iff b).mpr hb), hsum]
      rfl
    · have hmore := (isLeb_cons_of_le (by omega)).mp h
      have hpos := List.length_pos_iff.mpr hmore.ne_nil
      have hgrow : bits v + b.toNat % 128 * 2 ^ (7 * pre.length) < 2 ^ (7 * (pre.length + 1)) := by
        have hlow : b.toNat % 128 < 128 := Nat.mod_lt _ (by decide)
        calc bits v + b.toNat % 128 * 2 ^ (7 * pre.length)
            < (b.toNat % 128 + 1) * 2 ^ (7 * pre.length) := by rw [Nat.add_mul]; omega
          _ ≤ 2 ^ 7 * 2 ^ (7 * pre.length) := Nat.mul_le_mul_right _ hlow
          _ = 2 ^ (7 * (pre.length + 1)) := by rw [← pow_add, Nat.mul_add, Nat.add_comm]
      have hfit : 2 ^ (7 * (pre.length + 1)) ≤ 2 ^ 32 := Nat.pow_le_pow_right (by decide) (by omega)
      rw [Nat.mod_eq_of_lt (by omega)] at hgroup
      have hnext : (pre ++ [b]).length = pre.length + 1 := by simp
      have hrest := ih (pre ++ [b]) s left v' hmore (by omega) (by omega)
        (by rw [hgroup, hnext]; exact hgrow)
      rw [hnext, List.append_assoc] at hrest
      rw [if_neg (mt (and_0x80_eq_zero_iff b).mp hb), position_succ]
      refine hrest.trans ?_
      rw [hgroup, lebValue, List.length_cons]
      have hvalue : bits v + b.toNat % 128 * 2 ^ (7 * pre.length)
          + lebValue bs * 2 ^ (7 * (pre.length + 1))
            = bits v + (b.toNat % 128 + 128 * lebValue bs) * 2 ^ (7 * pre.length) := by
        rw [Nat.mul_add, pow_add]
        ring
      rw [hvalue, Nat.add_assoc, Nat.add_comm 1]

/-- **`get_varint` reads one number of at most five groups**, cut to 32 bits. -/
theorem getVarint_leb {bs : Bytes} (h : IsLeb bs) (hlen : bs.length ≤ 5) (s : Bytes) :
    CraftIp.getVarint (bs ++ s) 0 = .ok (Int32.ofNat (lebValue bs), bs.length) := by
  have hloop := getVarintLoop_leb bs [] s 5 0 h rfl hlen (by decide)
  refine Eq.trans hloop ?_
  rw [List.length_nil, Nat.mul_zero, pow_zero, Nat.mul_one, Nat.zero_add,
    show bits 0 = 0 from rfl, Nat.zero_add]

theorem varint_leb {bs : Bytes} (h : IsLeb bs) (hlen : bs.length ≤ 5) (s : Bytes) :
    varint (bs ++ s) = .ok (Int32.ofNat (lebValue bs), s) := by
  rw [varint, getVarint_leb h hlen s]
  simp only [List.drop_left]

/-- The loop stops behind a number. -/
theorem isLeb_of_getVarintLoop : ∀ {left : Nat} (pre : Bytes) {s : Bytes}
    {position value v : Int32} {n : Nat},
    getVarintLoop (pre ++ s) 0 left pre.length position value = .ok (v, n) →
      ∃ bs r, IsLeb bs ∧ bs.length ≤ left ∧ s = bs ++ r := by
  intro left
  induction left with
  | zero => intro pre s position value v n h; cases h
  | succ left ih =>
    intro pre s position value v n h
    cases s with
    | nil =>
      rw [getVarintLoop, List.append_nil, Nat.add_zero, List.getElem?_eq_none (Nat.le_refl _)] at h
      cases h
    | cons b s =>
      have hbyte : (pre ++ b :: s)[pre.length + 0]? = some b := by
        rw [Nat.add_zero, List.getElem?_append_right (Nat.le_refl _), Nat.sub_self]
        rfl
      rw [getVarintLoop, hbyte] at h
      simp only at h
      by_cases hb : b.toNat < 128
      · exact ⟨[b], s, (isLeb_cons_of_lt hb).mpr rfl, Nat.le_add_left _ _, rfl⟩
      · have hnext : (pre ++ [b]).length = pre.length + 1 := by simp
        rw [if_neg (mt (and_0x80_eq_zero_iff b).mp hb), List.append_cons, ← hnext] at h
        obtain ⟨bs, r, hbs, hlen, rfl⟩ := ih (pre ++ [b]) h
        exact ⟨b :: bs, r, (isLeb_cons_of_le (by omega)).mpr hbs, Nat.succ_le_succ hlen, rfl⟩

/-- **`get_varint` reads what stands at `start`**, and nothing else. -/
theorem getVarint_iff {buf : Bytes} {start n : Nat} {v : Int32} :
    CraftIp.getVarint buf start = .ok (v, n) ↔ ∃ bs r, buf.drop start = bs ++ r ∧ IsLeb bs ∧
      bs.length ≤ 5 ∧ v = Int32.ofNat (lebValue bs) ∧ n = bs.length := by
  have hdrop : CraftIp.getVarint buf start = CraftIp.getVarint (buf.drop start) 0 :=
    getVarintLoop_drop buf start 5 0 0 0
  rw [hdrop]
  constructor
  · intro h
    obtain ⟨bs, r, hbs, hlen, heq⟩ := isLeb_of_getVarintLoop [] h
    rw [heq, getVarint_leb hbs hlen] at h
    cases h
    exact ⟨bs, r, heq, hbs, hlen, rfl, rfl⟩
  · rintro ⟨bs, r, heq, hbs, hlen, rfl, rfl⟩
    rw [heq, getVarint_leb hbs hlen]

/-- **Only such a number is read.** -/
theorem varint_takes {s r : Bytes} {v : Int32} (h : varint s = .ok (v, r)) :
    ∃ bs, IsLeb bs ∧ bs.length ≤ 5 ∧ s = bs ++ r ∧ v = Int32.ofNat (lebValue bs) := by
  obtain ⟨n, hget, -, -, -, rfl⟩ := varint_eq_ok h
  obtain ⟨bs, r', heq, hbs, hlen, rfl, rfl⟩ := getVarint_iff.mp hget
  rw [List.drop_zero] at heq
  subst heq
  exact ⟨bs, hbs, hlen, by rw [List.drop_left], rfl⟩

/-- The number of a canonical varint is read back. -/
theorem varint_leb_of_lt {n : Nat} (h : n < 2 ^ 31) (s : Bytes) :
    varint (leb n ++ s) = .ok (Int32.ofNat n, s) := by
  have hlen : (leb n).length ≤ 5 := leb_length_le (k := 4) (by omega)
  rw [varint_leb (isLeb_leb n) hlen, lebValue_leb]

theorem asUsize_ofNat {n : Nat} (h : n < 2 ^ 31) : asUsize (Int32.ofNat n) = n := by
  rw [asUsize, Int32.toInt_ofNat_of_lt h]
  omega

/-- A string behind its length is read. -/
theorem utf8String_utf8 {t : String} (ht : (utf8 t).length < 2 ^ 31) (s : Bytes) :
    utf8String (leb (utf8 t).length ++ (utf8 t ++ s)) = .ok (t, s) := by
  have htext : utf8Text (utf8 t) = pure t := by rw [utf8Text, fromUtf8_utf8]
  refine (Reader.bind_ok (varint_leb_of_lt ht _)).trans ?_
  rw [asUsize_ofNat ht]
  refine (Reader.bind_ok (Reader.bytes_append PacketError.TooSmall (utf8 t) s)).trans ?_
  rw [htext]
  rfl

end CraftIp.Spec
