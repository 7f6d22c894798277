import CraftIp.Spec.Varint

/-!
# `get_varint` and the varints of an `i32`

* `getVarint_exact` — every varint is read back wherever it stands, what is read is the sum
  of the groups, and there is an error only if none of the first five bytes ends a number
-/

namespace CraftIp

open Infra Spec

/-- The varint of an `i32`: its bits as a `u32`, in the shortest bytes. -/
def enc (v : Int32) : Bytes := leb v.toUInt32.toNat

/-- What `get_varint` has read: `n` bytes at `start`, which are the number `v`. -/
structure ReadsVarint (buf : Bytes) (start : Nat) (v : Int32) (n : Nat) : Prop where
  size : 1 ≤ n ∧ n ≤ 5
  inside : start + n ≤ buf.length
  more : ∀ i, i + 1 < n → buf.getD (start + i) 0 &&& 0x80 ≠ 0
  last : buf.getD (start + (n - 1)) 0 &&& 0x80 = 0
  value : v.toInt = Int.bmod
    (∑ i ∈ Finset.range n, (buf.getD (start + i) 0 &&& 0x7F).toNat * 2 ^ (7 * i) : Nat) (2 ^ 32)

theorem length_enc (v : Int32) : 1 ≤ (enc v).length ∧ (enc v).length ≤ 5 := by
  have hlt : v.toUInt32.toNat < 2 ^ 32 := v.toUInt32.toNat_lt
  exact ⟨List.length_pos_iff.mpr (isLeb_leb _).ne_nil, leb_length_le (k := 4) (by omega)⟩

theorem getVarint_enc (v : Int32) (a c : Bytes) :
    getVarint (a ++ enc v ++ c) a.length = .ok (v, (enc v).length) := by
  refine getVarint_iff.mpr ⟨enc v, c, ?_, isLeb_leb _, (length_enc v).2, ?_, rfl⟩
  · rw [List.append_assoc, List.drop_left]
  · rw [enc, lebValue_leb]
    exact (ofNat_bits v).symm

/-- The bytes at `start`, counted from there. -/
theorem getD_of_drop {buf bs r : Bytes} {start i : Nat} (h : buf.drop start = bs ++ r)
    (hi : i < bs.length) : buf.getD (start + i) 0 = bs.getD i 0 := by
  rw [List.getD_eq_getElem?_getD, List.getD_eq_getElem?_getD, ← List.getElem?_drop, h,
    List.getElem?_append_left hi]

theorem readsVarint_of_getVarint {buf : Bytes} {start n : Nat} {v : Int32}
    (h : getVarint buf start = .ok (v, n)) : ReadsVarint buf start v n := by
  obtain ⟨bs, r, hdrop, hbs, hlen, rfl, rfl⟩ := getVarint_iff.mp h
  have hpos := List.length_pos_iff.mpr hbs.ne_nil
  have hinside := congrArg List.length hdrop
  rw [List.length_drop, List.length_append] at hinside
  refine ⟨⟨hpos, hlen⟩, by omega, ?_, ?_, ?_⟩
  · intro i hi
    rw [getD_of_drop hdrop (by omega)]
    exact fun hz => absurd ((and_0x80_eq_zero_iff _).mp hz) (Nat.not_lt_of_le (hbs.more hi))
  · rw [getD_of_drop hdrop (by omega)]
    exact (and_0x80_eq_zero_iff _).mpr hbs.last
  · have hsum : lebValue bs = ∑ i ∈ Finset.range bs.length,
        (buf.getD (start + i) 0 &&& 0x7F).toNat * 2 ^ (7 * i) := by
      rw [lebValue_eq_sum]
      refine Finset.sum_congr rfl ?_
      intro i hi
      rw [getD_of_drop hdrop (Finset.mem_range.mp hi), and_0x7F_toNat]
    rw [← hsum]
    exact Int32.toInt_ofNat'

/-- There is an error exactly when none of the first five bytes ends a number. -/
theorem getVarint_error_iff {buf : Bytes} {start : Nat} :
    (∃ e, getVarint buf start = .error e) ↔
      ∀ i < 5, ∀ b, buf[start + i]? = some b → b &&& 0x80 ≠ 0 := by
  constructor
  · rintro ⟨e, he⟩ i hi b hb hz
    rw [← List.getElem?_drop] at hb
    obtain ⟨bs, r, hdrop, hbs, hlen⟩ := exists_isLeb hb ((and_0x80_eq_zero_iff b).mp hz)
    have hok := getVarint_iff.mpr ⟨bs, r, hdrop, hbs, by omega, rfl, rfl⟩
    rw [he] at hok
    cases hok
  · intro h
    cases hg : getVarint buf start with
    | error e => exact ⟨e, rfl⟩
    | ok w =>
      obtain ⟨v, n⟩ := w
      have hr := readsVarint_of_getVarint hg
      obtain ⟨hpos, hlen⟩ := hr.size
      have hinside := hr.inside
      have hlast : buf[start + (n - 1)]? = some (buf.getD (start + (n - 1)) 0) := by
        rw [List.getD_eq_getElem?_getD, List.getElem?_eq_getElem (by omega)]
        rfl
      exact absurd hr.last (h (n - 1) (by omega) _ hlast)

/--
**`get_varint` inverts the varints of 32 bits.** It reads every varint back wherever it
stands, every other success is a number of one to five bytes, and it fails exactly when none
of the first five bytes ends one.
-/
theorem getVarint_exact :
    (∀ (v : Int32) (a c : Bytes), getVarint (a ++ enc v ++ c) a.length = .ok (v, (enc v).length)) ∧
    (∀ v : Int32, 1 ≤ (enc v).length ∧ (enc v).length ≤ 5) ∧
    (∀ (buf : Bytes) (start n : Nat) (v : Int32),
      getVarint buf start = .ok (v, n) → ReadsVarint buf start v n) ∧
    ∀ (buf : Bytes) (start : Nat), (∃ e, getVarint buf start = .error e) ↔
      ∀ i < 5, ∀ b, buf[start + i]? = some b → b &&& 0x80 ≠ 0 :=
  ⟨getVarint_enc, length_enc, fun _ _ _ _ => readsVarint_of_getVarint,
    fun _ _ => getVarint_error_iff⟩

/-- `-1` behind another byte. -/
theorem getVarint_exact_minusOne :
    ReadsVarint [7, 0xFF, 0xFF, 0xFF, 0xFF, 0x0F] 1 (-1) 5 :=
  getVarint_exact.2.2.1 _ 1 5 (-1) rfl

end CraftIp
