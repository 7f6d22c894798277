import CraftIp.Infra.Bytes
import Mathlib.Algebra.BigOperators.Ring.Finset

/-!
# LEB128

Numbers in groups of seven bits, lowest group first. The highest bit of a byte says that
another group follows.

* `IsLeb` — the byte strings that are one number
* `lebValue` — the number
* `leb` — the shortest string of a number (`isLeb_leb`, `lebValue_leb`)

Byte by byte: every byte but the last one goes on (`IsLeb.more`, `IsLeb.last`), the number is
the sum of the shifted groups (`lebValue_eq_sum`), and the first byte that does not go on is
the end of a number (`exists_isLeb`).
-/

namespace CraftIp.Infra

/-- One number: every byte but the last has its highest bit set. -/
def IsLeb : Bytes → Prop
  | [] => False
  | b :: bs => if b.toNat < 128 then bs = [] else IsLeb bs

/-- The number whose groups are the lowest seven bits of these bytes. -/
def lebValue : Bytes → Nat
  | [] => 0
  | b :: bs => b.toNat % 128 + 128 * lebValue bs

/-- The shortest bytes of a number. -/
def leb (n : Nat) : Bytes :=
  if n < 128 then [UInt8.ofNat n] else UInt8.ofNat (n % 128 + 128) :: leb (n / 128)

theorem leb_of_lt {n : Nat} (h : n < 128) : leb n = [UInt8.ofNat n] := by
  rw [leb, if_pos h]

theorem leb_of_le {n : Nat} (h : 128 ≤ n) :
    leb n = UInt8.ofNat (n % 128 + 128) :: leb (n / 128) := by
  rw [leb, if_neg (by omega)]

theorem isLeb_cons_of_lt {b : UInt8} {bs : Bytes} (h : b.toNat < 128) :
    IsLeb (b :: bs) ↔ bs = [] := by
  rw [IsLeb, if_pos h]

theorem isLeb_cons_of_le {b : UInt8} {bs : Bytes} (h : 128 ≤ b.toNat) :
    IsLeb (b :: bs) ↔ IsLeb bs := by
  rw [IsLeb, if_neg (by omega)]

theorem IsLeb.ne_nil {bs : Bytes} (h : IsLeb bs) : bs ≠ [] := by
  rintro rfl
  exact h

/-- A number that goes on into zeros ends with the first of them. -/
theorem lebValue_append_zeros {bs : Bytes} {n : Nat} (h : IsLeb (bs ++ List.replicate (n + 1) 0)) :
    lebValue (bs ++ List.replicate (n + 1) 0) < 128 ^ bs.length := by
  induction bs with
  | nil =>
    have hnil : List.replicate n (0 : UInt8) = [] := (isLeb_cons_of_lt (by decide)).mp h
    rw [List.nil_append, List.replicate_succ, hnil]
    decide
  | cons b bs ih =>
    by_cases hb : b.toNat < 128
    · have hnil := (isLeb_cons_of_lt hb).mp h
      simp at hnil
    · have hrest := ih ((isLeb_cons_of_le (by omega)).mp h)
      have hlow : b.toNat % 128 < 128 := Nat.mod_lt _ (by decide)
      rw [List.cons_append, lebValue, List.length_cons, pow_succ]
      omega

/-! ## Byte by byte -/

theorem IsLeb.more : ∀ {bs : Bytes} {i : Nat}, IsLeb bs → i + 1 < bs.length →
    128 ≤ (bs.getD i 0).toNat := by
  intro bs
  induction bs with
  | nil => intro i h; exact absurd h id
  | cons b bs ih =>
    intro i h hi
    by_cases hb : b.toNat < 128
    · obtain rfl := (isLeb_cons_of_lt hb).mp h
      simp at hi
    · cases i with
      | zero => exact Nat.le_of_not_lt hb
      | succ i =>
        have hmore := (isLeb_cons_of_le (Nat.le_of_not_lt hb)).mp h
        exact ih hmore (Nat.lt_of_succ_lt_succ hi)

theorem IsLeb.last {bs : Bytes} (h : IsLeb bs) : (bs.getD (bs.length - 1) 0).toNat < 128 := by
  induction bs with
  | nil => exact absurd h id
  | cons b bs ih =>
    by_cases hb : b.toNat < 128
    · obtain rfl := (isLeb_cons_of_lt hb).mp h
      exact hb
    · have hmore := (isLeb_cons_of_le (by omega)).mp h
      have hpos := List.length_pos_iff.mpr hmore.ne_nil
      obtain ⟨n, hn⟩ : ∃ n, bs.length = n + 1 := ⟨bs.length - 1, by omega⟩
      have hlast := ih hmore
      rw [hn, Nat.add_sub_cancel] at hlast
      rw [List.length_cons, Nat.add_sub_cancel, hn, List.getD_cons_succ]
      exact hlast

/-- The number is the sum of the groups, each seven bits above the one before. -/
theorem lebValue_eq_sum (bs : Bytes) :
    lebValue bs = ∑ i ∈ Finset.range bs.length, (bs.getD i 0).toNat % 128 * 2 ^ (7 * i) := by
  induction bs with
  | nil => rfl
  | cons b bs ih =>
    rw [lebValue, ih, List.length_cons, Finset.sum_range_succ', Finset.mul_sum,
      Nat.add_comm]
    congr 1
    · refine Finset.sum_congr rfl ?_
      intro i _
      rw [List.getD_cons_succ, Nat.mul_add, pow_add]
      ring
    · simp

/-- Up to the first byte that does not go on, there is one number. -/
theorem exists_isLeb : ∀ {s : Bytes} {i : Nat} {b : UInt8}, s[i]? = some b → b.toNat < 128 →
    ∃ bs r, s = bs ++ r ∧ IsLeb bs ∧ bs.length ≤ i + 1 := by
  intro s
  induction s with
  | nil => intro i b hi; cases hi
  | cons a s ih =>
    intro i b hi hb
    by_cases ha : a.toNat < 128
    · exact ⟨[a], s, rfl, (isLeb_cons_of_lt ha).mpr rfl, Nat.le_add_left 1 i⟩
    · cases i with
      | zero => cases hi; exact absurd hb ha
      | succ i =>
        obtain ⟨bs, r, rfl, hbs, hlen⟩ := ih hi hb
        exact ⟨a :: bs, r, rfl, (isLeb_cons_of_le (by omega)).mpr hbs, Nat.succ_le_succ hlen⟩

/-! ## The shortest bytes -/

/-- What `leb` writes is one number. -/
theorem isLeb_leb (n : Nat) : IsLeb (leb n) := by
  induction n using Nat.strongRecOn with
  | ind n ih =>
    by_cases h : n < 128
    · have hb : (UInt8.ofNat n).toNat < 128 := by rw [toNat_ofNat_byte]; omega
      rw [leb_of_lt h, isLeb_cons_of_lt hb]
    · have hb : 128 ≤ (UInt8.ofNat (n % 128 + 128)).toNat := by rw [toNat_ofNat_byte]; omega
      rw [leb_of_le (by omega), isLeb_cons_of_le hb]
      exact ih (n / 128) (by omega)

/-- **Writing and reading back keeps the number.** -/
theorem lebValue_leb (n : Nat) : lebValue (leb n) = n := by
  induction n using Nat.strongRecOn with
  | ind n ih =>
    by_cases h : n < 128
    · rw [leb_of_lt h, lebValue, lebValue, toNat_ofNat_byte]
      omega
    · rw [leb_of_le (by omega), lebValue, ih (n / 128) (by omega), toNat_ofNat_byte]
      omega

/-- `k` groups are enough for a number of `7 * k` bits. -/
theorem leb_length_le : ∀ {k n : Nat}, n < 128 ^ (k + 1) → (leb n).length ≤ k + 1 := by
  intro k
  induction k with
  | zero =>
    intro n h
    rw [leb_of_lt (by simpa using h), List.length_singleton]
  | succ k ih =>
    intro n h
    by_cases hn : n < 128
    · rw [leb_of_lt hn, List.length_singleton]
      omega
    · have hdiv : n / 128 < 128 ^ (k + 1) := by
        rw [Nat.div_lt_iff_lt_mul (by decide), ← pow_succ]
        exact h
      have hrest := ih hdiv
      rw [leb_of_le (by omega), List.length_cons]
      omega

theorem leb_length_eq_one_iff {n : Nat} : (leb n).length = 1 ↔ n < 128 := by
  constructor
  · intro h
    by_contra hn
    rw [leb_of_le (by omega), List.length_cons] at h
    exact (isLeb_leb (n / 128)).ne_nil (List.length_eq_zero_iff.mp (by omega))
  · intro h
    rw [leb_of_lt h, List.length_singleton]

end CraftIp.Infra
