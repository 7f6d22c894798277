import CraftIp.Infra.Bytes
import Mathlib.Data.Nat.Digits.Lemmas

/-!
# Bytes as a number in another base

A byte string is read as one number, highest byte first, and written with the letters of an
alphabet. The bytes that are zero in front of the last one are kept as so many zeros.

* `length_le_baseX` — in a base of at most 256 the text is no shorter than the bytes
* `mem_of_mem_baseX` — the letters are those of the alphabet
-/

namespace CraftIp.Infra

/-! ## Digits -/

/-- The digits of a number, highest first. Zero has one. -/
def positional (base n : Nat) : List Nat := if n = 0 then [0] else (Nat.digits base n).reverse

theorem length_positional_pos (base n : Nat) : 0 < (positional base n).length := by
  unfold positional
  split
  · exact Nat.one_pos
  · next hn =>
    rw [List.length_reverse]
    exact List.length_pos_iff.mpr (Nat.digits_ne_nil_iff_ne_zero.mpr hn)

theorem lt_length_positional {base k n : Nat} (hb : 1 < base) (h : base ^ k ≤ n) :
    k < (positional base n).length := by
  have hn : n ≠ 0 := by
    intro hz
    rw [hz] at h
    exact absurd h (Nat.not_le_of_lt (Nat.pow_pos (by omega)))
  rw [positional, if_neg hn, List.length_reverse]
  exact (Nat.lt_digits_length_iff hb n).mpr h

theorem positional_lt {base n d : Nat} (hb : 1 < base) (h : d ∈ positional base n) : d < base := by
  unfold positional at h
  split at h
  · rw [List.mem_singleton.mp h]
    exact Nat.lt_trans Nat.one_pos hb
  · exact Nat.digits_lt_base hb (List.mem_reverse.mp h)

/-! ## Letters -/

/-- The zero bytes at the front, without the last byte. -/
def leaders (bs : Bytes) : Nat := (bs.dropLast.takeWhile (· = 0)).length

/-- The text of a byte string. -/
def baseX {α : Type} [Inhabited α] (alphabet : List α) (bs : Bytes) : List α :=
  List.replicate (leaders bs) (alphabet.getD 0 default) ++
    (positional alphabet.length (beValue bs)).map fun d => alphabet.getD d default

variable {α : Type} [Inhabited α] {alphabet : List α}

theorem getD_mem {d : Nat} (h : d < alphabet.length) : alphabet.getD d default ∈ alphabet := by
  rw [List.getD_eq_getElem?_getD, List.getElem?_eq_getElem h]
  exact List.getElem_mem h

/-- **The letters are those of the alphabet.** -/
theorem mem_of_mem_baseX (hb : 1 < alphabet.length) {bs : Bytes} {a : α}
    (h : a ∈ baseX alphabet bs) : a ∈ alphabet := by
  rcases List.mem_append.mp h with h | h
  · rw [List.eq_of_mem_replicate h]
    exact getD_mem (Nat.lt_trans Nat.one_pos hb)
  · obtain ⟨d, hd, rfl⟩ := List.mem_map.mp h
    exact getD_mem (positional_lt hb hd)

theorem length_baseX (alphabet : List α) (bs : Bytes) : (baseX alphabet bs).length
    = leaders bs + (positional alphabet.length (beValue bs)).length := by
  rw [baseX, List.length_append, List.length_replicate, List.length_map]

/-- A zero in front is one letter more. -/
theorem length_baseX_zero {bs : Bytes} (h : bs ≠ []) :
    (baseX alphabet (0 :: bs)).length = (baseX alphabet bs).length + 1 := by
  have hleaders : leaders (0 :: bs) = leaders bs + 1 := by
    rw [leaders, List.dropLast_cons_of_ne_nil h, List.takeWhile_cons_of_pos (by decide),
      List.length_cons, leaders]
  have hvalue : beValue (0 :: bs) = beValue bs := rfl
  rw [length_baseX, length_baseX, hleaders, hvalue]
  omega

/-- **In a base of at most 256 the text is no shorter than the bytes.** -/
theorem length_le_baseX (hb : 1 < alphabet.length) (hb' : alphabet.length ≤ 256) :
    ∀ {bs : Bytes}, bs ≠ [] → bs.length ≤ (baseX alphabet bs).length := by
  intro bs
  induction bs with
  | nil => intro h; exact absurd rfl h
  | cons b bs ih =>
    intro _
    by_cases hnil : bs = []
    · have hpos := length_positional_pos alphabet.length (beValue [b])
      rw [hnil, length_baseX, List.length_singleton]
      omega
    · by_cases hz : b = 0
      · have hrest := ih hnil
        rw [hz, length_baseX_zero hnil, List.length_cons]
        omega
      · -- the first byte alone makes the number large
        have hlarge : alphabet.length ^ bs.length ≤ beValue (b :: bs) := by
          have hone : 1 ≤ b.toNat := Nat.one_le_iff_ne_zero.mpr fun h => hz (UInt8.toNat_inj.mp h)
          calc alphabet.length ^ bs.length
              ≤ 256 ^ bs.length := Nat.pow_le_pow_left hb' _
            _ ≤ b.toNat * 256 ^ bs.length := Nat.le_mul_of_pos_left _ hone
            _ ≤ beValue (b :: bs) := by rw [beValue_cons]; omega
        have hlt := lt_length_positional hb hlarge
        rw [length_baseX, List.length_cons]
        omega

end CraftIp.Infra
