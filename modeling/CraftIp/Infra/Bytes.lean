import Mathlib.Data.List.Basic
import Mathlib.Tactic.Ring

/-!
# Byte strings

Fixed-width numbers as bytes, in both orders, and UTF-8 text as bytes.

Everything here is about `List UInt8` and the numbers and strings written into it.
A number of `k` bytes is kept as a natural number below `256 ^ k`; the fixed-width
types are read and written through `toNat` and `ofNat`.
-/

namespace CraftIp.Infra

abbrev Bytes := List UInt8

/-! ## Little endian -/

/-- The `k` lowest bytes of `n`, lowest first. -/
def leBytes : Nat → Nat → Bytes
  | 0, _ => []
  | k + 1, n => UInt8.ofNat n :: leBytes k (n / 256)

/-- The number whose bytes are `bs`, lowest first. -/
def leValue : Bytes → Nat
  | [] => 0
  | b :: bs => b.toNat + 256 * leValue bs

@[simp] theorem leBytes_length : ∀ k n : Nat, (leBytes k n).length = k
  | 0, _ => rfl
  | k + 1, n => by rw [leBytes, List.length_cons, leBytes_length k]

theorem toNat_ofNat_byte (n : Nat) : (UInt8.ofNat n).toNat = n % 256 := by simp

/-- Writing and reading back keeps the number modulo `256 ^ k`. -/
theorem leValue_leBytes : ∀ k n : Nat, leValue (leBytes k n) = n % 256 ^ k := by
  intro k
  induction k with
  | zero => intro n; simp [leBytes, leValue, Nat.mod_one]
  | succ k ih =>
    intro n
    rw [leBytes, leValue, ih, toNat_ofNat_byte, pow_succ', Nat.mod_mul]

theorem leValue_leBytes_of_lt {k n : Nat} (h : n < 256 ^ k) : leValue (leBytes k n) = n := by
  rw [leValue_leBytes, Nat.mod_eq_of_lt h]

theorem leValue_lt (bs : Bytes) : leValue bs < 256 ^ bs.length := by
  induction bs with
  | nil => simp [leValue]
  | cons b bs ih =>
    have hb := UInt8.toNat_lt b
    rw [leValue, List.length_cons, pow_succ']
    omega

/-- Reading and writing back keeps the bytes. -/
theorem leBytes_leValue (bs : Bytes) : leBytes bs.length (leValue bs) = bs := by
  induction bs with
  | nil => rfl
  | cons b bs ih =>
    have hb := UInt8.toNat_lt b
    have hlow : UInt8.ofNat (b.toNat + 256 * leValue bs) = b := by
      rw [← UInt8.toNat_inj, toNat_ofNat_byte]
      omega
    have hhigh : (b.toNat + 256 * leValue bs) / 256 = leValue bs := by omega
    rw [List.length_cons, leValue, leBytes, hlow, hhigh, ih]

/-! ## Big endian -/

/-- The two bytes of a `u16` on the network, high byte first. -/
def be16 (n : Nat) : Bytes := [UInt8.ofNat (n / 256), UInt8.ofNat n]

/-- The number whose bytes are `bs`, highest first. -/
def beValue (bs : Bytes) : Nat := bs.foldl (fun acc b => acc * 256 + b.toNat) 0

@[simp] theorem be16_length (n : Nat) : (be16 n).length = 2 := rfl

@[simp] theorem beValue_pair (a b : UInt8) : beValue [a, b] = a.toNat * 256 + b.toNat := by
  simp [beValue]

theorem beValue_cons (b : UInt8) (bs : Bytes) :
    beValue (b :: bs) = b.toNat * 256 ^ bs.length + beValue bs := by
  have hfold : ∀ (bs : Bytes) (n : Nat), bs.foldl (fun acc b => acc * 256 + b.toNat) n
      = n * 256 ^ bs.length + beValue bs := by
    intro bs
    induction bs with
    | nil => intro n; rw [List.length_nil, pow_zero, Nat.mul_one]; rfl
    | cons b bs ih =>
      intro n
      rw [beValue, List.foldl_cons, List.foldl_cons, ih, ih, List.length_cons, pow_succ]
      ring
  rw [beValue, List.foldl_cons, hfold, Nat.zero_mul, Nat.zero_add]

theorem beValue_be16 {n : Nat} (h : n < 65536) : beValue (be16 n) = n := by
  rw [be16, beValue_pair, toNat_ofNat_byte, toNat_ofNat_byte]
  omega

theorem be16_pair (a b : UInt8) : be16 (a.toNat * 256 + b.toNat) = [a, b] := by
  have hb := UInt8.toNat_lt b
  have hhigh : (a.toNat * 256 + b.toNat) / 256 = a.toNat := by omega
  have hlow : UInt8.ofNat (a.toNat * 256 + b.toNat) = b := by
    rw [← UInt8.toNat_inj, toNat_ofNat_byte]
    omega
  rw [be16, hhigh, hlow, UInt8.ofNat_toNat]

/-- Only the low 16 bits are written. -/
theorem be16_mod (n : Nat) : be16 (n % 65536) = be16 n := by
  have hhigh : UInt8.ofNat (n % 65536 / 256) = UInt8.ofNat (n / 256) := by
    rw [← UInt8.toNat_inj, toNat_ofNat_byte, toNat_ofNat_byte]
    omega
  have hlow : UInt8.ofNat (n % 65536) = UInt8.ofNat n := by
    rw [← UInt8.toNat_inj, toNat_ofNat_byte, toNat_ofNat_byte]
    omega
  rw [be16, be16, hhigh, hlow]

/-! ## UTF-8 -/

/-- The UTF-8 bytes of a string, as `str::as_bytes`. -/
def utf8 (s : String) : Bytes := s.toByteArray.data.toList

/-- `String::from_utf8`: the string with these bytes, if they are valid UTF-8. -/
def fromUtf8 (bs : Bytes) : Option String := String.fromUTF8? ⟨bs.toArray⟩

@[simp] theorem fromUtf8_utf8 (s : String) : fromUtf8 (utf8 s) = some s := by
  have hbytes : (⟨(utf8 s).toArray⟩ : ByteArray) = s.toByteArray := by simp [utf8]
  rw [fromUtf8, hbytes, String.fromUTF8?, dif_pos s.isValidUTF8]
  rfl

theorem utf8_of_fromUtf8 {bs : Bytes} {s : String} (h : fromUtf8 bs = some s) : utf8 s = bs := by
  unfold fromUtf8 String.fromUTF8? at h
  split at h
  · cases h; rfl
  · cases h

/-- `String::len`: the length of the string in UTF-8 bytes. -/
@[simp] theorem utf8_length (s : String) : (utf8 s).length = s.utf8ByteSize := rfl

theorem utf8_ofList (l : List Char) :
    utf8 (String.ofList l) = l.flatMap String.utf8EncodeChar := by
  rw [utf8, String.toByteArray_ofList, List.utf8Encode, List.data_toByteArray]

/-- A character has at most four bytes. -/
theorem utf8ByteSize_le (s : String) : s.utf8ByteSize ≤ 4 * s.toList.length := by
  have hlist : ∀ l : List Char, (l.flatMap String.utf8EncodeChar).length ≤ 4 * l.length := by
    intro l
    induction l with
    | nil => exact Nat.le_refl _
    | cons c l ih =>
      have hc := c.utf8Size_le_four
      rw [List.flatMap_cons, List.length_append, String.length_utf8EncodeChar, List.length_cons]
      omega
  have h := hlist s.toList
  rwa [← utf8_ofList, String.ofList_toList, utf8_length] at h

/-- ASCII text has one byte for each character. -/
theorem utf8_ascii {l : List Char} (h : ∀ c ∈ l, c.toNat < 128) :
    utf8 (String.ofList l) = l.map fun c => c.val.toUInt8 := by
  induction l with
  | nil => rfl
  | cons c l ih =>
    have hc : c.utf8Size = 1 := by
      rw [Char.utf8Size_eq_one_iff, UInt32.le_iff_toNat_le]
      exact Nat.le_of_lt_succ (h c List.mem_cons_self)
    have hl := ih fun x hx => h x (List.mem_cons_of_mem c hx)
    rw [utf8_ofList] at hl ⊢
    rw [List.flatMap_cons, String.utf8EncodeChar_eq_singleton hc, hl]
    rfl

theorem utf8ByteSize_ascii {s : String} (h : ∀ c ∈ s.toList, c.toNat < 128) :
    s.utf8ByteSize = s.toList.length := by
  have hbytes := utf8_ascii h
  rw [String.ofList_toList] at hbytes
  rw [← utf8_length, hbytes, List.length_map]

theorem utf8ByteSize_replicate (n : Nat) :
    (String.ofList (List.replicate n 'a')).utf8ByteSize = n := by
  rw [utf8ByteSize_ascii, String.toList_ofList, List.length_replicate]
  intro c hc
  rw [String.toList_ofList] at hc
  rw [List.eq_of_mem_replicate hc]
  decide

end CraftIp.Infra
