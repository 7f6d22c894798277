import CraftIp.Infra.Bytes

/-!
# Prefix codecs

A codec writes a value as bytes and reads one back from the front of a byte string.
Its two laws are fields, so every codec built from the combinators below has them:

* `decode_encode` — what was written is read back, and what follows it is left alone
* `decode_append` — what was read does not depend on the bytes after it

Together they give `decode_truncated`: no proper prefix of an encoding is accepted.

The combinators are the ones of a fixed-width little-endian wire format: `word k` for
numbers, `array` for fixed-size arrays, `vec` and `string` with a 64-bit length in
front, `pair` for fields in a row, `imap` for a change of type and `Variants.tagged`
for enumerations with a 32-bit tag.
-/

namespace CraftIp.Infra

/--
A prefix codec.

`encode` is partial because a length field has only 64 bits.
-/
structure Codec (α : Type) where
  encode : α → Option Bytes
  decode : Bytes → Option (α × Bytes)
  decode_encode : ∀ {a : α} {b : Bytes}, encode a = some b →
    ∀ rest, decode (b ++ rest) = some (a, rest)
  decode_append : ∀ {s : Bytes} {a : α} {r : Bytes}, decode s = some (a, r) →
    ∀ t, decode (s ++ t) = some (a, r ++ t)

namespace Codec

variable {α β γ : Type}

/-- **A proper prefix of an encoding is rejected.** -/
theorem decode_truncated (c : Codec α) {a : α} {b s t : Bytes} (h : c.encode a = some b)
    (hb : b = s ++ t) (ht : t ≠ []) : c.decode s = none := by
  cases hs : c.decode s with
  | none => rfl
  | some v =>
    exfalso
    obtain ⟨a', r⟩ := v
    have hlong := c.decode_append hs t
    have hfull := c.decode_encode h []
    rw [List.append_nil, hb, hlong] at hfull
    have hnil : r ++ t = [] := congrArg Prod.snd (Option.some.inj hfull)
    exact ht (List.append_eq_nil_iff.mp hnil).2

/-! ## Raw bytes -/

/-- The first `n` bytes and what follows them. -/
def takeBytes (n : Nat) (s : Bytes) : Option (Bytes × Bytes) :=
  if n ≤ s.length then some (s.take n, s.drop n) else none

theorem takeBytes_append_self (b rest : Bytes) :
    takeBytes b.length (b ++ rest) = some (b, rest) := by
  simp [takeBytes]

theorem takeBytes_append {n : Nat} {s v r : Bytes} (h : takeBytes n s = some (v, r)) (t : Bytes) :
    takeBytes n (s ++ t) = some (v, r ++ t) := by
  unfold takeBytes at h ⊢
  split at h
  · next hn =>
    cases h
    rw [if_pos (by rw [List.length_append]; omega), List.take_append_of_le_length hn,
      List.drop_append_of_le_length hn]
  · cases h

theorem takeBytes_length {n : Nat} {s v r : Bytes} (h : takeBytes n s = some (v, r)) :
    v.length = n := by
  unfold takeBytes at h
  split at h
  · next hn => cases h; rw [List.length_take]; omega
  · cases h

/-! ## Changing the type -/

/-- A codec for `β` from one for `α`, where `f` undoes `g`. -/
def imap (c : Codec α) (f : α → β) (g : β → α) (hfg : ∀ b, f (g b) = b) : Codec β where
  encode b := c.encode (g b)
  decode s := (c.decode s).map fun v => (f v.1, v.2)
  decode_encode h rest := by rw [c.decode_encode h, Option.map_some, hfg]
  decode_append {s a r} h t := by
    obtain ⟨⟨a', r'⟩, hd, hv⟩ := Option.map_eq_some_iff.mp h
    cases hv
    rw [c.decode_append hd, Option.map_some]

/-- Keep only the values `f` accepts; `g` gives back the accepted form. -/
def partialMap (c : Codec α) (f : α → Option β) (g : β → α) (hfg : ∀ b, f (g b) = some b) :
    Codec β where
  encode b := c.encode (g b)
  decode s := (c.decode s).bind fun v => (f v.1).map fun b => (b, v.2)
  decode_encode h rest := by rw [c.decode_encode h, Option.bind_some, hfg, Option.map_some]
  decode_append {s a r} h t := by
    obtain ⟨⟨a', r'⟩, hd, hv⟩ := Option.bind_eq_some_iff.mp h
    obtain ⟨b, hb, hbr⟩ := Option.map_eq_some_iff.mp hv
    cases hbr
    rw [c.decode_append hd, Option.bind_some, hb, Option.map_some]

/-! ## Fields in a row -/

/-- First a value of `α`, then one of `β`, which may depend on it. -/
def pair (c : Codec α) (d : Codec β) : Codec (α × β) where
  encode v := (c.encode v.1).bind fun x => (d.encode v.2).map (x ++ ·)
  decode s := (c.decode s).bind fun v => (d.decode v.2).map fun w => ((v.1, w.1), w.2)
  decode_encode {v b} h rest := by
    obtain ⟨x, hx, hy⟩ := Option.bind_eq_some_iff.mp h
    obtain ⟨y, hd, rfl⟩ := Option.map_eq_some_iff.mp hy
    rw [List.append_assoc, c.decode_encode hx, Option.bind_some, d.decode_encode hd]
    rfl
  decode_append {s v r} h t := by
    obtain ⟨⟨a, r₁⟩, ha, hb⟩ := Option.bind_eq_some_iff.mp h
    obtain ⟨⟨b, r₂⟩, hd, hv⟩ := Option.map_eq_some_iff.mp hb
    cases hv
    rw [c.decode_append ha, Option.bind_some, d.decode_append hd, Option.map_some]

theorem pair_eq_some {c : Codec α} {d : Codec β} {v : α × β} {b : Bytes}
    (h : (c.pair d).encode v = some b) :
    ∃ x y, c.encode v.1 = some x ∧ d.encode v.2 = some y ∧ b = x ++ y := by
  obtain ⟨x, hx, hmap⟩ := Option.bind_eq_some_iff.mp h
  obtain ⟨y, hy, rfl⟩ := Option.map_eq_some_iff.mp hmap
  exact ⟨x, y, hx, hy, rfl⟩

/-! ## Numbers and arrays -/

/-- An array of `n` bytes, without a length. -/
def array (n : Nat) : Codec (Vector UInt8 n) where
  encode v := some v.toList
  decode s := (takeBytes n s).bind fun v =>
    if h : v.1.length = n then some (⟨v.1.toArray, by simpa using h⟩, v.2) else none
  decode_encode {v b} h rest := by
    cases h
    have ht : takeBytes n (v.toList ++ rest) = some (v.toList, rest) := by
      simpa using takeBytes_append_self v.toList rest
    have hv : v.toList.toArray = v.toArray := by simp [Vector.toList]
    simp [ht, hv]
  decode_append {s v r} h t := by
    obtain ⟨⟨x, r'⟩, hx, hv⟩ := Option.bind_eq_some_iff.mp h
    rw [takeBytes_append hx, Option.bind_some, dif_pos (takeBytes_length hx)]
    rw [dif_pos (takeBytes_length hx)] at hv
    cases hv
    rfl

/-- A natural number below `256 ^ k` in `k` bytes, lowest byte first. -/
def word (k : Nat) : Codec Nat where
  encode n := if n < 256 ^ k then some (leBytes k n) else none
  decode s := (takeBytes k s).map fun v => (leValue v.1, v.2)
  decode_encode {n b} h rest := by
    by_cases hn : n < 256 ^ k
    · rw [if_pos hn] at h
      cases h
      have ht := takeBytes_append_self (leBytes k n) rest
      rw [leBytes_length] at ht
      rw [ht, Option.map_some, leValue_leBytes_of_lt hn]
    · rw [if_neg hn] at h
      cases h
  decode_append {s n r} h t := by
    obtain ⟨⟨v, r'⟩, hv, hr⟩ := Option.map_eq_some_iff.mp h
    cases hr
    rw [takeBytes_append hv, Option.map_some]

theorem word_encode {k n : Nat} (h : n < 256 ^ k) : (word k).encode n = some (leBytes k n) :=
  if_pos h

theorem word_length {k n : Nat} {b : Bytes} (h : (word k).encode n = some b) : b.length = k := by
  have hb : (if n < 256 ^ k then some (leBytes k n) else none) = some b := h
  split at hb
  · cases hb; exact leBytes_length k n
  · cases hb

def uint16 : Codec UInt16 :=
  (word 2).imap UInt16.ofNat UInt16.toNat fun _ => UInt16.ofNat_toNat

def uint32 : Codec UInt32 :=
  (word 4).imap UInt32.ofNat UInt32.toNat fun _ => UInt32.ofNat_toNat

def uint64 : Codec UInt64 :=
  (word 8).imap UInt64.ofNat UInt64.toNat fun _ => UInt64.ofNat_toNat

/-- An `i32` is written as the `u32` with the same bits. -/
def int32 : Codec Int32 := uint32.imap UInt32.toInt32 Int32.toUInt32 fun _ => rfl

/-! ## Vectors and strings -/

/-- A byte vector with its length in front as a 64-bit number. -/
def vec : Codec Bytes where
  encode v := ((word 8).encode v.length).map (· ++ v)
  decode s := ((word 8).decode s).bind fun n => takeBytes n.1 n.2
  decode_encode {v b} h rest := by
    obtain ⟨x, hx, rfl⟩ := Option.map_eq_some_iff.mp h
    rw [List.append_assoc, (word 8).decode_encode hx, Option.bind_some, takeBytes_append_self]
  decode_append {s v r} h t := by
    obtain ⟨⟨n, r'⟩, hn, hv⟩ := Option.bind_eq_some_iff.mp h
    rw [(word 8).decode_append hn, Option.bind_some, takeBytes_append hv]

theorem vec_encode {v : Bytes} (h : v.length < 256 ^ 8) :
    vec.encode v = some (leBytes 8 v.length ++ v) := by
  show ((word 8).encode v.length).map (· ++ v) = _
  rw [word_encode h, Option.map_some]

theorem vec_length {v b : Bytes} (h : vec.encode v = some b) : b.length = 8 + v.length := by
  obtain ⟨x, hx, rfl⟩ := Option.map_eq_some_iff.mp h
  rw [List.length_append, word_length hx]

/-- A string is the vector of its UTF-8 bytes. -/
def string : Codec String := vec.partialMap fromUtf8 utf8 fromUtf8_utf8

/-! ## Enumerations -/

/-- The bodies of an enumeration: which tag a value carries and how its fields are written. -/
structure Variants (α : Type) where
  tag : α → UInt32
  encode : α → Option Bytes
  decode : UInt32 → Bytes → Option (α × Bytes)
  decode_encode : ∀ {a : α} {b : Bytes}, encode a = some b →
    ∀ rest, decode (tag a) (b ++ rest) = some (a, rest)
  decode_append : ∀ {i : UInt32} {s : Bytes} {a : α} {r : Bytes}, decode i s = some (a, r) →
    ∀ t, decode i (s ++ t) = some (a, r ++ t)

/-- An enumeration: the tag as a 32-bit number, then the fields of that variant. -/
def Variants.tagged (v : Variants α) : Codec α where
  encode a := (uint32.encode (v.tag a)).bind fun x => (v.encode a).map (x ++ ·)
  decode s := (uint32.decode s).bind fun t => v.decode t.1 t.2
  decode_encode {a b} h rest := by
    obtain ⟨x, hx, hy⟩ := Option.bind_eq_some_iff.mp h
    obtain ⟨y, hv, rfl⟩ := Option.map_eq_some_iff.mp hy
    rw [List.append_assoc, uint32.decode_encode hx, Option.bind_some, v.decode_encode hv]
  decode_append {s a r} h t := by
    obtain ⟨⟨i, r'⟩, hi, hv⟩ := Option.bind_eq_some_iff.mp h
    rw [uint32.decode_append hi, Option.bind_some, v.decode_append hv]

theorem Variants.tagged_eq_some {v : Variants α} {a : α} {b : Bytes}
    (h : v.tagged.encode a = some b) :
    ∃ x y, uint32.encode (v.tag a) = some x ∧ v.encode a = some y ∧ b = x ++ y := by
  obtain ⟨x, hx, hmap⟩ := Option.bind_eq_some_iff.mp h
  obtain ⟨y, hy, rfl⟩ := Option.map_eq_some_iff.mp hmap
  exact ⟨x, y, hx, hy, rfl⟩

/-- A codec for values that carry no bytes at all. -/
def unit : Codec Unit where
  encode _ := some []
  decode s := some ((), s)
  decode_encode h rest := by cases h; rfl
  decode_append h t := by cases h; rfl

/-! ## Canonical codecs -/

/-- A codec is canonical when it reads only what it writes. -/
def Canonical (c : Codec α) : Prop :=
  ∀ {s : Bytes} {a : α} {r : Bytes}, c.decode s = some (a, r) →
    ∃ b, c.encode a = some b ∧ s = b ++ r

theorem takeBytes_eq_some {n : Nat} {s v r : Bytes} (h : takeBytes n s = some (v, r)) :
    s = v ++ r ∧ v.length = n := by
  have hlen := takeBytes_length h
  unfold takeBytes at h
  split at h
  · cases h
    exact ⟨(List.take_append_drop n s).symm, hlen⟩
  · cases h

theorem canonical_imap {c : Codec α} (hc : c.Canonical) {f : α → β} {g : β → α}
    {hfg : ∀ b, f (g b) = b} (hgf : ∀ a, g (f a) = a) : (c.imap f g hfg).Canonical := by
  intro s b r h
  obtain ⟨⟨a, r'⟩, hd, hv⟩ := Option.map_eq_some_iff.mp h
  cases hv
  obtain ⟨x, hx, rfl⟩ := hc hd
  exact ⟨x, (congrArg c.encode (hgf a)).trans hx, rfl⟩

theorem canonical_partialMap {c : Codec α} (hc : c.Canonical) {f : α → Option β} {g : β → α}
    {hfg : ∀ b, f (g b) = some b} (hgf : ∀ {a b}, f a = some b → g b = a) :
    (c.partialMap f g hfg).Canonical := by
  intro s b r h
  obtain ⟨⟨a, r'⟩, hd, hv⟩ := Option.bind_eq_some_iff.mp h
  obtain ⟨b', hb, hbr⟩ := Option.map_eq_some_iff.mp hv
  cases hbr
  obtain ⟨x, hx, rfl⟩ := hc hd
  exact ⟨x, (congrArg c.encode (hgf hb)).trans hx, rfl⟩

theorem canonical_pair {c : Codec α} {d : Codec β} (hc : c.Canonical) (hd : d.Canonical) :
    (c.pair d).Canonical := by
  intro s v r h
  obtain ⟨⟨a, r₁⟩, ha, hmap⟩ := Option.bind_eq_some_iff.mp h
  obtain ⟨⟨b, r₂⟩, hb, hv⟩ := Option.map_eq_some_iff.mp hmap
  cases hv
  obtain ⟨x, hx, rfl⟩ := hc ha
  obtain ⟨y, hy, rfl⟩ := hd hb
  refine ⟨x ++ y, ?_, (List.append_assoc ..).symm⟩
  show (c.encode a).bind (fun x => (d.encode b).map (x ++ ·)) = _
  rw [hx, Option.bind_some, hy, Option.map_some]

theorem canonical_array (n : Nat) : (array n).Canonical := by
  intro s v r h
  obtain ⟨⟨x, r'⟩, hx, hv⟩ := Option.bind_eq_some_iff.mp h
  obtain ⟨rfl, hlen⟩ := takeBytes_eq_some hx
  rw [dif_pos hlen] at hv
  cases hv
  exact ⟨x, by simp [array, Vector.toList], rfl⟩

/-- A number that was read is below the limit of its width. -/
theorem word_eq_some {k n : Nat} {s r : Bytes} (h : (word k).decode s = some (n, r)) :
    n < 256 ^ k ∧ s = leBytes k n ++ r := by
  obtain ⟨⟨v, r'⟩, hv, hr⟩ := Option.map_eq_some_iff.mp h
  cases hr
  obtain ⟨rfl, rfl⟩ := takeBytes_eq_some hv
  exact ⟨leValue_lt v, by rw [leBytes_leValue]⟩

/-- A fixed-width type with room for every number of its width. -/
theorem canonical_fixed {k : Nat} {f : Nat → β} {g : β → Nat} {hfg : ∀ b, f (g b) = b}
    (hgf : ∀ n, n < 256 ^ k → g (f n) = n) : ((word k).imap f g hfg).Canonical := by
  intro s b r h
  obtain ⟨⟨n, r'⟩, hd, hv⟩ := Option.map_eq_some_iff.mp h
  cases hv
  obtain ⟨hn, rfl⟩ := word_eq_some hd
  exact ⟨_, (congrArg (word k).encode (hgf n hn)).trans (word_encode hn), rfl⟩

theorem canonical_uint16 : uint16.Canonical :=
  canonical_fixed fun _ hn => UInt16.toNat_ofNat_of_lt' hn

theorem canonical_uint32 : uint32.Canonical :=
  canonical_fixed fun _ hn => UInt32.toNat_ofNat_of_lt' hn

theorem canonical_uint64 : uint64.Canonical :=
  canonical_fixed fun _ hn => UInt64.toNat_ofNat_of_lt' hn

theorem canonical_int32 : int32.Canonical := canonical_imap canonical_uint32 fun _ => rfl

theorem canonical_vec : vec.Canonical := by
  intro s v r h
  obtain ⟨⟨n, r'⟩, hn, hv⟩ := Option.bind_eq_some_iff.mp h
  obtain ⟨hlt, rfl⟩ := word_eq_some hn
  obtain ⟨rfl, rfl⟩ := takeBytes_eq_some hv
  exact ⟨_, vec_encode hlt, (List.append_assoc ..).symm⟩

theorem canonical_string : string.Canonical := canonical_partialMap canonical_vec utf8_of_fromUtf8

theorem canonical_unit : unit.Canonical := by
  intro s a r h
  cases h
  exact ⟨[], rfl, rfl⟩

theorem canonical_tagged {v : Variants α}
    (hv : ∀ {i : UInt32} {s : Bytes} {a : α} {r : Bytes}, v.decode i s = some (a, r) →
      v.tag a = i ∧ ∃ b, v.encode a = some b ∧ s = b ++ r) : v.tagged.Canonical := by
  intro s a r h
  obtain ⟨⟨i, r'⟩, hi, hd⟩ := Option.bind_eq_some_iff.mp h
  obtain ⟨x, hx, rfl⟩ := canonical_uint32 hi
  obtain ⟨rfl, y, hy, rfl⟩ := hv hd
  refine ⟨x ++ y, ?_, (List.append_assoc ..).symm⟩
  show (uint32.encode (v.tag a)).bind (fun x => (v.encode a).map (x ++ ·)) = _
  rw [hx, Option.bind_some, hy, Option.map_some]

end Codec

end CraftIp.Infra
