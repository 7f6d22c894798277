import CraftIp.Infra.Bytes

/-!
# UTF-16

`decodeUtf16` is the decoder of `std::char::decode_utf16`, collected into one result:
a unit outside `D800..DFFF` is a character, a high surrogate must be followed by a low
one, and anything else is an error.

`encodeUtf16` writes text in units. The two are inverse to each other
(`decodeUtf16_encodeUtf16`, `encodeUtf16_of_decodeUtf16`), so what the decoder accepts is
exactly what the encoder writes.
-/

namespace CraftIp.Infra

def isSurrogate (u : UInt16) : Bool := 0xD800 ≤ u && u ≤ 0xDFFF

def isLowSurrogate (u : UInt16) : Bool := 0xDC00 ≤ u && u ≤ 0xDFFF

/-- The character of a surrogate pair. -/
def surrogatePair (high low : UInt16) : Char :=
  Char.ofNat (0x10000 + (high.toNat - 0xD800) * 0x400 + (low.toNat - 0xDC00))

def decodeUtf16 : List UInt16 → Option (List Char)
  | [] => some []
  | [u] => if isSurrogate u then none else some [Char.ofNat u.toNat]
  | u :: v :: rest =>
    if isSurrogate u then
      if isLowSurrogate u then none
      else if isLowSurrogate v then (decodeUtf16 rest).map (surrogatePair u v :: ·)
      else none
    else (decodeUtf16 (v :: rest)).map (Char.ofNat u.toNat :: ·)

/-- A unit that is no surrogate stands for itself. -/
theorem decodeUtf16_cons {u : UInt16} (h : isSurrogate u = false) (us : List UInt16) :
    decodeUtf16 (u :: us) = (decodeUtf16 us).map (Char.ofNat u.toNat :: ·) := by
  cases us with
  | nil => simp [decodeUtf16, h]
  | cons v rest => simp [decodeUtf16, h]

theorem decodeUtf16_replicate {u : UInt16} (h : isSurrogate u = false) :
    ∀ n : Nat, decodeUtf16 (List.replicate n u) = some (List.replicate n (Char.ofNat u.toNat)) := by
  intro n
  induction n with
  | zero => rfl
  | succ n ih =>
    rw [List.replicate_succ, decodeUtf16_cons h, ih, Option.map_some, List.replicate_succ]

/-- A surrogate pair stands for a character outside the 16-bit range. -/
theorem surrogatePair_toNat_ge {u v : UInt16} (hu : isSurrogate u = true)
    (hu' : isLowSurrogate u = false) (hv : isLowSurrogate v = true) :
    0x10000 ≤ (surrogatePair u v).toNat := by
  simp only [isSurrogate, isLowSurrogate, Bool.and_eq_true, decide_eq_true_eq, Bool.and_eq_false_iff,
    decide_eq_false_iff_not, UInt16.le_iff_toNat_le] at hu hu' hv
  have hvalid : (0x10000 + (u.toNat - 0xD800) * 0x400 + (v.toNat - 0xDC00)).isValidChar := by
    right
    have h1 : (0xDBFF : UInt16).toNat = 0xDBFF := rfl
    have h2 : (0xDC00 : UInt16).toNat = 0xDC00 := rfl
    have h3 : (0xDFFF : UInt16).toNat = 0xDFFF := rfl
    have h4 : (0xD800 : UInt16).toNat = 0xD800 := rfl
    omega
  have hval : (surrogatePair u v).toNat
      = 0x10000 + (u.toNat - 0xD800) * 0x400 + (v.toNat - 0xDC00) := by
    rw [surrogatePair, Char.ofNat, dif_pos hvalid]
    rfl
  rw [hval]
  omega

/-- Text inside the 16-bit range has one unit for each character. -/
theorem decodeUtf16_length {us : List UInt16} {cs : List Char} (h : decodeUtf16 us = some cs)
    (hcs : ∀ c ∈ cs, c.toNat < 0x10000) : us.length = cs.length := by
  induction us using decodeUtf16.induct generalizing cs with
  | case1 => cases h; rfl
  | case2 u hu =>
    rw [decodeUtf16, if_pos hu] at h
    cases h
  | case3 u hu =>
    rw [decodeUtf16, if_neg hu] at h
    cases h
    rfl
  | case4 u v rest hu hlow =>
    rw [decodeUtf16, if_pos hu, if_pos hlow] at h
    cases h
  | case5 u v rest hu hlow hv ih =>
    rw [decodeUtf16, if_pos hu, if_neg hlow, if_pos hv] at h
    obtain ⟨cs', -, rfl⟩ := Option.map_eq_some_iff.mp h
    exfalso
    have hge := surrogatePair_toNat_ge hu (by simpa using hlow) hv
    have hlt := hcs _ List.mem_cons_self
    omega
  | case6 u v rest hu hlow hv =>
    rw [decodeUtf16, if_pos hu, if_neg hlow, if_neg hv] at h
    cases h
  | case7 u v rest hu ih =>
    rw [decodeUtf16, if_neg hu] at h
    obtain ⟨cs', hcs', rfl⟩ := Option.map_eq_some_iff.mp h
    rw [List.length_cons, ih hcs' fun c hc => hcs c (List.mem_cons_of_mem _ hc)]
    rfl

/-! ## Surrogates as numbers -/

theorem isSurrogate_iff (u : UInt16) :
    isSurrogate u = true ↔ 0xD800 ≤ u.toNat ∧ u.toNat ≤ 0xDFFF := by
  simp [isSurrogate, UInt16.le_iff_toNat_le]

theorem isLowSurrogate_iff (u : UInt16) :
    isLowSurrogate u = true ↔ 0xDC00 ≤ u.toNat ∧ u.toNat ≤ 0xDFFF := by
  simp [isLowSurrogate, UInt16.le_iff_toNat_le]

/-- A number outside the surrogates and below the limit is a character. -/
theorem toNat_charOfNat {n : Nat} (h : n.isValidChar) : (Char.ofNat n).toNat = n := by
  rw [Char.ofNat, dif_pos h]
  rfl

/-- A character is no surrogate. -/
theorem char_range (c : Char) :
    (c.toNat < 0xD800 ∨ 0xDFFF < c.toNat) ∧ c.toNat < 0x110000 := by
  rcases c.valid with h | ⟨h1, h2⟩
  · exact ⟨Or.inl h, Nat.lt_trans h (by decide)⟩
  · exact ⟨Or.inr h1, h2⟩

/-! ## Writing -/

/-- The units of a character: one, or a surrogate pair. -/
def charUnits (c : Char) : List UInt16 :=
  if c.toNat < 0x10000 then [UInt16.ofNat c.toNat]
  else [UInt16.ofNat (0xD800 + (c.toNat - 0x10000) / 0x400),
    UInt16.ofNat (0xDC00 + (c.toNat - 0x10000) % 0x400)]

/-- Text in units, as `str::encode_utf16`. -/
def encodeUtf16 (cs : List Char) : List UInt16 := cs.flatMap charUnits

theorem encodeUtf16_cons (c : Char) (cs : List Char) :
    encodeUtf16 (c :: cs) = charUnits c ++ encodeUtf16 cs := List.flatMap_cons

theorem toNat_ofNat_unit {n : Nat} (h : n < 65536) : (UInt16.ofNat n).toNat = n :=
  UInt16.toNat_ofNat_of_lt' h

/-- The units of a character are read as this character. -/
theorem decodeUtf16_charUnits (c : Char) (us : List UInt16) :
    decodeUtf16 (charUnits c ++ us) = (decodeUtf16 us).map (c :: ·) := by
  obtain ⟨hrange, hlimit⟩ := char_range c
  unfold charUnits
  split
  · next h =>
    have hunit := toNat_ofNat_unit h
    have hplain : isSurrogate (UInt16.ofNat c.toNat) = false := by
      rw [Bool.eq_false_iff, ne_eq, isSurrogate_iff, hunit]
      omega
    rw [List.singleton_append, decodeUtf16_cons hplain, hunit, Char.ofNat_toNat]
  · next h =>
    have hhigh : (UInt16.ofNat (0xD800 + (c.toNat - 0x10000) / 0x400)).toNat
        = 0xD800 + (c.toNat - 0x10000) / 0x400 := toNat_ofNat_unit (by omega)
    have hlow : (UInt16.ofNat (0xDC00 + (c.toNat - 0x10000) % 0x400)).toNat
        = 0xDC00 + (c.toNat - 0x10000) % 0x400 := toNat_ofNat_unit (by omega)
    have h1 := (isSurrogate_iff _).mpr (show _ ∧ _ by rw [hhigh]; omega)
    have h2 := mt (isLowSurrogate_iff _).mp (show ¬(_ ∧ _) by rw [hhigh]; omega)
    have h3 := (isLowSurrogate_iff _).mpr (show _ ∧ _ by rw [hlow]; omega)
    have hpair : surrogatePair (UInt16.ofNat (0xD800 + (c.toNat - 0x10000) / 0x400))
        (UInt16.ofNat (0xDC00 + (c.toNat - 0x10000) % 0x400)) = c := by
      have hval : 0x10000 + (0xD800 + (c.toNat - 0x10000) / 0x400 - 0xD800) * 0x400
          + (0xDC00 + (c.toNat - 0x10000) % 0x400 - 0xDC00) = c.toNat := by omega
      rw [surrogatePair, hhigh, hlow, hval, Char.ofNat_toNat]
    show decodeUtf16 (_ :: _ :: us) = _
    rw [decodeUtf16, if_pos h1, if_neg h2, if_pos h3, hpair]

/-- **What is written is read back.** -/
theorem decodeUtf16_encodeUtf16 (cs : List Char) : decodeUtf16 (encodeUtf16 cs) = some cs := by
  induction cs with
  | nil => rfl
  | cons c cs ih => rw [encodeUtf16_cons, decodeUtf16_charUnits, ih, Option.map_some]

theorem charUnits_unit {u : UInt16} (h : ¬isSurrogate u = true) :
    charUnits (Char.ofNat u.toNat) = [u] := by
  have hlt := UInt16.toNat_lt u
  rw [isSurrogate_iff] at h
  have hvalid : u.toNat.isValidChar := by
    unfold Nat.isValidChar
    omega
  rw [charUnits, toNat_charOfNat hvalid, if_pos hlt, UInt16.ofNat_toNat]

theorem charUnits_pair {u v : UInt16} (hu : isSurrogate u = true)
    (hu' : ¬isLowSurrogate u = true) (hv : isLowSurrogate v = true) :
    charUnits (surrogatePair u v) = [u, v] := by
  rw [isSurrogate_iff] at hu
  rw [isLowSurrogate_iff] at hu' hv
  have hvalid : (0x10000 + (u.toNat - 0xD800) * 0x400 + (v.toNat - 0xDC00)).isValidChar := by
    unfold Nat.isValidChar
    omega
  have hhigh : 0xD800 + (0x10000 + (u.toNat - 0xD800) * 0x400 + (v.toNat - 0xDC00) - 0x10000)
      / 0x400 = u.toNat := by omega
  have hlow : 0xDC00 + (0x10000 + (u.toNat - 0xD800) * 0x400 + (v.toNat - 0xDC00) - 0x10000)
      % 0x400 = v.toNat := by omega
  rw [charUnits, surrogatePair, toNat_charOfNat hvalid, if_neg (by omega), hhigh, hlow,
    UInt16.ofNat_toNat, UInt16.ofNat_toNat]

/-- **And only that is read.** -/
theorem encodeUtf16_of_decodeUtf16 {us : List UInt16} {cs : List Char}
    (h : decodeUtf16 us = some cs) : encodeUtf16 cs = us := by
  induction us using decodeUtf16.induct generalizing cs with
  | case1 => cases h; rfl
  | case2 u hu =>
    rw [decodeUtf16, if_pos hu] at h
    cases h
  | case3 u hu =>
    rw [decodeUtf16, if_neg hu] at h
    cases h
    rw [encodeUtf16_cons, charUnits_unit hu]
    rfl
  | case4 u v rest hu hlow =>
    rw [decodeUtf16, if_pos hu, if_pos hlow] at h
    cases h
  | case5 u v rest hu hlow hv ih =>
    rw [decodeUtf16, if_pos hu, if_neg hlow, if_pos hv] at h
    obtain ⟨cs', hcs', rfl⟩ := Option.map_eq_some_iff.mp h
    rw [encodeUtf16_cons, charUnits_pair hu hlow hv, ih hcs']
    rfl
  | case6 u v rest hu hlow hv =>
    rw [decodeUtf16, if_pos hu, if_neg hlow, if_neg hv] at h
    cases h
  | case7 u v rest hu ih =>
    rw [decodeUtf16, if_neg hu] at h
    obtain ⟨cs', hcs', rfl⟩ := Option.map_eq_some_iff.mp h
    rw [encodeUtf16_cons, charUnits_unit hu, ih hcs']
    rfl

/-! ## Units and bytes -/

/-- A character has at least as many bytes as units, and exactly as many when it is ASCII. -/
theorem charUnits_length (c : Char) : (charUnits c).length ≤ c.utf8Size ∧
    ((charUnits c).length = c.utf8Size ↔ c.toNat < 128) := by
  have hpos := c.utf8Size_pos
  have hone : c.utf8Size = 1 ↔ c.toNat ≤ 127 := by
    rw [Char.utf8Size_eq_one_iff, UInt32.le_iff_toNat_le]
    rfl
  unfold charUnits
  split
  · next h =>
    rw [List.length_singleton]
    omega
  · next h =>
    have hfour : c.utf8Size = 4 := by
      rw [Char.utf8Size_eq_four_iff, UInt32.lt_iff_toNat_lt]
      exact Nat.not_lt.mp h
    rw [List.length_cons, List.length_singleton]
    omega

/-- Every character has a unit. -/
theorem length_le_encodeUtf16 (cs : List Char) : cs.length ≤ (encodeUtf16 cs).length := by
  induction cs with
  | nil => exact Nat.le_refl _
  | cons c cs ih =>
    have hc : 1 ≤ (charUnits c).length := by
      unfold charUnits
      split
      · exact Nat.le_refl _
      · exact Nat.le_succ _
    rw [encodeUtf16_cons, List.length_append, List.length_cons]
    omega

theorem encodeUtf16_length (cs : List Char) :
    (encodeUtf16 cs).length ≤ (cs.flatMap String.utf8EncodeChar).length ∧
      ((encodeUtf16 cs).length = (cs.flatMap String.utf8EncodeChar).length ↔
        ∀ c ∈ cs, c.toNat < 128) := by
  induction cs with
  | nil => simp [encodeUtf16]
  | cons c cs ih =>
    obtain ⟨hle, heq⟩ := ih
    obtain ⟨hcle, hceq⟩ := charUnits_length c
    rw [encodeUtf16_cons, List.flatMap_cons, List.length_append, List.length_append,
      String.length_utf8EncodeChar, List.forall_mem_cons, ← hceq, ← heq]
    omega

/-- **Text has as many units as bytes exactly when it is ASCII.** -/
theorem encodeUtf16_length_eq_iff (s : String) :
    (encodeUtf16 s.toList).length = s.utf8ByteSize ↔ ∀ c ∈ s.toList, c.toNat < 128 := by
  have h := (encodeUtf16_length s.toList).2
  rwa [← utf8_ofList, String.ofList_toList, utf8_length] at h

end CraftIp.Infra
