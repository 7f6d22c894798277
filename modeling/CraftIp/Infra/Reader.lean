import CraftIp.Infra.Bytes

/-!
# Readers of the front of a byte string

A `Reader` takes some bytes off the front of its input, or fails with an error. It is a
parser over lists, without positions.

`Reader.Local` is what makes a reader fit for a stream: when it succeeds, it has taken a
prefix, and more bytes at the end would not have changed that. Locality is kept by `pure`
and `>>=`, so a reader put together from local ones is local.
-/

namespace CraftIp.Infra

abbrev Reader (ε α : Type) := StateT Bytes (Except ε) α

namespace Reader

variable {ε α β : Type}

/-! ## How readers compose -/

def error (e : ε) : Reader ε α := fun _ => .error e

@[simp] theorem pure_apply (a : α) (s : Bytes) : (pure a : Reader ε α) s = .ok (a, s) := rfl

theorem bind_apply (p : Reader ε α) (q : α → Reader ε β) (s : Bytes) :
    (p >>= q) s = match p s with
      | .error e => .error e
      | .ok (a, r) => q a r := by
  simp only [bind, StateT.bind, Except.bind]
  cases p s <;> rfl

theorem bind_ok {p : Reader ε α} {q : α → Reader ε β} {s : Bytes} {a : α} {r : Bytes}
    (h : p s = .ok (a, r)) : (p >>= q) s = q a r := by
  rw [bind_apply, h]

theorem bind_error {p : Reader ε α} {q : α → Reader ε β} {s : Bytes} {e : ε}
    (h : p s = .error e) : (p >>= q) s = .error e := by
  rw [bind_apply, h]

theorem bind_eq_ok {p : Reader ε α} {q : α → Reader ε β} {s : Bytes} {b : β} {r : Bytes} :
    (p >>= q) s = .ok (b, r) ↔ ∃ a m, p s = .ok (a, m) ∧ q a m = .ok (b, r) := by
  rw [bind_apply]
  cases hp : p s with
  | error e => simp
  | ok v => obtain ⟨a, m⟩ := v; simp

theorem bind_eq_error {p : Reader ε α} {q : α → Reader ε β} {s : Bytes} {e : ε} :
    (p >>= q) s = .error e ↔ p s = .error e ∨ ∃ a m, p s = .ok (a, m) ∧ q a m = .error e := by
  rw [bind_apply]
  cases hp : p s with
  | error e' => simp
  | ok v => obtain ⟨a, m⟩ := v; simp

/-! ## Local readers -/

/-- What a success takes is a prefix, and it does not depend on what follows. -/
structure Local (p : Reader ε α) : Prop where
  takes_front : ∀ {s : Bytes} {a : α} {r : Bytes}, p s = .ok (a, r) → ∃ c, s = c ++ r
  append : ∀ {s : Bytes} {a : α} {r : Bytes}, p s = .ok (a, r) → ∀ t, p (s ++ t) = .ok (a, r ++ t)

theorem Local.length_le {p : Reader ε α} (hp : p.Local) {s : Bytes} {a : α} {r : Bytes}
    (h : p s = .ok (a, r)) : r.length ≤ s.length := by
  obtain ⟨c, rfl⟩ := hp.takes_front h
  rw [List.length_append]
  omega

/-- What is left is what remains after dropping the taken bytes. -/
theorem Local.drop {p : Reader ε α} (hp : p.Local) {s : Bytes} {a : α} {r : Bytes}
    (h : p s = .ok (a, r)) : s.drop (s.length - r.length) = r := by
  obtain ⟨c, rfl⟩ := hp.takes_front h
  rw [List.length_append, Nat.add_sub_cancel, List.drop_left]

theorem local_pure (a : α) : (pure a : Reader ε α).Local where
  takes_front h := by cases h; exact ⟨[], rfl⟩
  append h t := by cases h; rfl

theorem local_error (e : ε) : (error e : Reader ε α).Local where
  takes_front h := by cases h
  append h t := by cases h

theorem Local.bind {p : Reader ε α} {q : α → Reader ε β} (hp : p.Local) (hq : ∀ a, (q a).Local) :
    (p >>= q).Local where
  takes_front h := by
    obtain ⟨a, m, ha, hb⟩ := bind_eq_ok.mp h
    obtain ⟨c, rfl⟩ := hp.takes_front ha
    obtain ⟨d, rfl⟩ := (hq a).takes_front hb
    exact ⟨c ++ d, (List.append_assoc ..).symm⟩
  append h t := by
    obtain ⟨a, m, ha, hb⟩ := bind_eq_ok.mp h
    exact bind_eq_ok.mpr ⟨a, m ++ t, hp.append ha t, (hq a).append hb t⟩

/-! ## How much is taken -/

/-- A success takes at most `k` bytes. -/
def AtMost (p : Reader ε α) (k : Nat) : Prop :=
  ∀ ⦃s : Bytes⦄ ⦃a : α⦄ ⦃r : Bytes⦄, p s = .ok (a, r) → s.length ≤ r.length + k

theorem atMost_pure (a : α) : (pure a : Reader ε α).AtMost 0 := fun _ _ _ h => by
  cases h
  exact Nat.le_refl _

theorem AtMost.bind {p : Reader ε α} {q : α → Reader ε β} {k l : Nat} (hp : p.AtMost k)
    (hq : ∀ a, (q a).AtMost l) : (p >>= q).AtMost (k + l) := fun _ _ _ h => by
  obtain ⟨a, m, ha, hb⟩ := bind_eq_ok.mp h
  have h1 := hp ha
  have h2 := hq a hb
  omega

/-- A success takes at least one byte. -/
def Advances (p : Reader ε α) : Prop :=
  ∀ ⦃s : Bytes⦄ ⦃a : α⦄ ⦃r : Bytes⦄, p s = .ok (a, r) → r.length < s.length

theorem Advances.bind {p : Reader ε α} {q : α → Reader ε β} (hp : p.Advances)
    (hq : ∀ a, (q a).Local) : (p >>= q).Advances := fun _ _ _ h => by
  obtain ⟨a, m, ha, hb⟩ := bind_eq_ok.mp h
  exact Nat.lt_of_le_of_lt ((hq a).length_le hb) (hp ha)

/-! ## Errors that do not happen, and errors that are there to stay -/

/-- `p` does not fail with `e`. -/
def Never (p : Reader ε α) (e : ε) : Prop := ∀ s, p s ≠ .error e

theorem never_pure (a : α) (e : ε) : (pure a : Reader ε α).Never e := fun _ h => by cases h

theorem never_error {e e' : ε} (h : e' ≠ e) : (error e' : Reader ε α).Never e := fun _ hs => by
  cases hs
  exact h rfl

theorem Never.bind {p : Reader ε α} {q : α → Reader ε β} {e : ε} (hp : p.Never e)
    (hq : ∀ a, (q a).Never e) : (p >>= q).Never e := fun s h => by
  rcases bind_eq_error.mp h with hs | ⟨a, m, -, hm⟩
  · exact hp s hs
  · exact hq a m hm

/-- With `n` bytes there, `p` does not fail with `e`. -/
def NeverFrom (n : Nat) (p : Reader ε α) (e : ε) : Prop :=
  ∀ ⦃s : Bytes⦄, n ≤ s.length → p s ≠ .error e

theorem Never.neverFrom {p : Reader ε α} {e : ε} (h : p.Never e) (n : Nat) : p.NeverFrom n e :=
  fun s _ => h s

theorem NeverFrom.mono {p : Reader ε α} {e : ε} {m n : Nat} (h : p.NeverFrom m e) (hle : m ≤ n) :
    p.NeverFrom n e :=
  fun _ hn => h (Nat.le_trans hle hn)

/-- Behind a reader that has enough, nothing else asks for more. -/
theorem NeverFrom.bind_never {p : Reader ε α} {q : α → Reader ε β} {e : ε} {n : Nat}
    (hp : p.NeverFrom n e) (hq : ∀ a, (q a).Never e) : (p >>= q).NeverFrom n e := by
  intro s hn h
  rcases bind_eq_error.mp h with hs | ⟨a, m, -, hm⟩
  · exact hp hn hs
  · exact hq a m hm

theorem NeverFrom.bind {p : Reader ε α} {q : α → Reader ε β} {e : ε} {k n : Nat} (hk : p.AtMost k)
    (hp : p.NeverFrom (k + n) e) (hq : ∀ a, (q a).NeverFrom n e) :
    (p >>= q).NeverFrom (k + n) e := by
  intro s hn h
  rcases bind_eq_error.mp h with hs | ⟨a, m, ha, hm⟩
  · exact hp hn hs
  · have hlen := hk ha
    exact hq a (by omega) hm

/-- When `p` fails with `e`, more bytes at the end do not help. -/
def Final (p : Reader ε α) (e : ε) : Prop :=
  ∀ s : Bytes, p s = .error e → ∀ t, p (s ++ t) = .error e

theorem Never.final {p : Reader ε α} {e : ε} (h : p.Never e) : p.Final e :=
  fun s hs _ => absurd hs (h s)

theorem final_error (e e' : ε) : (error e : Reader ε α).Final e' := fun _ h _ => h

theorem Final.bind {p : Reader ε α} {q : α → Reader ε β} {e : ε} (hl : p.Local) (hp : p.Final e)
    (hq : ∀ a, (q a).Final e) : (p >>= q).Final e := by
  intro s h t
  rcases bind_eq_error.mp h with hs | ⟨a, m, ha, hm⟩
  · exact bind_error (hp s hs t)
  · exact bind_eq_error.mpr (Or.inr ⟨a, m ++ t, hl.append ha t, hq a m hm t⟩)

/-- When `p` fails with `e` and had `n` bytes, more of them do not help. -/
def FinalFrom (n : Nat) (p : Reader ε α) (e : ε) : Prop :=
  ∀ s : Bytes, n ≤ s.length → p s = .error e → ∀ t, p (s ++ t) = .error e

theorem Final.from {p : Reader ε α} {e : ε} (h : p.Final e) (n : Nat) : p.FinalFrom n e :=
  fun s _ hs => h s hs

/-- A reader that takes at most `k` bytes leaves `n` of `k + n` to the next one. -/
theorem FinalFrom.bind {p : Reader ε α} {q : α → Reader ε β} {e : ε} {k n : Nat} (hl : p.Local)
    (hk : p.AtMost k) (hp : p.FinalFrom (k + n) e)
    (hq : ∀ a, (q a).FinalFrom n e) : (p >>= q).FinalFrom (k + n) e := by
  intro s hn h t
  rcases bind_eq_error.mp h with hs | ⟨a, m, ha, hm⟩
  · exact bind_error (hp s hn hs t)
  · have hlen := hk ha
    exact bind_eq_error.mpr (Or.inr ⟨a, m ++ t, hl.append ha t, hq a m (by omega) hm t⟩)

/-- Behind a reader whose error is final from `n` bytes on, every other error is final anyway. -/
theorem FinalFrom.bind_final {p : Reader ε α} {q : α → Reader ε β} {e : ε} {n : Nat}
    (hl : p.Local) (hp : p.FinalFrom n e) (hq : ∀ a, (q a).Final e) : (p >>= q).FinalFrom n e := by
  intro s hn h t
  rcases bind_eq_error.mp h with hs | ⟨a, m, ha, hm⟩
  · exact bind_error (hp s hn hs t)
  · exact bind_eq_error.mpr (Or.inr ⟨a, m ++ t, hl.append ha t, hq a m hm t⟩)

/-! ## Taking bytes -/

/-- The first `n` bytes, or the error `e` when there are fewer. -/
def bytes (e : ε) (n : Nat) : Reader ε Bytes := fun s =>
  if s.length < n then .error e else .ok (s.take n, s.drop n)

theorem bytes_eq_ok {e : ε} {n : Nat} {s v r : Bytes} (h : bytes e n s = .ok (v, r)) :
    s = v ++ r ∧ v.length = n := by
  unfold bytes at h
  split at h
  · cases h
  · next hn =>
    cases h
    exact ⟨(List.take_append_drop n s).symm, by rw [List.length_take]; omega⟩

theorem bytes_append (e : ε) (v r : Bytes) : bytes e v.length (v ++ r) = .ok (v, r) := by
  rw [bytes, if_neg (by rw [List.length_append]; omega), List.take_left, List.drop_left]

theorem bytes_short {e : ε} {n : Nat} {s : Bytes} (h : s.length < n) :
    bytes e n s = .error e := if_pos h

theorem bytes_eq_error {e e' : ε} {n : Nat} {s : Bytes} (h : bytes e n s = .error e') :
    e' = e ∧ s.length < n := by
  unfold bytes at h
  split at h
  · next hn => cases h; exact ⟨rfl, hn⟩
  · cases h

theorem never_bytes {e e' : ε} (h : e' ≠ e) (n : Nat) : (bytes e' n).Never e :=
  fun _ hs => h (bytes_eq_error hs).1.symm

theorem local_bytes (e : ε) (n : Nat) : (bytes e n).Local where
  takes_front h := ⟨_, (bytes_eq_ok h).1⟩
  append h t := by
    obtain ⟨rfl, rfl⟩ := bytes_eq_ok h
    rw [List.append_assoc, bytes_append]

end Reader

end CraftIp.Infra
