import Mathlib.Data.List.AList

/-!
# Tables

A `Table` is a finite map, Mathlib's `AList` without dependent values. It is used where a
program has a hash map: the order of the entries is never looked at.

The lemmas give the lookup after every operation as an `if`, for all keys at once. The
number of entries is the number of keys: no key stands twice, so it is bounded from both
sides by lists of keys that are there (`length_le_keys`) or may be (`keys_length_le`).
-/

namespace CraftIp.Infra

abbrev Table (κ ν : Type) := AList fun _ : κ => ν

namespace Table

variable {κ ν : Type} [DecidableEq κ]

theorem lookup_insert (t : Table κ ν) (k k' : κ) (v : ν) :
    (t.insert k v).lookup k' = if k' = k then some v else t.lookup k' := by
  split
  · next h => subst h; exact AList.lookup_insert t
  · next h => exact AList.lookup_insert_ne h

theorem lookup_erase (t : Table κ ν) (k k' : κ) :
    (t.erase k).lookup k' = if k' = k then none else t.lookup k' := by
  split
  · next h => subst h; exact AList.lookup_erase k' t
  · next h => exact AList.lookup_erase_ne h

theorem erase_eq_self {t : Table κ ν} {k : κ} (h : t.lookup k = none) : t.erase k = t :=
  AList.ext (List.kerase_of_notMem_keys (AList.lookup_eq_none.mp h))

/-! ### How many entries there are -/

theorem keys_length_insert {t : Table κ ν} {k : κ} (v : ν) (h : t.lookup k = none) :
    (t.insert k v).keys.length = t.keys.length + 1 := by
  have hk : k ∉ t.keys := AList.lookup_eq_none.mp h
  rw [AList.keys_insert, List.erase_of_not_mem hk, List.length_cons]

theorem keys_length_erase_le (t : Table κ ν) (k : κ) : (t.erase k).keys.length ≤ t.keys.length := by
  rw [AList.keys_erase]
  exact List.length_erase_le

theorem keys_length_erase {t : Table κ ν} {k : κ} {v : ν} (h : t.lookup k = some v) :
    (t.erase k).keys.length + 1 = t.keys.length := by
  have hk : k ∈ t.keys := AList.lookup_isSome.mp (by rw [h]; rfl)
  have hpos := List.length_pos_of_mem hk
  rw [AList.keys_erase, List.length_erase_of_mem hk]
  omega

/-- Different keys that are all there are no more than the entries. -/
theorem length_le_keys {t : Table κ ν} {ks : List κ} (hks : ks.Nodup)
    (h : ∀ k ∈ ks, (t.lookup k).isSome) : ks.length ≤ t.keys.length :=
  (List.subperm_of_subset hks fun k hk => AList.lookup_isSome.mp (h k hk)).length_le

/-- One of enough different keys is not there. -/
theorem exists_lookup_eq_none {t : Table κ ν} {ks : List κ} (hks : ks.Nodup)
    (h : t.keys.length < ks.length) : ∃ k ∈ ks, t.lookup k = none := by
  by_contra hall
  refine absurd (length_le_keys hks ?_) (Nat.not_le_of_lt h)
  intro k hk
  exact Option.isSome_iff_ne_none.mpr fun hnone => hall ⟨k, hk, hnone⟩

/-- The entries are no more than the keys that may be there. -/
theorem keys_length_le {t : Table κ ν} {ks : List κ} (h : ∀ {k v}, t.lookup k = some v → k ∈ ks) :
    t.keys.length ≤ ks.length := by
  refine (List.subperm_of_subset t.keys_nodup ?_).length_le
  intro k hk
  obtain ⟨v, hv⟩ := Option.isSome_iff_exists.mp (AList.lookup_isSome.mpr hk)
  exact h hv

/-- Every key is made from an entry of another table, so that one has at least as many. -/
theorem keys_length_le_keys {κ' ν' : Type} [DecidableEq κ'] {t : Table κ ν} {t' : Table κ' ν'}
    (f : κ' → ν' → κ)
    (h : ∀ {k v}, t.lookup k = some v → ∃ k' v', t'.lookup k' = some v' ∧ f k' v' = k) :
    t.keys.length ≤ t'.keys.length := by
  have hle : t.keys.length ≤ (t'.entries.map fun e => f e.1 e.2).length := by
    refine keys_length_le fun hk => ?_
    obtain ⟨k', v', hk', rfl⟩ := h hk
    exact List.mem_map_of_mem (f := fun e : (_ : κ') × ν' => f e.1 e.2) (AList.mem_lookup_iff.mp hk')
  rw [List.length_map] at hle
  exact Nat.le_trans hle (Nat.le_of_eq (List.length_map _).symm)

end Table

/-! ## Lists that grow -/

/-- A list that only grows is a table of its indices; a new entry gets the next one. -/
theorem getElem?_concat_iff {α : Type} {xs : List α} {x y : α} {i : Nat} :
    (xs ++ [x])[i]? = some y ↔ xs[i]? = some y ∨ i = xs.length ∧ y = x := by
  rcases Nat.lt_trichotomy i xs.length with hi | rfl | hi
  · rw [List.getElem?_append_left hi]
    exact ⟨Or.inl, fun h => h.elim id fun h => absurd h.1 (Nat.ne_of_lt hi)⟩
  · rw [List.getElem?_concat_length, List.getElem?_eq_none (Nat.le_refl _)]
    simp [eq_comm]
  · rw [List.getElem?_eq_none (by rw [List.length_append]; exact hi),
      List.getElem?_eq_none (Nat.le_of_lt hi)]
    simp [Nat.ne_of_gt hi]

end CraftIp.Infra
