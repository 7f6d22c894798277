import CraftIp.Infra.Table

/-!
# Totals

The total weight of a list or a table, and how it changes with one element.

* `total_modify`, `Table.total_insert` — what is gained is what the element gains
* `total_modify_le`, `Table.total_insert_le` — it is no more than that when the element is unknown
-/

namespace CraftIp.Infra

/-- The total weight of a list. -/
def total {α : Type} (w : α → Nat) : List α → Nat
  | [] => 0
  | x :: l => w x + total w l

section
variable {α : Type} {w : α → Nat}

@[simp] theorem total_nil : total w ([] : List α) = 0 := rfl

@[simp] theorem total_cons (x : α) (l : List α) : total w (x :: l) = w x + total w l :=
  rfl

@[simp] theorem total_append (l l' : List α) : total w (l ++ l') = total w l + total w l' := by
  induction l with
  | nil => simp
  | cons x l ih => simp [ih, Nat.add_assoc]

theorem total_modify {x : α} {f : α → α} :
    ∀ {l : List α} {k : Nat}, l[k]? = some x →
      total w (l.modify k f) + w x = total w l + w (f x) := by
  intro l
  induction l with
  | nil =>
    intro k h
    cases h
  | cons y l ih =>
    intro k h
    cases k with
    | zero =>
      cases h
      simp only [List.modify_zero_cons, total_cons]
      omega
    | succ k =>
      have hrest := ih (k := k) h
      simp only [List.modify_succ_cons, total_cons]
      omega

/-- What every element gains at most, the total gains at most. -/
theorem total_modify_le {f : α → α} {n : Nat} (hf : ∀ x, w (f x) ≤ w x + n) (l : List α) (k : Nat) :
    total w (l.modify k f) ≤ total w l + n := by
  cases hk : l[k]? with
  | none =>
    rw [List.modify_eq_self (List.getElem?_eq_none_iff.mp hk)]
    exact Nat.le_add_right _ _
  | some x =>
    have htotal := total_modify (w := w) (f := f) hk
    have hgain := hf x
    omega

end

namespace Table

variable {κ ν : Type} [DecidableEq κ] {w : ν → Nat}

/-- The total weight of the values of a table. -/
def total (w : ν → Nat) (t : Table κ ν) : Nat := Infra.total (fun e => w e.2) t.entries

theorem total_insert {t : Table κ ν} {k : κ} {v : ν} (v' : ν) (h : t.lookup k = some v) :
    total w (t.insert k v') + w v = total w t + w v' := by
  have hmem : ⟨k, v⟩ ∈ t.entries := AList.mem_lookup_iff.mp h
  obtain ⟨u, l₁, l₂, hfirst, hentries, herase⟩ :=
    List.exists_of_kerase (List.mem_keys_of_mem hmem)
  -- the entry that is erased is the one that was found
  have hu : u = v := by
    have hin : ⟨k, u⟩ ∈ t.entries := by
      rw [hentries]
      simp
    cases (AList.mem_lookup_iff.mpr hin).symm.trans h
    rfl
  subst hu
  show Infra.total _ (t.insert k v').entries + _ = Infra.total _ t.entries + _
  rw [AList.entries_insert, herase, hentries]
  simp only [Infra.total_cons, Infra.total_append]
  omega

theorem total_insert_le (t : Table κ ν) (k : κ) (v : ν) :
    total w (t.insert k v) ≤ total w t + w v := by
  show Infra.total _ (t.insert k v).entries ≤ Infra.total _ t.entries + _
  cases h : t.lookup k with
  | some u =>
    have htotal := total_insert (w := w) v h
    simp only [total] at htotal
    omega
  | none =>
    rw [AList.entries_insert_of_notMem (AList.lookup_eq_none.mp h), Infra.total_cons, Nat.add_comm]

end Table

end CraftIp.Infra
