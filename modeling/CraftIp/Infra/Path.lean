import Mathlib.Data.List.Basic

/-!
# Paths through a queue

A queue in flight is read as a path: the state its reader is in now, what each of its
messages does to that state, and the state the reader will be in when the queue is empty.
What every message needs of the state before it is part of the relation, so a path also
says that the queue is in a good order.

A writer appends to the end of a path, a reader takes its first step, and what changes the
state under the queue is a simulation.

* `Path.snoc`, `Path.cons_iff` — the two ends
* `Path.simulate` — the same messages from another state
* `newest` — who used a key last
-/

namespace CraftIp.Infra

variable {σ τ ℓ κ α : Type}

/-- The messages, one after the other, lead from a state to a state. -/
inductive Path (R : σ → ℓ → σ → Prop) : σ → List ℓ → σ → Prop
  | nil (s : σ) : Path R s [] s
  | cons {s t u : σ} {l : ℓ} {ls : List ℓ} : R s l t → Path R t ls u → Path R s (l :: ls) u

namespace Path

variable {R : σ → ℓ → σ → Prop}

theorem cons_iff {s u : σ} {l : ℓ} {ls : List ℓ} :
    Path R s (l :: ls) u ↔ ∃ t, R s l t ∧ Path R t ls u := by
  constructor
  · rintro (⟨⟩ | ⟨hl, h⟩)
    exact ⟨_, hl, h⟩
  · rintro ⟨t, hl, h⟩
    exact .cons hl h

/-- One more message at the end. -/
theorem snoc {s t u : σ} {l : ℓ} {ls : List ℓ} (h : Path R s ls t) (hl : R t l u) :
    Path R s (ls ++ [l]) u := by
  induction h with
  | nil s => exact .cons hl (.nil u)
  | cons h0 _ ih => exact .cons h0 (ih hl)

theorem append {s t u : σ} {ls ks : List ℓ} (h : Path R s ls t) (h' : Path R t ks u) :
    Path R s (ls ++ ks) u := by
  induction h with
  | nil s => exact h'
  | cons h0 _ ih => exact .cons h0 (ih h')

/--
**The same messages from another state.**

`Q` relates the states of the two paths; each message of the queue keeps it.
-/
theorem simulate {S : τ → ℓ → τ → Prop} {Q : σ → τ → Prop} {s u : σ} {x : τ} {ls : List ℓ}
    (hstep : ∀ s l t x, l ∈ ls → R s l t → Q s x → ∃ y, S x l y ∧ Q t y)
    (h : Path R s ls u) (hs : Q s x) : ∃ y, Path S x ls y ∧ Q u y := by
  induction h generalizing x with
  | nil s => exact ⟨x, .nil x, hs⟩
  | @cons s t u l ls hl _ ih =>
    obtain ⟨y, hl', ht⟩ := hstep s l t x List.mem_cons_self hl hs
    obtain ⟨z, h', hu⟩ := ih (fun s l t x hmem => hstep s l t x (.tail _ hmem)) ht
    exact ⟨z, .cons hl' h', hu⟩

/-- Messages that ask for less. -/
theorem mono {S : σ → ℓ → σ → Prop} {s u : σ} {ls : List ℓ}
    (hstep : ∀ s l t, l ∈ ls → R s l t → S s l t) (h : Path R s ls u) : Path S s ls u := by
  have hsame : ∀ s l t x, l ∈ ls → R s l t → s = x → ∃ y, S x l y ∧ t = y := by
    rintro s l t _ hmem hl rfl
    exact ⟨t, hstep s l t hmem hl, rfl⟩
  obtain ⟨y, h', rfl⟩ := h.simulate hsame rfl
  exact h'

end Path

/-! ## Histories -/

variable [DecidableEq κ]

/-- Who used the key last, in a history with the newest entry first. -/
def newest (history : List (α × κ)) (k : κ) : Option α :=
  (history.find? fun e => e.2 = k).map Prod.fst

theorem newest_cons (a : α) (k k' : κ) (history : List (α × κ)) :
    newest ((a, k) :: history) k' = if k = k' then some a else newest history k' := by
  unfold newest
  rw [List.find?_cons]
  by_cases h : k = k' <;> simp [h]

theorem newest_append (h h' : List (α × κ)) (k : κ) :
    newest (h ++ h') k = (newest h k).or (newest h' k) := by
  unfold newest
  rw [List.find?_append]
  cases h.find? fun e => e.2 = k <;> rfl

theorem newest_mem {history : List (α × κ)} {k : κ} {a : α} (h : newest history k = some a) :
    (a, k) ∈ history := by
  obtain ⟨⟨a', k'⟩, he, rfl⟩ := Option.map_eq_some_iff.mp h
  have hk := List.find?_some he
  rw [decide_eq_true_eq] at hk
  exact hk ▸ List.mem_of_find?_eq_some he

end CraftIp.Infra
