import CraftIp.Infra.Simulation

/-!
# Runs that lead somewhere

A rank that some step lowers, whenever the goal is not reached, leads to the goal. A weight
that no step raises bounds the steps that lower it, and one that every step lowers ends every
run.

* `Machine.leads_to` — there is a run to the goal, of at most as many steps as the rank says
* `Machine.trace_length_le` — no more is seen of a run than the weight says
* `Machine.run_length_le` — no run has more steps than the weight says
-/

namespace CraftIp.Infra.Machine

variable {σ ℓ κ : Type}

/-- **A falling rank leads to the goal**, by labels of `L` alone. -/
theorem leads_to {m : Machine σ ℓ} {I : σ → Prop} {L : ℓ → Prop} (goal : σ → Prop)
    (rank : σ → Nat) (hstep : ∀ s, I s → ¬goal s →
      ∃ l s', L l ∧ m.step s l = some s' ∧ I s' ∧ rank s' < rank s) {s : σ} (hs : I s) :
    ∃ ls s', (∀ l ∈ ls, L l) ∧ ls.length ≤ rank s ∧ m.run s ls = some s' ∧ goal s' := by
  induction hn : rank s using Nat.strongRecOn generalizing s with
  | ind n ih =>
    subst hn
    by_cases hgoal : goal s
    · exact ⟨[], s, by simp, by simp, rfl, hgoal⟩
    · obtain ⟨l, t, hl, ht, hI, hrank⟩ := hstep s hs hgoal
      obtain ⟨ls, s', hls, hlen, hrun, hgoal⟩ := ih (rank t) hrank hI rfl
      refine ⟨l :: ls, s', ?_, ?_, ?_, hgoal⟩
      · rintro k hk
        rcases List.mem_cons.mp hk with rfl | hk
        · exact hl
        · exact hls k hk
      · simp only [List.length_cons]
        omega
      · rw [run, ht, Option.bind_some, hrun]

/-- **A weight bounds what is seen**, when that much of it is lost in each step. -/
theorem trace_length_le {m : Machine σ ℓ} {see : σ → ℓ → List κ} {I : σ → Prop}
    (weight : σ → Nat) (hstep : ∀ s l s', I s → m.step s l = some s' →
      I s' ∧ (see s l).length + weight s' ≤ weight s) :
    ∀ {ls : List ℓ} {s s' : σ}, I s → m.run s ls = some s' →
      I s' ∧ (m.trace see s ls).length + weight s' ≤ weight s := by
  intro ls
  induction ls with
  | nil =>
    intro s s' hs hr
    cases hr
    exact ⟨hs, by simp [trace]⟩
  | cons l ls ih =>
    intro s s' hs hr
    obtain ⟨t, ht, hr⟩ := Option.bind_eq_some_iff.mp hr
    obtain ⟨hI, hlt⟩ := hstep s l t hs ht
    obtain ⟨hI', hle⟩ := ih hI hr
    refine ⟨hI', ?_⟩
    rw [trace_cons ht, List.length_append]
    omega

/-- **A falling weight ends every run.** -/
theorem run_length_le {m : Machine σ ℓ} {I : σ → Prop} (weight : σ → Nat)
    (hstep : ∀ s l s', I s → m.step s l = some s' → I s' ∧ weight s' < weight s) {ls : List ℓ}
    {s s' : σ} (hs : I s) (hr : m.run s ls = some s') :
    I s' ∧ ls.length + weight s' ≤ weight s := by
  have hone (s : σ) (l : ℓ) (s' : σ) (hI : I s) (hl : m.step s l = some s') :
      I s' ∧ [l].length + weight s' ≤ weight s := by
    obtain ⟨hI', hlt⟩ := hstep s l s' hI hl
    exact ⟨hI', by simp only [List.length_singleton]; omega⟩
  have hle := trace_length_le weight hone hs hr
  rwa [trace_labels _ _ hr, List.flatMap_singleton'] at hle

end CraftIp.Infra.Machine
