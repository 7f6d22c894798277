import CraftIp.Infra.Machine

/-!
# Simulations between machines

A machine `m` is simulated by a machine `n` if some relation between their states holds at
the beginning and is kept: what is seen of a step of `m` is a run of `n`, often of no step or
of one. Then what is seen of a whole run of `m` is a run of `n`.

* `Machine.trace_invariant` — what every step keeps of the state and of the trace before it
* `Simulation.run` — the trace of a run is a run
* `Simulation.reachable` — what holds of the reachable states of `n` holds of those of `m`
* `Simulation.comp` — one simulation after the other
-/

namespace CraftIp.Infra

namespace Machine

variable {σ τ υ ℓ κ μ : Type}

theorem Reachable.run {m : Machine σ ℓ} {s s' : σ} {ls : List ℓ} (h : m.Reachable s)
    (hr : m.run s ls = some s') : m.Reachable s' := by
  obtain ⟨ks, hks⟩ := h
  exact ⟨ks ++ ls, by rw [run_append, hks, Option.bind_some, hr]⟩

/-- What is seen of the labels `ls`, as long as each of them is enabled in its turn. -/
def trace (m : Machine σ ℓ) (see : σ → ℓ → List κ) : σ → List ℓ → List κ
  | _, [] => []
  | s, l :: ls =>
    match m.step s l with
    | some s' => see s l ++ m.trace see s' ls
    | none => []

theorem trace_cons {m : Machine σ ℓ} {see : σ → ℓ → List κ} {s s' : σ} {l : ℓ}
    (h : m.step s l = some s') (ls : List ℓ) :
    m.trace see s (l :: ls) = see s l ++ m.trace see s' ls := by
  rw [trace, h]

/-- A run under a condition looks like the run. -/
theorem trace_restrict {m : Machine σ ℓ} {C : σ → ℓ → Prop} [∀ s l, Decidable (C s l)]
    (see : σ → ℓ → List κ) :
    ∀ (ls : List ℓ) {s s' : σ}, (m.restrict C).run s ls = some s' →
      (m.restrict C).trace see s ls = m.trace see s ls := by
  intro ls
  induction ls with
  | nil => intros; rfl
  | cons l ls ih =>
    intro s s' h
    obtain ⟨t, ht, h⟩ := Option.bind_eq_some_iff.mp h
    rw [trace_cons ht, trace_cons (restrict_step.mp ht).2, ih h]

/-- What is seen of a run, when it depends on the labels only. -/
theorem trace_labels {m : Machine σ ℓ} (see : ℓ → List κ) :
    ∀ (ls : List ℓ) {s s' : σ}, m.run s ls = some s' →
      m.trace (fun _ l => see l) s ls = ls.flatMap see := by
  intro ls
  induction ls with
  | nil => intros; rfl
  | cons l ls ih =>
    intro s s' h
    obtain ⟨t, ht, h⟩ := Option.bind_eq_some_iff.mp h
    rw [trace_cons ht, ih h, List.flatMap_cons]

/-- What a step keeps of a state and of what has been seen before. -/
theorem trace_invariant_of {m : Machine σ ℓ} {see : σ → ℓ → List κ} {I : σ → List κ → Prop}
    (hstep : ∀ s t l s', m.Reachable s → I s t → m.step s l = some s' → I s' (t ++ see s l)) :
    ∀ (ls : List ℓ) {s s' : σ} {t : List κ}, m.Reachable s → I s t → m.run s ls = some s' →
      I s' (t ++ m.trace see s ls) := by
  intro ls
  induction ls with
  | nil =>
    intro s s' t _ hI h
    cases h
    rwa [trace, List.append_nil]
  | cons l ls ih =>
    intro s s' t hs hI h
    obtain ⟨u, hu, h⟩ := Option.bind_eq_some_iff.mp h
    rw [trace_cons hu, ← List.append_assoc]
    exact ih (hs.step hu) (hstep s t l u hs hI hu) h

/-- **The invariant rule for a run and its trace.** -/
theorem trace_invariant {m : Machine σ ℓ} {see : σ → ℓ → List κ} {I : σ → List κ → Prop}
    (hinit : I m.init [])
    (hstep : ∀ s t l s', m.Reachable s → I s t → m.step s l = some s' → I s' (t ++ see s l))
    {ls : List ℓ} {s : σ} (h : m.run m.init ls = some s) : I s (m.trace see m.init ls) :=
  trace_invariant_of hstep ls (.init m) hinit h

end Machine

variable {σ τ υ ℓ κ μ : Type}

/-- `m` is simulated by `n`, which is shown what is seen of each step. -/
structure Simulation (m : Machine σ ℓ) (n : Machine τ κ) where
  see : σ → ℓ → List κ
  rel : σ → τ → Prop
  init : rel m.init n.init
  step : ∀ {s l s' t}, m.Reachable s → rel s t → m.step s l = some s' →
    ∃ t', n.run t (see s l) = some t' ∧ rel s' t'

namespace Simulation

variable {m : Machine σ ℓ} {n : Machine τ κ} {p : Machine υ μ}

/-- The trace of a run from related states is a run. -/
theorem run_of (f : Simulation m n) :
    ∀ (ls : List ℓ) {s s' : σ} {t : τ}, m.Reachable s → f.rel s t → m.run s ls = some s' →
      ∃ t', n.run t (m.trace f.see s ls) = some t' ∧ f.rel s' t' := by
  intro ls
  induction ls with
  | nil =>
    intro s s' t _ hrel h
    cases h
    exact ⟨t, rfl, hrel⟩
  | cons l ls ih =>
    intro s s' t hs hrel h
    obtain ⟨s₁, h₁, h⟩ := Option.bind_eq_some_iff.mp h
    obtain ⟨t₁, hrun, hrel⟩ := f.step hs hrel h₁
    obtain ⟨t', hrun', hrel⟩ := ih (hs.step h₁) hrel h
    refine ⟨t', ?_, hrel⟩
    rw [Machine.trace_cons h₁, Machine.run_append, hrun, Option.bind_some, hrun']

/-- **The trace of a run is a run.** -/
theorem run (f : Simulation m n) {ls : List ℓ} {s : σ} (h : m.run m.init ls = some s) :
    ∃ t, n.run n.init (m.trace f.see m.init ls) = some t ∧ f.rel s t :=
  f.run_of ls (.init m) f.init h

/-- A reachable state is related to a reachable state. -/
theorem reachable (f : Simulation m n) {s : σ} (h : m.Reachable s) :
    ∃ t, n.Reachable t ∧ f.rel s t := by
  obtain ⟨ls, h⟩ := h
  obtain ⟨t, hrun, hrel⟩ := f.run h
  exact ⟨t, ⟨_, hrun⟩, hrel⟩

/--
**One simulation after the other.**

What is seen of a step of `m` is what `g` sees of the steps that `f` sees.
-/
def comp (f : Simulation m n) (g : Simulation n p) (see : σ → ℓ → List μ)
    (hsee : ∀ {s l s' t}, f.rel s t → m.step s l = some s' →
      see s l = n.trace g.see t (f.see s l)) : Simulation m p where
  see := see
  rel s u := ∃ t, n.Reachable t ∧ f.rel s t ∧ g.rel t u
  init := ⟨n.init, .init n, f.init, g.init⟩
  step := by
    rintro s l s' u hs ⟨t, ht, hst, htu⟩ h
    obtain ⟨t', hrun, hst'⟩ := f.step hs hst h
    obtain ⟨u', hrun', htu'⟩ := g.run_of _ ht htu hrun
    exact ⟨u', by rw [hsee hst h, hrun'], t', ht.run hrun, hst', htu'⟩

end Simulation

end CraftIp.Infra
