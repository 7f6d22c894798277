import Mathlib.Logic.Basic

/-!
# Labelled machines

A machine is a state with a partial step function: `step s l` is `none` when the label `l`
is not enabled in `s`. A run is a list of labels, and the reachable states are those at the
end of a run. Everything is executable, so a run on fixed labels is checked by evaluation.

* `Machine.Reachable.invariant` — what holds initially and is kept by every step holds of
  every reachable state
* `Machine.restrict` — the machine that takes the steps of another one under a condition,
  so `(m.restrict C).Reachable s` says that some run to `s` meets `C` at every step
* `Machine.run_restrict_iff` — a condition that tells exactly which steps fail
* `Machine.always_iff` — a condition that tells exactly which steps lead out of the good states
-/

namespace CraftIp.Infra

structure Machine (σ ℓ : Type) where
  init : σ
  step : σ → ℓ → Option σ

namespace Machine

variable {σ ℓ : Type}

/-! ## Runs -/

/-- The state after the labels `ls`, if each of them is enabled in its turn. -/
def run (m : Machine σ ℓ) : σ → List ℓ → Option σ
  | s, [] => some s
  | s, l :: ls => (m.step s l).bind fun s' => m.run s' ls

theorem run_append (m : Machine σ ℓ) (s : σ) (ls ks : List ℓ) :
    m.run s (ls ++ ks) = (m.run s ls).bind fun s' => m.run s' ks := by
  induction ls generalizing s with
  | nil => rfl
  | cons l ls ih =>
    rw [List.cons_append, run, run, Option.bind_assoc]
    exact congrArg _ (funext ih)

theorem run_snoc (m : Machine σ ℓ) (s : σ) (ls : List ℓ) (l : ℓ) :
    m.run s (ls ++ [l]) = (m.run s ls).bind fun s' => m.step s' l := by
  rw [run_append]
  exact congrArg _ (funext fun s' => Option.bind_fun_some (m.step s' l))

/-- The states at the end of a run. -/
def Reachable (m : Machine σ ℓ) (s : σ) : Prop := ∃ ls, m.run m.init ls = some s

theorem Reachable.init (m : Machine σ ℓ) : m.Reachable m.init := ⟨[], rfl⟩

theorem Reachable.step {m : Machine σ ℓ} {s s' : σ} {l : ℓ} (h : m.Reachable s)
    (hs : m.step s l = some s') : m.Reachable s' := by
  obtain ⟨ls, hls⟩ := h
  exact ⟨ls ++ [l], by rw [run_snoc, hls, Option.bind_some, hs]⟩

/-! ## Invariants -/

/-- Along a run from a state of `I`, what every step keeps is kept. -/
theorem run_invariant {m : Machine σ ℓ} {I : σ → Prop}
    (hstep : ∀ s l s', I s → m.step s l = some s' → I s') :
    ∀ (ls : List ℓ) {s s' : σ}, I s → m.run s ls = some s' → I s' := by
  intro ls
  induction ls with
  | nil =>
    intro s s' h hr
    cases hr
    exact h
  | cons l ls ih =>
    intro s s' h hr
    obtain ⟨t, ht, hr⟩ := Option.bind_eq_some_iff.mp hr
    exact ih (hstep s l t h ht) hr

/-- **An invariant holds of every reachable state.** -/
theorem Reachable.invariant {m : Machine σ ℓ} {I : σ → Prop} (hinit : I m.init)
    (hstep : ∀ s l s', I s → m.step s l = some s' → I s') {s : σ} (h : m.Reachable s) : I s := by
  obtain ⟨ls, hls⟩ := h
  exact run_invariant hstep ls hinit hls

/-- An invariant whose steps are taken from reachable states only. -/
theorem Reachable.invariant_of_reachable {m : Machine σ ℓ} {I : σ → Prop} (hinit : I m.init)
    (hstep : ∀ s l s', m.Reachable s → I s → m.step s l = some s' → I s') {s : σ}
    (h : m.Reachable s) : I s := by
  refine (Reachable.invariant (I := fun s => m.Reachable s ∧ I s) ⟨.init m, hinit⟩ ?_ h).2
  exact fun s l s' hs hl => ⟨hs.1.step hl, hstep s l s' hs.1 hs.2 hl⟩

/-! ## Runs under a condition -/

/-- The steps of `m` that meet the condition `C` on the state before them and the label. -/
def restrict (m : Machine σ ℓ) (C : σ → ℓ → Prop) [∀ s l, Decidable (C s l)] : Machine σ ℓ where
  init := m.init
  step s l := if C s l then m.step s l else none

theorem restrict_step {m : Machine σ ℓ} {C : σ → ℓ → Prop} [∀ s l, Decidable (C s l)] {s s' : σ}
    {l : ℓ} : (m.restrict C).step s l = some s' ↔ C s l ∧ m.step s l = some s' := by
  show (if C s l then m.step s l else none) = some s' ↔ _
  split
  · next h => simp [h]
  · next h => simp [h]

/-- A run under a condition is a run under a weaker one. -/
theorem run_restrict_imp {m : Machine σ ℓ} {C D : σ → ℓ → Prop} [∀ s l, Decidable (C s l)]
    [∀ s l, Decidable (D s l)] (hCD : ∀ s l, C s l → D s l) {ls : List ℓ} :
    ∀ {s s' : σ}, (m.restrict C).run s ls = some s' → (m.restrict D).run s ls = some s' := by
  induction ls with
  | nil => exact fun h => h
  | cons l ls ih =>
    intro s s' h
    obtain ⟨t, ht, h⟩ := Option.bind_eq_some_iff.mp h
    obtain ⟨hC, ht⟩ := restrict_step.mp ht
    have hl : (m.restrict D).step s l = some t := restrict_step.mpr ⟨hCD s l hC, ht⟩
    rw [run, hl, Option.bind_some]
    exact ih h

/-- A run under a condition is a run. -/
theorem Reachable.of_restrict {m : Machine σ ℓ} {C : σ → ℓ → Prop} [∀ s l, Decidable (C s l)]
    {s : σ} (h : (m.restrict C).Reachable s) : m.Reachable s :=
  h.invariant (.init m) fun _ _ _ hs hl => hs.step (restrict_step.mp hl).2

/-- **The invariant rule for runs under a condition.** -/
theorem Reachable.restrict_invariant {m : Machine σ ℓ} {C : σ → ℓ → Prop}
    [∀ s l, Decidable (C s l)] {I : σ → Prop} (hinit : I m.init)
    (hstep : ∀ s l s', m.Reachable s → I s → C s l → m.step s l = some s' → I s') {s : σ}
    (h : (m.restrict C).Reachable s) : I s :=
  Reachable.invariant_of_reachable (m := m.restrict C) hinit
    (fun s l s' hs hi hl =>
      hstep s l s' hs.of_restrict hi (restrict_step.mp hl).1 (restrict_step.mp hl).2) h

/-! ## Runs that fail -/

/--
**A run goes well exactly when it meets the condition at every step.**

`G` are the states in which nothing has failed, and after a failure no step is enabled.
-/
theorem run_restrict_iff {m : Machine σ ℓ} {C : σ → ℓ → Prop} [∀ s l, Decidable (C s l)]
    {I G : σ → Prop} (hstop : ∀ s l s', m.step s l = some s' → G s)
    (hstep : ∀ s l s', I s → m.step s l = some s' → (G s' ↔ C s l) ∧ (G s' → I s')) :
    ∀ (ls : List ℓ) {s s' : σ}, I s → G s → m.run s ls = some s' →
      (G s' ↔ (m.restrict C).run s ls = some s') := by
  intro ls
  induction ls with
  | nil =>
    intro s s' _ hG hr
    cases hr
    exact ⟨fun _ => rfl, fun _ => hG⟩
  | cons l ls ih =>
    intro s s' hI _ hr
    obtain ⟨t, ht, hr⟩ := Option.bind_eq_some_iff.mp hr
    obtain ⟨hgood, hkeep⟩ := hstep s l t hI ht
    by_cases hG : G t
    · have hl : (m.restrict C).step s l = some t := restrict_step.mpr ⟨hgood.mp hG, ht⟩
      rw [run, hl, Option.bind_some]
      exact ih (hkeep hG) hG hr
    · -- nothing follows the failure
      have hnil : ls = [] := by
        cases ls with
        | nil => rfl
        | cons k ks =>
          obtain ⟨u, hu, -⟩ := Option.bind_eq_some_iff.mp hr
          exact absurd (hstop t k u hu) hG
      subst hnil
      cases hr
      refine ⟨fun h => absurd h hG, ?_⟩
      intro h
      obtain ⟨u, hu, hr⟩ := Option.bind_eq_some_iff.mp h
      exact hgood.mpr (restrict_step.mp hu).1

/-! ## Runs through good states -/

/-- Every state of the run is one of `G`, from the first to the last. -/
def Always (m : Machine σ ℓ) (G : σ → Prop) (s : σ) (ls : List ℓ) : Prop :=
  ∀ pre t, pre <+: ls → m.run s pre = some t → G t

theorem always_nil {m : Machine σ ℓ} {G : σ → Prop} {s : σ} : m.Always G s [] ↔ G s := by
  constructor
  · exact fun h => h [] s (List.prefix_refl []) rfl
  · intro h pre t hpre hr
    obtain rfl := List.prefix_nil.mp hpre
    cases hr
    exact h

theorem always_cons {m : Machine σ ℓ} {G : σ → Prop} {s t : σ} {l : ℓ} (ht : m.step s l = some t)
    (ls : List ℓ) : m.Always G s (l :: ls) ↔ G s ∧ m.Always G t ls := by
  constructor
  · refine fun h => ⟨h [] s List.nil_prefix rfl, ?_⟩
    intro pre u hpre hr
    refine h (l :: pre) u (List.cons_prefix_cons.mpr ⟨rfl, hpre⟩) ?_
    rw [run, ht, Option.bind_some, hr]
  · rintro ⟨hs, hls⟩ pre u hpre hr
    cases pre with
    | nil => cases hr; exact hs
    | cons k pre =>
      obtain ⟨rfl, hrest⟩ := List.cons_prefix_cons.mp hpre
      rw [run, ht, Option.bind_some] at hr
      exact hls pre u hrest hr

/--
**A run stays in the good states exactly when it meets the condition at every step.**

`I` is what the steps under the condition keep, and any other step leads out of `G`.
-/
theorem always_iff {m : Machine σ ℓ} {C : σ → ℓ → Prop} [∀ s l, Decidable (C s l)]
    {I G : σ → Prop} (hgood : ∀ s, I s → G s)
    (hkeep : ∀ s l s', I s → C s l → m.step s l = some s' → I s')
    (hfail : ∀ s l s', I s → ¬C s l → m.step s l = some s' → ¬G s') :
    ∀ (ls : List ℓ) {s s' : σ}, I s → m.run s ls = some s' →
      (m.Always G s ls ↔ (m.restrict C).run s ls = some s') := by
  intro ls
  induction ls with
  | nil =>
    intro s s' hI hr
    cases hr
    exact ⟨fun _ => rfl, fun _ => always_nil.mpr (hgood s hI)⟩
  | cons l ls ih =>
    intro s s' hI hr
    obtain ⟨t, ht, hr⟩ := Option.bind_eq_some_iff.mp hr
    rw [always_cons ht]
    by_cases hC : C s l
    · have hl : (m.restrict C).step s l = some t := restrict_step.mpr ⟨hC, ht⟩
      rw [run, hl, Option.bind_some, ← ih (hkeep s l t hI hC ht) hr]
      exact and_iff_right (hgood s hI)
    · refine ⟨fun h => absurd (h.2 [] t List.nil_prefix rfl) (hfail s l t hI hC ht), ?_⟩
      intro h
      obtain ⟨u, hu, -⟩ := Option.bind_eq_some_iff.mp h
      exact absurd (restrict_step.mp hu).1 hC

end Machine

end CraftIp.Infra
