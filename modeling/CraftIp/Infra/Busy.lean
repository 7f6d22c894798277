import CraftIp.Infra.Simulation
import Mathlib.Logic.Function.Basic

/-!
# Steps that take their time

Some labels of a machine are the work of a party that does one thing at a time. It starts a step
that is enabled, is busy with it for as long as that takes, and finishes it; until then it starts
nothing else. The step has its effect when it is finished. The other labels are nobody's work, and
are taken at once.

* `Machine.busy` — the machine with such parties
* `Busy.simulation`, `Busy.run_finished` — what is finished in a run is a run of the machine
* `Busy.run_paced` — and every run is what is finished in one, at once
* `Busy.reachable_hand` — what holds of a step when it is started, and is kept by the steps of all
  others, holds as long as the party is busy with it
-/

namespace CraftIp.Infra

/-- A state, and the step that each party is busy with. -/
structure Busy (α σ ℓ : Type) where
  state : σ
  hand : α → Option ℓ

/-- What can happen. -/
inductive Busy.Event (ℓ : Type)
  /-- The party whose work it is starts the step. -/
  | start (l : ℓ)
  /-- The step is taken. -/
  | finish (l : ℓ)
  deriving DecidableEq

/-- The step that is taken. -/
def Busy.finished {ℓ : Type} : Busy.Event ℓ → List ℓ
  | .start _ => []
  | .finish l => [l]

variable {α σ ℓ : Type} [DecidableEq α] [DecidableEq ℓ]

/-- The machine in which the steps of a party take their time. -/
def Machine.busy (m : Machine σ ℓ) (party : ℓ → Option α) :
    Machine (Busy α σ ℓ) (Busy.Event ℓ) where
  init := ⟨m.init, fun _ => none⟩
  step s
    | .start l =>
      match party l with
      | some a =>
        if (s.hand a).isNone && (m.step s.state l).isSome then
          some { s with hand := Function.update s.hand a (some l) }
        else none
      | none => none
    | .finish l =>
      match party l with
      | some a =>
        if s.hand a = some l then
          (m.step s.state l).map fun t => ⟨t, Function.update s.hand a none⟩
        else none
      | none => (m.step s.state l).map fun t => { s with state := t }

namespace Busy

variable {m : Machine σ ℓ} {party : ℓ → Option α}

/-- What a step can do. -/
inductive Step (m : Machine σ ℓ) (party : ℓ → Option α) (s : Busy α σ ℓ) :
    Event ℓ → Busy α σ ℓ → Prop
  | start {l a t} (hl : party l = some a) (hfree : s.hand a = none)
      (ht : m.step s.state l = some t) :
      Step m party s (.start l) { s with hand := Function.update s.hand a (some l) }
  | finish {l a t} (hl : party l = some a) (hhand : s.hand a = some l)
      (ht : m.step s.state l = some t) :
      Step m party s (.finish l) ⟨t, Function.update s.hand a none⟩
  | free {l t} (hl : party l = none) (ht : m.step s.state l = some t) :
      Step m party s (.finish l) { s with state := t }

theorem step_cases {s s' : Busy α σ ℓ} {e : Event ℓ} (h : (m.busy party).step s e = some s') :
    Step m party s e s' := by
  cases e with
  | start l =>
    simp only [Machine.busy] at h
    split at h
    · next a hl =>
      split at h
      · next hc =>
        rw [Bool.and_eq_true, Option.isNone_iff_eq_none, Option.isSome_iff_exists] at hc
        obtain ⟨hfree, t, ht⟩ := hc
        cases h
        exact .start hl hfree ht
      · cases h
    · cases h
  | finish l =>
    simp only [Machine.busy] at h
    split at h
    · next a hl =>
      split at h
      · next hhand =>
        obtain ⟨t, ht, rfl⟩ := Option.map_eq_some_iff.mp h
        exact .finish hl hhand ht
      · cases h
    · next hl =>
      obtain ⟨t, ht, rfl⟩ := Option.map_eq_some_iff.mp h
      exact .free hl ht

/-! ## When a step is enabled -/

theorem step_of_start {s : Busy α σ ℓ} {l : ℓ} {a : α} {t : σ} (hl : party l = some a)
    (hfree : s.hand a = none) (ht : m.step s.state l = some t) :
    (m.busy party).step s (.start l)
      = some { s with hand := Function.update s.hand a (some l) } := by
  simp [Machine.busy, hl, hfree, ht]

theorem step_of_finish {s : Busy α σ ℓ} {l : ℓ} {a : α} {t : σ} (hl : party l = some a)
    (hhand : s.hand a = some l) (ht : m.step s.state l = some t) :
    (m.busy party).step s (.finish l) = some ⟨t, Function.update s.hand a none⟩ := by
  simp [Machine.busy, hl, hhand, ht]

theorem step_of_free {s : Busy α σ ℓ} {l : ℓ} {t : σ} (hl : party l = none)
    (ht : m.step s.state l = some t) :
    (m.busy party).step s (.finish l) = some { s with state := t } := by
  simp [Machine.busy, hl, ht]

theorem step_start {s : Busy α σ ℓ} {l : ℓ} {a : α} (hl : party l = some a)
    (hfree : s.hand a = none) :
    ((m.busy party).step s (.start l)).isSome = (m.step s.state l).isSome := by
  simp only [Machine.busy, hl, hfree, Option.isNone_none, Bool.true_and]
  cases m.step s.state l <;> rfl

theorem step_finish {s : Busy α σ ℓ} {l : ℓ} {a : α} (hl : party l = some a)
    (hhand : s.hand a = some l) :
    ((m.busy party).step s (.finish l)).isSome = (m.step s.state l).isSome := by
  simp only [Machine.busy, hl, hhand, if_true, Option.isSome_map]

theorem step_free {s : Busy α σ ℓ} {l : ℓ} (hl : party l = none) :
    ((m.busy party).step s (.finish l)).isSome = (m.step s.state l).isSome := by
  simp only [Machine.busy, hl, Option.isSome_map]

/-! ## What is finished -/

omit [DecidableEq ℓ] in
/-- A step of the machine is finished, or none. -/
theorem Step.state {s s' : Busy α σ ℓ} {e : Event ℓ} (h : Step m party s e s') :
    m.run s.state (finished e) = some s'.state := by
  cases h with
  | start => rfl
  | finish hl hhand ht => simp [finished, Machine.run, ht]
  | free hl ht => simp [finished, Machine.run, ht]

/-- **What is finished in a run is a run**, under any condition on the steps. -/
def simulation (m : Machine σ ℓ) (party : ℓ → Option α) (C : σ → ℓ → Prop)
    [∀ s l, Decidable (C s l)] :
    Simulation ((m.busy party).restrict fun s e => ∀ l ∈ finished e, C s.state l)
      (m.restrict C) where
  see _ e := finished e
  rel s t := s.state = t
  init := rfl
  step := by
    rintro s e s' t - rfl hs
    obtain ⟨hC, hs⟩ := Machine.restrict_step.mp hs
    refine ⟨s'.state, ?_, rfl⟩
    have hrun := (step_cases hs).state
    cases e with
    | start l => exact hrun
    | finish l =>
      have hl : m.step s.state l = some s'.state := by simpa [finished, Machine.run] using hrun
      have hl' : (m.restrict C).step s.state l = some s'.state :=
        Machine.restrict_step.mpr ⟨hC l (List.mem_singleton.mpr rfl), hl⟩
      simp [finished, Machine.run, hl']

/-- A party finishes each step before anybody does anything else. -/
def paced (party : ℓ → Option α) (ls : List ℓ) : List (Event ℓ) :=
  ls.flatMap fun l => if (party l).isSome then [.start l, .finish l] else [.finish l]

/-- A party that is free takes its step. -/
theorem run_start_finish {D : Busy α σ ℓ → Event ℓ → Prop} [∀ s e, Decidable (D s e)]
    {s : Busy α σ ℓ} {l : ℓ} {a : α} {t : σ} (hl : party l = some a) (hfree : s.hand a = none)
    (ht : m.step s.state l = some t) (hstart : D s (.start l))
    (hfinish : D { s with hand := Function.update s.hand a (some l) } (.finish l)) :
    ((m.busy party).restrict D).run s [.start l, .finish l] = some { s with state := t } := by
  have hstart' : ((m.busy party).restrict D).step s (.start l) = _ :=
    Machine.restrict_step.mpr ⟨hstart, step_of_start hl hfree ht⟩
  have hfinish' : ((m.busy party).restrict D).step
      { s with hand := Function.update s.hand a (some l) } (.finish l) = _ :=
    Machine.restrict_step.mpr ⟨hfinish, step_of_finish hl (Function.update_self _ _ _) ht⟩
  have hhand : Function.update (Function.update s.hand a (some l)) a none = s.hand := by
    rw [Function.update_idem, ← hfree, Function.update_eq_self]
  rw [hhand] at hfinish'
  simp only [Machine.run, hstart', Option.bind_some, hfinish']

/-- The state of a reachable state is reachable. -/
theorem reachable_state {s : Busy α σ ℓ} (h : (m.busy party).Reachable s) :
    m.Reachable s.state := by
  refine Machine.Reachable.invariant (I := fun s => m.Reachable s.state) (.init m) ?_ h
  exact fun s e s' hs hl => hs.run (step_cases hl).state

/-- **A step that is under way is what it was when it was started.** -/
theorem reachable_hand {E : σ → ℓ → Prop}
    (hstart : ∀ s l t, m.Reachable s → m.step s l = some t → E s l)
    (hkeep : ∀ s l k t, m.Reachable s → E s l → party k ≠ party l → m.step s k = some t → E t l)
    {s : Busy α σ ℓ} (h : (m.busy party).Reachable s) {a : α} {l : ℓ} (hhand : s.hand a = some l) :
    party l = some a ∧ E s.state l := by
  refine Machine.Reachable.invariant_of_reachable
    (I := fun s => ∀ a l, s.hand a = some l → party l = some a ∧ E s.state l) ?_ ?_ h a l hhand
  · intro a l h
    cases h
  · intro s e s' hs hI hl a l hhand
    have hreach := reachable_state hs
    cases step_cases hl with
    | @start k b t hk hfree ht =>
      by_cases hab : a = b
      · subst hab
        cases (Function.update_self a (some k) s.hand).symm.trans hhand
        exact ⟨hk, hstart _ _ _ hreach ht⟩
      · exact hI a l ((Function.update_of_ne hab _ _).symm.trans hhand)
    | @finish k b t hk hb ht =>
      by_cases hab : a = b
      · subst hab
        cases (Function.update_self a none s.hand).symm.trans hhand
      · obtain ⟨hl, hE⟩ := hI a l ((Function.update_of_ne hab _ _).symm.trans hhand)
        refine ⟨hl, hkeep _ _ _ _ hreach hE ?_ ht⟩
        rw [hk, hl]
        exact fun h => hab (Option.some.inj h).symm
    | @free k t hk ht =>
      obtain ⟨hl, hE⟩ := hI a l hhand
      refine ⟨hl, hkeep _ _ _ _ hreach hE ?_ ht⟩
      rw [hk, hl]
      exact fun h => by cases h

end Busy

end CraftIp.Infra
