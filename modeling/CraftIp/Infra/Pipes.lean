import CraftIp.Infra.Machine
import Mathlib.Data.List.Induction
import Mathlib.Logic.Function.Basic

/-!
# Pipes

What a reliable transport is for: under each key there is a pipe, what is put into it at one
end comes out at the other, in order, once, and nothing else comes out.

* `run_puts` — what is in a pipe is what was put into it and not yet taken out
* `run_iff` — a sequence of puts and gets is possible exactly when at every time what came
  out of a pipe is a beginning of what went into it
-/

namespace CraftIp.Infra

variable {κ α : Type}

inductive PipeEvent (κ α : Type)
  | put (k : κ) (x : α)
  | get (k : κ) (x : α)
  deriving DecidableEq

namespace Pipes

variable [DecidableEq κ] [DecidableEq α]

def step (q : κ → List α) : PipeEvent κ α → Option (κ → List α)
  | .put k x => some (Function.update q k (q k ++ [x]))
  | .get k x =>
    match q k with
    | y :: ys => if y = x then some (Function.update q k ys) else none
    | [] => none

/-- The pipes, all of them empty. -/
def machine (κ α : Type) [DecidableEq κ] [DecidableEq α] :
    Machine (κ → List α) (PipeEvent κ α) where
  init _ := []
  step := step

theorem step_get {q : κ → List α} {k : κ} {x : α} {xs : List α} (h : q k = x :: xs) :
    step q (.get k x) = some (Function.update q k xs) := by
  simp [step, h]

/-! ## What went in and what came out -/

/-- What was put into the pipe `k`. -/
def puts (k : κ) (es : List (PipeEvent κ α)) : List α :=
  es.filterMap fun
    | .put j x => if j = k then some x else none
    | .get _ _ => none

/-- What was taken out of the pipe `k`. -/
def gets (k : κ) (es : List (PipeEvent κ α)) : List α :=
  es.filterMap fun
    | .put _ _ => none
    | .get j x => if j = k then some x else none

omit [DecidableEq α] in
theorem puts_append (k : κ) (es fs : List (PipeEvent κ α)) :
    puts k (es ++ fs) = puts k es ++ puts k fs := List.filterMap_append

omit [DecidableEq α] in
theorem gets_append (k : κ) (es fs : List (PipeEvent κ α)) :
    gets k (es ++ fs) = gets k es ++ gets k fs := List.filterMap_append

omit [DecidableEq α] in
theorem puts_map_put (j k : κ) (xs : List α) :
    puts k (xs.map (.put j)) = if j = k then xs else [] := by
  rw [puts, List.filterMap_map]
  split
  · next h =>
    subst h
    exact (congrArg (fun f => xs.filterMap f) (funext fun x => if_pos rfl)).trans
      List.filterMap_some
  · next h => simp [h]

omit [DecidableEq α] in
theorem puts_map_get (j k : κ) (xs : List α) : puts k (xs.map (.get j)) = [] := by
  simp [puts]

omit [DecidableEq α] in
theorem gets_map_put (j k : κ) (xs : List α) : gets k (xs.map (.put j)) = [] := by
  simp [gets]

omit [DecidableEq α] in
theorem gets_map_get (j k : κ) (xs : List α) :
    gets k (xs.map (.get j)) = if j = k then xs else [] := by
  rw [gets, List.filterMap_map]
  split
  · next h =>
    subst h
    exact (congrArg (fun f => xs.filterMap f) (funext fun x => if_pos rfl)).trans
      List.filterMap_some
  · next h => simp [h]

/-- One step moves what is in a pipe by one. -/
theorem step_puts {q q' : κ → List α} {e : PipeEvent κ α} (h : step q e = some q') (k : κ) :
    q k ++ puts k [e] = gets k [e] ++ q' k := by
  cases e with
  | put j x =>
    cases h
    by_cases hj : j = k
    · subst hj
      simp [puts, gets]
    · simp [puts, gets, hj, Function.update_of_ne (Ne.symm hj)]
  | get j x =>
    simp only [step] at h
    split at h
    · next y ys hq =>
      split at h
      · next hy =>
        cases h
        subst hy
        by_cases hj : j = k
        · subst hj
          simp [puts, gets, hq]
        · simp [puts, gets, hj, Function.update_of_ne (Ne.symm hj)]
      · cases h
    · cases h

/-- **What is in a pipe is what was put into it and not yet taken out.** -/
theorem run_puts :
    ∀ (es : List (PipeEvent κ α)) {q q' : κ → List α}, (machine κ α).run q es = some q' →
      ∀ k, q k ++ puts k es = gets k es ++ q' k := by
  intro es
  induction es with
  | nil =>
    intro q q' h k
    cases h
    simp [puts, gets]
  | cons e es ih =>
    intro q q' h k
    obtain ⟨q₁, h₁, h⟩ := Option.bind_eq_some_iff.mp h
    have hstep := step_puts h₁ k
    have hrest := ih h k
    rw [← List.singleton_append, puts_append, gets_append, ← List.append_assoc, hstep,
      List.append_assoc, hrest, List.append_assoc]

/-- At most one event, told by what it does to each pipe. -/
theorem run_of_puts {es : List (PipeEvent κ α)} (hes : es.length ≤ 1) {q r : κ → List α}
    (h : ∀ k, q k ++ puts k es = gets k es ++ r k) : (machine κ α).run q es = some r := by
  match es, hes with
  | [], _ =>
    have hr : q = r := funext fun k => by simpa [puts, gets] using h k
    rw [hr]
    rfl
  | [.put j x], _ =>
    have hr : Function.update q j (q j ++ [x]) = r := by
      refine funext fun k => ?_
      have hk := h k
      by_cases hj : j = k
      · subst hj
        simpa [puts, gets] using hk
      · simpa [puts, gets, hj, Function.update_of_ne (Ne.symm hj)] using hk
    rw [← hr]
    rfl
  | [.get j x], _ =>
    have hj : q j = x :: r j := by simpa [puts, gets] using h j
    have hr : Function.update q j (r j) = r := by
      refine funext fun k => ?_
      have hk := h k
      by_cases hjk : j = k
      · subst hjk
        simp
      · simpa [puts, gets, hjk, Function.update_of_ne (Ne.symm hjk)] using hk
    have hstep : (machine κ α).step q (.get j x) = some (Function.update q j (r j)) := step_get hj
    rw [Machine.run, hstep, hr]
    rfl

/-- What comes out is a beginning of what went in. -/
theorem gets_prefix {es : List (PipeEvent κ α)} {q : κ → List α}
    (h : (machine κ α).run (machine κ α).init es = some q) (k : κ) : gets k es <+: puts k es := by
  have hall := run_puts es h k
  exact ⟨q k, hall.symm⟩

/--
**A sequence of puts and gets is possible exactly when at every time what came out of a pipe
is a beginning of what went into it.**
-/
theorem run_iff (es : List (PipeEvent κ α)) :
    (∃ q, (machine κ α).run (machine κ α).init es = some q) ↔
      ∀ pre k, pre <+: es → gets k pre <+: puts k pre := by
  constructor
  · rintro ⟨q, h⟩ pre k ⟨post, rfl⟩
    rw [Machine.run_append] at h
    obtain ⟨q₁, h₁, -⟩ := Option.bind_eq_some_iff.mp h
    exact gets_prefix h₁ k
  · induction es using List.reverseRecOn with
    | nil => exact fun _ => ⟨_, rfl⟩
    | append_singleton es e ih =>
      intro hall
      have hbefore : ∀ pre k, pre <+: es → gets k pre <+: puts k pre := fun pre k hpre =>
        hall pre k (hpre.trans (List.prefix_append _ _))
      obtain ⟨q, hq⟩ := ih hbefore
      rw [Machine.run_snoc, hq, Option.bind_some]
      cases e with
      | put k x => exact ⟨_, rfl⟩
      | get k x =>
        -- the pipe holds what is missing, and that begins with `x`
        have hpipe := run_puts es hq k
        obtain ⟨r, hr⟩ := hall _ k (List.prefix_refl _)
        have hx : gets k es ++ x :: r = puts k es := by
          simpa [gets_append, puts_append, gets, puts] using hr
        have hhead : q k = x :: r := by
          have hcancel : gets k es ++ q k = gets k es ++ x :: r := by
            rw [hx, ← hpipe]
            rfl
          exact List.append_cancel_left hcancel
        exact ⟨_, step_get hhead⟩

end Pipes

end CraftIp.Infra
