import CraftIp.Infra.Machine
import CraftIp.Tunnel

/-!
# What the proxy client reports

The number of connections, after any run of calls on `State`, and the ping.

* `published_current_iff` — the last number that was sent is the number of connections in
  every state of a run exactly when no `send_to` meets a closed channel: it takes the
  connection out of the table and sends no number
* `ping_elapsed_iff` — the ping is the time that has passed exactly when the stamps of 16 bits
  have not wrapped in between
-/

namespace CraftIp

open Infra

/-! ## Calls -/

/-- A call on a `State`, or the end of the receiver of a channel. -/
inductive StateCall
  | addConnection (id : UInt16) (tx : Nat)
  | removeConnection (id : UInt16)
  | sendTo (id : UInt16) (msg : MinecraftDataPacket)
  | close (tx : Nat)
  deriving DecidableEq

/-- A `State`, and the channels whose receiver is gone. -/
structure Channels where
  state : State
  closed : List Nat

namespace Channels

/-- A `State` with a channel for the statistics. -/
def new : Channels := { state := State.new.setStatsTx [], closed := [] }

/-- The state after a call. `send_to` has changed nothing when it returns an error. -/
def call (self : Channels) : StateCall → Channels
  | .addConnection id tx => { self with state := self.state.addConnection id tx }
  | .removeConnection id => { self with state := self.state.removeConnection id }
  | .sendTo id msg =>
    match self.state.sendTo (fun tx => tx ∈ self.closed) id msg with
    | .ok (state, _) => { self with state := state }
    | .error _ => self
  | .close tx => { self with closed := tx :: self.closed }

end Channels

/-- A `State` on its own. -/
def stateMachine : Machine Channels StateCall where
  init := .new
  step c s := some (c.call s)

/-! ## The number of connections -/

/-- The last number of connections in what was sent. -/
def lastCount (sent : List Stats) : UInt16 :=
  (sent.filterMap fun
    | .ClientsConnected clients => some clients
    | _ => none).getLast?.getD 0

theorem lastCount_concat (sent : List Stats) (clients : UInt16) :
    lastCount (sent ++ [.ClientsConnected clients]) = clients := by
  rw [lastCount, List.filterMap_append]
  simp

theorem lastCount_ping (sent : List Stats) (ping : UInt16) :
    lastCount (sent ++ [.Ping ping]) = lastCount sent := by
  rw [lastCount, List.filterMap_append]
  simp [lastCount]

namespace State

/-- What was sent last is the number of connections, cut to 16 bits. -/
def Counted (s : State) : Prop :=
  ∃ sent, s.statsTx = some sent ∧ lastCount sent = UInt16.ofNat s.connections.keys.length

variable {s : State}

theorem Counted.addConnection (h : s.Counted) (id : UInt16) (tx : Nat) :
    (s.addConnection id tx).Counted := by
  obtain ⟨sent, hsent, -⟩ := h
  exact ⟨_, congrArg (Option.map _) hsent, lastCount_concat _ _⟩

theorem Counted.removeConnection (h : s.Counted) (id : UInt16) :
    (s.removeConnection id).Counted := by
  obtain ⟨sent, hsent, -⟩ := h
  exact ⟨_, congrArg (Option.map _) hsent, lastCount_concat _ _⟩

theorem Counted.ping (h : s.Counted) (ping : UInt16) : (s.sendStats (.Ping ping)).Counted := by
  obtain ⟨sent, hsent, hlast⟩ := h
  exact ⟨_, congrArg (Option.map _) hsent, (lastCount_ping sent ping).trans hlast⟩

end State

namespace Channels

/-- The last number that was sent, on a channel that is there. -/
def Published (c : Channels) (clients : UInt16) : Prop :=
  ∃ sent, c.state.statsTx = some sent ∧ lastCount sent = clients

/-- The last number that was sent is the number of connections, as far as a `u16` can say it. -/
def Current (c : Channels) : Prop :=
  c.state.connections.keys.length < 65536 →
    ∃ clients, c.Published clients ∧ clients.toNat = c.state.connections.keys.length

/-- The channel of the connection is open. -/
def Open (c : Channels) : StateCall → Prop
  | .sendTo id _ => ∀ tx ∈ c.state.connections.lookup id, tx ∉ c.closed
  | _ => True

instance (c : Channels) (s : StateCall) : Decidable (Open c s) := by
  cases s <;> unfold Open <;> infer_instance

theorem current_of_counted {c : Channels} (h : c.state.Counted) : c.Current := fun hlt =>
  ⟨_, h, UInt16.toNat_ofNat_of_lt' hlt⟩

/-- A `u16` has 65536 values. -/
theorem keys_length_le (t : Table UInt16 Nat) : t.keys.length ≤ 65536 := by
  have hle : t.keys.length ≤ ((List.range 65536).map UInt16.ofNat).length := by
    refine Table.keys_length_le fun {k _} _ => List.mem_map.mpr ⟨k.toNat, ?_, UInt16.ofNat_toNat⟩
    exact List.mem_range.mpr k.toNat_lt
  rwa [List.length_map, List.length_range] at hle

/-- What a call can do. -/
inductive Call (c : Channels) : StateCall → Channels → Prop
  | addConnection {id tx} :
      Call c (.addConnection id tx) { c with state := c.state.addConnection id tx }
  | removeConnection {id} :
      Call c (.removeConnection id) { c with state := c.state.removeConnection id }
  | sent {id msg tx} (htx : c.state.connections.lookup id = some tx) (ho : tx ∉ c.closed) :
      Call c (.sendTo id msg) c
  | lost {id msg tx} (htx : c.state.connections.lookup id = some tx) (ho : tx ∈ c.closed) :
      Call c (.sendTo id msg)
        { c with state := { c.state with connections := c.state.connections.erase id } }
  | unknown {id msg} (htx : c.state.connections.lookup id = none) : Call c (.sendTo id msg) c
  | close {tx} : Call c (.close tx) { c with closed := tx :: c.closed }

theorem call_cases (c : Channels) (s : StateCall) : Call c s (c.call s) := by
  cases s with
  | addConnection id tx => exact .addConnection
  | removeConnection id => exact .removeConnection
  | close tx => exact .close
  | sendTo id msg =>
    unfold call
    cases htx : c.state.connections.lookup id with
    | none =>
      simp only [State.sendTo_unknown htx]
      exact .unknown htx
    | some tx =>
      by_cases ho : tx ∈ c.closed
      · have hs : c.state.sendTo (fun tx => tx ∈ c.closed) id msg = .ok (_, none) :=
          State.sendTo_closed htx (decide_eq_true ho)
        simp only [hs]
        exact .lost htx ho
      · have hs : c.state.sendTo (fun tx => tx ∈ c.closed) id msg = .ok (c.state, some tx) :=
          State.sendTo_open htx (decide_eq_false ho)
        simp only [hs]
        exact .sent htx ho

theorem counted_call {c c' : Channels} {s : StateCall} (h : c.state.Counted) (ho : Open c s)
    (hs : Call c s c') : c'.state.Counted := by
  cases hs with
  | addConnection => exact h.addConnection _ _
  | removeConnection => exact h.removeConnection _
  | sent htx hopen => exact h
  | lost htx hclosed => exact absurd hclosed (ho _ htx)
  | unknown htx => exact h
  | close => exact h

/-- A connection goes without a word. -/
theorem not_current_call {c c' : Channels} {s : StateCall} (h : c.state.Counted) (ho : ¬Open c s)
    (hs : Call c s c') : ¬c'.Current := by
  cases hs with
  | lost htx hclosed =>
    intro hcur
    have herase := Table.keys_length_erase htx
    have hle := keys_length_le c.state.connections
    obtain ⟨sent, hsent, hlast⟩ := h
    obtain ⟨clients, ⟨sent', hsent', rfl⟩, hnow⟩ := hcur (by
      show (c.state.connections.erase _).keys.length < 65536
      omega)
    cases hsent.symm.trans hsent'
    have hcut : (lastCount sent).toNat = c.state.connections.keys.length % 65536 := by
      rw [hlast]
      exact UInt16.toNat_ofNat'
    have hnow' : (lastCount sent).toNat = (c.state.connections.erase _).keys.length := hnow
    omega
  | sent htx hopen =>
    refine absurd ?_ ho
    intro tx' htx'
    cases htx.symm.trans htx'
    exact hopen
  | unknown htx =>
    refine absurd ?_ ho
    intro tx' htx'
    cases htx.symm.trans htx'
  | addConnection => exact absurd trivial ho
  | removeConnection => exact absurd trivial ho
  | close => exact absurd trivial ho

end Channels

/-- **The number is current all along a run exactly when no `send_to` loses a connection.** -/
theorem published_current_iff {cs : List StateCall} {c : Channels}
    (h : stateMachine.run .new cs = some c) :
    stateMachine.Always Channels.Current .new cs ↔
      (stateMachine.restrict Channels.Open).run .new cs = some c := by
  refine Machine.always_iff (I := fun c => c.state.Counted)
    (fun c hc => Channels.current_of_counted hc) ?_ ?_ cs ?_ h
  · intro c s c' hc ho hs
    cases hs
    exact Channels.counted_call hc ho (c.call_cases s)
  · intro c s c' hc ho hs
    cases hs
    exact Channels.not_current_call hc ho (c.call_cases s)
  · exact ⟨[], rfl, rfl⟩

/-- Two connections under one id, another one, and one that is not there. -/
def joinsAndLeaves : List StateCall :=
  [.addConnection 0 0, .addConnection 0 1, .close 0, .addConnection 1 2, .sendTo 0 ⟨[1]⟩,
    .removeConnection 2, .removeConnection 0]

theorem published_current_joinsAndLeaves : ∃ c,
    stateMachine.run .new joinsAndLeaves = some c ∧ c.Published 1 ∧
      stateMachine.Always Channels.Current .new joinsAndLeaves :=
  ⟨_, rfl, ⟨_, rfl, rfl⟩, (published_current_iff rfl).mpr rfl⟩

/-- **A connection whose receiver is gone is still counted.** -/
theorem published_not_current : ∃ c,
    stateMachine.run .new [.addConnection 0 0, .close 0, .sendTo 0 ⟨[1]⟩] = some c ∧
      c.state.connections.keys = [] ∧ c.Published 1 ∧ ¬c.Current := by
  refine ⟨_, rfl, rfl, ⟨_, rfl, rfl⟩, ?_⟩
  intro h
  obtain ⟨clients, ⟨sent, hsent, rfl⟩, hlen⟩ := h (by decide)
  cases hsent
  exact absurd hlen (by decide)

/-! ## The loop of the client -/

/-- A proxy client on its own: any packets may arrive. -/
def clientMachine : Machine Client ClientEvent where
  init := .new
  step c e := (c.step e).map Prod.fst

/-! ## The ping -/

theorem toNat_stamp (millis : Nat) : (Client.stamp millis).toNat = millis % 65536 :=
  UInt16.toNat_ofNat'

theorem toNat_saturatingSub (a b : UInt16) :
    (Client.saturatingSub a b).toNat = a.toNat - b.toNat := by
  unfold Client.saturatingSub
  split
  · next h => exact UInt16.toNat_sub_of_le _ _ h
  · next h =>
    have hlt : a.toNat < b.toNat := Nat.lt_of_not_le fun hle => h (UInt16.le_iff_toNat_le.mpr hle)
    rw [Nat.sub_eq_zero_of_le (Nat.le_of_lt hlt)]
    rfl

/--
A client sends a ping at the time `s`, a session answers it, and the client takes the answer
at the time `t` and reports `ping`. Anything may have happened in between.
-/
inductive RoundTrip (s t : Nat) (ping : UInt16) : Prop
  | intro {c c₁ c₂ c₃ : Client} {server server' : Session} {k k' : Nat} {p q : SocketPacket}
    {sent : List Stats} (hsend : c.step (.ping s) = some (c₁, [(k, p)]))
    (hecho : server.step (.packet k p) = some (server', [(k', q)]))
    (hpong : c₂.step (.packet k' q t) = some (c₃, []))
    (hchannel : c₂.state.statsTx = some sent)
    (hreport : c₃.state.statsTx = some (sent ++ [.Ping ping])) : RoundTrip s t ping

/-- What is reported is the difference of the stamps. -/
theorem RoundTrip.ping_eq {s t : Nat} {ping : UInt16} (h : RoundTrip s t ping) :
    ping = Client.saturatingSub (Client.stamp t) (Client.stamp s) := by
  obtain @⟨c, c₁, c₂, c₃, server, server', k, k', p, q, sent, hsend, hecho, hpong, hchannel,
    hreport⟩ := h
  simp only [Client.step] at hsend
  split at hsend
  · cases hsend
    simp only [Session.step] at hecho
    split at hecho
    · cases hecho
      simp only [Client.step] at hpong
      split at hpong
      · cases hpong
        have hsent : (c₂.state.statsTx.map fun l =>
            l ++ [.Ping (Client.saturatingSub (Client.stamp t) (Client.stamp s))])
              = some (sent ++ [.Ping ping]) := hreport
        rw [hchannel] at hsent
        have hping := List.append_cancel_left (Option.some.inj hsent)
        cases hping
        rfl
      · cases hpong
    · cases hecho
  · cases hsend

theorem exists_roundTrip (s t : Nat) : ∃ ping, RoundTrip s t ping :=
  ⟨_, @RoundTrip.intro s t _ .new .new .new _ .new .new _ _ _ _ [] rfl rfl rfl rfl rfl⟩

/-- **The ping is the time that has passed exactly when the stamps do not wrap.** -/
theorem ping_elapsed_iff {s t : Nat} {ping : UInt16} (hle : s ≤ t) (hlt : t - s < 65536)
    (h : RoundTrip s t ping) : ping.toNat = t - s ↔ s / 65536 = t / 65536 := by
  rw [h.ping_eq, toNat_saturatingSub, toNat_stamp, toNat_stamp]
  have hs := Nat.div_add_mod s 65536
  have ht := Nat.div_add_mod t 65536
  constructor
  · intro heq
    by_contra hne
    omega
  · intro heq
    omega

theorem ping_elapsed_forty : ∃ ping, RoundTrip 1000 1040 ping ∧ ping.toNat = 40 := by
  obtain ⟨ping, h⟩ := exists_roundTrip 1000 1040
  exact ⟨ping, h, (ping_elapsed_iff (by decide) (by decide) h).mpr (by decide)⟩

/-- **Forty milliseconds over a wrap of the stamp are reported as none.** -/
theorem ping_wraps : ∃ ping, RoundTrip 1699999973375 1699999973415 ping ∧ ping.toNat = 0 ∧
    ping.toNat ≠ 1699999973415 - 1699999973375 := by
  obtain ⟨ping, h⟩ := exists_roundTrip 1699999973375 1699999973415
  have hzero : ping.toNat = 0 := by
    rw [h.ping_eq]
    rfl
  exact ⟨ping, h, hzero, by rw [hzero]; decide⟩

end CraftIp
