import CraftIp.Properties.Delivery

/-!
# Two loops that wait for each other

A loop that is in a send takes nothing from the connection, and no timeout ends the send. So each
loop waits for the other one when the connection is full in both directions. Both directions fill
when both ends have data, and `select!` prefers those to the packets that arrive.

* `Tunnel.Loaded.hear`, `Tunnel.Loaded.answer` — data of a player and of his local server arrive
* `Tunnel.Loaded.forward`, `Tunnel.Loaded.send` — the loops send them on
* `Flow.held_fill` — so both directions fill
* `Flow.Stalled.step` — then nothing gets through any more
* `loops_stall` — whatever number of packets the connection holds
-/

namespace CraftIp

open Infra

/-! ## Filling the connection -/

namespace Tunnel

/--
Minecraft client 0 and its local connection exchange data: `p` and `q` of their messages wait for
the loops, and `a` and `b` packets are on their way. The local connection has taken nothing of `p`
and `a`.
-/
structure Loaded (addr : SocketAddr) (l : ClientConnection) (t : Tunnel) (p q a b : Nat) :
    Prop where
  server : t.server.result = none
  client : t.client.result = none
  guest : ∃ m, t.server.clients[0]? = some m ∧ m.addr = addr ∧ m.phase = .running ∧
    m.read.length = l.taken.length + p + a
  entry : ∃ c, t.server.distributor.getByAddr addr = some c
  connection : t.client.spawned.lookup 0 = some l
  running : l.phase = .running
  waits : l.clientRx = []
  queue : t.server.queue = List.replicate p (0, .Packet addr ⟨[7]⟩)
  toProxy : t.client.toProxy = List.replicate q (0, .Packet l.clientId ⟨[7]⟩)
  down : t.toClient.length = a
  up : t.toServer.length = b

namespace Loaded

variable {addr : SocketAddr} {l : ClientConnection} {t : Tunnel} {p q a b : Nat}

/-- The player sends. -/
theorem hear (h : Loaded addr l t p q a b) :
    ∃ t', t.step (.server (.read 0 ⟨[7]⟩)) = some t' ∧ Loaded addr l t' (p + 1) q a b := by
  obtain ⟨m, hm, haddr, hp, hread⟩ := h.guest
  have hstep : t.server.step (.read 0 ⟨[7]⟩) = some
      ((t.server.modify 0 fun m => { m with read := m.read ++ [⟨[7]⟩] }).enqueue 0
        (.Packet addr ⟨[7]⟩), []) := by
    simp [Session.step, hm, hp, h.server, haddr]
  refine ⟨_, step_server (fun _ _ => SessionEvent.noConfusion) hstep, { h with
    guest := ⟨{ m with read := m.read ++ [⟨[7]⟩] }, ?_, haddr, hp, ?_⟩, queue := ?_, down := ?_ }⟩
  · simp [Session.enqueue, Session.modify, hm]
  · simp only [List.length_append, hread, List.length_singleton]
    omega
  · simp [Session.enqueue, Session.modify, h.queue, List.replicate_succ']
  · simp [h.down]

/-- The session sends it on. -/
theorem forward (h : Loaded addr l t (p + 1) q a b) :
    ∃ t', t.step (.server .take) = some t' ∧ t.sent (.server .take) ≠ [] ∧
      Loaded addr l t' p q (a + 1) b := by
  obtain ⟨c, hc⟩ := h.entry
  obtain ⟨m, hm, haddr, hp, hread⟩ := h.guest
  have hstep : t.server.step .take = some
      ({ t.server with queue := List.replicate p (0, .Packet addr ⟨[7]⟩) },
        [(0, .ProxyData (.new ⟨[7]⟩ c.id))]) := by
    simp [Session.step, h.server, h.queue, List.replicate_succ, Session.takeStep,
      ProxyClient.onClient, hc, Session.joins]
  refine ⟨_, step_server (fun _ _ => SessionEvent.noConfusion) hstep, ?_, { h with
    guest := ⟨m, hm, haddr, hp, by omega⟩, queue := rfl, down := ?_ }⟩
  · simp [sent, hstep]
  · simp [h.down]

/-- The local server sends. -/
theorem answer (h : Loaded addr l t p q a b) :
    ∃ t', t.step (.client (.read 0 [7])) = some t' ∧ Loaded addr l t' p (q + 1) a b := by
  have hstep : t.client.step (.read 0 [7]) = some
      (t.client.enqueue 0 (.Packet l.clientId ⟨[7]⟩), []) := by
    simp [Client.step, h.connection, h.running, h.client]
  refine ⟨_, step_client (fun _ _ _ => ClientEvent.noConfusion) hstep,
    { h with toProxy := ?_, up := ?_ }⟩
  · simp [Client.enqueue, h.toProxy, List.replicate_succ']
  · simp [h.up]

/-- The client sends it on. -/
theorem send (h : Loaded addr l t p (q + 1) a b) :
    ∃ t', t.step (.client .send) = some t' ∧ t.sent (.client .send) ≠ [] ∧
      Loaded addr l t' p q a (b + 1) := by
  have hstep : t.client.step .send = some
      ({ t.client with toProxy := List.replicate q (0, .Packet l.clientId ⟨[7]⟩) },
        [(0, .ProxyData (.new ⟨[7]⟩ l.clientId))]) := by
    simp [Client.step, h.client, h.toProxy, List.replicate_succ, Client.sendStep,
      Client.onConnection]
  refine ⟨_, step_client (fun _ _ _ => ClientEvent.noConfusion) hstep, ?_,
    { h with toProxy := rfl, up := ?_ }⟩
  · simp [sent, hstep]
  · simp [h.up]

end Loaded

end Tunnel

namespace Flow

variable {n : Nat} {f : Flow}

theorem sends_of_room {side : Side} (h : (f.inFlight side).length < n) (e : TunnelEvent) :
    f.sends (.holding n) side e = true := by
  simp [sends, Network.holding, h]

/-- A task that is no loop goes on. -/
theorem held_free {t t' : Tunnel} {hand : Side → Option TunnelEvent}
    (h : (heldMachine n).Reachable ⟨t, hand⟩) {e : TunnelEvent} (he : e.side = none)
    (ht : t.step e = some t') : (heldMachine n).Reachable ⟨t', hand⟩ :=
  h.step (l := .finish e)
    (Machine.restrict_step.mpr ⟨by simp [fits, he], Busy.step_of_free he ht⟩)

/-- A loop starts a send. -/
theorem held_start {t t' : Tunnel} {hand : Side → Option TunnelEvent}
    (h : (heldMachine n).Reachable ⟨t, hand⟩) {e : TunnelEvent} {side : Side}
    (he : e.side = some side) (hfree : hand side = none) (ht : t.step e = some t') :
    (heldMachine n).Reachable ⟨t, Function.update hand side (some e)⟩ :=
  h.step (l := .start e) (Machine.restrict_step.mpr ⟨rfl, Busy.step_of_start he hfree ht⟩)

/-- A loop sends, when there is room. -/
theorem held_arm {t t' : Tunnel} (h : (heldMachine n).Reachable ⟨t, fun _ => none⟩)
    {e : TunnelEvent} {side : Side} (he : e.side = some side) (ht : t.step e = some t')
    (hroom : (inFlight ⟨t, Function.update (fun _ => none) side (some e)⟩ side).length < n) :
    (heldMachine n).Reachable ⟨t', fun _ => none⟩ :=
  h.run (Busy.run_start_finish (s := ⟨t, fun _ => none⟩) he rfl ht rfl
    (by simp [fits, he, sends_of_room hroom]))

/-- A player and his local server have been connected, and nothing is on its way. -/
theorem held_arrived (n : Nat) : ∃ t l, (heldMachine n).Reachable ⟨t, fun _ => none⟩ ∧
    t.Loaded (.V4 0 40000) l 0 0 0 0 := by
  -- each send waits for nobody, so it needs no room
  obtain ⟨f, l, hrun, hfree, hl⟩ : ∃ f l,
      (flowMachine.restrict fun f e =>
        f.fits ⟨fun _ => false, fun _ => true, fun _ => true⟩ e = true).run flowMachine.init
        (Busy.paced TunnelEvent.side (visit 0 (.V4 0 40000) ++ arrivals)) = some f ∧
      (∀ side, f.hand side = none) ∧ f.state.Loaded (.V4 0 40000) l 0 0 0 0 :=
    ⟨_, _, rfl, fun side => by cases side <;> rfl,
      ⟨rfl, rfl, ⟨_, rfl, rfl, rfl, rfl⟩, ⟨_, rfl⟩, rfl, rfl, rfl, rfl, rfl, rfl, rfl⟩⟩
  have hfits (f : Flow) (e : Busy.Event TunnelEvent)
      (h : f.fits ⟨fun _ => false, fun _ => true, fun _ => true⟩ e = true) :
      f.fits (.holding n) e = true := by
    cases e with
    | start e => rfl
    | finish e =>
      cases hside : e.side with
      | none => simp [fits, hside]
      | some side =>
        simp only [fits, hside, Option.all_some, sends, Bool.or_false] at h ⊢
        rw [Bool.or_right_comm, h, Bool.true_or]
  have h : (heldMachine n).Reachable f := ⟨_, Machine.run_restrict_imp hfits hrun⟩
  have hhand : f = ⟨f.state, fun _ => none⟩ := by
    rw [← funext hfree]
  exact ⟨f.state, l, hhand ▸ h, hl⟩

/-- **Both directions fill.** -/
theorem held_fill {addr : SocketAddr} {l : ClientConnection} {t : Tunnel}
    (h : (heldMachine n).Reachable ⟨t, fun _ => none⟩) (hl : t.Loaded addr l 0 0 0 0) :
    ∀ k ≤ n, ∃ t', (heldMachine n).Reachable ⟨t', fun _ => none⟩ ∧ t'.Loaded addr l 0 0 k k := by
  intro k hk
  induction k with
  | zero => exact ⟨t, h, hl⟩
  | succ k ih =>
    obtain ⟨t₀, h₀, hl₀⟩ := ih (Nat.le_of_succ_le hk)
    obtain ⟨t₁, hhear, hl₁⟩ := hl₀.hear
    have h₁ := held_free h₀ rfl hhear
    obtain ⟨t₂, hforward, -, hl₂⟩ := hl₁.forward
    have h₂ := held_arm h₁ rfl hforward (hl₁.down ▸ hk)
    obtain ⟨t₃, hanswer, hl₃⟩ := hl₂.answer
    have h₃ := held_free h₂ rfl hanswer
    obtain ⟨t₄, hsend, -, hl₄⟩ := hl₃.send
    exact ⟨t₄, held_arm h₃ rfl hsend (hl₃.up ▸ hk), hl₄⟩

end Flow

/-! ## Nothing gets through -/

/-- What others do leaves the loop what it takes next. -/
theorem Session.Step.beside {s s' : Session} {e : SessionEvent} {out : List (Nat × SocketPacket)}
    (h : Step s e s' out) (he : e ≠ .take) (hpacket : ∀ k packet, e ≠ .packet k packet) :
    out = [] ∧ (s'.result = none → s'.distributor = s.distributor ∧ s.queue <+: s'.queue) := by
  cases h with
  | join | hello | read | drop => exact ⟨rfl, fun _ => ⟨rfl, List.prefix_append _ _⟩⟩
  | close | add | tooMany | forward | wrongPacket | remove => exact absurd rfl he
  | evict | evictNone | deliver | deliverNone | pong | ignored => exact absurd rfl (hpacket _ _)
  | broken | leave => exact ⟨rfl, fun hr => by cases hr⟩
  | _ => exact ⟨rfl, fun _ => ⟨rfl, List.prefix_rfl⟩⟩

theorem Client.Step.beside {c c' : Client} {e : ClientEvent} {out : List (Nat × SocketPacket)}
    (h : Step c e c' out) (he : (TunnelEvent.client e).side = none)
    (hpacket : ∀ k packet millis, e ≠ .packet k packet millis) :
    out = [] ∧ (c'.result = none → c.toProxy <+: c'.toProxy) := by
  cases h with
  | failed | read | drop => exact ⟨rfl, fun _ => List.prefix_append _ _⟩
  | forward | remove | removeNone | death | ping => cases he
  | join | deliver | lost | unknown | disconnected | pong | unimplemented =>
    exact absurd rfl (hpacket _ _ _)
  | disconnect | broken => exact ⟨rfl, fun hr => by cases hr⟩
  | _ => exact ⟨rfl, fun _ => List.prefix_rfl⟩

namespace Client

/-- Local connection 0 has taken just this, and there is nothing in its channel. -/
def Starved (c : Client) (taken : List MinecraftDataPacket) : Prop :=
  ∃ l, c.spawned.lookup 0 = some l ∧ l.clientRx = [] ∧ l.taken = taken

theorem Starved.modify {c : Client} {taken : List MinecraftDataPacket} (h : c.Starved taken)
    (k : Nat) {f : ClientConnection → ClientConnection}
    (hf : ∀ l, l.clientRx = [] → (f l).clientRx = [] ∧ (f l).taken = l.taken) :
    (c.modify k f).Starved taken := by
  obtain ⟨l, hl, hx, htaken⟩ := h
  by_cases hk : 0 = k
  · refine ⟨f l, ?_, (hf l hx).1, (hf l hx).2.trans htaken⟩
    rw [spawned_modify, if_pos hk, hl, Option.map_some]
  · refine ⟨l, ?_, hx, htaken⟩
    rw [spawned_modify, if_neg hk, hl]

/-- It is the loop that puts something into the channel. -/
theorem Step.starved {c c' : Client} {e : ClientEvent} {out : List (Nat × SocketPacket)}
    (h : Step c e c' out) (he : (TunnelEvent.client e).side = none)
    (hpacket : ∀ k packet millis, e ≠ .packet k packet millis) {taken : List MinecraftDataPacket}
    (hs : c.Starved taken) : c'.Starved taken := by
  cases h with
  | connected | failedClosed | takeClosed | readClosed | stop | dropSilent | close =>
    exact hs.modify _ fun l hx => ⟨by first | rfl | exact hx, rfl⟩
  | @failed k =>
    have hs' : (c.modify k fun l => { l with phase := .ended }).Starved taken :=
      hs.modify k fun l hx => ⟨hx, rfl⟩
    exact hs'
  | @drop k =>
    have hs' : (c.modify k fun l => { l with phase := .dropped }).Starved taken :=
      hs.modify k fun l hx => ⟨hx, rfl⟩
    exact hs'
  | @take k l pkg rx hl hp hx =>
    obtain ⟨l', hl', hx', htaken⟩ := hs
    by_cases hk : 0 = k
    · subst hk
      cases hl.symm.trans hl'
      cases hx.symm.trans hx'
    · refine ⟨l', ?_, hx', htaken⟩
      rw [spawned_modify, if_neg hk, hl']
  | forward | remove | removeNone | death | ping => cases he
  | join | deliver | lost | unknown | disconnected | pong | unimplemented =>
    exact absurd rfl (hpacket _ _ _)
  | read | disconnect | broken => exact hs

end Client

namespace Flow

/-- Both loops are in a send for which there is no room. -/
structure Stalled (n : Nat) (addr : SocketAddr) (taken : List MinecraftDataPacket) (f : Flow) :
    Prop where
  server : f.hand .server = some (.server .take)
  client : f.hand .client = some (.client .send)
  down : f.state.toClient.length = n
  up : f.state.toServer.length = n
  forwards : f.state.server.result = none →
    ∃ c, f.state.server.distributor.getByAddr addr = some c ∧
      [(0, .Packet addr ⟨[7]⟩)] <+: f.state.server.queue
  sends : f.state.client.result = none →
    ∃ id, [(0, .Packet id ⟨[7]⟩)] <+: f.state.client.toProxy
  starved : f.state.client.Starved taken

namespace Stalled

variable {n : Nat} {addr : SocketAddr} {taken : List MinecraftDataPacket} {f f' : Flow}

/-- The session has a packet to send, and no room for it. -/
theorem blocked_server (h : Stalled n addr taken f) (hr : f.state.Runs .server) :
    f.Blocked (.holding n) .server := by
  obtain ⟨c, hc, rest, hq⟩ := h.forwards hr
  refine ⟨_, h.server, ?_, ?_⟩
  · simp [Tunnel.sent, Session.step, show f.state.server.result = none from hr, ← hq,
      Session.takeStep, ProxyClient.onClient, hc]
  · simp [Network.holding, inFlight, h.client, h.down]

/-- The client has a packet to send, and no room for it. -/
theorem blocked_client (h : Stalled n addr taken f) (hr : f.state.Runs .client) :
    f.Blocked (.holding n) .client := by
  obtain ⟨id, rest, hq⟩ := h.sends hr
  refine ⟨_, h.client, ?_, ?_⟩
  · simp [Tunnel.sent, Client.step, show f.state.client.result = none from hr, ← hq,
      Client.sendStep, Client.onConnection]
  · simp [Network.holding, inFlight, h.server, h.up]

/-- A loop that is blocked does not finish its send, as long as the other one is in its own. -/
theorem not_fits {net : Network} {side : Side} {e : TunnelEvent} (hside : e.side = some side)
    (hhand : f.hand side = some e) (hother : f.hand side.other ≠ none) (h : f.Blocked net side) :
    f.fits net (.finish e) = false := by
  obtain ⟨e', hhand', hsent, hroom⟩ := h
  cases hhand.symm.trans hhand'
  obtain ⟨other, hother⟩ := Option.ne_none_iff_exists'.mp hother
  simp [fits, hside, Flow.sends, hsent, hroom, hother]

/-- So no loop finishes its send. -/
theorem not_finish (h : Stalled n addr taken f) {e : TunnelEvent} {side : Side}
    (hside : e.side = some side) (hhand : f.hand side = some e) {t : Tunnel}
    (ht : f.state.step e = some t) : f.fits (.holding n) (.finish e) = false := by
  cases side with
  | server =>
    cases h.server.symm.trans hhand
    have hr : f.state.Runs .server := by
      cases hr : f.state.server.result with
      | none => exact hr
      | some result => simp [Tunnel.step, Session.step, hr] at ht
    exact not_fits hside hhand (h.client ▸ Option.some_ne_none _) (h.blocked_server hr)
  | client =>
    cases h.client.symm.trans hhand
    have hr : f.state.Runs .client := by
      cases hr : f.state.client.result with
      | none => exact hr
      | some result => simp [Tunnel.step, Client.step, hr] at ht
    exact not_fits hside hhand (h.server ▸ Option.some_ne_none _) (h.blocked_client hr)

/-- What the others do leaves the loops where they are. -/
theorem beside (h : Stalled n addr taken f) {e : TunnelEvent} (hside : e.side = none) {t : Tunnel}
    (ht : Tunnel.Step f.state e t) : Stalled n addr taken { f with state := t } := by
  cases ht with
  | @server e server out hne hstep =>
    have he : e ≠ .take := by
      rintro rfl
      cases hside
    obtain ⟨rfl, hkept⟩ := hstep.beside he hne
    refine { h with down := by rw [List.append_nil]; exact h.down, forwards := fun hr => ?_ }
    obtain ⟨hd, hq⟩ := hkept hr
    obtain ⟨c, hc, hhead⟩ := h.forwards (Session.result_of_step hstep hr)
    exact ⟨c, hd ▸ hc, hhead.trans hq⟩
  | @client e client out hne hstep =>
    obtain ⟨rfl, hkept⟩ := hstep.beside hside hne
    refine { h with
      up := by rw [List.append_nil]; exact h.up, sends := fun hr => ?_,
      starved := hstep.starved hside hne h.starved }
    obtain ⟨id, hhead⟩ := h.sends (Client.result_of_step hstep hr)
    exact ⟨id, hhead.trans (hkept hr)⟩
  | toServer => cases hside
  | toClient => cases hside

/-- **Nothing changes that**, whatever the others do. -/
theorem step (h : Stalled n addr taken f) {e : Busy.Event TunnelEvent}
    (hs : (heldMachine n).step f e = some f') : Stalled n addr taken f' := by
  obtain ⟨hfits, hs⟩ := Machine.restrict_step.mp hs
  cases Busy.step_cases hs with
  | @start e side t hside hfree ht =>
    cases side with
    | server => cases h.server.symm.trans hfree
    | client => cases h.client.symm.trans hfree
  | finish hside hhand ht => cases (h.not_finish hside hhand ht).symm.trans hfits
  | free hside ht => exact h.beside hside (Tunnel.step_cases ht)

end Stalled

end Flow

/--
**The two loops can wait for each other for ever**, whatever number `n` of packets the connection
holds in each direction, and although every player and every local server takes what is written to
him. There is a run at whose end both loops run and wait for room, so that data a player has sent
are not at his local server; and in no run that goes on from there a loop finishes its send, or the
local server gets anything.
-/
theorem loops_stall (n : Nat) : ∃ f, (heldMachine n).Reachable f ∧
    f.state.Runs .server ∧ f.state.Runs .client ∧
    f.Blocked (.holding n) .server ∧ f.Blocked (.holding n) .client ∧
    Tunnel.takenOf f.state.client 0 ≠ Tunnel.readOf f.state.server 0 ∧
    ∀ es f', (heldMachine n).run f es = some f' →
      f'.hand = f.hand ∧ Tunnel.takenOf f'.state.client 0 = Tunnel.takenOf f.state.client 0 := by
  obtain ⟨t₀, l, h₀, hl₀⟩ := Flow.held_arrived n
  obtain ⟨t₁, h₁, hl₁⟩ := Flow.held_fill h₀ hl₀ n (Nat.le_refl n)
  obtain ⟨t₂, hhear, hl₂⟩ := hl₁.hear
  obtain ⟨t₃, hanswer, hl₃⟩ := hl₂.answer
  obtain ⟨t₄, hforward, -, -⟩ := hl₃.forward
  obtain ⟨t₅, hsend, -, -⟩ := hl₃.send
  have h₃ := Flow.held_free (Flow.held_free h₁ rfl hhear) rfl hanswer
  have h := Flow.held_start (Flow.held_start h₃ rfl rfl hforward) rfl rfl hsend
  have hstalled : Flow.Stalled n (.V4 0 40000) l.taken
      ⟨t₃, Function.update (Function.update (fun _ => none) .server (some (.server .take)))
        .client (some (.client .send))⟩ :=
    { server := rfl, client := rfl, down := hl₃.down, up := hl₃.up
      forwards := fun _ => hl₃.entry.imp fun c hc => ⟨hc, [], hl₃.queue.symm⟩
      sends := fun _ => ⟨l.clientId, [], hl₃.toProxy.symm⟩
      starved := ⟨l, hl₃.connection, hl₃.waits, rfl⟩ }
  have htaken {c : Client} (hc : c.Starved l.taken) : Tunnel.takenOf c 0 = l.taken := by
    obtain ⟨l', hl', -, htaken⟩ := hc
    rw [Tunnel.takenOf, hl', Option.map_some, Option.getD_some, htaken]
  refine ⟨_, h, hl₃.server, hl₃.client, hstalled.blocked_server hl₃.server,
    hstalled.blocked_client hl₃.client, ?_, fun es f' hrun => ?_⟩
  · rw [htaken hstalled.starved]
    obtain ⟨m, hm, -, -, hread⟩ := hl₃.guest
    intro heq
    have hlen := congrArg List.length heq
    simp only [Tunnel.readOf, hm, Option.map_some, Option.getD_some] at hlen
    omega
  · have hstalled' := Machine.run_invariant (fun f e f' hf hs => Flow.Stalled.step hf hs) es
      hstalled hrun
    refine ⟨?_, (htaken hstalled'.starved).trans (htaken hstalled.starved).symm⟩
    funext side
    cases side with
    | server => exact hstalled'.server.trans hstalled.server.symm
    | client => exact hstalled'.client.trans hstalled.client.symm

end CraftIp
