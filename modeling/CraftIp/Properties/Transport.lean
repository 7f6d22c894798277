import CraftIp.Infra.Pipes
import CraftIp.Infra.Simulation
import CraftIp.Properties.Downstream

/-!
# The tunnel as pipes

What a tunnel is for: between each Minecraft client and the local server there are two
pipes. The tables, the ids, the queues, the two loops and the packets between them are one
way to build them, and cannot be told from the pipes as long as no id is used again while its
last holder can be heard.

* `Tunnel.observe` — what the two ends see of a step
* `Tunnel.pipes` — the pipes simulate the tunnel
* `tunnel_as_pipes` — what the ends see of a run is a run of the pipes
* `downstream_complete` — at rest, nothing has been lost on the way to a Minecraft client
-/

namespace CraftIp

open Infra

/-- From the Minecraft client to the local server, and back. -/
inductive Direction
  | up
  | down
  deriving DecidableEq

/-- The two pipes of each Minecraft client. -/
abbrev Traffic := PipeEvent (Direction × Nat) MinecraftDataPacket

namespace Tunnel

/-- What connection `k` has taken from its channel. -/
def takenOf (c : Client) (k : Nat) : List MinecraftDataPacket :=
  ((c.spawned.lookup k).map ClientConnection.taken).getD []

/-- What connection `k` takes next. -/
def nextOf (c : Client) (k : Nat) : List MinecraftDataPacket :=
  ((c.spawned.lookup k).bind fun l => l.clientRx.head?).toList

/-- What Minecraft client `k` sends to the session with its hello. -/
def helloOf (s : Session) (k : Nat) : List MinecraftDataPacket :=
  match s.result, s.clients[k]?.map MCClient.phase with
  | none, some (.joining hello) => [hello]
  | _, _ => []

/-- What the two ends see of a step: what is read from a socket, and what comes out for one. -/
def observe (t : Tunnel) : TunnelEvent → List Traffic
  | .server (.hello k) => (helloOf t.server k).map (.put (.up, k))
  | .server (.read k pkg) => [.put (.up, k) pkg]
  | .server (.receive k) => (rxOf t.server k).head?.toList.map (.get (.down, k))
  | .client (.read k data) => [.put (.down, k) ⟨data⟩]
  | .client (.take k) => (nextOf t.client k).map (.get (.up, k))
  | _ => []

theorem observe_length (t : Tunnel) (e : TunnelEvent) : (t.observe e).length ≤ 1 := by
  have htoList : ∀ (o : Option MinecraftDataPacket), o.toList.length ≤ 1 := by
    intro o
    cases o <;> simp
  cases e with
  | server e =>
    cases e with
    | hello k =>
      rw [observe, List.length_map, helloOf]
      split <;> simp
    | read k pkg => exact Nat.le_refl _
    | receive k =>
      rw [observe, List.length_map]
      exact htoList _
    | _ => exact Nat.zero_le _
  | client e =>
    cases e with
    | take k =>
      rw [observe, List.length_map]
      exact htoList _
    | read k data => exact Nat.le_refl _
    | _ => exact Nat.zero_le _
  | toServer => exact Nat.zero_le _
  | toClient millis => exact Nat.zero_le _

/-! ## What is seen, pipe by pipe -/

theorem puts_down (t : Tunnel) (e : TunnelEvent) (k : Nat) :
    Pipes.puts (.down, k) (t.observe e) = saidBy e k := by
  cases e with
  | server e =>
    cases e with
    | hello j => simp [observe, saidBy, Pipes.puts_map_put]
    | receive j => simp [observe, saidBy, Pipes.puts_map_get]
    | _ => rfl
  | client e =>
    cases e with
    | take j => simp [observe, saidBy, saidOf, Pipes.puts_map_get]
    | read j data =>
      have hput := Pipes.puts_map_put (Direction.down, j) (.down, k)
        [(⟨data⟩ : MinecraftDataPacket)]
      simpa [observe, saidBy, saidOf] using hput
    | _ => rfl
  | _ => rfl

theorem gets_down (t : Tunnel) (e : TunnelEvent) (k : Nat) :
    Pipes.gets (.down, k) (t.observe e) = t.gotBy e k := by
  cases e with
  | server e =>
    cases e with
    | hello j => simp [observe, gotBy, gotOf, Pipes.gets_map_put]
    | receive j =>
      rw [observe, Pipes.gets_map_get]
      by_cases hj : j = k
      · subst hj
        simp [gotBy, gotOf]
      · simp [gotBy, gotOf, hj]
    | _ => rfl
  | client e =>
    cases e with
    | take j => simp [observe, gotBy, Pipes.gets_map_get]
    | _ => rfl
  | _ => rfl

/-! ## The way up -/

/-- What a step of the session reads from client `k`. -/
theorem session_reads {s s' : Session} {e : SessionEvent} {out : List (Nat × SocketPacket)}
    (h : s.Inv) (hs : Session.Step s e s' out) (k : Nat) :
    readOf s' k = readOf s k ++ match e with
      | .hello j => if j = k then helloOf s j else []
      | .read j pkg => if j = k then [pkg] else []
      | _ => [] := by
  cases hs with
  | @join addr hello hr ha =>
    show ((s.clients ++ [_])[k]?.map MCClient.read).getD [] = _
    rw [List.append_nil]
    unfold readOf
    rcases Nat.lt_trichotomy k s.clients.length with hk | rfl | hk
    · rw [List.getElem?_append_left hk]
    · rw [List.getElem?_concat_length, List.getElem?_eq_none (Nat.le_refl _)]
      rfl
    · rw [List.getElem?_eq_none hk.le,
        List.getElem?_eq_none (by rw [List.length_append]; exact hk)]
  | @hello j m hello hm hp hr =>
    have hhello : helloOf s j = [hello] := by simp [helloOf, hr, hm, hp]
    dsimp only
    rw [hhello]
    exact readOf_modify_snoc hm rfl k
  | @helloClosed j m hello hm hp hr =>
    have hhello : helloOf s j = [] := by
      unfold helloOf
      split
      · next hr' _ => exact absurd hr' hr
      · rfl
    simp only [hhello, ite_self, List.append_nil]
    exact readOf_modify_eq hm rfl k
  | read hm hp hr => exact readOf_modify_snoc hm rfl k
  | readClosed hm hp hr => exact readOf_modify_snoc hm rfl k
  | receive hm hp hx => exact (readOf_modify_eq hm rfl k).trans (List.append_nil _).symm
  | receiveClosed hm hp hx hs => exact (readOf_modify_eq hm rfl k).trans (List.append_nil _).symm
  | stop hm hp => exact (readOf_modify_eq hm rfl k).trans (List.append_nil _).symm
  | drop hm hp hn hr => exact (readOf_modify_eq hm rfl k).trans (List.append_nil _).symm
  | dropSilent hm hp hn => exact (readOf_modify_eq hm rfl k).trans (List.append_nil _).symm
  | @deliver src d c hr hc =>
    obtain ⟨addr, hc, -⟩ := h.tables.getById_iff.mp hc
    obtain ⟨m, hm, -⟩ := (h.entry hc).2
    exact (readOf_modify_eq hm (Session.deliver_read d.packet m) k).trans (List.append_nil _).symm
  | _ => exact (List.append_nil _).symm

theorem takenOf_modify {c : Client} {k j : Nat} {l : ClientConnection}
    {f : ClientConnection → ClientConnection} (hl : c.spawned.lookup j = some l) :
    takenOf (c.modify j f) k = if k = j then (f l).taken else takenOf c k := by
  unfold takenOf
  rw [Client.spawned_modify]
  by_cases h : k = j
  · subst h
    rw [if_pos rfl, if_pos rfl, hl]
    rfl
  · rw [if_neg h, if_neg h]

/-- A connection that has taken as much as before. -/
theorem takenOf_modify_eq {c : Client} {j : Nat} {l : ClientConnection}
    {f : ClientConnection → ClientConnection} (hl : c.spawned.lookup j = some l)
    (hf : (f l).taken = l.taken) (k : Nat) : takenOf (c.modify j f) k = takenOf c k := by
  rw [takenOf_modify hl]
  split
  · next h => subst h; rw [hf, takenOf, hl]; rfl
  · rfl

/-- What a step of the proxy client takes for the local server of connection `k`. -/
theorem client_takes {c c' : Client} {e : ClientEvent} {out : List (Nat × SocketPacket)}
    (hfresh : ∀ k id millis, e = .packet k (.ProxyJoin id) millis → c.spawned.lookup k = none)
    (h : c.Inv) (hs : Client.Step c e c' out) (k : Nat) :
    takenOf c' k = takenOf c k ++ match e with
      | .take j => if j = k then nextOf c j else []
      | _ => [] := by
  cases hs with
  | connected hl hp => exact (takenOf_modify_eq hl rfl k).trans (List.append_nil _).symm
  | failed hl hp hr => exact (takenOf_modify_eq hl rfl k).trans (List.append_nil _).symm
  | failedClosed hl hp hr => exact (takenOf_modify_eq hl rfl k).trans (List.append_nil _).symm
  | @take j l pkg rx hl hp hx =>
    have hnext : nextOf c j = [pkg] := by simp [nextOf, hl, hx]
    dsimp only
    rw [hnext, takenOf_modify hl]
    by_cases hj : k = j
    · subst hj
      simp [takenOf, hl]
    · rw [if_neg hj, if_neg (Ne.symm hj), List.append_nil]
  | @takeClosed j l hl hp hx hs =>
    have hnext : nextOf c j = [] := by simp [nextOf, hl, hx]
    simp only [hnext, ite_self, List.append_nil]
    exact takenOf_modify_eq hl rfl k
  | readClosed hl hp hr => exact (takenOf_modify_eq hl rfl k).trans (List.append_nil _).symm
  | stop hl hp => exact (takenOf_modify_eq hl rfl k).trans (List.append_nil _).symm
  | drop hl hp hn hr => exact (takenOf_modify_eq hl rfl k).trans (List.append_nil _).symm
  | dropSilent hl hp hn => exact (takenOf_modify_eq hl rfl k).trans (List.append_nil _).symm
  | close hl hp => exact (takenOf_modify_eq hl rfl k).trans (List.append_nil _).symm
  | @join j id millis hr =>
    have hnone := hfresh j id millis rfl
    rw [List.append_nil]
    unfold takenOf
    rw [Table.lookup_insert]
    split
    · next heq => rw [heq, hnone]; rfl
    · rfl
  | @deliver j d tx millis hr hc ho =>
    obtain ⟨l, hl⟩ := h.joined (newest_mem (h.entry hc))
    exact (takenOf_modify_eq hl rfl k).trans (List.append_nil _).symm
  | _ => exact (List.append_nil _).symm

theorem puts_up {t t' : Tunnel} {e : TunnelEvent} (h : t.Inv) (hs : Step t e t') (k : Nat) :
    readOf t'.server k = readOf t.server k ++ Pipes.puts (.up, k) (t.observe e) := by
  cases hs with
  | @server e s out he hs =>
    rw [session_reads h.server hs k]
    cases e with
    | hello j => simp [observe, Pipes.puts_map_put]
    | read j pkg =>
      have hput := Pipes.puts_map_put (Direction.up, j) (.up, k) [pkg]
      simpa [observe] using hput.symm
    | receive j => simp [observe, Pipes.puts_map_get]
    | _ => rfl
  | toServer hq hs => rw [session_reads h.server hs k]; rfl
  | @client e c out he hs =>
    cases e with
    | read j data => simp [observe, Pipes.puts]
    | take j => simp [observe, Pipes.puts_map_get]
    | _ => exact (List.append_nil _).symm
  | toClient hq hs => exact (List.append_nil _).symm

theorem gets_up {t t' : Tunnel} {e : TunnelEvent} (h : t.Inv) (hs : Step t e t') (k : Nat) :
    takenOf t'.client k = takenOf t.client k ++ Pipes.gets (.up, k) (t.observe e) := by
  cases hs with
  | @server e s out he hs =>
    cases e with
    | hello j => simp [observe, Pipes.gets_map_put]
    | receive j => simp [observe, Pipes.gets_map_get]
    | _ => exact (List.append_nil _).symm
  | toServer hq hs => exact (List.append_nil _).symm
  | @client e c out he hs =>
    rw [client_takes (fun j id millis heq => absurd heq (he _ _ _)) h.client hs k]
    cases e with
    | take j => simp [observe, Pipes.gets_map_get]
    | _ => rfl
  | @toClient j p toClient millis c out hq hs =>
    refine client_takes ?_ h.client hs k
    rintro j id millis ⟨⟩
    rw [Option.eq_none_iff_forall_not_mem]
    exact fun l hl => h.fresh (hq ▸ List.mem_cons_self) _ (h.client.spawned hl)

/-! ## The simulation -/

/-- The pipes `q` hold what the tunnel still has to deliver, or will never deliver. -/
structure Conveys (t : Tunnel) (q : Direction × Nat → List MinecraftDataPacket) : Prop where
  unmistaken : t.Unmistaken
  up : ∀ k, takenOf t.client k ++ q (.up, k) = readOf t.server k
  down : ∀ k, t.Heard k (q (.down, k))

theorem conveys_new : new.Conveys fun _ => [] where
  unmistaken := unmistaken_new
  up _ := rfl
  down k := heard_new k

theorem takenOf_prefix {t : Tunnel} (h : tunnelMachine.Reachable t) (k : Nat) :
    takenOf t.client k <+: readOf t.server k := by
  refine List.IsPrefix.trans ?_ (reachable_flows h k).arrived
  unfold takenOf arrived
  cases t.client.spawned.lookup k with
  | none => exact List.prefix_rfl
  | some l => exact List.prefix_append _ _

/-- **Every step of the tunnel is a step of the pipes, or none.** -/
theorem Conveys.step {t t' : Tunnel} {q : Direction × Nat → List MinecraftDataPacket}
    (h : t.Conveys q) (hr : tunnelMachine.Reachable t) {e : TunnelEvent}
    (hc : t.unmistakable e = true) (hs : tunnelMachine.step t e = some t') :
    ∃ q', (Pipes.machine _ _).run q (t.observe e) = some q' ∧ t'.Conveys q' := by
  have ht := reachable_inv hr
  have hstep := step_cases hs
  choose up hup using takenOf_prefix (hr.step hs)
  choose down hdown hheard using fun k => (h.down k).step h.unmistaken ht hstep
  refine ⟨fun p => match p with | (.up, k) => up k | (.down, k) => down k,
    Pipes.run_of_puts (observe_length t e) ?_, h.unmistaken.step ht hc hstep, hup, hheard⟩
  rintro ⟨d, k⟩
  cases d with
  | up =>
    have hall := hup k
    rw [gets_up ht hstep k, puts_up ht hstep k, ← h.up k, List.append_assoc, List.append_assoc]
      at hall
    exact (List.append_cancel_left hall).symm
  | down =>
    rw [puts_down, gets_down]
    exact hdown k

/-- The pipes simulate the tunnel, in the runs without cross-talk. -/
def pipes : Simulation (tunnelMachine.restrict fun t e => t.unmistakable e = true)
    (Pipes.machine (Direction × Nat) MinecraftDataPacket) where
  see := observe
  rel := Conveys
  init := conveys_new
  step hr h hs := by
    obtain ⟨hc, hs⟩ := Machine.restrict_step.mp hs
    exact h.step hr.of_restrict hc hs

theorem pipes_run {es : List TunnelEvent} {t : Tunnel}
    (h : (tunnelMachine.restrict fun t e => t.unmistakable e = true).run .new es = some t) :
    ∃ q, (Pipes.machine (Direction × Nat) MinecraftDataPacket).run (fun _ => [])
      (tunnelMachine.trace observe .new es) = some q ∧ t.Conveys q := by
  obtain ⟨q, hrun, hconveys⟩ := pipes.run h
  refine ⟨q, ?_, hconveys⟩
  rw [← Machine.trace_restrict observe es h]
  exact hrun

end Tunnel

/--
**The ends of a tunnel cannot tell it from pipes.**

In every run that hands out no id while its last holder can be heard, what comes out for a
Minecraft client or for its local connection is at every time a beginning of what was read at
the other end: nothing is lost in between, doubled, put in another order or given to another
client, in both directions.
-/
theorem tunnel_as_pipes {es : List TunnelEvent} {t : Tunnel}
    (h : (tunnelMachine.restrict fun t e => t.unmistakable e = true).run .new es = some t) :
    (∃ q, (Pipes.machine (Direction × Nat) MinecraftDataPacket).run (fun _ => [])
      (tunnelMachine.trace Tunnel.observe .new es) = some q) ∧
    ∀ pre d k, pre <+: tunnelMachine.trace Tunnel.observe .new es →
      Pipes.gets (d, k) pre <+: Pipes.puts (d, k) pre := by
  obtain ⟨q, hq, -⟩ := Tunnel.pipes_run h
  exact ⟨⟨q, hq⟩, fun pre d k hpre => (Pipes.run_iff _).mp ⟨q, hq⟩ pre (d, k) hpre⟩

/-- A Minecraft client and its local connection, and a packet in each direction. -/
def exchange : List TunnelEvent :=
  visit 0 (.V4 0 40000) ++ [.toServer, .server (.hello 0), .server .take, .server (.receive 0),
    .toClient 0, .client (.take 0)]

theorem tunnel_as_pipes_exchange : ∃ t,
    (tunnelMachine.restrict fun t e => t.unmistakable e = true).run .new exchange = some t ∧
    tunnelMachine.trace Tunnel.observe .new exchange =
      [.put (.down, 0) ⟨[7]⟩, .put (.up, 0) ⟨[16]⟩, .get (.down, 0) ⟨[7]⟩, .get (.up, 0) ⟨[16]⟩] ∧
    ∀ pre d k, pre <+: tunnelMachine.trace Tunnel.observe .new exchange →
      Pipes.gets (d, k) pre <+: Pipes.puts (d, k) pre :=
  ⟨_, rfl, rfl, (@tunnel_as_pipes exchange _ rfl).2⟩

/--
**Nothing is lost on the way to a Minecraft client that has an entry.**

While the proxy client runs, everything its local connection has read has come out, is in its
channel, on the control connection or in the queue of the loop, in this order.
-/
theorem downstream_complete {es : List TunnelEvent} {t : Tunnel}
    (h : (tunnelMachine.restrict fun t e => t.unmistakable e = true).run .new es = some t) {k : Nat}
    (hk : t.server.Serves k) (hr : t.client.result = none) :
    Pipes.gets (.down, k) (tunnelMachine.trace Tunnel.observe .new es) ++ Tunnel.rxOf t.server k ++
        Tunnel.dataOf k t.toServer ++ Tunnel.spokenOf k t.client.toProxy
      = Pipes.puts (.down, k) (tunnelMachine.trace Tunnel.observe .new es) := by
  obtain ⟨q, hrun, hconveys⟩ := Tunnel.pipes_run h
  have hall := Pipes.run_puts _ hrun (.down, k)
  rw [← (hconveys.down k).all hk hr, List.nil_append] at hall
  rw [hall]
  simp only [List.append_assoc]

theorem downstream_complete_visit : ∃ t,
    (tunnelMachine.restrict fun t e => t.unmistakable e = true).run .new
      (visit 0 (.V4 0 40000)) = some t ∧
    Pipes.gets (.down, 0) (tunnelMachine.trace Tunnel.observe .new (visit 0 (.V4 0 40000))) ++
        Tunnel.rxOf t.server 0 ++ Tunnel.dataOf 0 t.toServer ++ Tunnel.spokenOf 0 t.client.toProxy
      = [⟨[7]⟩] :=
  ⟨_, rfl, @downstream_complete (visit 0 (.V4 0 40000)) _ rfl 0
    ⟨.V4 0 40000, ⟨0, 0⟩, rfl, rfl, _, rfl, MCPhase.noConfusion, rfl⟩ rfl⟩

end CraftIp
