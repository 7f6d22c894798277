import CraftIp.Properties.Login

/-!
# Whom a Minecraft client is given to

* `register_live` — every sender in the register belongs to a session that is open under its
  hostname, so the register is empty when no session is open
* `minecraft_routed` — a Minecraft client is given to a session that was registered under the
  hostname of its hello, and that session has proved the hostname, or has run out of time
-/

namespace CraftIp

open Infra

/-! ## The register -/

/-- A session of this hostname, from its registration to its close. -/
def Task.Holds (hostname : String) : Task → Prop
  | .greeting h | .serving h | .closing h _ => h = hostname
  | _ => False

/-- Every entry of the register has its session. -/
def Server.Owned (s : Server) : Prop :=
  ∀ hostname i, s.register.servers.lookup hostname = some i →
    ∃ c, s.connections[i]? = some c ∧ c.task.Holds hostname

theorem Task.Holds.step {crypto : Crypto} {task task' : Task} {hostname : String} {e : Event}
    {log : List Wire} (hh : task.Holds hostname) (h : task.step crypto e = some (task', log)) :
    task'.Holds hostname := by
  unfold Task.step at h
  split at h <;> first | (cases h; done) | (cases hh; done) | (cases h; exact hh)

/-- A session goes on with what it holds, and the register has no more than before. -/
theorem Server.Owned.goOn {s s' : Server} {i : Nat} {c : Connection} {log : List Wire}
    (task : Task) (hs : s.Owned) (hc : s.connections[i]? = some c)
    (hconn : s'.connections = (s.goOn i c task log).connections)
    (hreg : ∀ hostname j, s'.register.servers.lookup hostname = some j →
      s.register.servers.lookup hostname = some j ∧
        (c.task.Holds hostname → task.Holds hostname ∨ j ≠ i)) : s'.Owned := by
  intro hostname j hj
  obtain ⟨hl, hkeep⟩ := hreg hostname j hj
  obtain ⟨c', hc', hholds⟩ := hs hostname j hl
  rw [hconn]
  by_cases hij : j = i
  · subst hij
    cases hc.symm.trans hc'
    refine ⟨_, goOn_self hc task log, ?_⟩
    exact (hkeep hholds).resolve_right fun hne => hne rfl
  · exact ⟨c', (goOn_other task log hij).trans hc', hholds⟩

theorem Server.Owned.step {crypto : Crypto} {s s' : Server} {i : Nat} {e : Event}
    (hs : s.Owned) (h : Server.Step crypto s i e s') : s'.Owned := by
  cases h with
  | accepted =>
    intro hostname j hj
    obtain ⟨c, hc, hholds⟩ := hs hostname j hj
    exact ⟨c, getElem?_concat_iff.mpr (Or.inl hc), hholds⟩
  | @task _ c _ task log hc ht =>
    exact Owned.goOn task hs hc rfl fun hostname j hj => ⟨hj, fun hholds => Or.inl (hholds.step ht)⟩
  | @register _ c hostname hc ht =>
    intro host j hj
    rw [Table.lookup_insert] at hj
    split at hj
    · next heq =>
      cases hj
      exact ⟨_, goOn_self hc _ _, heq.symm⟩
    · obtain ⟨c', hc', hholds⟩ := hs host j hj
      by_cases hij : j = i
      · -- the connection was on its way in, so it held nothing
        subst hij
        cases hc.symm.trans hc'
        rw [ht] at hholds
        cases hholds
      · exact ⟨c', (goOn_other _ _ hij).trans hc', hholds⟩
  | @channelClosed _ c hostname hc ht =>
    exact Owned.goOn (.closing hostname (.ok ())) hs hc rfl fun host j hj =>
      ⟨hj, fun hholds => Or.inl (by rwa [ht] at hholds)⟩
  | @close _ c hostname response hc ht =>
    refine Owned.goOn (.finished response) hs hc rfl ?_
    intro host j hj
    rw [Table.lookup_erase] at hj
    split at hj
    · cases hj
    · next hne =>
      refine ⟨hj, fun hholds => ?_⟩
      rw [ht] at hholds
      exact absurd hholds.symm hne
  | @found _ c packet proxyTx hc ht =>
    exact Owned.goOn _ hs hc rfl fun host j hj =>
      ⟨hj, fun hholds => by rw [ht] at hholds; cases hholds⟩
  | @notFound _ c packet hc ht =>
    exact Owned.goOn _ hs hc rfl fun host j hj =>
      ⟨hj, fun hholds => by rw [ht] at hholds; cases hholds⟩

theorem Server.reachable_owned {crypto : Crypto} {s : Server}
    (h : (serverMachine crypto).Reachable s) : s.Owned := by
  refine h.invariant ?_ ?_
  · intro hostname i hl
    cases hl
  · rintro s ⟨i, e⟩ s' hs hl
    exact hs.step (Server.step_cases hl)

/--
**The register holds nobody who has left**, in every run: every sender is that of a session
that is open under this very hostname. So when no session is open, the register is empty.
-/
theorem register_live (crypto : Crypto) {s : Server} (h : (serverMachine crypto).Reachable s) :
    (∀ hostname i, s.register.servers.lookup hostname = some i →
      ∃ c, s.connections[i]? = some c ∧ c.task.Holds hostname) ∧
    ((∀ c ∈ s.connections, ∀ hostname, ¬c.task.Holds hostname) →
      s.register.servers.entries = []) := by
  have howned := Server.reachable_owned h
  refine ⟨howned, ?_⟩
  intro hnone
  refine List.eq_nil_iff_forall_not_mem.mpr ?_
  rintro ⟨hostname, i⟩ hmem
  obtain ⟨c, hc, hholds⟩ := howned hostname i (AList.mem_lookup_iff.mpr hmem)
  exact hnone c (List.mem_of_getElem? hc) hostname hholds

theorem register_live_login : ∃ s, (serverMachine ⟨fun _ _ _ => true, fun _ => "h"⟩).Reachable s ∧
    s.register.servers.lookup "h" = some 0 ∧
    ∃ c, s.connections[0]? = some c ∧ c.task.Holds "h" :=
  ⟨_, ⟨loggedIn 0 "h", rfl⟩, rfl,
    (register_live ⟨fun _ _ _ => true, fun _ => "h"⟩ ⟨loggedIn 0 "h", rfl⟩).1 "h" 0 rfl⟩

/-! ## The sessions that were registered -/

/-- A session that has registered, and what it was told. -/
def Server.Backed (crypto : Crypto) (s : Server) (i : Nat) (hostname : String) : Prop :=
  ∃ c, s.connections[i]? = some c ∧ c.task.quiet = true ∧
    (Greeted crypto (s.Registered i) (receivedOf c.wire) (sentOf c.wire) hostname ∨
      FellThrough (s.Registered i) (sentOf c.wire) hostname)

theorem Server.Backed.step {crypto : Crypto} {s s' : Server} {i j : Nat} {e : Event}
    {hostname : String} (hs : s.Backed crypto j hostname) (hhist : s.history ⊆ s'.history)
    (h : Server.Step crypto s i e s') : s'.Backed crypto j hostname := by
  obtain ⟨c, hc, hquiet, hword⟩ := hs
  by_cases hij : j = i
  · subst hij
    obtain ⟨task, log, hc', -, hkeep⟩ := h.own hc
    obtain ⟨hquiet', hsent⟩ := hkeep hquiet
    -- the word stays as it is
    have htold : (Task.greeting hostname).Told crypto (s.Registered j) (receivedOf c.wire)
        (sentOf c.wire) := hword
    have hmono := htold.mono
      (List.subset_append_left (receivedOf c.wire) (receivedOf log)) fun _ hr => hhist hr
    refine ⟨_, hc', hquiet', ?_⟩
    rw [receivedOf_append, sentOf_append, hsent, List.append_nil]
    exact hmono
  · refine ⟨c, h.other hij hc, hquiet, ?_⟩
    have htold : (Task.greeting hostname).Told crypto (s.Registered j) (receivedOf c.wire)
        (sentOf c.wire) := hword
    exact htold.mono (fun _ h => h) fun _ hr => hhist hr

/-- The history grows, and only by a registration. -/
theorem Server.Step.history {crypto : Crypto} {s s' : Server} {i : Nat} {e : Event}
    (h : Server.Step crypto s i e s') :
    s'.history = s.history ∨ ∃ c hostname, s.connections[i]? = some c ∧
      c.task = .entering hostname ∧ s'.history = (i, hostname) :: s.history ∧
      s'.connections[i]? = some
        ⟨.greeting hostname, c.wire ++ [.sent (.ProxyHelloResponse ⟨PROTOCOL_VERSION⟩)]⟩ := by
  cases h with
  | @register _ c hostname hc ht => exact Or.inr ⟨c, hostname, hc, ht, rfl, goOn_self hc _ _⟩
  | _ => exact Or.inl rfl

theorem Server.Step.history_subset {crypto : Crypto} {s s' : Server} {i : Nat} {e : Event}
    (h : Server.Step crypto s i e s') : s.history ⊆ s'.history := by
  rcases h.history with heq | ⟨_, _, -, -, heq, -⟩
  · rw [heq]
    exact fun _ h => h
  · rw [heq]
    exact List.subset_cons_self _ _

theorem Server.reachable_backed {crypto : Crypto} {s : Server}
    (h : (serverMachine crypto).Reachable s) :
    ∀ i hostname, (i, hostname) ∈ s.history → s.Backed crypto i hostname := by
  refine Machine.Reachable.invariant_of_reachable
    (I := fun s => ∀ i hostname, (i, hostname) ∈ s.history → s.Backed crypto i hostname) ?_ ?_ h
  · intro i hostname hmem
    cases hmem
  · rintro s ⟨i, e⟩ s' hreach hs hl j hostname hmem
    have hstep := Server.step_cases hl
    rcases hstep.history with heq | ⟨c, host, hc, ht, heq, hc'⟩
    · rw [heq] at hmem
      exact (hs j hostname hmem).step hstep.history_subset hstep
    · rw [heq] at hmem
      rcases List.mem_cons.mp hmem with hnew | hmem
      · cases hnew
        exact ⟨_, hc', rfl, Server.reachable_told (hreach.step hl) i _ hc'⟩
      · exact (hs j hostname hmem).step hstep.history_subset hstep

/-! ## The Minecraft clients -/

/-- What a Minecraft client has asked for, and whom it was given to. -/
def Task.Asked (registered : Nat → String → Prop) (heard : List SocketPacket) : Task → Prop
  | .reading => heard = []
  | .looking packet => heard = [.MCHello packet]
  | .minecraft proxyTx => ∃ packet, heard = [.MCHello packet] ∧ registered proxyTx packet.hostname
  | _ => True

theorem Task.Asked.mono {registered registered' : Nat → String → Prop} {heard : List SocketPacket}
    {task : Task} (h : task.Asked registered heard)
    (hreg : ∀ i hostname, registered i hostname → registered' i hostname) :
    task.Asked registered' heard := by
  cases task with
  | reading => exact h
  | looking packet => exact h
  | minecraft proxyTx =>
    obtain ⟨packet, hheard, hr⟩ := h
    exact ⟨packet, hheard, hreg _ _ hr⟩
  | _ => trivial

theorem Task.Asked.step {crypto : Crypto} {registered : Nat → String → Prop} {task task' : Task}
    {heard : List SocketPacket} {log : List Wire} {e : Event} (ht : task.Asked registered heard)
    (h : task.step crypto e = some (task', log)) :
    task'.Asked registered (heard ++ receivedOf log) := by
  unfold Task.step at h
  split at h
  · next packet =>
    cases h
    have hheard : heard = [] := ht
    subst hheard
    cases packet <;> trivial
  case h_10 => split at h <;> (cases h; trivial)
  all_goals first | (cases h; done) | (cases h; trivial)

/-- The entries of the register are of the history, and every Minecraft client is with one of it. -/
structure Server.Routed (s : Server) : Prop where
  entry : ∀ hostname i, s.register.servers.lookup hostname = some i → s.Registered i hostname
  asked : ∀ (j : Nat) (c : Connection), s.connections[j]? = some c →
    c.task.Asked s.Registered (receivedOf c.wire)

theorem Server.Routed.asked_goOn {s s' : Server} {i : Nat} {c : Connection} {log : List Wire}
    (task : Task) (hs : s.Routed)
    (hconn : s'.connections = (s.goOn i c task log).connections) (hhist : s.history ⊆ s'.history)
    (ht : task.Asked s'.Registered (receivedOf c.wire ++ receivedOf log)) (j : Nat)
    (c' : Connection) (hj : s'.connections[j]? = some c') :
    c'.task.Asked s'.Registered (receivedOf c'.wire) := by
  rw [hconn] at hj
  rcases goOn_get hj with ⟨rfl, rfl⟩ | ⟨-, hj⟩
  · simpa using ht
  · exact (hs.asked j c' hj).mono fun _ _ hr => hhist hr

theorem Server.Routed.step {crypto : Crypto} {s s' : Server} {i : Nat} {e : Event}
    (hs : s.Routed) (h : Server.Step crypto s i e s') : s'.Routed := by
  cases h with
  | accepted =>
    refine ⟨hs.entry, ?_⟩
    intro j c hj
    rcases getElem?_concat_iff.mp hj with hj | ⟨-, rfl⟩
    · exact hs.asked j c hj
    · rfl
  | @task _ c _ task log hc ht =>
    exact ⟨hs.entry, Routed.asked_goOn task hs rfl (fun _ h => h) ((hs.asked i c hc).step ht)⟩
  | @register _ c hostname hc ht =>
    refine ⟨?_, Routed.asked_goOn (.greeting hostname) hs rfl
      (List.subset_cons_self _ _) trivial⟩
    intro host j hj
    rw [Table.lookup_insert] at hj
    split at hj
    · next heq =>
      cases hj
      subst heq
      exact List.mem_cons_self
    · exact List.mem_cons_of_mem _ (hs.entry host j hj)
  | @channelClosed _ c hostname hc ht =>
    exact ⟨hs.entry, Routed.asked_goOn (.closing hostname (.ok ())) hs rfl (fun _ h => h)
      trivial⟩
  | @close _ c hostname response hc ht =>
    refine ⟨?_, Routed.asked_goOn (.finished response) hs rfl (fun _ h => h) trivial⟩
    intro host j hj
    rw [Table.lookup_erase] at hj
    split at hj
    · cases hj
    · exact hs.entry host j hj
  | @found _ c packet proxyTx hc ht hl =>
    have hin := hs.asked i c hc
    rw [ht] at hin
    refine ⟨hs.entry, Routed.asked_goOn (.minecraft proxyTx) hs rfl (fun _ h => h) ?_⟩
    exact ⟨packet, by simpa [Task.Asked] using hin, hs.entry packet.hostname proxyTx hl⟩
  | @notFound _ c packet hc ht =>
    exact ⟨hs.entry, Routed.asked_goOn (.finished _) hs rfl (fun _ h => h) trivial⟩

theorem Server.reachable_routed {crypto : Crypto} {s : Server}
    (h : (serverMachine crypto).Reachable s) : s.Routed := by
  refine h.invariant ?_ ?_
  · constructor
    · intro hostname i hl
      cases hl
    · intro j c hj
      cases hj
  · rintro s ⟨i, e⟩ s' hs hl
    exact hs.step (Server.step_cases hl)

/--
**A Minecraft client is given to the right session**, in every run: its first packet was a hello,
the session was registered under the hostname of this hello, and it has proved that it owns
the hostname, unless it was told of a timeout.
-/
theorem minecraft_routed (crypto : Crypto) {s : Server} (h : (serverMachine crypto).Reachable s)
    {j i : Nat} {c : Connection} (hc : s.connections[j]? = some c) (ht : c.task = .minecraft i) :
    ∃ packet, receivedOf c.wire = [.MCHello packet] ∧ (i, packet.hostname) ∈ s.history ∧
      s.Backed crypto i packet.hostname := by
  have hasked := (Server.reachable_routed h).asked j c hc
  rw [ht] at hasked
  obtain ⟨packet, hheard, hreg⟩ := hasked
  exact ⟨packet, hheard, hreg, Server.reachable_backed h i packet.hostname hreg⟩

/-- The hello of a Minecraft client that looks for this hostname. -/
def lookingFor (hostname : String) : MinecraftHelloPacket :=
  { length := 0, id := 0, version := 0, hostname := hostname, port := 0, data := [] }

theorem minecraft_routed_visit : ∃ s,
    (serverMachine ⟨fun _ _ _ => true, fun _ => "h"⟩).Reachable s ∧
    ∃ c, s.connections[1]? = some c ∧ c.task = .minecraft 0 ∧
      ∃ packet, receivedOf c.wire = [.MCHello packet] ∧ (0, packet.hostname) ∈ s.history := by
  obtain ⟨s, hrun, c, hc, ht⟩ : ∃ s, (serverMachine ⟨fun _ _ _ => true, fun _ => "h"⟩).run .new
      (loggedIn 0 "h" ++ [(1, .accepted), (1, .next (some (.ok (.MCHello (lookingFor "h"))))),
        (1, .lookup)]) = some s ∧ ∃ c, s.connections[1]? = some c ∧ c.task = .minecraft 0 :=
    ⟨_, rfl, _, rfl, rfl⟩
  obtain ⟨packet, hheard, hreg, -⟩ := minecraft_routed _ ⟨_, hrun⟩ hc ht
  exact ⟨s, ⟨_, hrun⟩, c, hc, ht, packet, hheard, hreg⟩

end CraftIp
