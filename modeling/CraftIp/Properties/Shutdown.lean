import CraftIp.Infra.Progress
import CraftIp.Infra.Total
import CraftIp.Properties.Connections
import CraftIp.Properties.Session
import CraftIp.Properties.Statistics

/-!
# What happens after the loop

When the loop of a session has ended, its Minecraft clients have nothing more to wait for but
their own sockets: their channels lose their last senders, and every message they send fails.
A client that has data to write waits until its peer takes them, or the socket fails; every other
client can go on. The same holds for the local connections of a client.

* `session_shuts_down` — every run behind the loop of `ProxyClient::handle` is finite, and
  no Minecraft client waits for anything but its own socket
* `client_shuts_down` — the same behind the loop of `Client::handle`
-/

namespace CraftIp

open Infra

/-! ## The session -/

/-- How many steps a Minecraft client has left, at most. -/
def MCClient.work (m : MCClient) : Nat :=
  match m.phase with
  | .joining _ => 1
  | .running => m.rx.length + 2
  | .ended => 1
  | .gone => 0

namespace Session

/-- How many steps the Minecraft clients have left, at most. -/
def work (s : Session) : Nat := total MCClient.work s.clients

/-- The loop has ended, and left nothing behind. -/
structure Over (s : Session) : Prop where
  ended : s.result ≠ none
  tables : s.distributor = .new
  queue : s.queue = []

theorem over_finish (s : Session) (result : Except DistributorError Unit) :
    (s.finish result).Over :=
  ⟨Option.some_ne_none result, rfl, rfl⟩

theorem Over.modify {s : Session} (h : s.Over) (k : Nat) (f : MCClient → MCClient) :
    (s.modify k f).Over :=
  ⟨h.ended, h.tables, h.queue⟩

/-- A session is over from the end of its loop on. -/
theorem over_step {s s' : Session} {e : SessionEvent} {out : List (Nat × SocketPacket)}
    (hs : s.result ≠ none → s.Over) (h : Step s e s' out) : s'.result ≠ none → s'.Over := by
  intro hr
  cases h with
  | helloClosed hm hp hr' => exact (hs hr').modify _ _
  | readClosed hm hp hr' => exact (hs hr').modify _ _
  | receive hm hp hx => exact (hs hr).modify _ _
  | receiveClosed hm hp hx hsender => exact (hs hr).modify _ _
  | stop hm hp => exact (hs hr).modify _ _
  | dropSilent hm hp hn => exact (hs hr).modify _ _
  | close hr' hq => exact over_finish ..
  | tooMany hr' hq hi => exact over_finish ..
  | wrongPacket hr' hq hc => exact over_finish ..
  | broken hr' => exact over_finish ..
  | leave hr' => exact over_finish ..
  | _ => exact absurd (by assumption) hr

theorem reachable_over {s : Session} (h : sessionMachine.Reachable s) :
    s.result ≠ none → s.Over := by
  refine Machine.Reachable.invariant (m := sessionMachine)
    (I := fun s => s.result ≠ none → s.Over) ?_ ?_ h
  · exact fun hr => absurd rfl hr
  · intro s e s' hs hl
    obtain ⟨⟨t, out⟩, ht, rfl⟩ := Option.map_eq_some_iff.mp hl
    exact over_step hs (step_cases ht)

theorem work_modify {s : Session} {k : Nat} {m : MCClient} {f : MCClient → MCClient}
    (hm : s.clients[k]? = some m) (hf : (f m).work < m.work) : (s.modify k f).work < s.work := by
  have htotal := total_modify (w := MCClient.work) (f := f) hm
  show total MCClient.work (s.clients.modify k f) < total MCClient.work s.clients
  omega

/-- Behind the loop every step is one less to do. -/
theorem Over.step {s s' : Session} {e : SessionEvent} {out : List (Nat × SocketPacket)}
    (hs : s.Over) (h : Step s e s' out) : s'.Over ∧ s'.work < s.work := by
  refine ⟨over_step (fun _ => hs) h ?_, ?_⟩
  · cases h <;> first | exact hs.ended | exact absurd (by assumption) hs.ended
  · cases h with
    | helloClosed hm hp hr => exact work_modify hm (by simp [MCClient.work, hp])
    | readClosed hm hp hr => exact work_modify hm (by simp [MCClient.work, hp])
    | receive hm hp hx => exact work_modify hm (by simp [MCClient.work, hp, hx])
    | receiveClosed hm hp hx hsender => exact work_modify hm (by simp [MCClient.work, hp])
    | stop hm hp => exact work_modify hm (by simp [MCClient.work, hp])
    | dropSilent hm hp hn => exact work_modify hm (by simp [MCClient.work, hp])
    | _ => exact absurd (by assumption) hs.ended

/-- The steps that Minecraft client `k` takes by itself, when it is not writing. -/
def own (k : Nat) : List SessionEvent := [.hello k, .receive k, .drop k]

/-- A write ends when the peer has read, and when the socket fails. -/
theorem enabled_of_writing {s : Session} {k : Nat} (h : s.writing k = true) :
    (s.step (.receive k)).isSome = true ∧ (s.step (.stop k)).isSome = true := by
  obtain ⟨m, hm, h⟩ := (Option.any_eq_true _ _).mp h
  simp only [Bool.and_eq_true, decide_eq_true_eq] at h
  obtain ⟨pkg, rx, hx⟩ := List.exists_cons_of_ne_nil h.2
  exact ⟨by simp [Session.step, hm, h.1, hx], by simp [Session.step, hm, h.1]⟩

/-- Behind the loop a Minecraft client that is there can go on, unless it is writing. -/
theorem Over.enabled {s : Session} (hs : s.Over) {k : Nat} {m : MCClient}
    (hm : s.clients[k]? = some m) (hp : m.phase ≠ .gone) (hw : s.writing k = false) :
    ∃ e ∈ own k, (s.step e).isSome = true := by
  obtain ⟨result, hr⟩ := Option.ne_none_iff_exists'.mp hs.ended
  have hsender : s.hasSender k = false := by
    rw [hasSender, hs.tables, hs.queue]
    rfl
  cases hphase : m.phase with
  | joining hello => exact ⟨.hello k, by simp [own], by simp [Session.step, hm, hphase, hr]⟩
  | running =>
    have hx : m.rx = [] := by simpa [writing, hm, hphase] using hw
    exact ⟨.receive k, by simp [own], by simp [Session.step, hm, hphase, hx, hsender]⟩
  | ended => exact ⟨.drop k, by simp [own], by simp [Session.step, hm, hphase, hr]⟩
  | gone => exact absurd hphase hp

end Session

/--
**A session shuts down.** When its loop has ended, for whatever reason,

* no run from there has more steps than the Minecraft clients have left, and
* each of them that is there can go on by itself, or it has data to write: then it goes on when
  its peer has taken them, and when its socket fails;

so every run that goes on ends with all of them gone.
-/
theorem session_shuts_down {s : Session} (h : sessionMachine.Reachable s) (hr : s.result ≠ none) :
    ∀ ls s', sessionMachine.run s ls = some s' → ls.length ≤ s.work ∧
      ∀ k m, s'.clients[k]? = some m → m.phase ≠ .gone →
        (s'.writing k = false → ∃ e ∈ Session.own k, (sessionMachine.step s' e).isSome = true) ∧
        (s'.writing k = true → (sessionMachine.step s' (.receive k)).isSome = true ∧
          (sessionMachine.step s' (.stop k)).isSome = true) := by
  intro ls s' hrun
  obtain ⟨hover, hlen⟩ := Machine.run_length_le (m := sessionMachine) (I := Session.Over)
    Session.work (fun s e s' hs hl => by
      obtain ⟨⟨t, out⟩, ht, rfl⟩ := Option.map_eq_some_iff.mp hl
      exact hs.step (Session.step_cases ht))
    (Session.reachable_over h hr) hrun
  have hstep (e : SessionEvent) : (sessionMachine.step s' e).isSome = (s'.step e).isSome :=
    Option.isSome_map
  simp only [hstep]
  exact ⟨Nat.le_trans (Nat.le_add_right _ _) hlen,
    fun k m hm hp => ⟨hover.enabled hm hp, Session.enabled_of_writing⟩⟩

/-- A Minecraft client is sent some data, and then the connection to the proxy client is over. -/
def cutOff : List SessionEvent :=
  [.join (.V4 0 1) ⟨[]⟩, .hello 0, .take, .take, .packet 0 (.ProxyData ⟨0, ⟨[7]⟩⟩), .leave]

theorem session_shuts_down_cutOff : ∃ s s', sessionMachine.Reachable s ∧ s.result ≠ none ∧
    s.writing 0 = true ∧ (sessionMachine.step s (.receive 0)).isSome = true ∧
    (sessionMachine.step s (.stop 0)).isSome = true ∧
    sessionMachine.run s [.receive 0] = some s' ∧ s'.writing 0 = false ∧
    (∃ e ∈ Session.own 0, (sessionMachine.step s' e).isSome = true) ∧
    ∀ ls t, sessionMachine.run s ls = some t → ls.length ≤ s.work := by
  obtain ⟨s, s', m, m', hrun, hr, hm, hp, hw, hrun', hm', hp', hw'⟩ : ∃ s s' m m',
      sessionMachine.run .new cutOff = some s ∧ s.result ≠ none ∧ s.clients[0]? = some m ∧
      m.phase ≠ .gone ∧ s.writing 0 = true ∧ sessionMachine.run s [.receive 0] = some s' ∧
      s'.clients[0]? = some m' ∧ m'.phase ≠ .gone ∧ s'.writing 0 = false :=
    ⟨_, _, _, _, rfl, Option.some_ne_none _, rfl, MCPhase.noConfusion, rfl, rfl, rfl,
      MCPhase.noConfusion, rfl⟩
  have hdown := session_shuts_down ⟨cutOff, hrun⟩ hr
  obtain ⟨hreceive, hstop⟩ := ((hdown [] s rfl).2 0 m hm hp).2 hw
  exact ⟨s, s', ⟨cutOff, hrun⟩, hr, hw, hreceive, hstop, hrun', hw',
    ((hdown [.receive 0] s' hrun').2 0 m' hm' hp').1 hw', fun ls t h => (hdown ls t h).1⟩

/-! ## The client -/

/-- How many steps a local connection has left, at most. -/
def ClientConnection.work (l : ClientConnection) : Nat :=
  match l.phase with
  | .connecting => l.clientRx.length + 4
  | .running => l.clientRx.length + 3
  | .ended => 2
  | .dropped => 1
  | .gone => 0

namespace Client

/-- How many steps the local connections have left, at most. -/
def work (c : Client) : Nat := Table.total ClientConnection.work c.spawned

/-- The loop has ended, and left nothing behind. -/
structure Over (c : Client) : Prop where
  ended : c.result ≠ none
  table : c.state.connections = ∅
  queue : c.toProxy = []

theorem over_finish (c : Client) (result : Ended) : (c.finish result).Over :=
  ⟨Option.some_ne_none result, rfl, rfl⟩

theorem Over.modify {c : Client} (h : c.Over) (k : Nat) (f : ClientConnection → ClientConnection) :
    (c.modify k f).Over :=
  ⟨h.ended, h.table, h.queue⟩

/-- A client is over from the end of its loop on. -/
theorem over_step {c c' : Client} {e : ClientEvent} {out : List (Nat × SocketPacket)}
    (hc : c.result ≠ none → c.Over) (h : Step c e c' out) : c'.result ≠ none → c'.Over := by
  intro hr
  cases h with
  | connected hl hp => exact (hc hr).modify _ _
  | failedClosed hl hp hr' => exact (hc hr').modify _ _
  | take hl hp hx => exact (hc hr).modify _ _
  | takeClosed hl hp hx hs => exact (hc hr).modify _ _
  | readClosed hl hp hr' => exact (hc hr').modify _ _
  | stop hl hp => exact (hc hr).modify _ _
  | dropSilent hl hp hn => exact (hc hr).modify _ _
  | close hl hp => exact (hc hr).modify _ _
  | death hr' hq => exact over_finish ..
  | unknown hr' hl => exact over_finish ..
  | unimplemented hr' hp => exact over_finish ..
  | disconnect hr' => exact over_finish ..
  | broken hr' => exact over_finish ..
  | _ => exact absurd (by assumption) hr

theorem reachable_over {c : Client} (h : clientMachine.Reachable c) : c.result ≠ none → c.Over := by
  refine Machine.Reachable.invariant (m := clientMachine)
    (I := fun c => c.result ≠ none → c.Over) ?_ ?_ h
  · exact fun hr => absurd rfl hr
  · intro c e c' hc hl
    obtain ⟨⟨d, out⟩, hd, rfl⟩ := Option.map_eq_some_iff.mp hl
    exact over_step hc (step_cases hd)

theorem work_modify {c : Client} {k : Nat} {l : ClientConnection}
    {f : ClientConnection → ClientConnection} (hl : c.spawned.lookup k = some l)
    (hf : (f l).work < l.work) : (c.modify k f).work < c.work := by
  have htotal := Table.total_insert (w := ClientConnection.work) (f l) hl
  have hmodify : (c.modify k f).spawned = c.spawned.insert k (f l) := by
    simp only [modify, hl]
  rw [work, work, hmodify]
  omega

/-- Behind the loop every step is one less to do. -/
theorem Over.step {c c' : Client} {e : ClientEvent} {out : List (Nat × SocketPacket)}
    (hc : c.Over) (h : Step c e c' out) : c'.Over ∧ c'.work < c.work := by
  refine ⟨over_step (fun _ => hc) h ?_, ?_⟩
  · cases h <;> first | exact hc.ended | exact absurd (by assumption) hc.ended
  · cases h with
    | connected hl hp => exact work_modify hl (by simp [ClientConnection.work, hp])
    | failedClosed hl hp hr => exact work_modify hl (by simp [ClientConnection.work, hp])
    | take hl hp hx => exact work_modify hl (by simp [ClientConnection.work, hp, hx])
    | takeClosed hl hp hx hs => exact work_modify hl (by simp [ClientConnection.work, hp])
    | readClosed hl hp hr => exact work_modify hl (by simp [ClientConnection.work, hp])
    | stop hl hp => exact work_modify hl (by simp [ClientConnection.work, hp])
    | dropSilent hl hp hn => exact work_modify hl (by simp [ClientConnection.work, hp])
    | close hl hp => exact work_modify hl (by simp [ClientConnection.work, hp])
    | _ => exact absurd (by assumption) hc.ended

/-- The steps that local connection `k` takes by itself, when it is not waiting. -/
def own (k : Nat) : List ClientEvent := [.take k, .drop k, .close k]

/-- The waiting ends when the local server goes on, and when the connection to it fails. -/
theorem enabled_of_waits {c : Client} {k : Nat} (h : c.waits k = true) (mcServer : String) :
    (∃ e ∈ [ClientEvent.connected k, .take k], (c.step e).isSome = true) ∧
      ∃ e ∈ [ClientEvent.failed k mcServer, .stop k], (c.step e).isSome = true := by
  obtain ⟨l, hl, h⟩ := (Option.any_eq_true _ _).mp h
  simp only [Bool.or_eq_true, Bool.and_eq_true, decide_eq_true_eq] at h
  rcases h with hp | ⟨hp, hx⟩
  · refine ⟨⟨.connected k, by simp, by simp [Client.step, hl, hp]⟩, .failed k mcServer, by simp, ?_⟩
    simp only [Client.step, hl, hp, Option.bind_eq_bind, Option.bind_some, if_true]
    split <;> rfl
  · obtain ⟨pkg, rx, hx⟩ := List.exists_cons_of_ne_nil hx
    exact ⟨⟨.take k, by simp, by simp [Client.step, hl, hp, hx]⟩,
      .stop k, by simp, by simp [Client.step, hl, hp]⟩

/-- Behind the loop a local connection that is there can go on, unless it is waiting. -/
theorem Over.enabled {c : Client} (hc : c.Over) {k : Nat} {l : ClientConnection}
    (hl : c.spawned.lookup k = some l) (hp : l.phase ≠ .gone) (hw : c.waits k = false) :
    ∃ e ∈ own k, (c.step e).isSome = true := by
  obtain ⟨result, hr⟩ := Option.ne_none_iff_exists'.mp hc.ended
  have hsender : c.hasSender k = false := by
    rw [hasSender, hc.table]
    rfl
  cases hphase : l.phase with
  | connecting => simp [waits, hl, hphase] at hw
  | running =>
    have hx : l.clientRx = [] := by simpa [waits, hl, hphase] using hw
    exact ⟨.take k, by simp [own], by simp [Client.step, hl, hphase, hx, hsender]⟩
  | ended => exact ⟨.drop k, by simp [own], by simp [Client.step, hl, hphase, hr]⟩
  | dropped => exact ⟨.close k, by simp [own], by simp [Client.step, hl, hphase]⟩
  | gone => exact absurd hphase hp

end Client

/--
**A client shuts down.** When its loop has ended, for whatever reason,

* no run from there has more steps than the local connections have left, and
* each of them that is there can go on by itself, or it waits for the local server: then it goes
  on when this has answered or has taken its data, and when the connection to it fails.
-/
theorem client_shuts_down {c : Client} (h : clientMachine.Reachable c) (hr : c.result ≠ none) :
    ∀ ls c', clientMachine.run c ls = some c' → ls.length ≤ c.work ∧
      ∀ k l, c'.spawned.lookup k = some l → l.phase ≠ .gone →
        (c'.waits k = false → ∃ e ∈ Client.own k, (clientMachine.step c' e).isSome = true) ∧
        (c'.waits k = true →
          (∃ e ∈ [ClientEvent.connected k, .take k], (clientMachine.step c' e).isSome = true) ∧
          ∀ mcServer, ∃ e ∈ [ClientEvent.failed k mcServer, .stop k],
            (clientMachine.step c' e).isSome = true) := by
  intro ls c' hrun
  obtain ⟨hover, hlen⟩ := Machine.run_length_le (m := clientMachine) (I := Client.Over)
    Client.work (fun c e c' hc hl => by
      obtain ⟨⟨d, out⟩, hd, rfl⟩ := Option.map_eq_some_iff.mp hl
      exact hc.step (Client.step_cases hd))
    (Client.reachable_over h hr) hrun
  have hstep (e : ClientEvent) : (clientMachine.step c' e).isSome = (c'.step e).isSome :=
    Option.isSome_map
  simp only [hstep]
  refine ⟨Nat.le_trans (Nat.le_add_right _ _) hlen, ?_⟩
  exact fun k l hl hp => ⟨hover.enabled hl hp, fun hw =>
    ⟨(Client.enabled_of_waits hw "").1, fun mcServer => (Client.enabled_of_waits hw mcServer).2⟩⟩

/-- A local connection is spawned, and then the user disconnects. -/
def hungUp : List ClientEvent := [.packet 0 (.ProxyJoin 0) 0, .disconnect]

theorem client_shuts_down_hungUp : ∃ c c', clientMachine.Reachable c ∧ c.result ≠ none ∧
    c.work = 4 ∧ c.waits 0 = true ∧
    (∃ e ∈ [ClientEvent.connected 0, .take 0], (clientMachine.step c e).isSome = true) ∧
    clientMachine.run c [.connected 0] = some c' ∧ c'.waits 0 = false ∧
    (∃ e ∈ Client.own 0, (clientMachine.step c' e).isSome = true) ∧
    ∀ ls d, clientMachine.run c ls = some d → ls.length ≤ 4 := by
  obtain ⟨c, c', l, l', hrun, hr, hwork, hl, hp, hw, hrun', hl', hp', hw'⟩ : ∃ c c' l l',
      clientMachine.run .new hungUp = some c ∧ c.result ≠ none ∧ c.work = 4 ∧
      c.spawned.lookup 0 = some l ∧ l.phase ≠ .gone ∧ c.waits 0 = true ∧
      clientMachine.run c [.connected 0] = some c' ∧ c'.spawned.lookup 0 = some l' ∧
      l'.phase ≠ .gone ∧ c'.waits 0 = false :=
    ⟨_, _, _, _, rfl, Option.some_ne_none _, rfl, rfl, ConnectionPhase.noConfusion, rfl, rfl, rfl,
      ConnectionPhase.noConfusion, rfl⟩
  have hdown := client_shuts_down ⟨hungUp, hrun⟩ hr
  exact ⟨c, c', ⟨hungUp, hrun⟩, hr, hwork, hw, (((hdown [] c rfl).2 0 l hl hp).2 hw).1, hrun', hw',
    ((hdown [.connected 0] c' hrun').2 0 l' hl' hp').1 hw', fun ls d h => hwork ▸ (hdown ls d h).1⟩

end CraftIp
