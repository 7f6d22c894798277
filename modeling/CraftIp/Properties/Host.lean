import CraftIp.Host
import CraftIp.Properties.Routing
import CraftIp.Properties.Session

/-!
# The whole server

* `Host.Inv` — every session runs as long as its task is in `handle`, and every Minecraft client
  of it is the client of one connection, which has asked for a hostname of the session
-/

namespace CraftIp

open Infra

/-! ## What a step of a session does to its clients -/

/-- The client whose task takes the step. -/
def SessionEvent.client : SessionEvent → Option Nat
  | .hello k | .read k _ | .receive k | .stop k | .drop k => some k
  | _ => none

@[simp] theorem GuestEvent.client_toSession (k : Nat) (e : GuestEvent) :
    (e.toSession k).client = some k := by
  cases e <;> rfl

@[simp] theorem SessionEvent.client_of_isLoop {e : SessionEvent} (h : e.isLoop = true) :
    e.client = none := by
  cases e <;> first | rfl | cases h

namespace Session

/-- What becomes of a client in a step. -/
structure Keeps (e : SessionEvent) (k : Nat) (m m' : MCClient) : Prop where
  /-- Only the client itself goes on to another phase. -/
  phase : e.client ≠ some k → m'.phase = m.phase
  hello : ∀ hello, m'.phase = .joining hello → m.phase = .joining hello

theorem keeps_same {e : SessionEvent} {k : Nat} {m m' : MCClient} (h : m'.phase = m.phase) :
    Keeps e k m m' :=
  ⟨fun _ => h, fun _ hp => h ▸ hp⟩

/-- One client goes on. -/
theorem keeps_modify {s : Session} {e : SessionEvent} {k j : Nat} {m m₀ : MCClient}
    {f : MCClient → MCClient} (hm : s.clients[k]? = some m) (hj : s.clients[j]? = some m₀)
    (hown : e.client = some j)
    (hf : (∀ hello, (f m₀).phase ≠ .joining hello) ∨ (f m₀).phase = m₀.phase) :
    ∃ m', (s.modify j f).clients[k]? = some m' ∧ Keeps e k m m' := by
  rw [clients_modify, hm]
  by_cases hjk : j = k
  · subst hjk
    cases hm.symm.trans hj
    refine ⟨f m, by rw [if_pos rfl, Option.map_some], fun hne => absurd hown hne, ?_⟩
    intro hello hp
    rcases hf with hf | hf
    · exact absurd hp (hf hello)
    · exact hf ▸ hp
  · exact ⟨m, if_neg hjk, keeps_same rfl⟩

theorem Step.keeps {s s' : Session} {e : SessionEvent} {out : List (Nat × SocketPacket)}
    (h : Step s e s' out) {k : Nat} {m : MCClient} (hm : s.clients[k]? = some m) :
    ∃ m', s'.clients[k]? = some m' ∧ Keeps e k m m' := by
  cases h with
  | join hr ha => exact ⟨m, getElem?_concat_iff.mpr (Or.inl hm), keeps_same rfl⟩
  | hello hm' hp hr => exact keeps_modify hm hm' rfl (Or.inl fun _ => MCPhase.noConfusion)
  | helloClosed hm' hp hr => exact keeps_modify hm hm' rfl (Or.inl fun _ => MCPhase.noConfusion)
  | read hm' hp hr => exact keeps_modify hm hm' rfl (Or.inr rfl)
  | readClosed hm' hp hr => exact keeps_modify hm hm' rfl (Or.inl fun _ => MCPhase.noConfusion)
  | receive hm' hp hx => exact keeps_modify hm hm' rfl (Or.inr rfl)
  | receiveClosed hm' hp hx hs =>
    exact keeps_modify hm hm' rfl (Or.inl fun _ => MCPhase.noConfusion)
  | stop hm' hp => exact keeps_modify hm hm' rfl (Or.inl fun _ => MCPhase.noConfusion)
  | drop hm' hp hn hr => exact keeps_modify hm hm' rfl (Or.inl fun _ => MCPhase.noConfusion)
  | dropSilent hm' hp hn => exact keeps_modify hm hm' rfl (Or.inl fun _ => MCPhase.noConfusion)
  | @deliver src d c hr hc =>
    show ∃ m', (s.modify c.tx (Session.deliver d.packet)).clients[k]? = some m' ∧ _
    rw [clients_modify, hm]
    split
    · exact ⟨_, rfl, keeps_same (deliver_phase d.packet m)⟩
    · exact ⟨m, rfl, keeps_same rfl⟩
  | _ => exact ⟨m, hm, keeps_same rfl⟩

/-- A client that takes a step is there. -/
theorem Step.alive {s s' : Session} {e : SessionEvent} {out : List (Nat × SocketPacket)}
    (h : Step s e s' out) {k : Nat} (he : e.client = some k) :
    ∃ m, s.clients[k]? = some m ∧ m.phase ≠ .gone := by
  cases h with
  | hello hm hp hr => cases he; exact ⟨_, hm, by rw [hp]; exact MCPhase.noConfusion⟩
  | helloClosed hm hp hr => cases he; exact ⟨_, hm, by rw [hp]; exact MCPhase.noConfusion⟩
  | read hm hp hr => cases he; exact ⟨_, hm, by rw [hp]; exact MCPhase.noConfusion⟩
  | readClosed hm hp hr => cases he; exact ⟨_, hm, by rw [hp]; exact MCPhase.noConfusion⟩
  | receive hm hp hx => cases he; exact ⟨_, hm, by rw [hp]; exact MCPhase.noConfusion⟩
  | receiveClosed hm hp hx hs => cases he; exact ⟨_, hm, by rw [hp]; exact MCPhase.noConfusion⟩
  | stop hm hp => cases he; exact ⟨_, hm, by rw [hp]; exact MCPhase.noConfusion⟩
  | drop hm hp hn hr => cases he; exact ⟨_, hm, by rw [hp]; exact MCPhase.noConfusion⟩
  | dropSilent hm hp hn => cases he; exact ⟨_, hm, by rw [hp]; exact MCPhase.noConfusion⟩
  | _ => cases he

/-- The loop's result is that of a step of the loop. -/
theorem Step.result {s s' : Session} {e : SessionEvent} {out : List (Nat × SocketPacket)}
    (h : Step s e s' out) (he : e.isLoop = false) : s'.result = s.result := by
  cases h <;> first | rfl | cases he

/-- Only a client that joins is a new one. -/
theorem Step.length {s s' : Session} {e : SessionEvent} {out : List (Nat × SocketPacket)}
    (h : Step s e s' out) (he : ∀ addr hello, e ≠ .join addr hello) :
    s'.clients.length = s.clients.length := by
  cases h with
  | join hr ha => exact absurd rfl (he _ _)
  | _ => first | rfl | exact List.length_modify ..

end Session

/-! ## The tasks and their sessions -/

/-- What the session of a task is like. Before its registration it has none. -/
def Task.Fits (session : Option Session) : Task → Prop
  | .greeting _ | .serving _ => ∃ t, session = some t ∧ t.result = none
  | .closing _ response => ∃ t, session = some t ∧ t.result = some response
  | .finished response => ∀ t, session = some t → t.result = some response
  | _ => session = none

/-- The session has gone on, and has returned what it had returned before. -/
theorem Task.Fits.mono {session session' : Option Session} {task : Task} (h : task.Fits session)
    (hsession : session'.map Session.result = session.map Session.result) : task.Fits session' := by
  have hsome {r : Option (Except DistributorError Unit)} (h : ∃ t, session = some t ∧ t.result = r) :
      ∃ t, session' = some t ∧ t.result = r := by
    obtain ⟨t, rfl, rfl⟩ := h
    exact Option.map_eq_some_iff.mp hsession
  have hnone (h : session = none) : session' = none := by
    subst h
    exact Option.map_eq_none_iff.mp hsession
  cases task with
  | greeting hostname => exact hsome h
  | serving hostname => exact hsome h
  | closing hostname response => exact hsome h
  | finished response =>
    rintro t rfl
    obtain ⟨t', rfl, ht'⟩ := Option.map_eq_some_iff.mp hsession.symm
    exact ht'.symm.trans (h t' rfl)
  | _ => exact hnone h

/-- A task goes on without a Minecraft client. -/
structure Task.Moves (task task' : Task) : Prop where
  fits : ∀ session, task.Fits session → task'.Fits session
  before : ∀ proxyTx, task ≠ .minecraft proxyTx
  running : ∀ result, task ≠ .finished result
  after : ∀ proxyTx, task' ≠ .minecraft proxyTx

namespace Host

variable {crypto : Crypto}

theorem Plain.moves {s : Host} {c : Connection} {e : Event} {task : Task} {log : List Wire}
    (hp : s.Plain c e) (h : c.task.step crypto e = some (task, log)) : c.task.Moves task := by
  -- before its registration a task has no session
  have hearly {session : Option Session} (hf : session = none)
      (result : Except DistributorError Unit) : (Task.finished result).Fits session := by
    rintro t rfl
    cases hf
  obtain ⟨old, wire⟩ := c
  simp only [Task.step] at h
  split at h
  · next packet =>
    cases h
    refine ⟨?_, fun _ => Task.noConfusion, fun _ => Task.noConfusion, ?_⟩
    · intro session hf
      cases packet <;> first | exact hf | exact hearly hf _
    · intro proxyTx
      cases packet <;> exact Task.noConfusion
  case h_10 =>
    split at h <;> cases h <;> exact ⟨fun _ hf => hf, fun _ => Task.noConfusion,
      fun _ => Task.noConfusion, fun _ => Task.noConfusion⟩
  case h_17 => exact absurd rfl (hp _)
  case h_18 => exact absurd rfl (hp.1 _)
  case h_19 => exact absurd rfl (hp.2 _)
  all_goals first | (cases h; done) | skip
  all_goals
    cases h
    refine ⟨?_, fun _ => Task.noConfusion, fun _ => Task.noConfusion, fun _ => Task.noConfusion⟩
    intro session hf
    first | exact hf | exact hearly hf _

/-- What a plain step is for its own connection. -/
theorem plain_cases {s : Host} {i : Nat} {e : Event} {server : Server}
    (h : s.server.step crypto (i, e) = some server)
    (hp : ∀ c, s.server.connections[i]? = some c → s.Plain c e) :
    server.history = s.server.history ∧
      ((i = s.server.connections.length ∧ server.connections[i]? = some ⟨.reading, []⟩) ∨
        ∃ c task log, s.server.connections[i]? = some c ∧
          server.connections[i]? = some ⟨task, c.wire ++ log⟩ ∧ c.task.Moves task) := by
  have hstep := Server.step_cases h
  refine ⟨?_, ?_⟩
  · cases hstep with
    | register hc ht => exact absurd (hp _ hc) id
    | _ => rfl
  · cases hstep with
    | accepted => exact Or.inl ⟨rfl, by simp⟩
    | @task _ c _ task log hc ht =>
      exact Or.inr ⟨c, task, log, hc, Server.goOn_self hc task log, (hp c hc).moves ht⟩
    | register hc ht => exact absurd (hp _ hc) id
    | channelClosed hc ht hs => exact absurd (hp _ hc) id
    | @close _ c hostname response hc ht =>
      refine Or.inr ⟨c, .finished response, [], hc, Server.goOn_self hc _ [], ?_⟩
      rw [ht]
      refine ⟨?_, fun _ => Task.noConfusion, fun _ => Task.noConfusion, fun _ => Task.noConfusion⟩
      rintro session ⟨t, rfl, hr⟩ t' ⟨⟩
      exact hr
    | found hc ht hl => cases (hp _ hc _ ht).symm.trans hl
    | @notFound _ c packet hc ht =>
      refine Or.inr ⟨c, _, [], hc, Server.goOn_self hc _ [], ?_⟩
      rw [ht]
      refine ⟨?_, fun _ => Task.noConfusion, fun _ => Task.noConfusion, fun _ => Task.noConfusion⟩
      rintro session rfl t ⟨⟩

/-- The other connections stay as they are. -/
theorem frame {s server : Server} {i j : Nat} {e : Event}
    (h : s.step crypto (i, e) = some server) (hj : j ≠ i) :
    server.connections[j]? = s.connections[j]? := by
  cases Server.step_cases h with
  | accepted =>
    rcases Nat.lt_or_gt_of_ne hj with hlt | hgt
    · exact List.getElem?_append_left hlt
    · rw [List.getElem?_eq_none (Nat.le_of_lt hgt),
        List.getElem?_eq_none (by rw [List.length_append]; exact hgt)]
  | _ => exact Server.goOn_other _ _ hj

theorem register_eq {s server : Server} {i : Nat} (h : s.step crypto (i, .register) = some server) :
    ∃ c hostname, s.connections[i]? = some c ∧ c.task = .entering hostname ∧
      server.connections[i]? = some
        ⟨.greeting hostname, c.wire ++ [.sent (.ProxyHelloResponse ⟨PROTOCOL_VERSION⟩)]⟩ := by
  cases Server.step_cases h with
  | register hc ht => exact ⟨_, _, hc, ht, Server.goOn_self hc _ _⟩
  | @task _ c _ task log hc ht => cases htask : c.task <;> simp [htask, Task.step] at ht

theorem found_eq {s server : Server} {j i : Nat} {c : Connection} {packet : MinecraftHelloPacket}
    (h : s.step crypto (j, .lookup) = some server) (hc : s.connections[j]? = some c)
    (ht : c.task = .looking packet) (hl : s.register.servers.lookup packet.hostname = some i) :
    server = s.goOn j c (.minecraft i) [] := by
  obtain ⟨task, wire⟩ := c
  subst ht
  simp only [Server.step, hc, hl, Option.bind_eq_bind, Option.bind_some] at h
  exact (Option.some.inj h).symm

/-! ## The invariant -/

/-- Connection `j` has asked for a hostname of session `i`. -/
structure Found (s : Host) (j i : Nat) (packet : MinecraftHelloPacket) (c : Connection) : Prop where
  conn : s.server.connections[j]? = some c
  heard : receivedOf c.wire = [.MCHello packet]
  registered : (i, packet.hostname) ∈ s.server.history
  session : s.sessions.lookup i ≠ none

/-- What is known of connection `j`. -/
def GuestAt (s : Host) (j : Nat) : Option Guest → Prop
  | none => ∀ c, s.server.connections[j]? = some c → ∀ i, c.task ≠ .minecraft i
  | some (.arriving hello) => ∃ i packet c, s.Found j i packet c ∧ c.task = .minecraft i ∧
    hello = ⟨packet.data⟩
  | some (.inside i k) => ∃ packet c session m, s.Found j i packet c ∧
    s.sessions.lookup i = some session ∧ session.clients[k]? = some m ∧
    (∀ hello, m.phase = .joining hello → hello = ⟨packet.data⟩) ∧
    (m.phase ≠ .gone → c.task = .minecraft i) ∧ (m.phase = .gone → ∃ r, c.task = .finished r)

/-- The tasks, the sessions and their clients fit together. -/
structure Inv (crypto : Crypto) (s : Host) : Prop where
  server : (serverMachine crypto).Reachable s.server
  sessions : ∀ i session, s.sessions.lookup i = some session → sessionMachine.Reachable session
  fits : ∀ (i : Nat) (c : Connection), s.server.connections[i]? = some c →
    c.task.Fits (s.sessions.lookup i)
  fresh : ∀ i, s.server.connections.length ≤ i → s.sessions.lookup i = none
  guests : ∀ j, s.GuestAt j (s.guests.lookup j)
  unique : ∀ j j' i k, s.guests.lookup j = some (.inside i k) →
    s.guests.lookup j' = some (.inside i k) → j = j'
  visited : ∀ i session k, s.sessions.lookup i = some session → k < session.clients.length →
    ∃ j, s.guests.lookup j = some (.inside i k)

theorem inv_new (crypto : Crypto) : new.Inv crypto where
  server := .init _
  sessions i session h := by cases h
  fits i c h := by cases h
  fresh i _ := rfl
  guests j := fun c h => by cases h
  unique j j' i k h := by cases h
  visited i session k h := by cases h

/-! ### The sessions and their tasks -/

theorem result_insert {sessions : Table Nat Session} {b : Nat} {session session' : Session}
    (hs : sessions.lookup b = some session) (hr : session'.result = session.result) (i : Nat) :
    ((sessions.insert b session').lookup i).map Session.result
      = (sessions.lookup i).map Session.result := by
  rw [Table.lookup_insert]
  split
  · next h => rw [h, hs, Option.map_some, Option.map_some, hr]
  · rfl

/-- The session of a Minecraft client is the one of another connection. -/
theorem Inv.guest_task {s : Host} (hs : s.Inv crypto) {j i : Nat} {c : Connection}
    (hc : s.server.connections[j]? = some c) (ht : c.task = .minecraft i) :
    s.sessions.lookup j = none := by
  have hfits := hs.fits j c hc
  rwa [ht] at hfits

/-- The task of a client that is about to take a step. -/
theorem Inv.inside_task {s : Host} (hs : s.Inv crypto) {j i k : Nat} {session : Session}
    (hg : s.guests.lookup j = some (.inside i k)) (hsession : s.sessions.lookup i = some session)
    {m : MCClient} (hm : session.clients[k]? = some m) (hp : m.phase ≠ .gone) :
    ∃ packet c, s.Found j i packet c ∧ c.task = .minecraft i := by
  have hat := hs.guests j
  rw [hg] at hat
  obtain ⟨packet, c, session', m', hfound, hs', hm', -, hopen, -⟩ := hat
  cases hsession.symm.trans hs'
  cases hm.symm.trans hm'
  exact ⟨packet, c, hfound, hopen hp⟩

theorem Inv.fits_step {s s' : Host} {l : HostEvent} (hs : s.Inv crypto) (h : Step crypto s l s') :
    ∀ (i : Nat) (c : Connection), s'.server.connections[i]? = some c →
      c.task.Fits (s'.sessions.lookup i) := by
  -- the own connection, and the others
  have hsame {i : Nat} {e : Event} {server : Server}
      (hstep : s.server.step crypto (i, e) = some server)
      (hown : ∀ c, server.connections[i]? = some c → c.task.Fits (s.sessions.lookup i)) (j : Nat)
      (c : Connection) (hc : server.connections[j]? = some c) :
      c.task.Fits (s.sessions.lookup j) := by
    by_cases hij : j = i
    · subst hij
      exact hown c hc
    · exact hs.fits j c ((frame hstep hij).symm.trans hc)
  -- the session of a Minecraft client goes on
  have hgoes {b : Nat} {session session' : Session} (hsession : s.sessions.lookup b = some session)
      (hr : session'.result = session.result) {j : Nat} {task : Task}
      (hf : task.Fits (s.sessions.lookup j)) :
      task.Fits ((s.sessions.insert b session').lookup j) :=
    hf.mono (result_insert hsession hr j)
  cases h with
  | @task i e server hstep hp =>
    refine hsame hstep ?_
    intro c hc
    rcases (plain_cases hstep hp).2 with ⟨hlen, hnew⟩ | ⟨c₀, task, log, hc₀, hnew, hmoves⟩
    · cases hnew.symm.trans hc
      exact hs.fresh i (Nat.le_of_eq hlen.symm)
    · cases hnew.symm.trans hc
      exact hmoves.fits _ (hs.fits i c₀ hc₀)
  | @register i server hstep =>
    intro j c hc
    obtain ⟨_, hostname, -, -, hnew⟩ := register_eq hstep
    show c.task.Fits ((s.sessions.insert i .new).lookup j)
    rw [Table.lookup_insert]
    by_cases hij : j = i
    · subst hij
      cases hnew.symm.trans hc
      exact ⟨.new, if_pos rfl, rfl⟩
    · rw [if_neg hij]
      exact hs.fits j c ((frame hstep hij).symm.trans hc)
  | @found j i c packet server hstep hc ht hl =>
    refine hsame hstep ?_
    intro c' hc'
    have hfits := hs.fits j c hc
    rw [ht] at hfits
    rw [found_eq hstep hc ht hl, Server.goOn_self hc] at hc'
    cases hc'
    exact hfits
  | @dismissed j i c hello result server _ hstep hc ht hg hl =>
    refine hsame hstep ?_
    intro c' hc'
    have hnone := hs.guest_task hc ht
    rw [server_eq hstep hc (by rw [ht]; rfl), Server.goOn_self hc] at hc'
    cases hc'
    intro t hsome
    cases hnone.symm.trans hsome
  | @goes i e c hostname session session' out hc ht he hsession hstep hr =>
    intro j c' hc'
    show c'.task.Fits ((s.sessions.insert i session').lookup j)
    rw [Table.lookup_insert]
    split
    · next hij =>
      subst hij
      cases hc.symm.trans hc'
      rw [ht]
      exact ⟨session', rfl, hr⟩
    · exact hs.fits j c' hc'
  | @ends i e c hostname session session' out result e' server _ hserver hc ht he hsession hstep hr =>
    intro j c' hc'
    show c'.task.Fits ((s.sessions.insert i session').lookup j)
    rw [Table.lookup_insert]
    split
    · next hij =>
      subst hij
      have hnew : server.connections[j]? = some ⟨.closing hostname result, c.wire ++ []⟩ := by
        rw [ht.2, Server.goOn_self hc]
      cases hnew.symm.trans hc'
      exact ⟨session', rfl, hr⟩
    · next hij => exact hs.fits j c' ((frame hserver hij).symm.trans hc')
  | join hc ht hg hsession hstep =>
    intro j c' hc'
    exact hgoes hsession ((Session.step_cases hstep).result rfl) (hs.fits j c' hc')
  | @guest _ _ k e _ _ _ hg hsession hstep hm =>
    intro j c' hc'
    exact hgoes hsession ((Session.step_cases hstep).result (by cases e <;> rfl)) (hs.fits j c' hc')
  | @left j i k e session session' out server hserver hg hsession hstep hm =>
    have hr := (Session.step_cases hstep).result (by cases e <;> rfl)
    intro j' c' hc'
    refine hgoes hsession hr (hsame hserver ?_ j' c' hc')
    intro c'' hc''
    obtain ⟨m, hm, hp⟩ := (Session.step_cases hstep).alive (GuestEvent.client_toSession k e)
    obtain ⟨packet, c, hfound, htask⟩ := hs.inside_task hg hsession hm hp
    have hnone := hs.guest_task hfound.conn htask
    rw [server_eq hserver hfound.conn (by rw [htask]; rfl), Server.goOn_self hfound.conn] at hc''
    cases hc''
    intro t hsome
    cases hnone.symm.trans hsome

/-! ### The Minecraft clients -/

/-- What is known of a connection stays, when nothing happens to it and to its client. -/
theorem GuestAt.mono {s s' : Host} {j : Nat} {g : Option Guest} (h : s.GuestAt j g)
    (hconn : s'.server.connections[j]? = s.server.connections[j]?)
    (hhist : s.server.history ⊆ s'.server.history)
    (hsessions : ∀ i session, s.sessions.lookup i = some session →
      ∃ session', s'.sessions.lookup i = some session' ∧
        ∀ k m, g = some (.inside i k) → session.clients[k]? = some m →
          ∃ m', session'.clients[k]? = some m' ∧ m'.phase = m.phase) : s'.GuestAt j g := by
  have hfound {i : Nat} {packet : MinecraftHelloPacket} {c : Connection}
      (h : s.Found j i packet c) : s'.Found j i packet c := by
    refine ⟨hconn.trans h.conn, h.heard, hhist h.registered, ?_⟩
    obtain ⟨session, hs⟩ := Option.ne_none_iff_exists'.mp h.session
    obtain ⟨session', hs', -⟩ := hsessions i session hs
    rw [hs']
    exact Option.some_ne_none session'
  match g, h with
  | none, h => exact fun c hc => h c (hconn ▸ hc)
  | some (.arriving hello), ⟨i, packet, c, hf, ht, hh⟩ => exact ⟨i, packet, c, hfound hf, ht, hh⟩
  | some (.inside i k), ⟨packet, c, session, m, hf, hs, hm, hhello, hopen, hgone⟩ =>
    obtain ⟨session', hs', hkeep⟩ := hsessions i session hs
    obtain ⟨m', hm', hp⟩ := hkeep k m rfl hm
    exact ⟨packet, c, session', m', hfound hf, hs', hm', hp ▸ hhello, hp ▸ hopen, hp ▸ hgone⟩

/-- The sessions stay. -/
theorem sessions_same {s : Host} (g : Option Guest) (i : Nat) (session : Session)
    (hs : s.sessions.lookup i = some session) :
    ∃ session', s.sessions.lookup i = some session' ∧
      ∀ k m, g = some (.inside i k) → session.clients[k]? = some m →
        ∃ m', session'.clients[k]? = some m' ∧ m'.phase = m.phase :=
  ⟨session, hs, fun _ m _ hm => ⟨m, hm, rfl⟩⟩

/-- A session goes on, but not by this client. -/
theorem sessions_step {s : Host} {g : Option Guest} {b : Nat} {session session' : Session}
    {e : SessionEvent} {out : List (Nat × SocketPacket)}
    (hsession : s.sessions.lookup b = some session) (hstep : session.step e = some (session', out))
    (hother : ∀ k, g = some (.inside b k) → e.client ≠ some k) (i : Nat) (t : Session)
    (ht : s.sessions.lookup i = some t) :
    ∃ t', (s.sessions.insert b session').lookup i = some t' ∧
      ∀ k m, g = some (.inside i k) → t.clients[k]? = some m →
        ∃ m', t'.clients[k]? = some m' ∧ m'.phase = m.phase := by
  rw [Table.lookup_insert]
  by_cases hib : i = b
  · subst hib
    cases hsession.symm.trans ht
    refine ⟨session', if_pos rfl, ?_⟩
    intro k m hg hm
    obtain ⟨m', hm', hkeep⟩ := (Session.step_cases hstep).keeps hm
    exact ⟨m', hm', hkeep.phase (hother k hg)⟩
  · exact ⟨t, by rw [if_neg hib, ht], fun _ m _ hm => ⟨m, hm, rfl⟩⟩

/-- A task that is no Minecraft client, and has not ended, has found nobody. -/
theorem Inv.guest_none {s : Host} (hs : s.Inv crypto) {i : Nat}
    (h : ∀ c, s.server.connections[i]? = some c →
      (∀ proxyTx, c.task ≠ .minecraft proxyTx) ∧ ∀ result, c.task ≠ .finished result) :
    s.guests.lookup i = none := by
  have hat := hs.guests i
  cases hg : s.guests.lookup i with
  | none => rfl
  | some g =>
    rw [hg] at hat
    cases g with
    | arriving hello =>
      obtain ⟨_, _, c, hfound, ht, -⟩ := hat
      exact absurd ht ((h c hfound.conn).1 _)
    | inside _ k =>
      obtain ⟨_, c, _, m, hfound, -, -, -, hopen, hgone⟩ := hat
      by_cases hp : m.phase = .gone
      · obtain ⟨result, ht⟩ := hgone hp
        exact absurd ht ((h c hfound.conn).2 result)
      · exact absurd (hopen hp) ((h c hfound.conn).1 _)

/-- A client takes a step. -/
theorem Inv.guest_own {s : Host} (hs : s.Inv crypto) {j i k : Nat} {e : GuestEvent}
    {session session' : Session} {out : List (Nat × SocketPacket)}
    (hg : s.guests.lookup j = some (.inside i k)) (hsession : s.sessions.lookup i = some session)
    (hstep : session.step (e.toSession k) = some (session', out)) :
    ∃ packet c m', s.Found j i packet c ∧ c.task = .minecraft i ∧
      session'.clients[k]? = some m' ∧
      ∀ hello, m'.phase = .joining hello → hello = ⟨packet.data⟩ := by
  have hat := hs.guests j
  rw [hg] at hat
  obtain ⟨packet, c, session₁, m, hfound, hs₁, hm, hhello, hopen, -⟩ := hat
  cases hsession.symm.trans hs₁
  obtain ⟨m₁, hm₁, hp⟩ := (Session.step_cases hstep).alive (GuestEvent.client_toSession k e)
  cases hm.symm.trans hm₁
  obtain ⟨m', hm', hkeep⟩ := (Session.step_cases hstep).keeps hm
  exact ⟨packet, c, m', hfound, hopen hp, hm', fun hello h => hhello hello (hkeep.hello hello h)⟩

/-- A session goes on, and is there. -/
theorem Found.session_step {s : Host} {j i : Nat} {packet : MinecraftHelloPacket} {c : Connection}
    (h : s.Found j i packet c) (b : Nat) (session : Session) :
    (s.sessions.insert b session).lookup i ≠ none := by
  rw [Table.lookup_insert]
  split
  · exact Option.some_ne_none session
  · exact h.session

/-- A task that is no Minecraft client goes on, and is none after. -/
theorem Inv.guest_outside {s s' : Host} (hs : s.Inv crypto) {i : Nat} {c c' : Connection}
    (hc : s.server.connections[i]? = some c) (hbefore : ∀ proxyTx, c.task ≠ .minecraft proxyTx)
    (hrunning : ∀ result, c.task ≠ .finished result)
    (hc' : s'.server.connections[i]? = some c')
    (hafter : ∀ proxyTx, c'.task ≠ .minecraft proxyTx) : s'.GuestAt i (s.guests.lookup i) := by
  have hnone : s.guests.lookup i = none := by
    refine hs.guest_none ?_
    intro c₀ hc₀
    cases hc.symm.trans hc₀
    exact ⟨hbefore, hrunning⟩
  rw [hnone]
  intro c₀ hc₀
  cases hc'.symm.trans hc₀
  exact hafter

/-- Whoever finds a session has asked for it, and the session is there. -/
theorem Inv.found_own {s : Host} (hs : s.Inv crypto) {j i : Nat} {c : Connection}
    {packet : MinecraftHelloPacket} {server : Server} {guests : Table Nat Guest}
    (hstep : s.server.step crypto (j, .lookup) = some server)
    (hc : s.server.connections[j]? = some c) (ht : c.task = .looking packet)
    (hl : s.server.register.servers.lookup packet.hostname = some i) :
    GuestAt { s with server := server, guests := guests } j (some (.arriving ⟨packet.data⟩)) := by
  have hrouted := Server.reachable_routed hs.server
  have hheard := hrouted.asked j c hc
  rw [ht] at hheard
  obtain ⟨owner, howner, hholds⟩ := Server.reachable_owned hs.server _ _ hl
  have hnew : server.connections[j]? = some ⟨.minecraft i, c.wire ++ []⟩ := by
    rw [found_eq hstep hc ht hl, Server.goOn_self hc]
  have hhist := (Server.step_cases hstep).history_subset
  refine ⟨i, packet, _, ⟨hnew, ?_, hhist (hrouted.entry _ _ hl), ?_⟩, rfl, rfl⟩
  · simpa [Task.Asked] using hheard
  · -- whoever is in the register is in `handle`
    have hfits := hs.fits i owner howner
    intro hnone
    have hnone' : s.sessions.lookup i = none := hnone
    rw [hnone'] at hfits
    cases htask : owner.task <;> rw [htask] at hholds hfits <;>
      first | (cases hholds; done) | (obtain ⟨_, hsome, -⟩ := hfits; cases hsome)

/-- Whoever joins a session is its newest client. -/
theorem Inv.join_own {s : Host} (hs : s.Inv crypto) {j i : Nat} {c : Connection}
    {hello : MinecraftDataPacket} {addr : SocketAddr} {session session' : Session}
    {out : List (Nat × SocketPacket)} {guests : Table Nat Guest}
    (hc : s.server.connections[j]? = some c) (ht : c.task = .minecraft i)
    (hg : s.guests.lookup j = some (.arriving hello))
    (hstep : session.step (.join addr hello) = some (session', out)) :
    GuestAt { s with sessions := s.sessions.insert i session', guests := guests } j
      (some (.inside i session.clients.length)) := by
  have hat := hs.guests j
  rw [hg] at hat
  obtain ⟨i', packet, c', hfound, ht', rfl⟩ := hat
  cases hc.symm.trans hfound.conn
  cases ht.symm.trans ht'
  have hlookup : (s.sessions.insert i session').lookup i = some session' := by
    rw [Table.lookup_insert, if_pos rfl]
  have hnew : session'.clients[session.clients.length]?
      = some ⟨addr, .joining ⟨packet.data⟩, true, [], []⟩ := by
    cases Session.step_cases hstep
    exact List.getElem?_concat_length
  refine ⟨packet, c, session', _, ⟨hc, hfound.heard, hfound.registered,
    hfound.session_step i session'⟩, hlookup, hnew, ?_, fun _ => ht, fun hp => by cases hp⟩
  rintro hello ⟨⟩
  rfl

theorem Inv.guests_step {s s' : Host} {l : HostEvent} (hs : s.Inv crypto)
    (h : Step crypto s l s') : ∀ j, s'.GuestAt j (s'.guests.lookup j) := by
  have hhist {i : Nat} {e : Event} {server : Server}
      (hstep : s.server.step crypto (i, e) = some server) : s.server.history ⊆ server.history :=
    (Server.step_cases hstep).history_subset
  -- two connections are two clients
  have hother {j j' i k : Nat} {e : GuestEvent} (hg : s.guests.lookup j = some (.inside i k))
      (hj : j' ≠ j) (k' : Nat) (hg' : s.guests.lookup j' = some (.inside i k')) :
      (e.toSession k).client ≠ some k' := by
    rw [GuestEvent.client_toSession]
    rintro ⟨⟩
    exact hj (hs.unique j' j i k hg' hg)
  cases h with
  | @task i e server hstep hp =>
    intro j
    by_cases hij : j = i
    · subst hij
      rcases (plain_cases hstep hp).2 with ⟨hlen, hnew⟩ | ⟨c₀, task, log, hc₀, hnew, hmoves⟩
      · rw [hs.guest_none (i := j) (by simp [hlen])]
        intro c hc
        cases hnew.symm.trans hc
        exact fun _ => Task.noConfusion
      · exact hs.guest_outside hc₀ hmoves.before hmoves.running hnew hmoves.after
    · exact (hs.guests j).mono (frame hstep hij) (hhist hstep) (sessions_same _)
  | @register i server hstep =>
    intro j
    obtain ⟨c, hostname, hc, ht, hnew⟩ := register_eq hstep
    by_cases hij : j = i
    · subst hij
      exact hs.guest_outside hc (by simp [ht]) (by simp [ht]) hnew fun _ => Task.noConfusion
    · refine (hs.guests j).mono (frame hstep hij) (hhist hstep) ?_
      intro b session hb
      -- the session is a new one
      have hfits := hs.fits i c hc
      rw [ht] at hfits
      have hbi : b ≠ i := by
        rintro rfl
        cases hfits.symm.trans hb
      exact ⟨session, by rw [Table.lookup_insert, if_neg hbi, hb], fun _ m _ hm => ⟨m, hm, rfl⟩⟩
  | @found j i c packet server hstep hc ht hl =>
    intro j'
    show GuestAt _ j' ((s.guests.insert j _).lookup j')
    rw [Table.lookup_insert]
    by_cases hj : j' = j
    · subst hj
      rw [if_pos rfl]
      exact hs.found_own hstep hc ht hl
    · rw [if_neg hj]
      exact (hs.guests j').mono (frame hstep hj) (hhist hstep) (sessions_same _)
  | @dismissed j i c hello result server _ hstep hc ht hg hl =>
    intro j'
    show GuestAt _ j' ((s.guests.erase j).lookup j')
    rw [Table.lookup_erase]
    by_cases hj : j' = j
    · subst hj
      rw [if_pos rfl]
      intro c' hc'
      have hnew : server.connections[j']? = some ⟨.finished result, c.wire ++ []⟩ := by
        rw [server_eq hstep hc (by rw [ht]; rfl), Server.goOn_self hc]
      cases hnew.symm.trans hc'
      exact fun _ => Task.noConfusion
    · rw [if_neg hj]
      exact (hs.guests j').mono (frame hstep hj) (hhist hstep) (sessions_same _)
  | @goes i e c hostname session session' out hc ht he hsession hstep hr =>
    intro j
    refine (hs.guests j).mono rfl (fun _ h => h) (sessions_step hsession hstep ?_)
    intro k _
    simp [he]
  | @ends i e c hostname session session' out result e' server _ hserver hc ht he hsession hstep hr =>
    intro j
    by_cases hij : j = i
    · subst hij
      have hnew : server.connections[j]? = some ⟨.closing hostname result, c.wire ++ []⟩ := by
        rw [ht.2, Server.goOn_self hc]
      refine hs.guest_outside hc ?_ ?_ hnew fun _ => Task.noConfusion
      · rcases ht.1 with ht | ht <;> simp [ht]
      · rcases ht.1 with ht | ht <;> simp [ht]
    · refine (hs.guests j).mono (frame hserver hij) (hhist hserver) (sessions_step hsession hstep ?_)
      intro k _
      simp [he]
  | @join j i c hello addr session session' out hc ht hg hsession hstep =>
    intro j'
    show GuestAt _ j' ((s.guests.insert j _).lookup j')
    rw [Table.lookup_insert]
    by_cases hj : j' = j
    · subst hj
      rw [if_pos rfl]
      exact hs.join_own hc ht hg hstep
    · rw [if_neg hj]
      refine (hs.guests j').mono rfl (fun _ h => h) (sessions_step hsession hstep ?_)
      intro k _ hk
      cases hk
  | @guest j i k e session session' out hg hsession hstep hm =>
    intro j'
    by_cases hj : j' = j
    · subst hj
      obtain ⟨packet, c, m', hfound, ht, hm', hhello⟩ := hs.guest_own hg hsession hstep
      rw [hm'] at hm
      show GuestAt _ j' (s.guests.lookup j')
      rw [hg]
      refine ⟨packet, c, session', m', ⟨hfound.conn, hfound.heard, hfound.registered,
        hfound.session_step i session'⟩, by rw [Table.lookup_insert, if_pos rfl], hm', hhello,
        fun _ => ht, ?_⟩
      intro hp
      simp [hp] at hm
    · refine (hs.guests j').mono rfl (fun _ h => h) (sessions_step hsession hstep ?_)
      exact hother hg hj
  | @left j i k e session session' out server hserver hg hsession hstep hm =>
    intro j'
    by_cases hj : j' = j
    · subst hj
      obtain ⟨packet, c, m', hfound, ht, hm', hhello⟩ := hs.guest_own hg hsession hstep
      rw [hm'] at hm
      have hp : m'.phase = .gone := by simpa using hm
      have hnew : server.connections[j']? = some ⟨.finished e.result, c.wire ++ []⟩ := by
        rw [server_eq hserver hfound.conn (by rw [ht]; rfl), Server.goOn_self hfound.conn]
      show GuestAt _ j' (s.guests.lookup j')
      rw [hg]
      exact ⟨packet, _, session', m', ⟨hnew, by simpa using hfound.heard,
        hhist hserver hfound.registered, hfound.session_step i session'⟩,
        by rw [Table.lookup_insert, if_pos rfl], hm', hhello, fun hne => absurd hp hne,
        fun _ => ⟨_, rfl⟩⟩
    · refine (hs.guests j').mono (frame hserver hj) (hhist hserver) (sessions_step hsession hstep ?_)
      exact hother hg hj

/-! ### Every run -/

theorem Inv.server_step {s s' : Host} {l : HostEvent} (hs : s.Inv crypto)
    (h : Step crypto s l s') : (serverMachine crypto).Reachable s'.server := by
  cases h with
  | task hstep hp => exact Server.reachable_step hs.server hstep
  | register hstep => exact Server.reachable_step hs.server hstep
  | found hstep hc ht hl => exact Server.reachable_step hs.server hstep
  | dismissed hstep hc ht hg hl => exact Server.reachable_step hs.server hstep
  | ends hstep hc ht he hsession hsession' hr => exact Server.reachable_step hs.server hstep
  | left hstep hg hsession hsession' hm => exact Server.reachable_step hs.server hstep
  | _ => exact hs.server

theorem Inv.sessions_step {s s' : Host} {l : HostEvent} (hs : s.Inv crypto)
    (h : Step crypto s l s') (i : Nat) (t : Session) (ht : s'.sessions.lookup i = some t) :
    sessionMachine.Reachable t := by
  have hinsert {b : Nat} {session session' : Session} {e : SessionEvent}
      {out : List (Nat × SocketPacket)} (hsession : s.sessions.lookup b = some session)
      (hstep : session.step e = some (session', out))
      (ht : (s.sessions.insert b session').lookup i = some t) : sessionMachine.Reachable t := by
    rw [Table.lookup_insert] at ht
    split at ht
    · cases ht
      exact (hs.sessions b session hsession).step (l := e) (by simp [sessionMachine, hstep])
    · exact hs.sessions i t ht
  cases h with
  | @register b server hstep =>
    have ht' : (s.sessions.insert b .new).lookup i = some t := ht
    rw [Table.lookup_insert] at ht'
    split at ht'
    · cases ht'
      exact .init _
    · exact hs.sessions i t ht'
  | goes hc ht' he hsession hstep hr => exact hinsert hsession hstep ht
  | ends hserver hc ht' he hsession hstep hr => exact hinsert hsession hstep ht
  | join hc ht' hg hsession hstep => exact hinsert hsession hstep ht
  | guest hg hsession hstep hm => exact hinsert hsession hstep ht
  | left hserver hg hsession hstep hm => exact hinsert hsession hstep ht
  | _ => exact hs.sessions i t ht

/-- A step of the server takes no connection away. -/
theorem length_le {s server : Server} {i : Nat} {e : Event}
    (h : s.step crypto (i, e) = some server) : s.connections.length ≤ server.connections.length := by
  cases Server.step_cases h with
  | accepted => simp
  | _ => exact Nat.le_of_eq List.length_set.symm

theorem Inv.fresh_step {s s' : Host} {l : HostEvent} (hs : s.Inv crypto) (h : Step crypto s l s')
    (i : Nat) (hi : s'.server.connections.length ≤ i) : s'.sessions.lookup i = none := by
  -- the session that goes on is one that is there
  have hinsert {b : Nat} {session session' : Session} (hsession : s.sessions.lookup b = some session)
      (hi : s.server.connections.length ≤ i) : (s.sessions.insert b session').lookup i = none := by
    have hnone := hs.fresh i hi
    have hib : i ≠ b := by
      rintro rfl
      cases hnone.symm.trans hsession
    rw [Table.lookup_insert, if_neg hib, hnone]
  cases h with
  | task hstep hp => exact hs.fresh i (Nat.le_trans (length_le hstep) hi)
  | @register b server hstep =>
    obtain ⟨c, _, hc, -⟩ := register_eq hstep
    have hlt := (List.getElem?_eq_some_iff.mp hc).1
    have hle := Nat.le_trans (length_le hstep) hi
    show (s.sessions.insert b .new).lookup i = none
    rw [Table.lookup_insert, if_neg (Nat.ne_of_gt (Nat.lt_of_lt_of_le hlt hle)), hs.fresh i hle]
  | found hstep hc ht hl => exact hs.fresh i (Nat.le_trans (length_le hstep) hi)
  | dismissed hstep hc ht hg hl => exact hs.fresh i (Nat.le_trans (length_le hstep) hi)
  | goes hc ht he hsession hstep hr => exact hinsert hsession hi
  | ends hserver hc ht he hsession hstep hr =>
    exact hinsert hsession (Nat.le_trans (length_le hserver) hi)
  | join hc ht hg hsession hstep => exact hinsert hsession hi
  | guest hg hsession hstep hm => exact hinsert hsession hi
  | left hserver hg hsession hstep hm =>
    exact hinsert hsession (Nat.le_trans (length_le hserver) hi)

/-- A client that has a number is one of the clients. -/
theorem Inv.lt_length {s : Host} (hs : s.Inv crypto) {j i k : Nat} {session : Session}
    (hg : s.guests.lookup j = some (.inside i k)) (hsession : s.sessions.lookup i = some session) :
    k < session.clients.length := by
  have hat := hs.guests j
  rw [hg] at hat
  obtain ⟨_, _, session', _, -, hs', hm, -⟩ := hat
  cases hsession.symm.trans hs'
  exact (List.getElem?_eq_some_iff.mp hm).1

theorem Inv.unique_step {s s' : Host} {l : HostEvent} (hs : s.Inv crypto) (h : Step crypto s l s') :
    ∀ j j' i k, s'.guests.lookup j = some (.inside i k) →
      s'.guests.lookup j' = some (.inside i k) → j = j' := by
  cases h with
  | @found a i₀ c packet server hstep hc ht hl =>
    intro j j' i k hj hj'
    have hold {x : Nat} (hx : (s.guests.insert a (.arriving ⟨packet.data⟩)).lookup x
        = some (.inside i k)) : s.guests.lookup x = some (.inside i k) := by
      rw [Table.lookup_insert] at hx
      split at hx
      · cases hx
      · exact hx
    exact hs.unique j j' i k (hold hj) (hold hj')
  | @dismissed a i₀ c hello result server _ hstep hc ht hg hl =>
    intro j j' i k hj hj'
    have hold {x : Nat} (hx : (s.guests.erase a).lookup x = some (.inside i k)) :
        s.guests.lookup x = some (.inside i k) := by
      rw [Table.lookup_erase] at hx
      split at hx
      · cases hx
      · exact hx
    exact hs.unique j j' i k (hold hj) (hold hj')
  | @join a b c hello addr session session' out hc ht hg hsession hstep =>
    intro j j' i k hj hj'
    -- the number of the new client is its own
    have hold {x : Nat} (hx : (s.guests.insert a (.inside b session.clients.length)).lookup x
        = some (.inside i k)) : (x = a ∧ b = i ∧ session.clients.length = k) ∨
          (s.guests.lookup x = some (.inside i k) ∧ (b = i → k ≠ session.clients.length)) := by
      rw [Table.lookup_insert] at hx
      split at hx
      · next heq =>
        cases hx
        exact Or.inl ⟨heq, rfl, rfl⟩
      · refine Or.inr ⟨hx, ?_⟩
        rintro rfl
        exact Nat.ne_of_lt (hs.lt_length hx hsession)
    rcases hold hj with ⟨rfl, hb, hk⟩ | ⟨hj, hne⟩
    · rcases hold hj' with ⟨rfl, -, -⟩ | ⟨-, hne'⟩
      · rfl
      · exact absurd hk.symm (hne' hb)
    · rcases hold hj' with ⟨-, hb, hk⟩ | ⟨hj', -⟩
      · exact absurd hk.symm (hne hb)
      · exact hs.unique j j' i k hj hj'
  | _ => exact hs.unique

theorem Inv.visited_step {s s' : Host} {l : HostEvent} (hs : s.Inv crypto) (h : Step crypto s l s')
    (i : Nat) (t : Session) (k : Nat) (ht : s'.sessions.lookup i = some t)
    (hk : k < t.clients.length) : ∃ j, s'.guests.lookup j = some (.inside i k) := by
  -- a session goes on with the clients it has
  have hinsert {b : Nat} {session session' : Session} {e : SessionEvent}
      {out : List (Nat × SocketPacket)} (hsession : s.sessions.lookup b = some session)
      (hstep : session.step e = some (session', out)) (he : ∀ addr hello, e ≠ .join addr hello)
      (ht : (s.sessions.insert b session').lookup i = some t) :
      ∃ j, s.guests.lookup j = some (.inside i k) := by
    rw [Table.lookup_insert] at ht
    split at ht
    · next hib =>
      cases ht
      subst hib
      rw [(Session.step_cases hstep).length he] at hk
      exact hs.visited i session k hsession hk
    · exact hs.visited i t k ht hk
  cases h with
  | task hstep hp => exact hs.visited i t k ht hk
  | @register b server hstep =>
    have ht' : (s.sessions.insert b .new).lookup i = some t := ht
    rw [Table.lookup_insert] at ht'
    split at ht'
    · cases ht'
      exact absurd hk (Nat.not_lt_zero k)
    · exact hs.visited i t k ht' hk
  | @found a i₀ c packet server hstep hc htask hl =>
    obtain ⟨j, hj⟩ := hs.visited i t k ht hk
    have hnone : s.guests.lookup a = none := by
      refine hs.guest_none ?_
      intro c' hc'
      cases hc.symm.trans hc'
      rw [htask]
      exact ⟨fun _ => Task.noConfusion, fun _ => Task.noConfusion⟩
    have hja : j ≠ a := by
      rintro rfl
      cases hnone.symm.trans hj
    exact ⟨j, by rw [Table.lookup_insert, if_neg hja, hj]⟩
  | @dismissed a i₀ c hello result server _ hstep hc htask hg hl =>
    obtain ⟨j, hj⟩ := hs.visited i t k ht hk
    have hja : j ≠ a := by
      rintro rfl
      cases hg.symm.trans hj
    exact ⟨j, by rw [Table.lookup_erase, if_neg hja, hj]⟩
  | goes hc htask he hsession hstep hr =>
    refine hinsert hsession hstep ?_ ht
    rintro addr hello rfl
    cases he
  | ends hserver hc htask he hsession hstep hr =>
    refine hinsert hsession hstep ?_ ht
    rintro addr hello rfl
    cases he
  | @join a b c hello addr session session' out hc htask hg hsession hstep =>
    have hlen : session'.clients.length = session.clients.length + 1 := by
      cases Session.step_cases hstep
      exact List.length_append
    have hold (h : ∃ j, s.guests.lookup j = some (.inside i k)) :
        ∃ j, (s.guests.insert a (.inside b session.clients.length)).lookup j
          = some (.inside i k) := by
      obtain ⟨j, hj⟩ := h
      have hja : j ≠ a := by
        rintro rfl
        cases hg.symm.trans hj
      exact ⟨j, by rw [Table.lookup_insert, if_neg hja, hj]⟩
    have ht' : (s.sessions.insert b session').lookup i = some t := ht
    rw [Table.lookup_insert] at ht'
    split at ht'
    · next hib =>
      cases ht'
      subst hib
      rw [hlen] at hk
      rcases Nat.lt_succ_iff_lt_or_eq.mp hk with hlt | rfl
      · exact hold (hs.visited i session k hsession hlt)
      · exact ⟨a, by rw [Table.lookup_insert, if_pos rfl]⟩
    · exact hold (hs.visited i t k ht' hk)
  | @guest j b k' e session session' out hg hsession hstep hm =>
    refine hinsert hsession hstep ?_ ht
    rintro addr hello he
    cases e <;> cases he
  | @left j b k' e session session' out server hserver hg hsession hstep hm =>
    refine hinsert hsession hstep ?_ ht
    rintro addr hello he
    cases e <;> cases he

theorem Inv.step {s s' : Host} {l : HostEvent} (hs : s.Inv crypto) (h : Step crypto s l s') :
    s'.Inv crypto :=
  ⟨hs.server_step h, hs.sessions_step h, hs.fits_step h, hs.fresh_step h, hs.guests_step h,
    hs.unique_step h, hs.visited_step h⟩

theorem reachable_inv {s : Host} (h : (hostMachine crypto).Reachable s) : s.Inv crypto :=
  h.invariant (inv_new crypto) fun _ _ _ hs hl => hs.step (step_cases hl)

end Host

end CraftIp
