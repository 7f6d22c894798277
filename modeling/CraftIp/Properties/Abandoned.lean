import CraftIp.Infra.Progress
import CraftIp.Properties.Host
import CraftIp.Properties.Shutdown

/-!
# Minecraft clients without a proxy client

When the task of a proxy client has returned, its hostname is out of the register, so nobody
can find its session any more. The Minecraft clients that have found it end, whatever the
rest of the server does.

* `host_shuts_down` — they take no more steps than they have left, and wait for nothing but their
  own sockets
-/

namespace CraftIp

open Infra

/-- How many Minecraft clients are with session `i`. -/
def Server.guests (s : Server) (i : Nat) : Nat :=
  s.connections.countP fun c => c.task = .minecraft i

namespace Host

variable {crypto : Crypto}

/-- How many steps the Minecraft clients of session `i` have left, at most. -/
def work (s : Host) (i : Nat) : Nat :=
  (s.sessions.lookup i).elim 0 Session.work + s.server.guests i

/-- The connection whose task takes the step. -/
def connectionOf : HostEvent → Nat
  | .task i _ | .loop i _ | .join i _ | .guest i _ => i

/-- The Minecraft client has data to write to its socket, and waits until its peer takes them. -/
def writing (s : Host) (j : Nat) : Bool :=
  match s.guests.lookup j with
  | some (.inside i k) => (s.sessions.lookup i).any fun session => session.writing k
  | _ => false

/-- The steps that the task of a Minecraft client takes by itself. A write is none of them. -/
def isOwn (s : Host) : HostEvent → Bool
  | .join _ _ | .guest _ .hello | .guest _ (.drop _) => true
  | .guest j .receive => !s.writing j
  | _ => false

/-- The step, when a Minecraft client of session `i` takes it. -/
def stepsOf (i : Nat) (s : Host) (l : HostEvent) : List HostEvent :=
  match s.server.connections[connectionOf l]? with
  | some c => if c.task = .minecraft i then [l] else []
  | none => []

theorem stepsOf_eq {s : Host} {l : HostEvent} {c : Connection}
    (hc : s.server.connections[connectionOf l]? = some c) (i : Nat) :
    stepsOf i s l = if c.task = .minecraft i then [l] else [] := by
  rw [stepsOf, hc]

/-- The number of Minecraft clients changes with the own connection. -/
theorem guests_step {s server : Server} {a : Nat} {e : Event}
    (h : s.step crypto (a, e) = some server) {c c' : Connection} (hc : s.connections[a]? = some c)
    (hc' : server.connections[a]? = some c') (i : Nat) :
    server.guests i + (if c.task = .minecraft i then 1 else 0)
      = s.guests i + if c'.task = .minecraft i then 1 else 0 := by
  obtain ⟨ha, hget⟩ := List.getElem?_eq_some_iff.mp hc
  have hset {d : Connection} (hd : (s.connections.set a d)[a]? = some c') :
      (s.connections.set a d).countP (fun c => c.task = .minecraft i)
          + (if c.task = .minecraft i then 1 else 0)
        = s.guests i + if c'.task = .minecraft i then 1 else 0 := by
    rw [List.getElem?_set, if_pos rfl, if_pos ha] at hd
    cases hd
    have hle : (if c.task = .minecraft i then 1 else 0) ≤ s.guests i := by
      split
      · next ht =>
        exact List.countP_pos_iff.mpr ⟨c, List.mem_of_getElem? hc, decide_eq_true ht⟩
      · exact Nat.zero_le _
    rw [Server.guests] at hle ⊢
    simp only [List.countP_set ha, hget, decide_eq_true_eq]
    omega
  cases Server.step_cases h with
  | accepted => simp at hc
  | _ => exact hset hc'

/-- A task that has returned takes no step. -/
theorem not_finished {s server : Server} {a : Nat} {e : Event}
    (h : s.step crypto (a, e) = some server) {c : Connection} (hc : s.connections[a]? = some c)
    (result : Except DistributorError Unit) : c.task ≠ .finished result := by
  intro ht
  cases Server.step_cases h with
  | accepted => simp at hc
  | task hc' ht' =>
    cases hc.symm.trans hc'
    rw [ht] at ht'
    cases ht'
  | register hc' ht' | channelClosed hc' ht' | close hc' ht' | found hc' ht' | notFound hc' ht' =>
    cases hc.symm.trans hc'
    cases ht.symm.trans ht'

/-- The task of the proxy client of session `i` has returned. -/
structure Closed (crypto : Crypto) (s : Host) (i : Nat) : Prop where
  inv : s.Inv crypto
  finished : ∃ c result, s.server.connections[i]? = some c ∧ c.task = .finished result
  session : s.sessions.lookup i ≠ none

theorem Closed.over {s : Host} {i : Nat} (h : s.Closed crypto i) {session : Session}
    (hsession : s.sessions.lookup i = some session) : session.Over := by
  obtain ⟨c, result, hc, ht⟩ := h.finished
  have hfits := h.inv.fits i c hc
  rw [ht] at hfits
  refine Session.reachable_over (h.inv.sessions i session hsession) ?_
  rw [hfits session hsession]
  exact Option.some_ne_none result

/-- A task that has returned stays where it is. -/
theorem Closed.next {s s' : Host} {l : HostEvent} {i : Nat} (h : s.Closed crypto i)
    (hstep : Step crypto s l s') : s'.Closed crypto i := by
  obtain ⟨c, result, hc, ht⟩ := h.finished
  have hstays {a : Nat} {e : Event} {server : Server}
      (hserver : s.server.step crypto (a, e) = some server) : server.connections[i]? = some c := by
    have hia : i ≠ a := by
      rintro rfl
      exact not_finished hserver hc result ht
    exact (frame hserver hia).trans hc
  have hinsert (b : Nat) (session : Session) : (s.sessions.insert b session).lookup i ≠ none := by
    rw [Table.lookup_insert]
    split
    · exact Option.some_ne_none session
    · exact h.session
  refine ⟨h.inv.step hstep, ?_, ?_⟩
  · cases hstep with
    | task hserver hp => exact ⟨c, result, hstays hserver, ht⟩
    | register hserver => exact ⟨c, result, hstays hserver, ht⟩
    | found hserver hc' ht' hl => exact ⟨c, result, hstays hserver, ht⟩
    | dismissed hserver hc' ht' hg hl => exact ⟨c, result, hstays hserver, ht⟩
    | ends hserver hc' ht' he hsession hsession' hr => exact ⟨c, result, hstays hserver, ht⟩
    | left hserver hg hsession hsession' hm => exact ⟨c, result, hstays hserver, ht⟩
    | _ => exact ⟨c, result, hc, ht⟩
  · cases hstep with
    | task hserver hp => exact h.session
    | found hserver hc' ht' hl => exact h.session
    | dismissed hserver hc' ht' hg hl => exact h.session
    | _ => exact hinsert _ _

/-- A step that leaves the session alone. -/
theorem work_le {s s' : Host} {i n : Nat} (hsession : s'.sessions.lookup i = s.sessions.lookup i)
    (hguests : n + s'.server.guests i ≤ s.server.guests i) : n + s'.work i ≤ s.work i := by
  unfold work
  rw [hsession]
  omega

/-- No Minecraft client of session `i` takes the step. -/
theorem guests_same {s server : Server} {a i : Nat} {e : Event} {c c' : Connection}
    (h : s.step crypto (a, e) = some server) (hc : s.connections[a]? = some c)
    (hc' : server.connections[a]? = some c') (ht : c.task ≠ .minecraft i)
    (ht' : c'.task ≠ .minecraft i) : server.guests i = s.guests i := by
  have hcount := guests_step h hc hc' i
  rwa [if_neg ht, if_neg ht'] at hcount

/-- A Minecraft client of session `b` has returned. -/
theorem guests_finish {s server : Server} {a b : Nat} {e : Event} {c : Connection}
    {result : Except DistributorError Unit} (h : s.step crypto (a, e) = some server)
    (hc : s.connections[a]? = some c) (ht : c.task = .minecraft b)
    (heq : server = s.goOn a c (.finished result) []) (i : Nat) :
    server.guests i + (if b = i then 1 else 0) = s.guests i := by
  have hc' : server.connections[a]? = some ⟨.finished result, c.wire ++ []⟩ := by
    rw [heq, Server.goOn_self hc]
  have hcount := guests_step h hc hc' i
  rw [ht] at hcount
  simpa using hcount

/-- The step of a connection that is no Minecraft client of session `i`. -/
theorem work_quiet {s s' : Host} {l : HostEvent} {i : Nat} {c : Connection}
    (hc : s.server.connections[connectionOf l]? = some c) (ht : c.task ≠ .minecraft i)
    (hsession : s'.sessions.lookup i = s.sessions.lookup i)
    (hguests : s'.server.guests i = s.server.guests i) :
    (stepsOf i s l).length + s'.work i ≤ s.work i := by
  have hnil : (stepsOf i s l).length = 0 := by
    rw [stepsOf_eq hc, if_neg ht]
    rfl
  rw [hnil]
  refine work_le hsession ?_
  rw [hguests, Nat.zero_add]

/-- A step of a task that neither enters nor leaves a session. -/
theorem work_task {s : Host} {a i : Nat} {e : Event} {server : Server}
    (hserver : s.server.step crypto (a, e) = some server)
    (hp : ∀ c, s.server.connections[a]? = some c → s.Plain c e) :
    (stepsOf i s (.task a e)).length + work { s with server := server } i ≤ s.work i := by
  rcases (plain_cases hserver hp).2 with ⟨hlen, -⟩ | ⟨c, task, log, hc, hc', hmoves⟩
  · have hnil : stepsOf i s (.task a e) = [] := by
      have hget : s.server.connections[connectionOf (.task a e)]? = none := by
        simp [connectionOf, hlen]
      rw [stepsOf, hget]
    rw [hnil]
    refine work_le rfl ?_
    cases Server.step_cases hserver with
    | accepted => simp [Server.guests]
    | task hc | register hc | channelClosed hc | close hc | found hc | notFound hc =>
      simp [hlen] at hc
  · exact work_quiet hc (hmoves.before i) rfl
      (guests_same hserver hc hc' (hmoves.before i) (hmoves.after i))

/-- Whoever is in the register has not returned. -/
theorem Closed.not_registered {s : Host} {i b : Nat} {hostname : String} (h : s.Closed crypto i)
    (hl : s.server.register.servers.lookup hostname = some b) : b ≠ i := by
  rintro rfl
  obtain ⟨c', result, hc', ht'⟩ := h.finished
  obtain ⟨owner, howner, hholds⟩ := Server.reachable_owned h.inv.server _ _ hl
  cases hc'.symm.trans howner
  rw [ht'] at hholds
  cases hholds

/-- A Minecraft client of session `i` takes the step. -/
theorem Closed.work_own {s : Host} {i j : Nat} {c : Connection} {e : GuestEvent}
    {session session' : Session} {e' : SessionEvent} {out : List (Nat × SocketPacket)}
    {server : Server} (h : s.Closed crypto i) (hc : s.server.connections[j]? = some c)
    (ht : c.task = .minecraft i) (hsession : s.sessions.lookup i = some session)
    (hstep : session.step e' = some (session', out))
    (hguests : server.guests i ≤ s.server.guests i) :
    (stepsOf i s (.guest j e)).length +
      work { s with server := server, sessions := s.sessions.insert i session' } i ≤ s.work i := by
  obtain ⟨-, hlt⟩ := (h.over hsession).step (Session.step_cases hstep)
  rw [stepsOf_eq (l := .guest j e) hc, if_pos ht]
  simp only [work, hsession, Table.lookup_insert, if_true, Option.elim_some,
    List.length_singleton]
  omega

theorem Closed.work_step {s s' : Host} {l : HostEvent} {i : Nat} (h : s.Closed crypto i)
    (hstep : Step crypto s l s') : (stepsOf i s l).length + s'.work i ≤ s.work i := by
  have hother {b : Nat} (hb : i ≠ b) (session : Session) :
      (s.sessions.insert b session).lookup i = s.sessions.lookup i := by
    rw [Table.lookup_insert, if_neg hb]
  have hfinished {b : Nat} {c : Connection} (hc : s.server.connections[b]? = some c)
      (ht : ∀ result, c.task ≠ .finished result) : i ≠ b := by
    rintro rfl
    obtain ⟨c', result, hc', ht'⟩ := h.finished
    cases hc.symm.trans hc'
    exact ht result ht'
  cases hstep with
  | task hserver hp => exact work_task hserver hp
  | @register b server hserver =>
    obtain ⟨c, hostname, hc, ht, hc'⟩ := register_eq hserver
    have hne : c.task ≠ .minecraft i := by
      rw [ht]
      exact Task.noConfusion
    have hib : i ≠ b := hfinished hc (by rw [ht]; exact fun _ => Task.noConfusion)
    exact work_quiet hc hne (hother hib .new) (guests_same hserver hc hc' hne Task.noConfusion)
  | @found j b c packet server hserver hc ht hl =>
    have hne : c.task ≠ .minecraft i := by
      rw [ht]
      exact Task.noConfusion
    have hc' : server.connections[j]? = some ⟨.minecraft b, c.wire ++ []⟩ := by
      rw [found_eq hserver hc ht hl, Server.goOn_self hc]
    exact work_quiet hc hne rfl
      (guests_same hserver hc hc' hne (by simpa using h.not_registered hl))
  | @dismissed j b c hello result server _ hserver hc ht hg hl =>
    have hcount := guests_finish hserver hc ht (server_eq hserver hc (by rw [ht]; rfl)) i
    have hlen : (stepsOf i s l).length = if b = i then 1 else 0 := by
      have hj : connectionOf l = j := by
        rcases hl with rfl | ⟨addr, rfl⟩ <;> rfl
      rw [stepsOf_eq (hj ▸ hc), ht]
      by_cases hb : b = i <;> simp [hb]
    rw [hlen]
    refine work_le rfl ?_
    rw [Nat.add_comm]
    exact Nat.le_of_eq hcount
  | @goes b e c hostname session session' out hc ht he hsession hstep hr =>
    have hib : i ≠ b := hfinished hc (by rw [ht]; exact fun _ => Task.noConfusion)
    exact work_quiet hc (by rw [ht]; exact Task.noConfusion) (hother hib session') rfl
  | @ends b e c hostname session session' out result e' server _ hserver hc ht he hsession hstep
      hr hl =>
    have htask : (∀ proxyTx, c.task ≠ .minecraft proxyTx) ∧
        ∀ result, c.task ≠ .finished result := by
      rcases ht.1 with ht | ht <;> rw [ht] <;>
        exact ⟨fun _ => Task.noConfusion, fun _ => Task.noConfusion⟩
    have hj : connectionOf l = b := by
      rcases hl with rfl | ⟨-, rfl⟩ <;> rfl
    have hc' : server.connections[b]? = some ⟨.closing hostname result, c.wire ++ []⟩ := by
      rw [ht.2, Server.goOn_self hc]
    exact work_quiet (hj ▸ hc) (htask.1 i) (hother (hfinished hc htask.2) session')
      (guests_same hserver hc hc' (htask.1 i) Task.noConfusion)
  | @join j b c hello addr session session' out hc ht hg hsession hstep =>
    by_cases hib : b = i
    · -- the channel is closed
      subst hib
      cases Session.step_cases hstep with
      | join hr ha => exact absurd hr (h.over hsession).ended
    · exact work_quiet hc (by rw [ht]; simpa using hib) (hother (fun h => hib h.symm) session') rfl
  | @guest j b k e session session' out hg hsession hstep hm =>
    obtain ⟨packet, c, m, hfound, ht, -⟩ := h.inv.guest_own hg hsession hstep
    by_cases hib : b = i
    · subst hib
      exact h.work_own hfound.conn ht hsession hstep (Nat.le_refl _)
    · exact work_quiet hfound.conn (by rw [ht]; simpa using hib)
        (hother (fun h => hib h.symm) session') rfl
  | @left j b k e session session' out server hserver hg hsession hstep hm =>
    obtain ⟨packet, c, m, hfound, ht, -⟩ := h.inv.guest_own hg hsession hstep
    have hcount := guests_finish hserver hfound.conn ht
      (server_eq hserver hfound.conn (by rw [ht]; rfl)) i
    by_cases hib : b = i
    · subst hib
      exact h.work_own hfound.conn ht hsession hstep (hcount ▸ Nat.le_add_right _ _)
    · rw [if_neg hib] at hcount
      exact work_quiet hfound.conn (by rw [ht]; simpa using hib)
        (hother (fun h => hib h.symm) session') hcount

theorem Closed.step {s s' : Host} {l : HostEvent} {i : Nat} (h : s.Closed crypto i)
    (hstep : Step crypto s l s') :
    s'.Closed crypto i ∧ (stepsOf i s l).length + s'.work i ≤ s.work i :=
  ⟨h.next hstep, h.work_step hstep⟩

/-- A task that is a Minecraft client can return. -/
theorem onTask_left {s : Host} {j i : Nat} {c : Connection} (hc : s.server.connections[j]? = some c)
    (ht : c.task = .minecraft i) (result : Except DistributorError Unit) :
    (s.onTask crypto j (.left result)).isSome = true := by
  have hstep := Server.step_task crypto (e := .left result) hc (by rw [ht]; rfl)
  rw [onTask, hstep]
  rfl

/-- A step in the session is a step of the whole. -/
theorem guest_enabled {s : Host} {j i k : Nat} {c : Connection} {session : Session} {e : GuestEvent}
    (hc : s.server.connections[j]? = some c) (ht : c.task = .minecraft i)
    (hg : s.guests.lookup j = some (.inside i k)) (hsession : s.sessions.lookup i = some session)
    (hstep : (session.step (e.toSession k)).isSome = true) :
    (s.step crypto (.guest j e)).isSome = true := by
  obtain ⟨⟨session', out⟩, hstep⟩ := Option.isSome_iff_exists.mp hstep
  have hgoes : s.onSession i (e.toSession k)
      = some { s with sessions := s.sessions.insert i session' } := by
    simp [onSession, hsession, hstep]
  simp only [Host.step, hg, hgoes, Option.bind_eq_bind, Option.bind_some]
  split
  · exact onTask_left (s := { s with sessions := s.sessions.insert i session' }) hc ht e.result
  · rfl

/-- Where a Minecraft client of a session that is over stands: before the session, or in it. -/
theorem Closed.place {s : Host} {i j : Nat} {c : Connection} (h : s.Closed crypto i)
    (hc : s.server.connections[j]? = some c) (ht : c.task = .minecraft i) :
    (∃ hello, s.guests.lookup j = some (.arriving hello)) ∨
      ∃ k session m, s.guests.lookup j = some (.inside i k) ∧
        s.sessions.lookup i = some session ∧ session.clients[k]? = some m ∧ m.phase ≠ .gone := by
  have hat := h.inv.guests j
  cases hg : s.guests.lookup j with
  | none =>
    rw [hg] at hat
    exact absurd ht (hat c hc i)
  | some g =>
    rw [hg] at hat
    cases g with
    | arriving hello => exact Or.inl ⟨hello, rfl⟩
    | inside i' k =>
      obtain ⟨packet, c', session, m, hfound, hsession, hm, -, hopen, hgone⟩ := hat
      cases hc.symm.trans hfound.conn
      have hp : m.phase ≠ .gone := by
        intro hp
        obtain ⟨result, ht'⟩ := hgone hp
        cases ht.symm.trans ht'
      cases ht.symm.trans (hopen hp)
      exact Or.inr ⟨k, session, m, rfl, hsession, hm, hp⟩

/-- A Minecraft client of a session that is over can go on, unless it is writing. -/
theorem Closed.enabled {s : Host} {i j : Nat} {c : Connection} (h : s.Closed crypto i)
    (hc : s.server.connections[j]? = some c) (ht : c.task = .minecraft i)
    (hw : s.writing j = false) :
    ∃ l, s.isOwn l = true ∧ connectionOf l = j ∧ (s.step crypto l).isSome = true := by
  rcases h.place hc ht with ⟨hello, hg⟩ | ⟨k, session, m, hg, hsession, hm, hp⟩
  · obtain ⟨session, hsession⟩ := Option.ne_none_iff_exists'.mp h.session
    refine ⟨.join j (.V4 0 0), rfl, rfl, ?_⟩
    have hopen : session.result.isNone = false := by
      simpa using Option.isSome_iff_ne_none.mpr (h.over hsession).ended
    simp only [Host.step, hc, ht, hg, hsession, hopen, Option.bind_eq_bind, Option.bind_some]
    exact onTask_left (s := { s with guests := s.guests.erase j }) hc ht _
  · have hw' : session.writing k = false := by simpa [writing, hg, hsession] using hw
    obtain ⟨e, he, hstep⟩ := (h.over hsession).enabled hm hp hw'
    simp only [Session.own, List.mem_cons, List.not_mem_nil, or_false] at he
    rcases he with rfl | rfl | rfl
    · exact ⟨.guest j .hello, rfl, rfl, guest_enabled hc ht hg hsession hstep⟩
    · exact ⟨.guest j .receive, by simp [isOwn, hw], rfl, guest_enabled hc ht hg hsession hstep⟩
    · exact ⟨.guest j (.drop (.ok ())), rfl, rfl, guest_enabled hc ht hg hsession hstep⟩

/-- A write ends when the peer has read, and when the socket fails. -/
theorem Closed.enabled_of_writing {s : Host} {i j : Nat} {c : Connection} (h : s.Closed crypto i)
    (hc : s.server.connections[j]? = some c) (ht : c.task = .minecraft i)
    (hw : s.writing j = true) :
    (s.step crypto (.guest j .receive)).isSome = true ∧
      (s.step crypto (.guest j .stop)).isSome = true := by
  rcases h.place hc ht with ⟨hello, hg⟩ | ⟨k, session, m, hg, hsession, hm, hp⟩
  · simp [writing, hg] at hw
  · have hw' : session.writing k = true := by simpa [writing, hg, hsession] using hw
    obtain ⟨hreceive, hstop⟩ := Session.enabled_of_writing hw'
    exact ⟨guest_enabled hc ht hg hsession hreceive, guest_enabled hc ht hg hsession hstop⟩

end Host

/--
**Nobody stays behind a proxy client that has gone.** When the task of a proxy client has
returned, then in every run from there

* its Minecraft clients take no more steps than they had left, so none of them is a new one, and
* each of them that has not returned can go on by itself, or it has data to write: then it goes on
  when its peer has taken them, and when its socket fails,

whatever the other connections of the server do.
-/
theorem host_shuts_down (crypto : Crypto) {s : Host} (h : (hostMachine crypto).Reachable s)
    {i : Nat} {c : Connection} {result : Except DistributorError Unit}
    (hc : s.server.connections[i]? = some c) (ht : c.task = .finished result)
    (hsession : s.sessions.lookup i ≠ none) :
    ∀ ls s', (hostMachine crypto).run s ls = some s' →
      ((hostMachine crypto).trace (Host.stepsOf i) s ls).length ≤ s.work i ∧
      ∀ j c', s'.server.connections[j]? = some c' → c'.task = .minecraft i →
        (s'.writing j = false →
          ∃ l, s'.isOwn l = true ∧ Host.connectionOf l = j ∧ (s'.step crypto l).isSome = true) ∧
        (s'.writing j = true → (s'.step crypto (.guest j .receive)).isSome = true ∧
          (s'.step crypto (.guest j .stop)).isSome = true) := by
  intro ls s' hrun
  have hclosed : s.Closed crypto i := ⟨Host.reachable_inv h, ⟨c, result, hc, ht⟩, hsession⟩
  obtain ⟨hclosed', hle⟩ := Machine.trace_length_le (m := hostMachine crypto)
    (I := fun s => s.Closed crypto i) (fun s => s.work i)
    (fun s l s' hs hl => hs.step (Host.step_cases hl)) hclosed hrun
  exact ⟨Nat.le_trans (Nat.le_add_right _ _) hle, fun j c' hc' ht' =>
    ⟨hclosed'.enabled hc' ht', hclosed'.enabled_of_writing hc' ht'⟩⟩

/-- A proxy client sends its Minecraft client some data, and loses its connection. -/
def abandoning : List HostEvent :=
  (loggedIn 0 "h").map (fun l => .task l.1 l.2) ++
    [.task 1 .accepted, .task 1 (.next (some (.ok (.MCHello (lookingFor "h"))))), .task 1 .lookup,
      .join 1 (.V4 0 40000), .guest 1 .hello, .loop 0 .take, .loop 0 .take,
      .loop 0 (.packet 0 (.ProxyData ⟨0, ⟨[7]⟩⟩)), .loop 0 .leave, .task 0 .close]

theorem host_shuts_down_abandoning : ∃ s s',
    (hostMachine ⟨fun _ _ _ => true, fun _ => "h"⟩).run .new abandoning = some s ∧
    (∃ c, s.server.connections[1]? = some c ∧ c.task = .minecraft 0) ∧ s.writing 1 = true ∧
    (s.step ⟨fun _ _ _ => true, fun _ => "h"⟩ (.guest 1 .receive)).isSome = true ∧
    (s.step ⟨fun _ _ _ => true, fun _ => "h"⟩ (.guest 1 .stop)).isSome = true ∧
    (hostMachine ⟨fun _ _ _ => true, fun _ => "h"⟩).run s [.guest 1 .receive] = some s' ∧
    s'.writing 1 = false ∧ ∃ l, s'.isOwn l = true ∧ Host.connectionOf l = 1 ∧
      (s'.step ⟨fun _ _ _ => true, fun _ => "h"⟩ l).isSome = true := by
  obtain ⟨s, s', hrun, c₀, hc₀, ht₀, hsession, c, hc, ht, hw, hrun', c', hc', ht', hw'⟩ : ∃ s s',
      (hostMachine ⟨fun _ _ _ => true, fun _ => "h"⟩).run .new abandoning = some s ∧
      ∃ c₀, s.server.connections[0]? = some c₀ ∧ c₀.task = .finished (.ok ()) ∧
        s.sessions.lookup 0 ≠ none ∧
      ∃ c, s.server.connections[1]? = some c ∧ c.task = .minecraft 0 ∧ s.writing 1 = true ∧
      (hostMachine ⟨fun _ _ _ => true, fun _ => "h"⟩).run s [.guest 1 .receive] = some s' ∧
      ∃ c', s'.server.connections[1]? = some c' ∧ c'.task = .minecraft 0 ∧ s'.writing 1 = false :=
    ⟨_, _, rfl, _, rfl, rfl, Option.some_ne_none _, _, rfl, rfl, rfl, rfl, _, rfl, rfl, rfl⟩
  have hdown :=
    host_shuts_down ⟨fun _ _ _ => true, fun _ => "h"⟩ ⟨abandoning, hrun⟩ hc₀ ht₀ hsession
  obtain ⟨hreceive, hstop⟩ := ((hdown [] s rfl).2 1 c hc ht).2 hw
  exact ⟨s, s', hrun, ⟨c, hc, ht⟩, hw, hreceive, hstop, hrun', hw',
    ((hdown [.guest 1 .receive] s' hrun').2 1 c' hc' ht').1 hw'⟩

end CraftIp
