import CraftIp.Properties.Greeting

/-!
# A client logs in

What `Client::connect` and the task of the server have heard of each other fits together at
every moment, although both may fail at any time (`Login.Inv`).

* `connect_ok` — a client that is connected has been registered, as the owner of its key
-/

namespace CraftIp

open Infra

/-! ## What a task reads and sends -/

theorem Task.receivedOf_step {crypto : Crypto} {task task' : Task} {log : List Wire} {e : Event}
    (h : task.step crypto e = some (task', log)) : receivedOf log = e.packets := by
  unfold Task.step at h
  split at h
  case h_10 packet challenge answer =>
    have hlog : receivedOf (readLog answer) = (Event.next answer).packets := by
      unfold readLog
      split
      · rfl
      · next hne =>
        cases answer with
        | none => rfl
        | some answer =>
          cases answer with
          | error e => rfl
          | ok packet => exact absurd rfl (hne packet)
    split at h
    · cases h
      exact hlog
    · cases h
      simpa [reject] using hlog
  all_goals first | (cases h; done) | (cases h; rfl)

/-- The greeting is over: nothing more goes over the wire. -/
def Task.quiet : Task → Bool
  | .greeting _ | .serving _ | .closing _ _ | .finished _ => true
  | _ => false

theorem Task.quiet_step {crypto : Crypto} {task task' : Task} {log : List Wire} {e : Event}
    (hq : task.quiet = true) (h : task.step crypto e = some (task', log)) :
    task'.quiet = true ∧ sentOf log = [] := by
  unfold Task.step at h
  split at h <;> first | (cases hq; done) | (cases h; done) | (cases h; exact ⟨rfl, rfl⟩)

/-- Another connection stays as it is. -/
theorem Server.Step.other {crypto : Crypto} {s s' : Server} {i j : Nat} {e : Event} {c : Connection}
    (h : Server.Step crypto s i e s') (hj : j ≠ i) (hc : s.connections[j]? = some c) :
    s'.connections[j]? = some c := by
  cases h with
  | accepted => exact getElem?_concat_iff.mpr (Or.inl hc)
  | _ => exact (Server.goOn_other _ _ hj).trans hc

/-- What a step is for its own connection. -/
theorem Server.Step.own {crypto : Crypto} {s s' : Server} {i : Nat} {e : Event} {c : Connection}
    (h : Server.Step crypto s i e s') (hc : s.connections[i]? = some c) :
    ∃ task log, s'.connections[i]? = some ⟨task, c.wire ++ log⟩ ∧ receivedOf log = e.packets ∧
      (c.task.quiet = true → task.quiet = true ∧ sentOf log = []) := by
  cases h with
  | accepted => simp at hc
  | @task _ c' _ task log hc' ht =>
    cases hc.symm.trans hc'
    exact ⟨task, log, goOn_self hc _ _, Task.receivedOf_step ht, fun hq => Task.quiet_step hq ht⟩
  | @register _ c' hostname hc' ht =>
    cases hc.symm.trans hc'
    exact ⟨_, _, goOn_self hc _ _, rfl, fun hq => by rw [ht] at hq; cases hq⟩
  | @channelClosed _ c' hostname hc' ht =>
    cases hc.symm.trans hc'
    exact ⟨_, _, goOn_self hc _ _, rfl, fun _ => ⟨rfl, rfl⟩⟩
  | @close _ c' hostname response hc' ht =>
    cases hc.symm.trans hc'
    exact ⟨_, _, goOn_self hc _ _, rfl, fun _ => ⟨rfl, rfl⟩⟩
  | @found _ c' packet proxyTx hc' ht =>
    cases hc.symm.trans hc'
    exact ⟨_, _, goOn_self hc _ _, rfl, fun hq => by rw [ht] at hq; cases hq⟩
  | @notFound _ c' packet hc' ht =>
    cases hc.symm.trans hc'
    exact ⟨_, _, goOn_self hc _ _, rfl, fun _ => ⟨rfl, rfl⟩⟩

theorem Server.wireOf_eq {s : Server} {i : Nat} {c : Connection} (hc : s.connections[i]? = some c) :
    s.wireOf i = c.wire := by
  rw [wireOf, hc]

/-! ## What the client has said and heard -/

section
variable (ring : Ed25519) (config : Gui.Server)

/-- The client has said `ProxyHello`, and has signed this challenge. -/
def Dialing.Signed (challenge : ChallengeDataType) (said : List SocketPacket) : Prop :=
  ∃ packet signature, Client.hello ring config = .ok packet ∧
    (Client.privateKey config).sign ring challenge = .ok signature ∧
    said = [.ProxyHello packet, .ProxyAuthResponse signature]

/-- What has been said and heard when `Client::connect` is where it is. -/
def Dialing.Told (said heard : List SocketPacket) : Dialing → Prop
  | .probing | .dialing => said = [] ∧ heard = []
  | .greeting | .awaiting =>
    ∃ packet, Client.hello ring config = .ok packet ∧ said = [.ProxyHello packet] ∧ heard = []
  | .answering | .choosing =>
    ∃ challenge, Signed ring config challenge said ∧ heard = [.ProxyAuthRequest challenge]
  | .reporting | .done (.ok ()) =>
    ∃ challenge v, Signed ring config challenge said ∧
      heard = [.ProxyAuthRequest challenge, .ProxyHelloResponse v]
  | .done (.error _) | .panicked => True

end

theorem Dialing.Told.step {ring : Ed25519} {config : Gui.Server} {d d' : Dialing} {e : DialEvent}
    {said heard packets : List SocketPacket} (hd : d.Told ring config said heard)
    (h : d.step ring config e = some (d', packets)) :
    d'.Told ring config (said ++ packets) (heard ++ e.packets) := by
  unfold Dialing.step at h
  split at h
  · cases h
    simpa [Told, DialEvent.packets] using hd
  · cases h; trivial
  · obtain ⟨rfl, rfl⟩ := hd
    split at h
    · next packet hhello => cases h; exact ⟨packet, hhello, rfl, rfl⟩
    · cases h; trivial
  · cases h; trivial
  · cases h
    simpa [Told, DialEvent.packets] using hd
  · cases h; trivial
  · next challenge =>
    obtain ⟨packet, hhello, rfl, rfl⟩ := hd
    split at h
    · next signature hsign => cases h; exact ⟨challenge, ⟨packet, signature, hhello, hsign, rfl⟩, rfl⟩
    · cases h; trivial
  · cases h; trivial
  · cases h; trivial
  · cases h
    simpa [Told, DialEvent.packets] using hd
  · cases h; trivial
  · next v =>
    cases h
    obtain ⟨challenge, hsigned, rfl⟩ := hd
    exact ⟨challenge, v, by simpa using hsigned, rfl⟩
  · cases h; trivial
  · cases h; trivial
  · cases h; trivial
  · cases h; trivial
  · cases h; trivial
  · cases h
    simpa [Told, DialEvent.packets] using hd
  · cases h; trivial
  · cases h

/-! ## The steps one by one -/

section
variable {ring : Ed25519} {getHostname : ServerPublicKey → String} {config : Gui.Server}

/-- What can happen to a client that logs in. -/
inductive Login.Step (ring : Ed25519) (getHostname : ServerPublicKey → String)
    (config : Gui.Server) (s : Login) : LoginEvent → Login → Prop
  | other {i e server} (hi : s.connection ≠ some i)
      (h : s.server.step (crypto ring getHostname) (i, e) = some server) :
      Step ring getHostname config s (.other i e) { s with server := server }
  | own {i e server} (hi : s.connection = some i) (he : e.packets = [])
      (h : s.server.step (crypto ring getHostname) (i, e) = some server) :
      Step ring getHostname config s (.own e)
        { s with server := server, toClient := s.toClient ++ sentSince s.server server i }
  | receive {i packet rest server} (hi : s.connection = some i) (hq : s.toServer = packet :: rest)
      (h : s.server.step (crypto ring getHostname) (i, .next (some (.ok packet))) = some server) :
      Step ring getHostname config s .receive
        { s with server := server, toServer := rest,
                 toClient := s.toClient ++ sentSince s.server server i }
  | loop {i packet c hostname} (hi : s.connection = some i)
      (hc : s.server.connections[i]? = some c) (ht : c.task = .serving hostname) :
      Step ring getHostname config s (.loop packet) { s with toClient := s.toClient ++ [packet] }
  | dial {e d packets} (he : e.packets = []) (hd : s.dialing = .dialing → e ≠ .connected (.ok ()))
      (h : s.dialing.step ring config e = some (d, packets)) :
      Step ring getHostname config s (.dial e)
        { s with dialing := d, toServer := s.toServer ++ packets }
  | accept {d packets server} (hd : s.dialing = .dialing)
      (hs : s.server.step (crypto ring getHostname) (s.server.connections.length, .accepted)
        = some server)
      (h : s.dialing.step ring config (.connected (.ok ())) = some (d, packets)) :
      Step ring getHostname config s (.dial (.connected (.ok ())))
        { s with server := server, connection := some s.server.connections.length, dialing := d,
                 toServer := s.toServer ++ packets }
  | reply {packet rest d packets} (hq : s.toClient = packet :: rest)
      (h : s.dialing.step ring config (.next (some (.ok packet))) = some (d, packets)) :
      Step ring getHostname config s .reply
        { s with dialing := d, toServer := s.toServer ++ packets, toClient := rest }

theorem Login.step_cases {s s' : Login} {l : LoginEvent}
    (h : s.step ring getHostname config l = some s') : Step ring getHostname config s l s' := by
  cases l with
  | other i e =>
    simp only [Login.step] at h
    split at h
    · cases h
    · next hi =>
      obtain ⟨server, hs, rfl⟩ := Option.map_eq_some_iff.mp h
      exact .other hi hs
  | own e =>
    obtain ⟨i, hi, h⟩ := Option.bind_eq_some_iff.mp h
    split at h
    · next he =>
      obtain ⟨server, hs, h⟩ := Option.bind_eq_some_iff.mp h
      cases h
      exact .own hi he hs
    · cases h
  | receive =>
    obtain ⟨i, hi, h⟩ := Option.bind_eq_some_iff.mp h
    split at h
    · next packet rest hq =>
      obtain ⟨server, hs, h⟩ := Option.bind_eq_some_iff.mp h
      cases h
      exact .receive hi hq hs
    · cases h
  | loop packet =>
    obtain ⟨i, hi, h⟩ := Option.bind_eq_some_iff.mp h
    obtain ⟨c, hc, h⟩ := Option.bind_eq_some_iff.mp h
    split at h
    · next ht => cases h; exact .loop hi hc ht
    · cases h
  | dial e =>
    simp only [Login.step] at h
    split at h
    · next he =>
      split at h
      · next hd =>
        obtain ⟨t, ht, h⟩ := Option.bind_eq_some_iff.mp h
        obtain ⟨server, hs, ht⟩ := Option.bind_eq_some_iff.mp ht
        cases ht
        obtain ⟨⟨d, packets⟩, hstep, h⟩ := Option.bind_eq_some_iff.mp h
        cases h
        exact .accept hd hs hstep
      · next hne =>
        obtain ⟨⟨d, packets⟩, hstep, h⟩ := Option.bind_eq_some_iff.mp h
        cases h
        exact .dial he (fun hd he => hne hd he) hstep
    · cases h
  | reply =>
    simp only [Login.step] at h
    split at h
    · next packet rest hq =>
      obtain ⟨⟨d, packets⟩, hstep, h⟩ := Option.bind_eq_some_iff.mp h
      cases h
      exact .reply hq hstep
    · cases h

/-! ## What the two have heard of each other -/

/-- The client has yet to connect to the proxy. -/
def Dialing.early : Dialing → Prop
  | .probing | .dialing => True
  | _ => False

/-- The client is not connected to the proxy, or gave up before. -/
def Dialing.offline : Dialing → Prop
  | .probing | .dialing | .done (.error _) => True
  | _ => False

/--
What the client has said was heard or is on its way, and so is what the task has said. Behind
the greeting the loop may have said more.
-/
def Login.Joined (ring : Ed25519) (config : Gui.Server) (s : Login) (c : Connection) : Prop :=
  ∃ heard loop, s.dialing.Told ring config (receivedOf c.wire ++ s.toServer) heard ∧
    heard ++ s.toClient = sentOf c.wire ++ loop ∧
    (loop ≠ [] → c.task.quiet = true ∧ ∃ v, .ProxyHelloResponse v ∈ sentOf c.wire)

/-- The two ends fit together. -/
structure Login.Inv (ring : Ed25519) (getHostname : ServerPublicKey → String) (config : Gui.Server)
    (s : Login) : Prop where
  server : (serverMachine (crypto ring getHostname)).Reachable s.server
  early : s.dialing.early → s.connection = none
  offline : s.connection = none → s.dialing.offline ∧ s.toServer = [] ∧ s.toClient = []
  online : ∀ i, s.connection = some i →
    ∃ c, s.server.connections[i]? = some c ∧ s.Joined ring config c

theorem Login.sentSince_eq {s server : Server} {i : Nat} {c : Connection} {task : Task}
    {log : List Wire} (hc : s.connections[i]? = some c)
    (hc' : server.connections[i]? = some ⟨task, c.wire ++ log⟩) :
    sentSince s server i = sentOf log := by
  rw [sentSince, Server.wireOf_eq hc, Server.wireOf_eq hc', sentOf_append, List.drop_left]

/-- The task of the connection goes on, and has read the packets `read`. -/
theorem Login.Joined.onTask {s : Login} {i : Nat} {c : Connection} {e : Event} {server : Server}
    {rest : List SocketPacket} (h : s.Joined ring config c)
    (hc : s.server.connections[i]? = some c) (hq : s.toServer = e.packets ++ rest)
    (hs : s.server.step (crypto ring getHostname) (i, e) = some server) :
    ∃ c', server.connections[i]? = some c' ∧
      Joined ring config { s with server := server, toServer := rest,
                                  toClient := s.toClient ++ sentSince s.server server i } c' := by
  obtain ⟨task, log, hc', hread, hquiet⟩ := (Server.step_cases hs).own hc
  obtain ⟨heard, loop, htold, hheard, hloop⟩ := h
  refine ⟨_, hc', heard, loop, ?_, ?_, ?_⟩
  · show s.dialing.Told ring config (receivedOf (c.wire ++ log) ++ rest) heard
    rw [receivedOf_append, hread, List.append_assoc, ← hq]
    exact htold
  · show heard ++ (s.toClient ++ sentSince s.server server i) = sentOf (c.wire ++ log) ++ loop
    rw [sentSince_eq hc hc', ← List.append_assoc, hheard, sentOf_append]
    -- behind the greeting the task says nothing, so the loop stays last
    rcases List.eq_nil_or_concat loop with rfl | ⟨_, _, rfl⟩
    · simp
    · rw [(hquiet (hloop (by simp)).1).2]
      simp
  · rintro hne
    obtain ⟨hq, v, hv⟩ := hloop hne
    exact ⟨(hquiet hq).1, v, by simp [hv]⟩

/-- `Client::connect` goes on, and has read the packets of `e`. -/
theorem Login.Joined.onDial {s : Login} {c : Connection} {e : DialEvent} {d : Dialing}
    {packets rest : List SocketPacket} (h : s.Joined ring config c)
    (hq : s.toClient = e.packets ++ rest) (hd : s.dialing.step ring config e = some (d, packets)) :
    Joined ring config { s with dialing := d, toServer := s.toServer ++ packets, toClient := rest }
      c := by
  obtain ⟨heard, loop, htold, hheard, hloop⟩ := h
  refine ⟨heard ++ e.packets, loop, ?_, ?_, hloop⟩
  · show d.Told ring config (receivedOf c.wire ++ (s.toServer ++ packets)) (heard ++ e.packets)
    rw [← List.append_assoc]
    exact htold.step hd
  · show heard ++ e.packets ++ rest = sentOf c.wire ++ loop
    rw [List.append_assoc, ← hq, hheard]

theorem Server.reachable_step {crypto : Crypto} {s s' : Server} {l : Nat × Event}
    (h : (serverMachine crypto).Reachable s) (hl : s.step crypto l = some s') :
    (serverMachine crypto).Reachable s' := h.step hl

/-- An accepted connection has heard nothing and said nothing. -/
theorem Server.accepted_new {crypto : Crypto} {s s' : Server}
    (h : s.step crypto (s.connections.length, .accepted) = some s') :
    s'.connections[s.connections.length]? = some ⟨.reading, []⟩ := by
  cases Server.step_cases h with
  | accepted => simp
  | task hc _ => simp at hc

theorem Login.Inv.new : (Login.new).Inv ring getHostname config where
  server := .init _
  early _ := rfl
  offline _ := ⟨trivial, rfl, rfl⟩
  online i hi := by cases hi

theorem Dialing.early_step {d d' : Dialing} {e : DialEvent} {packets : List SocketPacket}
    (hd : d'.early) (h : d.step ring config e = some (d', packets)) : d.early := by
  unfold Dialing.step at h
  split at h
  case h_1 => trivial
  case h_3 | h_7 => split at h <;> (cases h; cases hd)
  all_goals first | (cases h; done) | (cases h; cases hd)

/-- Before the proxy is dialed, nothing is said. -/
theorem Dialing.offline_step {d d' : Dialing} {e : DialEvent} {packets : List SocketPacket}
    (hd : d.offline) (hne : d = .dialing → e ≠ .connected (.ok ()))
    (h : d.step ring config e = some (d', packets)) : d'.offline ∧ packets = [] := by
  unfold Dialing.step at h
  split at h <;> first | (cases hd; done) | (cases h; done) | skip
  case h_3 => exact absurd rfl (hne rfl)
  all_goals (cases h; exact ⟨trivial, rfl⟩)

/-- An open connection goes on, and the client is where it was. -/
theorem Login.Inv.online_step {s s' : Login} (hs : s.Inv ring getHostname config)
    (hserver : (serverMachine (crypto ring getHostname)).Reachable s'.server)
    (hdialing : s'.dialing = s.dialing) (hconn : s'.connection = s.connection) {i : Nat}
    (hi : s.connection = some i)
    (hjoined : ∃ c, s'.server.connections[i]? = some c ∧ s'.Joined ring config c) :
    s'.Inv ring getHostname config := by
  refine ⟨hserver, ?_, ?_, ?_⟩
  · intro hearly
    rw [hdialing] at hearly
    cases hi.symm.trans (hs.early hearly)
  · intro hnone
    cases hi.symm.trans (hconn.symm.trans hnone)
  · intro j hj
    cases hi.symm.trans (hconn.symm.trans hj)
    exact hjoined

theorem Login.Inv.step {s s' : Login} {l : LoginEvent} (hs : s.Inv ring getHostname config)
    (h : Step ring getHostname config s l s') : s'.Inv ring getHostname config := by
  cases h with
  | @other i e server hi hstep =>
    refine ⟨Server.reachable_step hs.server hstep, hs.early, hs.offline, ?_⟩
    intro j hj
    obtain ⟨c, hc, hjoined⟩ := hs.online j hj
    have hij : j ≠ i := fun heq => hi (heq ▸ hj)
    exact ⟨c, (Server.step_cases hstep).other hij hc, hjoined⟩
  | @own i e server hi he hstep =>
    obtain ⟨c, hc, hjoined⟩ := hs.online i hi
    exact hs.online_step (Server.reachable_step hs.server hstep) rfl rfl hi
      (hjoined.onTask hc (by rw [he]; rfl) hstep)
  | @receive i packet rest server hi hq hstep =>
    obtain ⟨c, hc, hjoined⟩ := hs.online i hi
    exact hs.online_step (Server.reachable_step hs.server hstep) rfl rfl hi
      (hjoined.onTask (e := .next (some (.ok packet))) hc hq hstep)
  | @loop i packet c hostname hi hc ht =>
    obtain ⟨c', hc', heard, loop, htold, hheard, hloop⟩ := hs.online i hi
    cases hc.symm.trans hc'
    refine hs.online_step hs.server rfl rfl hi ⟨c, hc, heard, loop ++ [packet], htold, ?_, ?_⟩
    · show heard ++ (s.toClient ++ [packet]) = sentOf c.wire ++ (loop ++ [packet])
      rw [← List.append_assoc, hheard, List.append_assoc]
    · intro _
      -- the task is in the loop, so it has greeted
      have hin := Server.reachable_told hs.server i c hc
      rw [ht] at hin ⊢
      rcases hin with ⟨-, challenge, v, hsaid, -⟩ | ⟨-, challenge, v, hsaid⟩
      · exact ⟨rfl, v, by simp [hsaid]⟩
      · exact ⟨rfl, v, by simp [hsaid]⟩
  | @dial e d packets he hd hstep =>
    refine ⟨hs.server, fun hearly => hs.early (Dialing.early_step hearly hstep), ?_, ?_⟩
    · intro hnone
      obtain ⟨hoff, hto, hfrom⟩ := hs.offline hnone
      obtain ⟨hoff', rfl⟩ := Dialing.offline_step hoff hd hstep
      exact ⟨hoff', by simpa using hto, hfrom⟩
    · intro i hi
      obtain ⟨c, hc, hjoined⟩ := hs.online i hi
      exact ⟨c, hc, hjoined.onDial (by rw [he]; rfl) hstep⟩
  | @accept d packets server hd hstep hdial =>
    have hnone := hs.early (by rw [hd]; trivial)
    obtain ⟨-, hto, hfrom⟩ := hs.offline hnone
    have hnew := Server.accepted_new hstep
    have htold : d.Told ring config packets [] := by
      have hstart : s.dialing.Told ring config [] [] := by
        rw [hd]
        exact ⟨rfl, rfl⟩
      simpa [DialEvent.packets] using hstart.step hdial
    refine ⟨Server.reachable_step hs.server hstep, ?_, fun hnone => (by cases hnone), ?_⟩
    · intro hearly
      simp only [hd, Dialing.step] at hdial
      split at hdial <;> (cases hdial; cases hearly)
    · rintro i ⟨⟩
      refine ⟨_, hnew, [], [], ?_, ?_, fun hne => absurd rfl hne⟩
      · show d.Told ring config (receivedOf [] ++ (s.toServer ++ packets)) []
        rw [hto]
        exact htold
      · show [] ++ s.toClient = _
        rw [hfrom]
        rfl
  | @reply packet rest d packets hq hstep =>
    refine ⟨hs.server, fun hearly => hs.early (Dialing.early_step hearly hstep), ?_, ?_⟩
    · intro hnone
      obtain ⟨-, -, hfrom⟩ := hs.offline hnone
      cases hq.symm.trans hfrom
    · intro i hi
      obtain ⟨c, hc, hjoined⟩ := hs.online i hi
      exact ⟨c, hc, hjoined.onDial (e := .next (some (.ok packet))) hq hstep⟩

theorem Login.reachable_inv {s : Login}
    (h : (loginMachine ring getHostname config).Reachable s) : s.Inv ring getHostname config :=
  h.invariant .new fun _ _ _ hs hl => hs.step (step_cases hl)

/-! ## A client that is connected -/

/-- A greeting that comes right behind the challenge. -/
theorem Server.greeted_of_prefix {crypto : Crypto} {registered : String → Prop}
    {heard said loop rest : List SocketPacket} {challenge : ChallengeDataType}
    {v : ProxyConnectedResponse} (h : Words crypto registered heard said)
    (hloop : loop ≠ [] → ∃ v, .ProxyHelloResponse v ∈ said)
    (heq : .ProxyAuthRequest challenge :: .ProxyHelloResponse v :: rest = said ++ loop) :
    ∃ hostname, registered hostname ∧ .ProxyAuthRequest challenge ∈ said ∧
      Proved crypto hostname challenge heard := by
  -- a word without a greeting is followed by nothing, and is too short or another one
  have hnone (hn : ∀ v, .ProxyHelloResponse v ∉ said) :
      said = .ProxyAuthRequest challenge :: .ProxyHelloResponse v :: rest := by
    have hnil : loop = [] := by
      by_contra hne
      obtain ⟨v, hv⟩ := hloop hne
      exact hn v hv
    rw [hnil, List.append_nil] at heq
    exact heq.symm
  rcases h with rfl | (⟨m, rfl⟩ | ⟨c, m, rfl⟩) | ⟨c, rfl⟩ | ⟨hostname, h⟩
  · cases hnone (by simp)
  · cases hnone (by simp)
  · cases hnone (by simp)
  · cases hnone (by simp)
  · rcases h with ⟨hreg, c, v', rfl, hproved⟩ | ⟨-, c, v', rfl⟩
    · cases heq
      exact ⟨hostname, hreg, by simp, hproved⟩
    · cases heq

/-- What is known when the client is connected. -/
theorem Login.Inv.done {s : Login} (hs : s.Inv ring getHostname config)
    (hdone : s.dialing = .done (.ok ())) :
    ∃ i c publicKey challenge, s.connection = some i ∧ s.server.connections[i]? = some c ∧
      (i, config.server) ∈ s.server.history ∧
      (Client.privateKey config).getPublicKey ring = .ok publicKey ∧
      getHostname publicKey = config.server ∧ .ProxyAuthRequest challenge ∈ sentOf c.wire ∧
      Proved (crypto ring getHostname) config.server challenge (receivedOf c.wire) := by
  rcases Option.eq_none_or_eq_some s.connection with hnone | ⟨i, hi⟩
  · have hoff := (hs.offline hnone).1
    rw [hdone] at hoff
    cases hoff
  · obtain ⟨c, hc, heard, loop, htold, hheard, hloop⟩ := hs.online i hi
    rw [hdone] at htold
    obtain ⟨challenge, v, ⟨packet, signature, hhello, -, hsaid⟩, rfl⟩ := htold
    obtain ⟨hostname, hreg, hsent, hproved⟩ :=
      Server.greeted_of_prefix (Server.reachable_told hs.server i c hc).words
        (fun hne => (hloop hne).2) hheard
    obtain ⟨hello, key, response, hauth, hhost, hmem, -, -, hname⟩ := id hproved
    -- what the task has heard is what the client has said
    have hin : SocketPacket.ProxyHello hello ∈ receivedOf c.wire ++ s.toServer :=
      List.mem_append_left _ hmem
    rw [hsaid] at hin
    have heq : hello = packet := by simpa using hin
    subst heq
    unfold Client.hello at hhello
    cases hpub : (Client.privateKey config).getPublicKey ring with
    | error e =>
      rw [hpub] at hhello
      cases hhello
    | ok publicKey =>
      rw [hpub] at hhello
      cases hhello
      cases hauth
      cases hhost
      exact ⟨i, c, _, challenge, hi, hc, hreg, rfl, hname, hsent, hproved⟩

/--
**A client that is connected has been registered**, under the hostname of its `Server`, which
is the hostname of its key, and the task has checked a signature of the challenge it sent.

This is so in every run, with any other connections, and also when a time runs out.
-/
theorem connect_ok {s : Login} (h : (loginMachine ring getHostname config).Reachable s)
    (hdone : s.dialing = .done (.ok ())) :
    ∃ i c publicKey challenge, s.connection = some i ∧ s.server.connections[i]? = some c ∧
      (i, config.server) ∈ s.server.history ∧
      (Client.privateKey config).getPublicKey ring = .ok publicKey ∧
      getHostname publicKey = config.server ∧ .ProxyAuthRequest challenge ∈ sentOf c.wire ∧
      Proved (Login.crypto ring getHostname) config.server challenge (receivedOf c.wire) :=
  (Login.reachable_inv h).done hdone

/-- One key pair, which signs everything alike. -/
def plainRing : Ed25519 where
  KeyPair := Unit
  fromPkcs8 _ := some ()
  publicKey _ := .replicate 32 0
  sign _ _ := .replicate 64 0
  verify key _ signature := key == .replicate 32 0 && signature == .replicate 64 0

/-- A server with this hostname. -/
def serverFor (hostname : String) : Gui.Server :=
  { server := hostname, localAddr := "localhost:25565", auth := .Key (.replicate 83 0) }

/-- Up to the signature. -/
def signing : List LoginEvent :=
  [.dial (.connected (.ok ())), .dial (.connected (.ok ())), .dial (.flushed (.ok ())), .receive,
    .own (.challenge (some (.replicate 64 0))), .own (.flushed (.ok ())), .reply]

/-- Up to a connected client. -/
def connecting : List LoginEvent :=
  signing ++ [.dial (.flushed (.ok ())), .receive, .own .register, .reply, .dial (.reported (.ok ()))]

theorem connect_ok_run : ∃ s,
    (loginMachine plainRing (fun _ => "h") (serverFor "h")).Reachable s ∧
    s.dialing = .done (.ok ()) ∧ ∃ i, s.connection = some i ∧ (i, "h") ∈ s.server.history := by
  have hrun : ∃ s, (loginMachine plainRing (fun _ => "h") (serverFor "h")).run .new connecting
      = some s ∧ s.dialing = .done (.ok ()) := ⟨_, rfl, rfl⟩
  obtain ⟨s, hrun, hdone⟩ := hrun
  obtain ⟨i, c, publicKey, challenge, hi, -, hreg, -⟩ := connect_ok ⟨connecting, hrun⟩ hdone
  exact ⟨s, ⟨connecting, hrun⟩, hdone, i, hi, hreg⟩

end

end CraftIp
