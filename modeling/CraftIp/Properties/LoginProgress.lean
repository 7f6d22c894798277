import CraftIp.Infra.Progress
import CraftIp.Properties.Login

/-!
# Logging in ends well

When the connection holds and the time suffices, a client with the hostname of its key is
never refused. Wherever the two stand, what remains to be done can be done, whatever the other
connections have done before.

* `Login.Calm` — what holds at every moment of such a run
* `login_completes` — a run of twelve steps at most leads to a connected client
-/

namespace CraftIp

open Infra

/-! ## The task of the server -/

/-- What has been heard and said, when the client has said `packet` and all went well. -/
def Task.Smooth (packet : ProxyHelloPacket) (heard said : List SocketPacket) : Task → Prop
  | .reading => heard = [] ∧ said = []
  | .challenging p => p = packet ∧ heard = [.ProxyHello packet] ∧ said = []
  | .requesting p challenge | .awaiting p challenge =>
    p = packet ∧ heard = [.ProxyHello packet] ∧ said = [.ProxyAuthRequest challenge]
  | .entering _ => ∃ challenge, said = [.ProxyAuthRequest challenge]
  | .greeting _ | .serving _ | .closing _ _ | .finished _ =>
    ∃ challenge v, said = [.ProxyAuthRequest challenge, .ProxyHelloResponse v]
  | _ => False

/-- What the task waits for comes as it should. -/
def Task.Right (crypto : Crypto) (packet : ProxyHelloPacket) (task : Task) (e : Event) : Prop :=
  match e with
  | .next answer =>
    (task = .reading → answer = some (.ok (.ProxyHello packet))) ∧
      ∀ p challenge, task = .awaiting p challenge →
        ProxyClient.checkResponse crypto p challenge answer = .ok ()
  | e => (LoginEvent.own e).calm = true

theorem Task.Smooth.step {crypto : Crypto} {packet : ProxyHelloPacket} {task task' : Task}
    {heard said : List SocketPacket} {log : List Wire} {e : Event}
    (hs : task.Smooth packet heard said) (he : task.Right crypto packet e)
    (h : task.step crypto e = some (task', log)) :
    task'.Smooth packet (heard ++ receivedOf log) (said ++ sentOf log) := by
  unfold Task.step at h
  split at h
  · cases h
    cases he.1 rfl
    obtain ⟨rfl, rfl⟩ := hs
    exact ⟨rfl, rfl, rfl⟩
  · cases he.1 rfl
  · cases he.1 rfl
  · cases h
    obtain ⟨rfl, rfl, rfl⟩ := hs
    exact ⟨rfl, rfl, rfl⟩
  · cases he
  · cases he
  · cases h
    obtain ⟨rfl, rfl, rfl⟩ := hs
    exact ⟨rfl, rfl, rfl⟩
  · cases he
  · cases he
  · next p challenge answer =>
    split at h
    · cases h
      obtain ⟨rfl, rfl, rfl⟩ := hs
      exact ⟨challenge, by simp⟩
    · next e hcheck =>
      have hok := he.2 p challenge rfl
      rw [hok] at hcheck
      cases hcheck
  · cases he
  · cases hs
  · cases hs
  · cases hs
  · cases hs
  · cases h
    obtain ⟨challenge, v, rfl⟩ := hs
    exact ⟨challenge, v, rfl⟩
  · cases he
  · cases h
    obtain ⟨challenge, v, rfl⟩ := hs
    exact ⟨challenge, v, rfl⟩
  · cases hs
  · cases h

theorem Task.right_of_calm {crypto : Crypto} {packet : ProxyHelloPacket} {task : Task} {e : Event}
    (he : (LoginEvent.own e).calm = true) : task.Right crypto packet e := by
  cases e with
  | next answer => cases he
  | _ => exact he

/-- The words of a task that has not failed. -/
theorem Task.Smooth.said {packet : ProxyHelloPacket} {task : Task} {heard said : List SocketPacket}
    (h : task.Smooth packet heard said) :
    said = [] ∨ (∃ challenge, said = [.ProxyAuthRequest challenge]) ∨
      ∃ challenge v, said = [.ProxyAuthRequest challenge, .ProxyHelloResponse v] := by
  cases task with
  | reading => exact Or.inl h.2
  | challenging p => exact Or.inl h.2.2
  | requesting p challenge => exact Or.inr (Or.inl ⟨challenge, h.2.2⟩)
  | awaiting p challenge => exact Or.inr (Or.inl ⟨challenge, h.2.2⟩)
  | entering hostname => exact Or.inr (Or.inl h)
  | greeting hostname => exact Or.inr (Or.inr h)
  | serving hostname => exact Or.inr (Or.inr h)
  | closing hostname response => exact Or.inr (Or.inr h)
  | finished result => exact Or.inr (Or.inr h)
  | _ => cases h

theorem Server.Step.smooth {crypto : Crypto} {packet : ProxyHelloPacket} {s s' : Server} {i : Nat}
    {e : Event} {c : Connection} (h : Server.Step crypto s i e s')
    (hc : s.connections[i]? = some c)
    (hs : c.task.Smooth packet (receivedOf c.wire) (sentOf c.wire))
    (he : c.task.Right crypto packet e) :
    ∃ c', s'.connections[i]? = some c' ∧
      c'.task.Smooth packet (receivedOf c'.wire) (sentOf c'.wire) := by
  cases h with
  | accepted => simp at hc
  | @task _ c' _ task log hc' ht =>
    cases hc.symm.trans hc'
    exact ⟨_, goOn_self hc _ _, by simpa using hs.step he ht⟩
  | @register _ c' hostname hc' ht =>
    cases hc.symm.trans hc'
    rw [ht] at hs
    obtain ⟨challenge, hsaid⟩ := hs
    exact ⟨_, goOn_self hc _ _, challenge, ⟨PROTOCOL_VERSION⟩, by simp [hsaid]⟩
  | @channelClosed _ c' hostname hc' ht =>
    cases hc.symm.trans hc'
    rw [ht] at hs
    obtain ⟨challenge, v, hsaid⟩ := hs
    exact ⟨_, goOn_self hc _ _, challenge, v, by simp [hsaid]⟩
  | @close _ c' hostname response hc' ht =>
    cases hc.symm.trans hc'
    rw [ht] at hs
    obtain ⟨challenge, v, hsaid⟩ := hs
    exact ⟨_, goOn_self hc _ _, challenge, v, by simp [hsaid]⟩
  | @found _ c' p proxyTx hc' ht =>
    cases hc.symm.trans hc'
    rw [ht] at hs
    cases hs
  | @notFound _ c' p hc' ht =>
    cases hc.symm.trans hc'
    rw [ht] at hs
    cases hs

/-! ## The client -/

/-- `Client::connect` has not failed. -/
def Dialing.fine : Dialing → Prop
  | .done (.error _) | .panicked => False
  | _ => True

/-- Where nothing went wrong, the client has said nothing, or `packet`, or has signed as well. -/
theorem Dialing.Told.said {ring : Ed25519} {config : Gui.Server} {d : Dialing}
    {packet : ProxyHelloPacket} {said heard : List SocketPacket}
    (hhello : Client.hello ring config = .ok packet) (hd : d.fine)
    (h : d.Told ring config said heard) :
    said = [] ∨ said = [.ProxyHello packet] ∨ ∃ challenge signature rest,
      (Client.privateKey config).sign ring challenge = .ok signature ∧
      said = [.ProxyHello packet, .ProxyAuthResponse signature] ∧
      heard = .ProxyAuthRequest challenge :: rest := by
  have hsigned {challenge : ChallengeDataType} {rest : List SocketPacket}
      (hs : Dialing.Signed ring config challenge said)
      (hheard : heard = .ProxyAuthRequest challenge :: rest) :
      ∃ challenge signature rest, (Client.privateKey config).sign ring challenge = .ok signature ∧
        said = [.ProxyHello packet, .ProxyAuthResponse signature] ∧
        heard = .ProxyAuthRequest challenge :: rest := by
    obtain ⟨p, signature, hp, hsign, hsaid⟩ := hs
    cases hhello.symm.trans hp
    exact ⟨challenge, signature, rest, hsign, hsaid, hheard⟩
  cases d with
  | probing => exact Or.inl h.1
  | dialing => exact Or.inl h.1
  | greeting =>
    obtain ⟨p, hp, hsaid, -⟩ := h
    cases hhello.symm.trans hp
    exact Or.inr (Or.inl hsaid)
  | awaiting =>
    obtain ⟨p, hp, hsaid, -⟩ := h
    cases hhello.symm.trans hp
    exact Or.inr (Or.inl hsaid)
  | answering =>
    obtain ⟨challenge, hs, hheard⟩ := h
    exact Or.inr (Or.inr (hsigned hs hheard))
  | choosing =>
    obtain ⟨challenge, hs, hheard⟩ := h
    exact Or.inr (Or.inr (hsigned hs hheard))
  | reporting =>
    obtain ⟨challenge, v, hs, hheard⟩ := h
    exact Or.inr (Or.inr (hsigned hs hheard))
  | done result =>
    cases result with
    | ok _ =>
      obtain ⟨challenge, v, hs, hheard⟩ := h
      exact Or.inr (Or.inr (hsigned hs hheard))
    | error e => cases hd
  | panicked => cases hd

/-- Without a packet, nothing goes wrong when nothing from outside does. -/
theorem Dialing.fine_step {ring : Ed25519} {config : Gui.Server} {d d' : Dialing} {e : DialEvent}
    {packet : ProxyHelloPacket} {packets : List SocketPacket}
    (hhello : Client.hello ring config = .ok packet) (hd : d.fine)
    (he : (LoginEvent.dial e).calm = true) (h : d.step ring config e = some (d', packets)) :
    d'.fine := by
  unfold Dialing.step at h
  split at h <;> first | (cases he; done) | (cases hd; done) | (cases h; done) | skip
  case h_3 =>
    rw [hhello] at h
    cases h
    trivial
  all_goals (cases h; trivial)

/-- How many steps of `Client::connect` are left. -/
def Dialing.rank : Dialing → Nat
  | .probing => 7
  | .dialing => 6
  | .greeting => 5
  | .awaiting => 4
  | .answering => 3
  | .choosing => 2
  | .reporting => 1
  | .done _ | .panicked => 0

/-- The right packet leads on. -/
theorem Dialing.step_next {ring : Ed25519} {config : Gui.Server} {d : Dialing}
    {packet : SocketPacket}
    (hsign : ∀ challenge, ∃ signature,
      (Client.privateKey config).sign ring challenge = .ok signature)
    (hd : (d = .awaiting ∧ ∃ challenge, packet = .ProxyAuthRequest challenge) ∨
      (d = .choosing ∧ ∃ v, packet = .ProxyHelloResponse v)) :
    ∃ d' packets, d.step ring config (.next (some (.ok packet))) = some (d', packets) ∧ d'.fine ∧
      d'.rank < d.rank := by
  rcases hd with ⟨rfl, challenge, rfl⟩ | ⟨rfl, v, rfl⟩
  · obtain ⟨signature, hsign⟩ := hsign challenge
    refine ⟨.answering, [.ProxyAuthResponse signature], ?_, trivial, by decide⟩
    simp [Dialing.step, hsign]
  · exact ⟨.reporting, [], rfl, trivial, by decide⟩

/-- A packet is awaited nowhere else. -/
theorem Dialing.waits_of_next {ring : Ed25519} {config : Gui.Server} {d d' : Dialing}
    {answer : Option (Except String SocketPacket)} {packets : List SocketPacket}
    (h : d.step ring config (.next answer) = some (d', packets)) :
    d = .awaiting ∨ d = .choosing := by
  cases d with
  | awaiting => exact Or.inl rfl
  | choosing => exact Or.inr rfl
  | _ => simp [Dialing.step] at h

/-! ## Both together -/

section
variable {ring : Ed25519} {getHostname : ServerPublicKey → String} {config : Gui.Server}
  {publicKey : ServerPublicKey}

/-- The first packet of the client. -/
def proxyHelloOf (config : Gui.Server) (publicKey : ServerPublicKey) : ProxyHelloPacket :=
  { version := PROTOCOL_VERSION, hostname := config.server, auth := .PublicKey publicKey }

theorem hello_eq (hkey : (Client.privateKey config).getPublicKey ring = .ok publicKey) :
    Client.hello ring config = .ok (proxyHelloOf config publicKey) := by
  rw [Client.hello, hkey]
  rfl

/-- Nothing has gone wrong. -/
structure Login.Calm (ring : Ed25519) (getHostname : ServerPublicKey → String)
    (config : Gui.Server) (publicKey : ServerPublicKey) (s : Login) : Prop where
  inv : s.Inv ring getHostname config
  fine : s.dialing.fine
  smooth : ∀ i c, s.connection = some i → s.server.connections[i]? = some c →
    c.task.Smooth (proxyHelloOf config publicKey) (receivedOf c.wire) (sentOf c.wire)

/-- What the client hears next is what the task has said. -/
theorem Login.Joined.next {s : Login} {c : Connection} {packet : SocketPacket}
    {rest : List SocketPacket} (h : s.Joined ring config c) (hq : s.toClient = packet :: rest)
    (hs : c.task.Smooth (proxyHelloOf config publicKey) (receivedOf c.wire) (sentOf c.wire))
    (hd : s.dialing = .awaiting ∨ s.dialing = .choosing) :
    (s.dialing = .awaiting ∧ ∃ challenge, packet = .ProxyAuthRequest challenge) ∨
      (s.dialing = .choosing ∧ ∃ v, packet = .ProxyHelloResponse v) := by
  obtain ⟨heard, loop, htold, hheard, hloop⟩ := h
  rw [hq] at hheard
  -- the loop is behind a greeting
  have hnil (hn : ∀ v, .ProxyHelloResponse v ∉ sentOf c.wire) : loop = [] := by
    by_contra hne
    obtain ⟨v, hv⟩ := (hloop hne).2
    exact hn v hv
  rcases hd with hd | hd
  · rw [hd] at htold
    obtain ⟨_, _, -, rfl⟩ := htold
    refine Or.inl ⟨hd, ?_⟩
    rcases hs.said with hsaid | ⟨challenge, hsaid⟩ | ⟨challenge, v, hsaid⟩
    · rw [hnil (by simp [hsaid]), hsaid] at hheard
      cases hheard
    · rw [hsaid] at hheard
      cases hheard
      exact ⟨challenge, rfl⟩
    · rw [hsaid] at hheard
      cases hheard
      exact ⟨challenge, rfl⟩
  · rw [hd] at htold
    obtain ⟨_, -, rfl⟩ := htold
    refine Or.inr ⟨hd, ?_⟩
    rcases hs.said with hsaid | ⟨challenge, hsaid⟩ | ⟨challenge, v, hsaid⟩
    · rw [hnil (by simp [hsaid]), hsaid] at hheard
      cases hheard
    · rw [hnil (by simp [hsaid]), hsaid] at hheard
      cases hheard
    · rw [hsaid] at hheard
      cases hheard
      exact ⟨v, rfl⟩

section
variable (hring : ring.Correct)
  (hkey : (Client.privateKey config).getPublicKey ring = .ok publicKey)
  (hhost : getHostname publicKey = config.server)

include hring hkey

theorem signs (challenge : ChallengeDataType) :
    ∃ signature, (Client.privateKey config).sign ring challenge = .ok signature := by
  obtain ⟨signature, hsign, -⟩ := verify_sign hring hkey challenge
  exact ⟨signature, hsign⟩

/-- The signature of this challenge is the right answer. -/
theorem checkResponse_signature (hhost : getHostname publicKey = config.server)
    {challenge : ChallengeDataType} {signature : SignatureDataType}
    (hsign : (Client.privateKey config).sign ring challenge = .ok signature) :
    ProxyClient.checkResponse (Login.crypto ring getHostname) (proxyHelloOf config publicKey) challenge
      (some (.ok (.ProxyAuthResponse signature))) = .ok () := by
  obtain ⟨signature', hsign', hverify⟩ := verify_sign hring hkey challenge
  cases hsign.symm.trans hsign'
  have hcheck : (ServerPublicKey.verify ring publicKey challenge signature
      && decide (getHostname publicKey = config.server)) = true := by
    rw [hverify, hhost]
    simp
  exact if_pos hcheck

/-- What the task reads next is the right packet. -/
theorem Login.Joined.right {s : Login} {c : Connection} {packet : SocketPacket}
    {rest : List SocketPacket} (hhost : getHostname publicKey = config.server)
    (h : s.Joined ring config c) (hfine : s.dialing.fine)
    (hs : c.task.Smooth (proxyHelloOf config publicKey) (receivedOf c.wire) (sentOf c.wire))
    (hq : s.toServer = packet :: rest) :
    c.task.Right (crypto ring getHostname) (proxyHelloOf config publicKey)
      (.next (some (.ok packet))) := by
  obtain ⟨heard, loop, htold, hheard, -⟩ := h
  rw [hq] at htold
  have hsaid := htold.said (hello_eq hkey) hfine
  constructor
  · intro ht
    rw [ht] at hs
    rw [hs.1] at hsaid
    rcases hsaid with hsaid | hsaid | ⟨_, _, _, -, hsaid, -⟩
    · cases hsaid
    · cases hsaid; rfl
    · cases hsaid; rfl
  · intro p challenge ht
    rw [ht] at hs
    obtain ⟨rfl, hread, hsent⟩ := hs
    rw [hread] at hsaid
    rcases hsaid with hsaid | hsaid | ⟨challenge', signature, more, hsign, hsaid, rfl⟩
    · cases hsaid
    · cases hsaid
    · cases hsaid
      rw [hsent] at hheard
      cases hheard
      exact checkResponse_signature hring hkey hhost hsign

include hhost

theorem Login.Calm.step {s s' : Login} {l : LoginEvent}
    (hs : s.Calm ring getHostname config publicKey) (hl : l.calm = true)
    (h : Step ring getHostname config s l s') : s'.Calm ring getHostname config publicKey := by
  refine ⟨hs.inv.step h, ?_, ?_⟩
  · cases h with
    | other hi hstep => exact hs.fine
    | own hi he hstep => exact hs.fine
    | receive hi hq hstep => exact hs.fine
    | loop hi hc ht => exact hs.fine
    | dial he hd hstep => exact Dialing.fine_step (hello_eq hkey) hs.fine hl hstep
    | accept hd hserver hstep => exact Dialing.fine_step (hello_eq hkey) hs.fine hl hstep
    | @reply packet rest d packets hq hstep =>
      obtain ⟨i, hi⟩ : ∃ i, s.connection = some i := by
        refine Option.ne_none_iff_exists'.mp ?_
        intro hnone
        cases hq.symm.trans (hs.inv.offline hnone).2.2
      obtain ⟨c, hc, hjoined⟩ := hs.inv.online i hi
      obtain ⟨d', packets', hstep', hfine, -⟩ := Dialing.step_next (signs hring hkey)
        (hjoined.next hq (hs.smooth i c hi hc) (Dialing.waits_of_next hstep))
      cases hstep.symm.trans hstep'
      exact hfine
  · cases h with
    | @other i e server hi hstep =>
      intro j c hj hc
      obtain ⟨c', hc', -⟩ := hs.inv.online j hj
      have hij : j ≠ i := fun heq => hi (heq ▸ hj)
      cases hc.symm.trans ((Server.step_cases hstep).other hij hc')
      exact hs.smooth j c hj hc'
    | @own i e server hi he hstep =>
      intro j c hj hc
      cases hi.symm.trans hj
      obtain ⟨c₀, hc₀, -⟩ := hs.inv.online i hi
      obtain ⟨c', hc', hsmooth⟩ :=
        (Server.step_cases hstep).smooth hc₀ (hs.smooth i c₀ hi hc₀) (Task.right_of_calm hl)
      cases hc.symm.trans hc'
      exact hsmooth
    | @receive i packet rest server hi hq hstep =>
      intro j c hj hc
      cases hi.symm.trans hj
      obtain ⟨c₀, hc₀, hjoined⟩ := hs.inv.online i hi
      have hsmooth := hs.smooth i c₀ hi hc₀
      obtain ⟨c', hc', hsmooth⟩ := (Server.step_cases hstep).smooth hc₀ hsmooth
        (hjoined.right hring hkey hhost hs.fine hsmooth hq)
      cases hc.symm.trans hc'
      exact hsmooth
    | loop hi hc ht => exact hs.smooth
    | dial he hd hstep => exact hs.smooth
    | @accept d packets server hd hserver hstep =>
      rintro i c ⟨⟩ hc
      cases hc.symm.trans (Server.accepted_new hserver)
      exact ⟨rfl, rfl⟩
    | reply hq hstep => exact hs.smooth

end

/-! ## What is left to do -/

/-- How many steps of a task are left to its greeting. -/
def Task.rank : Task → Nat
  | .reading => 5
  | .challenging _ => 4
  | .requesting _ _ => 3
  | .awaiting _ _ => 2
  | .entering _ => 1
  | _ => 0

/-- How many steps of the two are left. -/
def Login.rank (s : Login) : Nat :=
  s.dialing.rank +
    match s.connection.bind fun i => s.server.connections[i]? with
    | some c => c.task.rank
    | none => 5

theorem Login.rank_eq {s : Login} {i : Nat} {c : Connection} (hi : s.connection = some i)
    (hc : s.server.connections[i]? = some c) : s.rank = s.dialing.rank + c.task.rank := by
  rw [rank, hi, Option.bind_some, hc]

/-- Twelve steps are the most. -/
theorem Login.rank_le (s : Login) : s.rank ≤ 12 := by
  have hdialing : s.dialing.rank ≤ 7 := by cases s.dialing <;> simp [Dialing.rank]
  unfold rank
  split
  · next c _ =>
    have htask : c.task.rank ≤ 5 := by cases c.task <;> simp [Task.rank]
    exact Nat.add_le_add hdialing htask
  · exact Nat.add_le_add_right hdialing 5

/-- A step that can be taken, and leaves less to do. -/
def Login.Advances (ring : Ed25519) (getHostname : ServerPublicKey → String) (config : Gui.Server)
    (s : Login) : Prop :=
  ∃ l s', (l.calm = true ∧ l.isOwn = true) ∧ s.step ring getHostname config l = some s' ∧
    s'.rank < s.rank

/-- The task goes on to less work. -/
theorem Login.rank_lt_task {s s' : Login} {i : Nat} {c c' : Connection}
    (hi : s.connection = some i) (hc : s.server.connections[i]? = some c)
    (hdialing : s'.dialing = s.dialing) (hi' : s'.connection = some i)
    (hc' : s'.server.connections[i]? = some c') (hrank : c'.task.rank < c.task.rank) :
    s'.rank < s.rank := by
  rw [rank_eq hi hc, rank_eq hi' hc', hdialing]
  exact Nat.add_lt_add_left hrank _

theorem Server.step_register (crypto : Crypto) {s : Server} {i : Nat} {c : Connection}
    {hostname : String} (hc : s.connections[i]? = some c) (ht : c.task = .entering hostname) :
    ∃ s', s.step crypto (i, .register) = some s' ∧
      s'.connections[i]? = some
        ⟨.greeting hostname, c.wire ++ [.sent (.ProxyHelloResponse ⟨PROTOCOL_VERSION⟩)]⟩ := by
  obtain ⟨task, wire⟩ := c
  subst ht
  refine ⟨_, by simp only [step, hc]; rfl, ?_⟩
  exact Server.goOn_self hc _ _

/-- A step of the task, without a packet. -/
theorem Login.advances_own {s : Login} {i : Nat} {c c' : Connection} {e : Event} {server : Server}
    (hi : s.connection = some i) (hc : s.server.connections[i]? = some c) (he : e.packets = [])
    (hcalm : (LoginEvent.own e).calm = true)
    (hs : s.server.step (crypto ring getHostname) (i, e) = some server)
    (hc' : server.connections[i]? = some c') (hrank : c'.task.rank < c.task.rank) :
    s.Advances ring getHostname config := by
  have hstep : s.step ring getHostname config (.own e) = some
      { s with server := server, toClient := s.toClient ++ sentSince s.server server i } := by
    simp [Login.step, Login.onTask, hi, he, hs]
  exact ⟨_, _, ⟨hcalm, rfl⟩, hstep, rank_lt_task hi hc rfl hi hc' hrank⟩

/-- A step of the task, with a packet. -/
theorem Login.advances_receive {s : Login} {i : Nat} {c : Connection} {packet : SocketPacket}
    {rest : List SocketPacket} {task : Task} {log : List Wire} (hi : s.connection = some i)
    (hc : s.server.connections[i]? = some c) (hq : s.toServer = packet :: rest)
    (hs : c.task.step (crypto ring getHostname) (.next (some (.ok packet))) = some (task, log))
    (hrank : task.rank < c.task.rank) : s.Advances ring getHostname config := by
  have hserver := Server.step_task _ hc hs
  have hstep : s.step ring getHostname config .receive = some
      { s with server := s.server.goOn i c task log, toServer := rest,
               toClient := s.toClient ++ sentSince s.server (s.server.goOn i c task log) i } := by
    simp [Login.step, Login.onTask, hi, hq, hserver]
  exact ⟨_, _, ⟨rfl, rfl⟩, hstep, rank_lt_task hi hc rfl hi (Server.goOn_self hc task log) hrank⟩

/-- A step of the client, but for the one that connects it to the proxy. -/
theorem Login.advances_dial {s : Login} {e : DialEvent} {d : Dialing} {packets : List SocketPacket}
    (hcalm : (LoginEvent.dial e).calm = true) (he : e.packets = [])
    (hd : s.dialing ≠ .dialing) (hs : s.dialing.step ring config e = some (d, packets))
    (hrank : d.rank < s.dialing.rank) : s.Advances ring getHostname config := by
  have hstep : s.step ring getHostname config (.dial e) = some
      { s with dialing := d, toServer := s.toServer ++ packets } := by
    simp only [Login.step, he, if_true]
    split
    · next heq => exact absurd heq hd
    · simp [Login.onDial, hs]
  exact ⟨_, _, ⟨hcalm, rfl⟩, hstep, Nat.add_lt_add_right hrank _⟩

section
variable (hring : ring.Correct)
  (hkey : (Client.privateKey config).getPublicKey ring = .ok publicKey)
  (hhost : getHostname publicKey = config.server)

include hring hkey hhost

/-- A client that waits for a packet is sent one, or the task has something to do. -/
theorem Login.Calm.advances_waiting {s : Login} (hs : s.Calm ring getHostname config publicKey)
    {i : Nat} (hi : s.connection = some i) (hd : s.dialing = .awaiting ∨ s.dialing = .choosing) :
    s.Advances ring getHostname config := by
  obtain ⟨c, hc, hjoined⟩ := hs.inv.online i hi
  have hsmooth := hs.smooth i c hi hc
  cases hq : s.toClient with
  | cons packet rest =>
    obtain ⟨d, packets, hstep, -, hrank⟩ :=
      Dialing.step_next (signs hring hkey) (hjoined.next hq hsmooth hd)
    have hreply : s.step ring getHostname config .reply = some
        { s with dialing := d, toServer := s.toServer ++ packets, toClient := rest } := by
      simp [Login.step, Login.onDial, hq, hstep]
    exact ⟨_, _, ⟨rfl, rfl⟩, hreply, Nat.add_lt_add_right hrank _⟩
  | nil =>
    have hright {packet : SocketPacket} {rest : List SocketPacket}
        (hto : s.toServer = packet :: rest) :=
      hjoined.right hring hkey hhost hs.fine hsmooth hto
    obtain ⟨heard, loop, htold, hheard, hloop⟩ := hjoined
    rw [hq, List.append_nil] at hheard
    -- a client that waits has said something, and it has not heard a greeting
    obtain ⟨hspoken, hshort⟩ : receivedOf c.wire ++ s.toServer ≠ [] ∧ heard.length ≤ 1 := by
      rcases hd with hd | hd
      · rw [hd] at htold
        obtain ⟨_, -, hsaid, rfl⟩ := htold
        simp [hsaid]
      · rw [hd] at htold
        obtain ⟨_, ⟨_, _, -, -, hsaid⟩, rfl⟩ := htold
        simp [hsaid]
    -- the loop has said nothing before the greeting
    have hnil (hn : ∀ v, .ProxyHelloResponse v ∉ sentOf c.wire) : heard = sentOf c.wire := by
      have hnil : loop = [] := by
        by_contra hne
        obtain ⟨v, hv⟩ := (hloop hne).2
        exact hn v hv
      rw [hheard, hnil, List.append_nil]
    obtain ⟨task, wire⟩ := c
    cases task with
    | reading =>
      obtain ⟨hread, -⟩ := hsmooth
      simp only [hread, List.nil_append] at hspoken
      obtain ⟨packet, rest, hto⟩ := List.exists_cons_of_ne_nil hspoken
      cases (hright hto).1 rfl
      exact advances_receive hi hc hto rfl (Nat.lt_succ_self 4)
    | challenging p =>
      have hstep := Server.step_task (crypto ring getHostname) hc
        (e := .challenge (some (Vector.replicate 64 0))) rfl
      exact advances_own hi hc rfl rfl hstep (Server.goOn_self hc _ _) (Nat.lt_succ_self 3)
    | requesting p challenge =>
      have hstep := Server.step_task (crypto ring getHostname) hc (e := .flushed (.ok ())) rfl
      exact advances_own hi hc rfl rfl hstep (Server.goOn_self hc _ _) (Nat.lt_succ_self 2)
    | awaiting p challenge =>
      obtain ⟨-, hread, hsent⟩ := hsmooth
      have hall : heard = [.ProxyAuthRequest challenge] := (hnil (by simp [hsent])).trans hsent
      -- the client has heard the challenge, so it has signed it
      rcases hd with hd | hd
      · rw [hd] at htold
        obtain ⟨_, -, -, rfl⟩ := htold
        cases hall
      · rw [hd] at htold
        obtain ⟨_, ⟨_, signature, -, -, hsaid⟩, -⟩ := htold
        rw [hread] at hsaid
        have hto : s.toServer = [.ProxyAuthResponse signature] := (List.cons.inj hsaid).2
        have hstep : (Task.awaiting p challenge).step (crypto ring getHostname)
            (.next (some (.ok (.ProxyAuthResponse signature))))
            = some (.entering p.hostname, [.received (.ProxyAuthResponse signature)]) := by
          simp only [Task.step, (hright hto).2 p challenge rfl]
          rfl
        exact advances_receive hi hc hto hstep (Nat.lt_succ_self 1)
    | entering hostname =>
      obtain ⟨server, hstep, hget⟩ := Server.step_register (crypto ring getHostname) hc rfl
      exact advances_own hi hc rfl rfl hstep hget (Nat.lt_succ_self 0)
    | greeting | serving | closing | finished =>
      obtain ⟨challenge, v, hsent⟩ := hsmooth
      rw [hheard, hsent] at hshort
      simp at hshort
    | _ => cases hsmooth

/-- Until the client is connected, there is something to do. -/
theorem Login.Calm.advances {s : Login} (hs : s.Calm ring getHostname config publicKey)
    (hdone : s.dialing ≠ .done (.ok ())) : s.Advances ring getHostname config := by
  have honline (hoff : ¬s.dialing.offline) : ∃ i, s.connection = some i := by
    refine Option.ne_none_iff_exists'.mp ?_
    intro hnone
    exact hoff (hs.inv.offline hnone).1
  have hfine := hs.fine
  cases hd : s.dialing with
  | probing =>
    exact advances_dial (e := .connected (.ok ())) rfl rfl (by simp [hd]) (by rw [hd]; rfl)
      (by rw [hd]; exact Nat.lt_succ_self 6)
  | dialing =>
    have hnone := hs.inv.early (by rw [hd]; trivial)
    have hdial : Dialing.step ring config .dialing (.connected (.ok ()))
        = some (.greeting, [.ProxyHello (proxyHelloOf config publicKey)]) := by
      simp [Dialing.step, hello_eq hkey]
    have hserver : s.server.step (crypto ring getHostname) (s.server.connections.length, .accepted)
        = some { s.server with connections := s.server.connections ++ [⟨.reading, []⟩] } :=
      if_pos rfl
    have hstep : s.step ring getHostname config (.dial (.connected (.ok ()))) = some
        { s with server := { s.server with connections := s.server.connections ++ [⟨.reading, []⟩] },
                 connection := some s.server.connections.length, dialing := .greeting,
                 toServer := s.toServer ++ [.ProxyHello (proxyHelloOf config publicKey)] } := by
      simp [Login.step, DialEvent.packets, accept, onDial, hd, hdial, hserver]
    refine ⟨_, _, ⟨rfl, rfl⟩, hstep, ?_⟩
    rw [rank_eq (i := s.server.connections.length) rfl (Server.accepted_new hserver), rank, hd,
      hnone]
    exact Nat.lt_succ_self 10
  | greeting =>
    exact advances_dial (e := .flushed (.ok ())) rfl rfl (by simp [hd]) (by rw [hd]; rfl)
      (by rw [hd]; exact Nat.lt_succ_self 4)
  | awaiting =>
    obtain ⟨i, hi⟩ := honline (by rw [hd]; exact id)
    exact hs.advances_waiting hring hkey hhost hi (Or.inl hd)
  | answering =>
    exact advances_dial (e := .flushed (.ok ())) rfl rfl (by simp [hd]) (by rw [hd]; rfl)
      (by rw [hd]; exact Nat.lt_succ_self 2)
  | choosing =>
    obtain ⟨i, hi⟩ := honline (by rw [hd]; exact id)
    exact hs.advances_waiting hring hkey hhost hi (Or.inr hd)
  | reporting =>
    exact advances_dial (e := .reported (.ok ())) rfl rfl (by simp [hd]) (by rw [hd]; rfl)
      (by rw [hd]; exact Nat.lt_succ_self 0)
  | done result =>
    rw [hd] at hfine
    cases result with
    | ok _ => exact absurd hd hdone
    | error e => cases hfine
  | panicked =>
    rw [hd] at hfine
    cases hfine

theorem Login.Calm.reachable {s : Login}
    (h : ((loginMachine ring getHostname config).restrict fun _ l => l.calm = true).Reachable s) :
    s.Calm ring getHostname config publicKey := by
  refine Machine.Reachable.restrict_invariant (I := Login.Calm ring getHostname config publicKey)
    ?_ ?_ h
  · exact ⟨.new, trivial, fun i c hi => by cases hi⟩
  · intro s l s' _ hs hl hstep
    exact hs.step hring hkey hhost hl (step_cases hstep)

/-- Where nothing has gone wrong, what is left to do leads to a connected client. -/
theorem Login.Calm.completes {s : Login} (hs : s.Calm ring getHostname config publicKey) :
    ∃ ls s', (∀ l ∈ ls, l.calm = true ∧ l.isOwn = true) ∧ ls.length ≤ 12 ∧
      (loginMachine ring getHostname config).run s ls = some s' ∧ s'.dialing = .done (.ok ()) := by
  obtain ⟨ls, s', hls, hlen, hrun, hdone⟩ := Machine.leads_to
    (m := loginMachine ring getHostname config) (I := Login.Calm ring getHostname config publicKey)
    (L := fun l => l.calm = true ∧ l.isOwn = true) (fun s => s.dialing = .done (.ok ())) Login.rank
    (fun s hs hgoal => by
      obtain ⟨l, s', hl, hstep, hrank⟩ := hs.advances hring hkey hhost hgoal
      exact ⟨l, s', hl, hstep, hs.step hring hkey hhost hl.1 (Login.step_cases hstep), hrank⟩)
    hs
  exact ⟨ls, s', hls, hlen.trans s.rank_le, hrun, hdone⟩

/--
**A client with the hostname of its key gets connected.**

Where the connection holds and the time suffices, in every state that can be reached there is
a run of at most twelve steps of the two ends to a connected client. The other connections
of the server may have taken any steps before, and need not take any.
-/
theorem login_completes {s : Login}
    (h : ((loginMachine ring getHostname config).restrict fun _ l => l.calm = true).Reachable s) :
    ∃ ls s', (∀ l ∈ ls, l.calm = true ∧ l.isOwn = true) ∧ ls.length ≤ 12 ∧
      (loginMachine ring getHostname config).run s ls = some s' ∧ s'.dialing = .done (.ok ()) :=
  (Login.Calm.reachable hring hkey hhost h).completes hring hkey hhost

end

end

theorem login_completes_signing : ∃ s,
    ((loginMachine plainRing (fun _ => "h") (serverFor "h")).restrict
      fun _ l => l.calm = true).Reachable s ∧
    ∃ ls s', ls.length ≤ 12 ∧
      (loginMachine plainRing (fun _ => "h") (serverFor "h")).run s ls = some s' ∧
      s'.dialing = .done (.ok ()) := by
  have hring : plainRing.Correct := fun _ _ => rfl
  obtain ⟨s, hrun⟩ : ∃ s, ((loginMachine plainRing (fun _ => "h") (serverFor "h")).restrict
      fun _ l => l.calm = true).run .new signing = some s := Option.isSome_iff_exists.mp rfl
  obtain ⟨ls, s', -, hlen, hrun', hdone⟩ := @login_completes plainRing (fun _ => "h")
    (serverFor "h") _ hring rfl rfl s ⟨signing, hrun⟩
  exact ⟨s, ⟨signing, hrun⟩, ls, s', hlen, hrun', hdone⟩

end CraftIp
