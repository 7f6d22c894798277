import CraftIp.Login
import CraftIp.Properties.Authentication

/-!
# What the server says before the loop

A proxy client is asked for a signature, and then greeted or refused. After a timeout the
server says both. So a greeting that comes right behind the challenge is worth something: the
server has checked a signature of this very challenge, and has registered the hostname.

* `Task.Told` — what has been said, and heard, when a task is where it is
* `server_words` — everything a connection can have been told
-/

namespace CraftIp

open Infra

@[simp] theorem sentOf_append (w w' : List Wire) : sentOf (w ++ w') = sentOf w ++ sentOf w' :=
  List.filterMap_append

@[simp] theorem receivedOf_append (w w' : List Wire) :
    receivedOf (w ++ w') = receivedOf w ++ receivedOf w' := List.filterMap_append

@[simp] theorem sentOf_nil : sentOf [] = [] := rfl

@[simp] theorem receivedOf_nil : receivedOf [] = [] := rfl

@[simp] theorem sentOf_sent (p : SocketPacket) : sentOf [.sent p] = [p] := rfl

@[simp] theorem sentOf_received (p : SocketPacket) : sentOf [.received p] = [] := rfl

@[simp] theorem receivedOf_sent (p : SocketPacket) : receivedOf [.sent p] = [] := rfl

@[simp] theorem receivedOf_received (p : SocketPacket) : receivedOf [.received p] = [p] := rfl

/-- What was read is all that a read leaves on the wire. -/
@[simp] theorem sentOf_readLog (answer : Option (Except String SocketPacket)) :
    sentOf (Task.readLog answer) = [] := by
  unfold Task.readLog
  split <;> rfl

/-! ## The words -/

/--
The peer has said `ProxyHello` for this hostname, and has signed this challenge with the key
of the hostname.
-/
def Proved (crypto : Crypto) (hostname : String) (challenge : ChallengeDataType)
    (heard : List SocketPacket) : Prop :=
  ∃ packet publicKey signature, packet.auth = .PublicKey publicKey ∧ packet.hostname = hostname ∧
    .ProxyHello packet ∈ heard ∧ .ProxyAuthResponse signature ∈ heard ∧
    crypto.verify publicKey challenge signature = true ∧
    crypto.getHostname publicKey = hostname

/-- The peer was challenged and greeted, and its hostname was registered. -/
def Greeted (crypto : Crypto) (registered : String → Prop) (heard said : List SocketPacket)
    (hostname : String) : Prop :=
  registered hostname ∧
    ∃ challenge v, said = [.ProxyAuthRequest challenge, .ProxyHelloResponse v] ∧
      Proved crypto hostname challenge heard

/-- The authentication timed out; the peer was told so, and greeted. -/
def FellThrough (registered : String → Prop) (said : List SocketPacket) (hostname : String) : Prop :=
  registered hostname ∧ ∃ challenge v,
    said = [.ProxyAuthRequest challenge, .ProxyError "Timeout", .ProxyHelloResponse v]

/-- The peer was refused. -/
def Refused (said : List SocketPacket) : Prop :=
  (∃ m, said = [.ProxyError m]) ∨
    ∃ challenge m, said = [.ProxyAuthRequest challenge, .ProxyError m]

/-- What has been heard and said when a task is where it is. -/
def Task.Told (crypto : Crypto) (registered : String → Prop) (heard said : List SocketPacket) :
    Task → Prop
  | .reading | .looking _ | .minecraft _ => said = []
  | .challenging packet => said = [] ∧ .ProxyHello packet ∈ heard
  | .requesting packet challenge | .awaiting packet challenge =>
    said = [.ProxyAuthRequest challenge] ∧ .ProxyHello packet ∈ heard
  | .timedOut _ => ∃ challenge, said = [.ProxyAuthRequest challenge, .ProxyError "Timeout"]
  | .rejected _ => Refused said
  | .entering hostname =>
    (∃ challenge, said = [.ProxyAuthRequest challenge] ∧ Proved crypto hostname challenge heard) ∨
      ∃ challenge, said = [.ProxyAuthRequest challenge, .ProxyError "Timeout"]
  | .greeting hostname | .serving hostname | .closing hostname _ =>
    Greeted crypto registered heard said hostname ∨ FellThrough registered said hostname
  | .finished _ =>
    said = [] ∨ Refused said ∨
      ∃ hostname, Greeted crypto registered heard said hostname ∨ FellThrough registered said hostname

theorem Proved.mono {crypto : Crypto} {hostname : String} {challenge : ChallengeDataType}
    {heard heard' : List SocketPacket} (h : Proved crypto hostname challenge heard)
    (hsub : heard ⊆ heard') : Proved crypto hostname challenge heard' := by
  obtain ⟨packet, publicKey, signature, hauth, hhost, hhello, hresp, hrest⟩ := h
  exact ⟨packet, publicKey, signature, hauth, hhost, hsub hhello, hsub hresp, hrest⟩

theorem Task.Told.mono {crypto : Crypto} {registered registered' : String → Prop}
    {heard heard' said : List SocketPacket} {task : Task}
    (h : task.Told crypto registered heard said) (hsub : heard ⊆ heard')
    (hreg : ∀ hostname, registered hostname → registered' hostname) :
    task.Told crypto registered' heard' said := by
  have hgreeted : ∀ {hostname}, Greeted crypto registered heard said hostname ∨
      FellThrough registered said hostname →
      Greeted crypto registered' heard' said hostname ∨ FellThrough registered' said hostname := by
    rintro hostname (⟨hr, challenge, v, hs, hp⟩ | ⟨hr, hs⟩)
    · exact Or.inl ⟨hreg _ hr, challenge, v, hs, hp.mono hsub⟩
    · exact Or.inr ⟨hreg _ hr, hs⟩
  cases task with
  | challenging packet => exact ⟨h.1, hsub h.2⟩
  | requesting packet challenge => exact ⟨h.1, hsub h.2⟩
  | awaiting packet challenge => exact ⟨h.1, hsub h.2⟩
  | entering hostname =>
    rcases h with ⟨challenge, hs, hp⟩ | h
    · exact Or.inl ⟨challenge, hs, hp.mono hsub⟩
    · exact Or.inr h
  | greeting hostname => exact hgreeted h
  | serving hostname => exact hgreeted h
  | closing hostname response => exact hgreeted h
  | finished result =>
    rcases h with h | h | ⟨hostname, h⟩
    · exact Or.inl h
    · exact Or.inr (Or.inl h)
    · exact Or.inr (Or.inr ⟨hostname, hgreeted h⟩)
  | _ => exact h

/-! ## One step -/

theorem Task.told_dispatch {crypto : Crypto} {registered : String → Prop} {heard : List SocketPacket}
    {packet : SocketPacket} (h : packet ∈ heard) :
    (dispatch packet).Told crypto registered heard [] := by
  cases packet with
  | ProxyHello packet => exact ⟨rfl, h⟩
  | MCHello packet => rfl
  | _ => exact Or.inl rfl

theorem Task.Told.step {crypto : Crypto} {registered : String → Prop} {task task' : Task}
    {heard said : List SocketPacket} {log : List Wire} {e : Event}
    (ht : task.Told crypto registered heard said) (h : task.step crypto e = some (task', log)) :
    task'.Told crypto registered (heard ++ receivedOf log) (said ++ sentOf log) := by
  -- what the task had heard it has heard now
  have hmono := ht.mono (List.subset_append_left heard (receivedOf log)) fun _ hr => hr
  unfold Task.step at h
  split at h
  · cases h
    have hsaid : said = [] := ht
    subst hsaid
    exact told_dispatch (by simp)
  · cases h
    exact Or.inl (by simpa [Told] using ht)
  · cases h
    exact Or.inl (by simpa [Told] using ht)
  · cases h
    obtain ⟨rfl, hhello⟩ := hmono
    exact ⟨rfl, hhello⟩
  · cases h
    obtain ⟨rfl, -⟩ := hmono
    exact Or.inl ⟨_, rfl⟩
  · cases h
    obtain ⟨rfl, -⟩ := hmono
    exact Or.inl rfl
  · cases h
    simpa [Told] using hmono
  · cases h
    obtain ⟨rfl, -⟩ := hmono
    exact Or.inr ⟨_, _, rfl⟩
  · cases h
    obtain ⟨rfl, -⟩ := hmono
    exact ⟨_, rfl⟩
  · next packet challenge answer =>
    split at h
    · next hok =>
      cases h
      obtain ⟨publicKey, signature, hauth, rfl, hverify, hhost⟩ := checkResponse_ok hok
      obtain ⟨rfl, hhello⟩ := hmono
      refine Or.inl ⟨challenge, by simp, packet, publicKey, signature, hauth, rfl, hhello, ?_,
        hverify, hhost⟩
      simp [readLog]
    · cases h
      obtain ⟨rfl, -⟩ := hmono
      exact Or.inr ⟨challenge, _, by simp [reject]; rfl⟩
  · cases h
    obtain ⟨rfl, -⟩ := hmono
    exact ⟨_, rfl⟩
  · cases h
    obtain ⟨challenge, rfl⟩ := hmono
    exact Or.inr ⟨challenge, by simp⟩
  · cases h
    obtain ⟨challenge, rfl⟩ := hmono
    exact Or.inr (Or.inl (Or.inr ⟨challenge, _, rfl⟩))
  · cases h
    exact Or.inr (Or.inl (by simpa [Told] using ht))
  · cases h
    exact Or.inr (Or.inl (by simpa [Told] using ht))
  · cases h
    simpa [Told] using hmono
  · cases h
    simpa [Told] using hmono
  · cases h
    simpa [Told] using hmono
  · cases h
    exact Or.inl (by simpa [Told] using ht)
  · cases h

/-! ## Every run -/

/-- Connection `i` was registered under this hostname. -/
def Server.Registered (s : Server) (i : Nat) (hostname : String) : Prop :=
  (i, hostname) ∈ s.history

/-- What every connection has heard and been told. -/
def Server.Told (crypto : Crypto) (s : Server) : Prop :=
  ∀ (i : Nat) (c : Connection), s.connections[i]? = some c →
    c.task.Told crypto (s.Registered i) (receivedOf c.wire) (sentOf c.wire)

/-- A connection goes on to a task that has been told this, and the history grows. -/
theorem Server.Told.goOn {crypto : Crypto} {s s' : Server} {i : Nat} {c : Connection} {task : Task}
    {log : List Wire} (hs : s.Told crypto)
    (hconn : s'.connections = (s.goOn i c task log).connections)
    (hhist : s.history ⊆ s'.history)
    (ht : task.Told crypto (s'.Registered i) (receivedOf c.wire ++ receivedOf log)
      (sentOf c.wire ++ sentOf log)) : s'.Told crypto := by
  intro j c' hj
  rw [hconn] at hj
  rcases goOn_get hj with ⟨rfl, rfl⟩ | ⟨-, hj⟩
  · simpa using ht
  · exact (hs j c' hj).mono (fun _ h => h) fun _ h => hhist h

/-- A connection goes on without a word. -/
theorem Server.Told.silent {crypto : Crypto} {s s' : Server} {i : Nat} {c : Connection}
    {task : Task} (hs : s.Told crypto)
    (hconn : s'.connections = (s.goOn i c task []).connections)
    (hhist : s'.history = s.history)
    (ht : task.Told crypto (s.Registered i) (receivedOf c.wire) (sentOf c.wire)) :
    s'.Told crypto := by
  refine hs.goOn hconn (fun _ h => by rwa [hhist]) ?_
  have hreg : s'.Registered i = s.Registered i := by
    funext hostname
    rw [Server.Registered, Server.Registered, hhist]
  simpa [hreg] using ht

theorem Server.Told.step {crypto : Crypto} {s s' : Server} {i : Nat} {e : Event}
    (hs : s.Told crypto) (h : Server.Step crypto s i e s') : s'.Told crypto := by
  cases h with
  | accepted =>
    intro j c hj
    rcases getElem?_concat_iff.mp hj with hj | ⟨-, rfl⟩
    · exact hs j c hj
    · rfl
  | @task _ c _ task log hc ht => exact hs.goOn rfl (fun _ h => h) ((hs i c hc).step ht)
  | @register _ c hostname hc ht =>
    have hin := hs i c hc
    rw [ht] at hin
    refine hs.goOn (c := c) rfl (List.subset_cons_self _ _) ?_
    have hreg : (i, hostname) ∈ (i, hostname) :: s.history := List.mem_cons_self
    rcases hin with ⟨challenge, hsaid, hproved⟩ | ⟨challenge, hsaid⟩
    · rw [hsaid]
      exact Or.inl ⟨hreg, challenge, _, rfl, by simpa using hproved⟩
    · rw [hsaid]
      exact Or.inr ⟨hreg, challenge, _, rfl⟩
  | @channelClosed _ c hostname hc ht _ =>
    have hin := hs i c hc
    rw [ht] at hin
    exact hs.silent rfl rfl hin
  | @close _ c hostname response hc ht =>
    have hin := hs i c hc
    rw [ht] at hin
    exact hs.silent rfl rfl (Or.inr (Or.inr ⟨hostname, hin⟩))
  | @found _ c packet proxyTx hc ht _ =>
    have hin := hs i c hc
    rw [ht] at hin
    exact hs.silent rfl rfl hin
  | @notFound _ c packet hc ht =>
    have hin := hs i c hc
    rw [ht] at hin
    exact hs.silent rfl rfl (Or.inl hin)

theorem Server.reachable_told {crypto : Crypto} {s : Server}
    (h : (serverMachine crypto).Reachable s) : s.Told crypto := by
  refine h.invariant ?_ ?_
  · intro i c hc
    cases hc
  · rintro s ⟨i, e⟩ s' hs hl
    exact hs.step (Server.step_cases hl)

/-- Everything a connection can be told before the loop. -/
def Words (crypto : Crypto) (registered : String → Prop) (heard said : List SocketPacket) : Prop :=
  said = [] ∨ Refused said ∨ (∃ challenge, said = [.ProxyAuthRequest challenge]) ∨
    ∃ hostname, Greeted crypto registered heard said hostname ∨ FellThrough registered said hostname

theorem Task.Told.words {crypto : Crypto} {registered : String → Prop} {task : Task}
    {heard said : List SocketPacket} (h : task.Told crypto registered heard said) :
    Words crypto registered heard said := by
  cases task with
  | reading => exact Or.inl h
  | looking packet => exact Or.inl h
  | minecraft proxyTx => exact Or.inl h
  | challenging packet => exact Or.inl h.1
  | requesting packet challenge => exact Or.inr (Or.inr (Or.inl ⟨challenge, h.1⟩))
  | awaiting packet challenge => exact Or.inr (Or.inr (Or.inl ⟨challenge, h.1⟩))
  | timedOut packet =>
    obtain ⟨challenge, hsaid⟩ := h
    exact Or.inr (Or.inl (Or.inr ⟨challenge, _, hsaid⟩))
  | rejected e => exact Or.inr (Or.inl h)
  | entering hostname =>
    rcases h with ⟨challenge, hsaid, -⟩ | ⟨challenge, hsaid⟩
    · exact Or.inr (Or.inr (Or.inl ⟨challenge, hsaid⟩))
    · exact Or.inr (Or.inl (Or.inr ⟨challenge, _, hsaid⟩))
  | greeting hostname => exact Or.inr (Or.inr (Or.inr ⟨hostname, h⟩))
  | serving hostname => exact Or.inr (Or.inr (Or.inr ⟨hostname, h⟩))
  | closing hostname response => exact Or.inr (Or.inr (Or.inr ⟨hostname, h⟩))
  | finished result =>
    rcases h with h | h | h
    · exact Or.inl h
    · exact Or.inr (Or.inl h)
    · exact Or.inr (Or.inr (Or.inr h))

/--
**What the server can have told a connection before the loop**, in every run: nothing, a
refusal, a challenge, or a greeting, with a challenge and perhaps the timeout in front.

Behind a challenge alone a greeting means that the peer has signed it and is registered.
-/
theorem server_words (crypto : Crypto) {s : Server} (h : (serverMachine crypto).Reachable s)
    {i : Nat} {c : Connection} (hc : s.connections[i]? = some c) :
    Words crypto (s.Registered i) (receivedOf c.wire) (sentOf c.wire) :=
  (Server.reachable_told h i c hc).words

theorem server_words_login : ∃ s, (serverMachine ⟨fun _ _ _ => true, fun _ => "h"⟩).Reachable s ∧
    ∃ c, s.connections[0]? = some c ∧
      Words ⟨fun _ _ _ => true, fun _ => "h"⟩ (s.Registered 0) (receivedOf c.wire)
        (sentOf c.wire) :=
  ⟨_, ⟨loggedIn 0 "h", rfl⟩, _, rfl,
    server_words ⟨fun _ _ _ => true, fun _ => "h"⟩ ⟨loggedIn 0 "h", rfl⟩ rfl⟩

end CraftIp
