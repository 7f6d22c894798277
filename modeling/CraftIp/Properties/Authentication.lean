import CraftIp.Server.ProcessSocket

/-!
# Who is in the register

A hostname is in the register only if its session has proved that it owns the key of the
hostname, as long as no connection whose authentication timed out is greeted with success.

`process_socket_connection` reports a timeout to the client and then goes on to `handle`,
which registers the hostname the client asked for (`timedOut_registers`).

The proof is about one connection at a time: `Task.Justified` says what must have gone
over the wire before a task can be where it is.
-/

namespace CraftIp

open Infra

/-- The connection has answered its challenge with a signature of the key of this hostname. -/
def Authenticated (crypto : Crypto) (hostname : String) (wire : List Wire) : Prop :=
  ∃ packet publicKey challenge signature, packet.auth = .PublicKey publicKey ∧
    [.received (.ProxyHello packet), .sent (.ProxyAuthRequest challenge),
      .received (.ProxyAuthResponse signature)].Sublist wire ∧
    crypto.verify publicKey challenge signature = true ∧
    crypto.getHostname publicKey = hostname

theorem Authenticated.append {crypto : Crypto} {hostname : String} {wire : List Wire}
    (h : Authenticated crypto hostname wire) (log : List Wire) :
    Authenticated crypto hostname (wire ++ log) := by
  obtain ⟨packet, publicKey, challenge, signature, hkey, hwire, hverify, hhost⟩ := h
  exact ⟨packet, publicKey, challenge, signature, hkey,
    hwire.trans (List.sublist_append_left _ _), hverify, hhost⟩

/-- The hostname of a task that has got past `authenticate`. -/
def Task.session : Task → Option String
  | .entering hostname | .greeting hostname | .serving hostname | .closing hostname _ =>
    some hostname
  | _ => none

/-- What has gone over the wire when a task is where it is. -/
def Task.Justified (crypto : Crypto) (wire : List Wire) : Task → Prop
  | .challenging packet => [.received (.ProxyHello packet)].Sublist wire
  | .requesting packet challenge | .awaiting packet challenge =>
    [.received (.ProxyHello packet), .sent (.ProxyAuthRequest challenge)].Sublist wire
  | .entering hostname | .greeting hostname | .serving hostname | .closing hostname _ =>
    Authenticated crypto hostname wire
  | _ => True

theorem Task.Justified.authenticated {crypto : Crypto} {wire : List Wire} {task : Task}
    {hostname : String} (h : task.Justified crypto wire) (hs : task.session = some hostname) :
    Authenticated crypto hostname wire := by
  cases task <;> cases hs <;> exact h

/-- The arm of a timeout goes on after its `ProxyError` was sent. -/
def fallsThrough (s : Server) (l : Nat × Event) : Bool :=
  match s.connections[l.1]?, l.2 with
  | some ⟨.timedOut _, _⟩, .flushed (.ok ()) => true
  | _, _ => false

/-! ## One step -/

/-- A good answer to the challenge. -/
theorem checkResponse_ok {crypto : Crypto} {packet : ProxyHelloPacket}
    {challenge : ChallengeDataType} {answer : Option (Except String SocketPacket)}
    (h : ProxyClient.checkResponse crypto packet challenge answer = .ok ()) :
    ∃ publicKey signature, packet.auth = .PublicKey publicKey ∧
      answer = some (.ok (.ProxyAuthResponse signature)) ∧
      crypto.verify publicKey challenge signature = true ∧
      crypto.getHostname publicKey = packet.hostname := by
  unfold ProxyClient.checkResponse at h
  split at h
  · next publicKey signature hauth =>
    split at h
    · next hcheck =>
      simp only [Bool.and_eq_true, decide_eq_true_eq] at hcheck
      exact ⟨publicKey, signature, hauth, rfl, hcheck⟩
    · cases h
  · cases h

theorem Task.Justified.step {crypto : Crypto} {task task' : Task} {wire log : List Wire} {e : Event}
    (hj : task.Justified crypto wire) (h : task.step crypto e = some (task', log))
    (hf : ∀ packet, task = .timedOut packet → e ≠ .flushed (.ok ())) :
    task'.Justified crypto (wire ++ log) := by
  unfold Task.step at h
  split at h
  · next packet =>
    cases h
    cases packet <;> first | trivial | exact List.sublist_append_right _ _
  · cases h; trivial
  · cases h; trivial
  · next packet challenge => cases h; exact hj.append (.refl _)
  · cases h; trivial
  · cases h; trivial
  · cases h; exact hj.trans (List.sublist_append_left _ _)
  · cases h; trivial
  · cases h; trivial
  · next packet challenge answer =>
    split at h
    · next hok =>
      cases h
      obtain ⟨publicKey, signature, hauth, rfl, hverify, hhost⟩ := checkResponse_ok hok
      exact ⟨packet, publicKey, challenge, signature, hauth, hj.append (.refl _), hverify, hhost⟩
    · cases h; trivial
  · cases h; trivial
  · next packet => exact absurd rfl (hf packet rfl)
  · cases h; trivial
  · cases h; trivial
  · cases h; trivial
  · cases h; exact hj.append _
  · cases h; exact hj.append _
  · cases h; exact hj.append _
  · cases h; trivial
  · cases h

/-! ## Every run -/

/-- Every task is justified, and every entry of the register by its connection. -/
structure Server.Justified (crypto : Crypto) (s : Server) : Prop where
  task : ∀ (i : Nat) (c : Connection), s.connections[i]? = some c → c.task.Justified crypto c.wire
  entry : ∀ hostname i, s.register.servers.lookup hostname = some i →
    ∃ c, s.connections[i]? = some c ∧ Authenticated crypto hostname c.wire

theorem Server.Justified.new (crypto : Crypto) : Server.new.Justified crypto where
  task i c hc := by cases hc
  entry hostname i hl := by cases hl

/-- A connection goes on to a justified task, and the register stays. -/
theorem Server.Justified.goOn {crypto : Crypto} {s : Server} {i : Nat} {c : Connection} {task : Task}
    {log : List Wire} (hs : s.Justified crypto) (hc : s.connections[i]? = some c)
    (ht : task.Justified crypto (c.wire ++ log)) : (s.goOn i c task log).Justified crypto where
  task j c' hj := by
    rcases goOn_get hj with ⟨-, rfl⟩ | ⟨-, hj⟩
    · exact ht
    · exact hs.task j c' hj
  entry hostname j hl := by
    obtain ⟨c', hc', hauth⟩ := hs.entry hostname j hl
    by_cases hij : j = i
    · subst hij
      cases hc.symm.trans hc'
      exact ⟨_, goOn_self hc task log, hauth.append log⟩
    · exact ⟨c', (goOn_other task log hij).trans hc', hauth⟩

theorem Server.Justified.step {crypto : Crypto} {s s' : Server} {i : Nat} {e : Event}
    (hs : s.Justified crypto) (hf : fallsThrough s (i, e) = false)
    (h : Server.Step crypto s i e s') : s'.Justified crypto := by
  cases h with
  | accepted =>
    constructor
    · intro j c hj
      rcases getElem?_concat_iff.mp hj with hj | ⟨-, rfl⟩
      · exact hs.task j c hj
      · trivial
    · intro hostname j hl
      obtain ⟨c, hc, hauth⟩ := hs.entry hostname j hl
      exact ⟨c, getElem?_concat_iff.mpr (Or.inl hc), hauth⟩
  | task hc ht =>
    refine hs.goOn hc ((hs.task i _ hc).step ht ?_)
    intro packet hp he
    subst he
    rw [fallsThrough, hc] at hf
    rename_i c _ _
    obtain ⟨task, wire⟩ := c
    subst hp
    cases hf
  | @register _ c hostname hc ht =>
    have hauth : Authenticated crypto hostname c.wire :=
      (hs.task i c hc).authenticated (by rw [ht]; rfl)
    have hgo : (s.goOn i c (.greeting hostname)
        [.sent (.ProxyHelloResponse ⟨PROTOCOL_VERSION⟩)]).Justified crypto :=
      hs.goOn hc (hauth.append _)
    refine ⟨hgo.task, ?_⟩
    intro host j hl
    rw [Table.lookup_insert] at hl
    split at hl
    · next heq =>
      cases hl
      subst heq
      exact ⟨_, goOn_self hc _ _, hauth.append _⟩
    · exact hgo.entry host j hl
  | @channelClosed _ c hostname hc ht _ =>
    refine hs.goOn hc (Authenticated.append ?_ [])
    exact (hs.task i c hc).authenticated (by rw [ht]; rfl)
  | @close _ c hostname response hc ht =>
    have hgo : (s.goOn i c (.finished response) []).Justified crypto := hs.goOn hc trivial
    refine ⟨hgo.task, ?_⟩
    intro host j hl
    rw [Table.lookup_erase] at hl
    split at hl
    · cases hl
    · exact hgo.entry host j hl
  | found hc _ _ => exact hs.goOn hc trivial
  | notFound hc _ => exact hs.goOn hc trivial

/--
**Only authenticated connections register**, in every run in which no connection that timed
out during its authentication gets its `ProxyError` sent.

The second part is about every connection on its way into, in or behind `handle`.
-/
theorem registered_authenticated (crypto : Crypto) {s : Server}
    (h : ((serverMachine crypto).restrict fun s l => fallsThrough s l = false).Reachable s) :
    (∀ hostname i, s.register.servers.lookup hostname = some i →
      ∃ c, s.connections[i]? = some c ∧ Authenticated crypto hostname c.wire) ∧
    ∀ (i : Nat) (c : Connection) hostname, s.connections[i]? = some c → c.task.session = some hostname →
      Authenticated crypto hostname c.wire := by
  have hj : s.Justified crypto := by
    refine Machine.Reachable.restrict_invariant (I := Server.Justified crypto) ?_ ?_ h
    · exact .new crypto
    · rintro s ⟨i, e⟩ s' - hs hf hl
      exact hs.step hf (Server.step_cases hl)
  exact ⟨hj.entry, fun i c hostname hc ht => (hj.task i c hc).authenticated ht⟩

/-- The packet of a proxy client for the hostname `h`. -/
def helloFor (hostname : String) : ProxyHelloPacket :=
  { version := PROTOCOL_VERSION, hostname := hostname,
    auth := .PublicKey ⟨Vector.replicate 32 0⟩ }

/-- The steps of connection `i` up to its place in front of an answer. -/
def challenged (i : Nat) (hostname : String) : List (Nat × Event) :=
  [(i, .accepted), (i, .next (some (.ok (.ProxyHello (helloFor hostname))))),
    (i, .challenge (some (Vector.replicate 64 0))), (i, .flushed (.ok ()))]

/-- The steps of connection `i` up to its place in the loop. -/
def loggedIn (i : Nat) (hostname : String) : List (Nat × Event) :=
  challenged i hostname ++
    [(i, .next (some (.ok (.ProxyAuthResponse (Vector.replicate 64 0))))), (i, .register),
      (i, .flushed (.ok ()))]

theorem registered_authenticated_login : ∃ s,
    ((serverMachine ⟨fun _ _ _ => true, fun _ => "h"⟩).restrict
      fun s l => fallsThrough s l = false).Reachable s ∧
    s.register.servers.lookup "h" = some 0 ∧
    ∃ c, s.connections[0]? = some c ∧
      Authenticated ⟨fun _ _ _ => true, fun _ => "h"⟩ "h" c.wire :=
  ⟨_, ⟨loggedIn 0 "h", rfl⟩, rfl,
    (registered_authenticated ⟨fun _ _ _ => true, fun _ => "h"⟩ ⟨loggedIn 0 "h", rfl⟩).1 "h" 0 rfl⟩

/-- A client that never answers its challenge is registered after 10 s. -/
theorem timedOut_registers : ∃ s,
    (serverMachine ⟨fun _ _ _ => true, fun _ => "h"⟩).Reachable s ∧
    s.register.servers.lookup "h" = some 0 ∧
    ¬∃ c, s.connections[0]? = some c ∧
      Authenticated ⟨fun _ _ _ => true, fun _ => "h"⟩ "h" c.wire := by
  refine ⟨_, ⟨challenged 0 "h" ++ [(0, .timeout), (0, .flushed (.ok ())), (0, .register)], rfl⟩, rfl,
    ?_⟩
  rintro ⟨c, hc, packet, publicKey, challenge, signature, -, hwire, -⟩
  -- the answer is not among what was received
  have hmem : Wire.received (.ProxyAuthResponse signature) ∈ c.wire := hwire.subset (by simp)
  cases hc
  simp at hmem

end CraftIp
