import CraftIp.Infra.Simulation
import CraftIp.Properties.Statistics
import CraftIp.Tunnel

/-!
# The pings of a run

A proxy client sends a ping every second, and does not wait for the answers. The answers carry
no more than the stamp of their ping, so it matters that they come back in the order of the
pings, that none is lost, and that none comes twice.

* `pings_answered` — what is reported are the differences of the times at which the pings were
  sent and their answers were taken, one for each ping in its turn
-/

namespace CraftIp

open Infra

/-- The time of a ping or of an answer. -/
inductive Beat
  | sent (millis : Nat)
  | answered (millis : Nat)

/-- The times of the pings. -/
def sentAt (beats : List Beat) : List Nat :=
  beats.filterMap fun
    | .sent millis => some millis
    | .answered _ => none

/-- The times of the answers. -/
def answeredAt (beats : List Beat) : List Nat :=
  beats.filterMap fun
    | .answered millis => some millis
    | .sent _ => none

/-- What was reported to the user. -/
def pingsOf (stats : List Stats) : List UInt16 :=
  stats.filterMap fun
    | .Ping ping => some ping
    | _ => none

/-- The stamps of the pings that are on their way. -/
def pingStamps (packets : List (Nat × SocketPacket)) : List UInt16 :=
  packets.filterMap fun
    | (_, .ProxyPing n) => some n
    | _ => none

/-- The stamps of the answers that are on their way. -/
def pongStamps (packets : List (Nat × SocketPacket)) : List UInt16 :=
  packets.filterMap fun
    | (_, .ProxyPong n) => some n
    | _ => none

@[simp] theorem sentAt_append (p q : List Beat) : sentAt (p ++ q) = sentAt p ++ sentAt q :=
  List.filterMap_append

@[simp] theorem answeredAt_append (p q : List Beat) :
    answeredAt (p ++ q) = answeredAt p ++ answeredAt q := List.filterMap_append

@[simp] theorem pingsOf_append (p q : List Stats) : pingsOf (p ++ q) = pingsOf p ++ pingsOf q :=
  List.filterMap_append

@[simp] theorem pingStamps_append (p q : List (Nat × SocketPacket)) :
    pingStamps (p ++ q) = pingStamps p ++ pingStamps q := List.filterMap_append

@[simp] theorem pongStamps_append (p q : List (Nat × SocketPacket)) :
    pongStamps (p ++ q) = pongStamps p ++ pongStamps q := List.filterMap_append

/-- What is reported for a ping of the time `s` whose answer is taken at the time `t`. -/
def reported (s t : Nat) : UInt16 := Client.saturatingSub (Client.stamp t) (Client.stamp s)

namespace Tunnel

/-- What can be seen of a step. -/
def beat (t : Tunnel) : TunnelEvent → List Beat
  | .client (.ping millis) => [.sent millis]
  | .toClient millis =>
    match t.toClient with
    | (_, .ProxyPong _) :: _ => [.answered millis]
    | _ => []
  | _ => []

/-- The stamps that are on their way, those of the answers first. -/
def unanswered (t : Tunnel) : List UInt16 := pongStamps t.toClient ++ pingStamps t.toServer

/-- The pings that were not answered are on their way, in their order. -/
structure InTime (t : Tunnel) (beats : List Beat) : Prop where
  le : (answeredAt beats).length ≤ (sentAt beats).length
  waiting : ((sentAt beats).drop (answeredAt beats).length).map Client.stamp = t.unanswered
  reports : ∃ stats, t.client.state.statsTx = some stats ∧
    pingsOf stats = List.zipWith reported (sentAt beats) (answeredAt beats)

theorem inTime_new : new.InTime [] := ⟨Nat.le_refl 0, rfl, [], rfl, rfl⟩

/-! ## The two ends -/

/-- The packet that is taken. -/
def takenIn : SessionEvent → List (Nat × SocketPacket)
  | .packet k packet => [(k, packet)]
  | _ => []

/-- The time of a ping. -/
def pingOf : ClientEvent → List Nat
  | .ping millis => [millis]
  | _ => []

/-- What the client reports. -/
def reportOf : ClientEvent → List UInt16
  | .packet _ (.ProxyPong n) millis => [Client.saturatingSub (Client.stamp millis) n]
  | _ => []

/-- The session answers pings, and no answer comes from elsewhere. -/
theorem session_stamps {s s' : Session} {e : SessionEvent} {out : List (Nat × SocketPacket)}
    (h : Session.Step s e s' out) : pongStamps out = pingStamps (takenIn e) := by
  cases h with
  | @remove k addr queue hr hq => cases s.distributor.clientsAddr.lookup addr <;> rfl
  | @ignored src p hr hp => cases p <;> first | rfl | cases hp
  | _ => rfl

theorem client_stamps {c c' : Client} {e : ClientEvent} {out : List (Nat × SocketPacket)}
    (h : Client.Step c e c' out) : pingStamps out = (pingOf e).map Client.stamp := by
  cases h <;> rfl

theorem sendStats_statsTx {state : State} {stats : List Stats} (h : state.statsTx = some stats)
    (x : Stats) : (state.sendStats x).statsTx = some (stats ++ [x]) := by
  rw [State.sendStats, h]
  rfl

theorem client_reports {c c' : Client} {e : ClientEvent} {out : List (Nat × SocketPacket)}
    (h : c.step e = some (c', out)) {stats : List Stats} (hstats : c.state.statsTx = some stats) :
    ∃ stats', c'.state.statsTx = some stats' ∧ pingsOf stats' = pingsOf stats ++ reportOf e := by
  have hsame {state : State} (h : state.statsTx = some stats) (he : reportOf e = []) :
      ∃ stats', state.statsTx = some stats' ∧ pingsOf stats' = pingsOf stats ++ reportOf e :=
    ⟨stats, h, by rw [he, List.append_nil]⟩
  have hsent {state : State} {x : Stats} (h : state.statsTx = some (stats ++ [x]))
      (he : reportOf e = pingsOf [x]) :
      ∃ stats', state.statsTx = some stats' ∧ pingsOf stats' = pingsOf stats ++ reportOf e :=
    ⟨_, h, by rw [he, pingsOf_append]⟩
  cases Client.step_cases h with
  | join hr =>
    exact hsent (sendStats_statsTx hstats _) rfl
  | remove hr hq hc =>
    exact hsent (sendStats_statsTx hstats _) rfl
  | removeNone hr hq hc =>
    exact hsent (sendStats_statsTx hstats _) rfl
  | disconnected hr =>
    exact hsent (sendStats_statsTx hstats _) rfl
  | @pong k n millis x hr =>
    -- the step does not say what is sent
    simp only [Client.step, hr, Option.isNone_none, if_true] at h
    have hstate := congrArg (fun v => v.1.state.statsTx) (Option.some.inj h)
    exact hsent (hstate.symm.trans (sendStats_statsTx hstats (.Ping _))) rfl
  | @unimplemented k p millis msg hr hp =>
    refine hsame hstats ?_
    cases p <;> first | rfl | cases hp
  | _ => exact hsame hstats rfl

/-! ## The run -/

/-- Only as many pings count as there are answers. -/
theorem zipWith_take (S A : List Nat) :
    List.zipWith reported S A = List.zipWith reported (S.take A.length) A := by
  induction A generalizing S with
  | nil => simp
  | cons a A ih =>
    cases S with
    | nil => rfl
    | cons s S => simp [ih S]

/-- A new ping is not answered yet. -/
theorem zipWith_append_left {S A : List Nat} (T : List Nat) (h : A.length ≤ S.length) :
    List.zipWith reported (S ++ T) A = List.zipWith reported S A := by
  rw [zipWith_take (S ++ T), List.take_append_of_le_length h, ← zipWith_take]

/-- The answers are those of the first pings. -/
theorem zipWith_append_right {S A : List Nat} (B : List Nat) (h : A.length ≤ S.length) :
    List.zipWith reported S (A ++ B)
      = List.zipWith reported S A ++ List.zipWith reported (S.drop A.length) B := by
  have hlen : (S.take A.length).length = A.length := List.length_take_of_le h
  calc List.zipWith reported S (A ++ B)
      = List.zipWith reported (S.take A.length ++ S.drop A.length) (A ++ B) := by
        rw [List.take_append_drop]
    _ = _ := by rw [List.zipWith_append hlen, ← zipWith_take]

theorem beat_client (t : Tunnel) (e : ClientEvent) :
    t.beat (.client e) = (pingOf e).map Beat.sent := by
  cases e <;> rfl

/-- No ping is sent, and no answer is taken. -/
theorem InTime.idle {t t' : Tunnel} {beats : List Beat} (h : t.InTime beats)
    (hwaiting : t'.unanswered = t.unanswered)
    (hreports : ∀ stats, t.client.state.statsTx = some stats →
      ∃ stats', t'.client.state.statsTx = some stats' ∧ pingsOf stats' = pingsOf stats) :
    t'.InTime beats := by
  obtain ⟨hle, hst, stats, hstats, hpings⟩ := h
  obtain ⟨stats', hstats', heq⟩ := hreports stats hstats
  exact ⟨hle, hst.trans hwaiting.symm, stats', hstats', heq.trans hpings⟩

/-- The client does something by itself, and may send a ping. -/
theorem InTime.client {t : Tunnel} {beats : List Beat} (h : t.InTime beats) {e : ClientEvent}
    {client : Client} {out : List (Nat × SocketPacket)}
    (hstep : t.client.step e = some (client, out))
    (he : ∀ k packet millis, e ≠ .packet k packet millis) :
    InTime { t with client := client, toServer := t.toServer ++ out }
      (beats ++ t.beat (.client e)) := by
  obtain ⟨hle, hst, stats, hstats, hpings⟩ := h
  have hout := client_stamps (Client.step_cases hstep)
  have hreport : reportOf e = [] := by
    cases e <;> first | rfl | exact absurd rfl (he _ _ _)
  obtain ⟨stats', hstats', heq⟩ := client_reports hstep hstats
  rw [hreport, List.append_nil] at heq
  have hsent : sentAt (t.beat (.client e)) = pingOf e := by
    rw [beat_client]
    cases e <;> rfl
  have hanswered : answeredAt (t.beat (.client e)) = [] := by
    rw [beat_client]
    cases e <;> rfl
  refine ⟨?_, ?_, stats', hstats', ?_⟩
  · rw [answeredAt_append, sentAt_append, hanswered, List.append_nil, List.length_append]
    exact Nat.le_trans hle (Nat.le_add_right _ _)
  · rw [answeredAt_append, sentAt_append, hanswered, hsent, List.append_nil,
      List.drop_append_of_le_length hle, List.map_append, hst]
    simp [unanswered, hout]
  · rw [answeredAt_append, sentAt_append, hanswered, hsent, List.append_nil,
      zipWith_append_left _ hle, heq, hpings]

/-- An answer is that of the first ping that waits for one. -/
theorem InTime.answered {t : Tunnel} {beats : List Beat} (h : t.InTime beats) {k millis : Nat}
    {n : UInt16} {toClient out : List (Nat × SocketPacket)} {client : Client}
    (hq : t.toClient = (k, .ProxyPong n) :: toClient)
    (hstep : t.client.step (.packet k (.ProxyPong n) millis) = some (client, out)) :
    InTime { t with client := client, toClient := toClient, toServer := t.toServer ++ out }
      (beats ++ [.answered millis]) := by
  obtain ⟨hle, hst, stats, hstats, hpings⟩ := h
  have hout := client_stamps (Client.step_cases hstep)
  obtain ⟨stats', hstats', heq⟩ := client_reports hstep hstats
  rw [unanswered, hq] at hst
  obtain ⟨s, rest, hdrop, hstamp, hrest⟩ := List.map_eq_cons_iff.mp hst
  have hlt : (answeredAt beats).length < (sentAt beats).length := by
    have hlen := congrArg List.length hdrop
    rw [List.length_drop, List.length_cons] at hlen
    omega
  have hsent : sentAt (beats ++ [.answered millis]) = sentAt beats := by
    rw [sentAt_append]
    exact List.append_nil _
  have hanswered : answeredAt (beats ++ [.answered millis]) = answeredAt beats ++ [millis] :=
    answeredAt_append _ _
  refine ⟨?_, ?_, stats', hstats', ?_⟩
  · rw [hsent, hanswered, List.length_append]
    exact hlt
  · have hnext := List.drop_drop (l := sentAt beats) (i := 1) (j := (answeredAt beats).length)
    rw [hdrop] at hnext
    rw [hsent, hanswered, List.length_append, List.length_singleton, ← hnext]
    show rest.map Client.stamp = pongStamps toClient ++ pingStamps (t.toServer ++ out)
    rw [hrest, pingStamps_append, hout]
    simp [pingOf, pongStamps]
  · rw [hsent, hanswered, zipWith_append_right _ hle, hdrop, heq, hpings, ← hstamp,
      List.zipWith_cons_cons, List.zipWith_nil_right]
    rfl

/-- Any other packet is taken. -/
theorem InTime.taken {t : Tunnel} {beats : List Beat} (h : t.InTime beats) {k millis : Nat}
    {packet : SocketPacket} {toClient out : List (Nat × SocketPacket)} {client : Client}
    (hq : t.toClient = (k, packet) :: toClient) (hpong : ∀ n, packet ≠ .ProxyPong n)
    (hstep : t.client.step (.packet k packet millis) = some (client, out)) :
    InTime { t with client := client, toClient := toClient, toServer := t.toServer ++ out }
      beats := by
  have hout := client_stamps (Client.step_cases hstep)
  refine h.idle ?_ ?_
  · have hnone : pongStamps [(k, packet)] = [] := by
      cases packet <;> first | rfl | exact absurd rfl (hpong _)
    have hsplit := pongStamps_append [(k, packet)] toClient
    rw [List.singleton_append, ← hq, hnone, List.nil_append] at hsplit
    simp [unanswered, hout, pingOf, hsplit]
  · intro stats hstats
    have hreport : reportOf (.packet k packet millis) = [] := by
      cases packet <;> first | rfl | exact absurd rfl (hpong _)
    obtain ⟨stats', hstats', heq⟩ := client_reports hstep hstats
    rw [hreport, List.append_nil] at heq
    exact ⟨stats', hstats', heq⟩

theorem InTime.step {t t' : Tunnel} {beats : List Beat} {e : TunnelEvent} (h : t.InTime beats)
    (hs : t.step e = some t') : t'.InTime (beats ++ t.beat e) := by
  cases e with
  | server e =>
    have hnil : t.beat (.server e) = [] := rfl
    rw [hnil, List.append_nil]
    cases Tunnel.step_cases hs with
    | @server _ server out he hstep =>
      refine h.idle ?_ fun stats hstats => ⟨stats, hstats, rfl⟩
      have hout := session_stamps hstep
      have htaken : takenIn e = [] := by
        cases e <;> first | rfl | exact absurd rfl (he _ _)
      rw [htaken] at hout
      rw [unanswered, pongStamps_append, hout]
      simp [unanswered, pingStamps]
  | client e =>
    simp only [Tunnel.step] at hs
    split at hs
    · cases hs
    · next he =>
      obtain ⟨⟨client, out⟩, hstep, heq⟩ := Option.bind_eq_some_iff.mp hs
      cases heq
      exact h.client hstep he
  | toServer =>
    have hnil : t.beat .toServer = [] := rfl
    rw [hnil, List.append_nil]
    cases Tunnel.step_cases hs with
    | @toServer k packet toServer server out hq hstep =>
      refine h.idle ?_ fun stats hstats => ⟨stats, hstats, rfl⟩
      have hout := session_stamps hstep
      -- the ping that is taken is answered at once
      have hsplit := pingStamps_append [(k, packet)] toServer
      rw [List.singleton_append, ← hq] at hsplit
      simp [unanswered, hout, hsplit, takenIn]
  | toClient millis =>
    simp only [Tunnel.step] at hs
    split at hs
    · cases hs
    · next k packet toClient hq =>
      obtain ⟨⟨client, out⟩, hstep, heq⟩ := Option.bind_eq_some_iff.mp hs
      cases heq
      by_cases hpong : ∃ n, packet = .ProxyPong n
      · obtain ⟨n, rfl⟩ := hpong
        have hbeat : t.beat (.toClient millis) = [.answered millis] := by rw [beat, hq]
        rw [hbeat]
        exact h.answered hq hstep
      · have hother : ∀ n, packet ≠ .ProxyPong n := fun n heq => hpong ⟨n, heq⟩
        have hbeat : t.beat (.toClient millis) = [] := by
          rw [beat, hq]
          cases packet <;> first | rfl | exact absurd rfl (hother _)
        rw [hbeat, List.append_nil]
        exact h.taken hq hother hstep

end Tunnel

/--
**Every ping is reported in its turn.** In every run of a session and its proxy client,

* the `m`-th report is the difference of the stamps of the `m`-th answer and the `m`-th ping, and
  there are no more answers than pings, and
* the pings that were not answered are on their way, in their order: the answers to the first of
  them on the way to the client, and the others on the way to the session.
-/
theorem pings_answered {es : List TunnelEvent} {t : Tunnel}
    (h : tunnelMachine.run .new es = some t) :
    (∃ stats, t.client.state.statsTx = some stats ∧
      pingsOf stats = List.zipWith reported (sentAt (tunnelMachine.trace Tunnel.beat .new es))
        (answeredAt (tunnelMachine.trace Tunnel.beat .new es))) ∧
    (answeredAt (tunnelMachine.trace Tunnel.beat .new es)).length
      ≤ (sentAt (tunnelMachine.trace Tunnel.beat .new es)).length ∧
    ((sentAt (tunnelMachine.trace Tunnel.beat .new es)).drop
        (answeredAt (tunnelMachine.trace Tunnel.beat .new es)).length).map Client.stamp
      = pongStamps t.toClient ++ pingStamps t.toServer := by
  have hin : t.InTime (tunnelMachine.trace Tunnel.beat .new es) :=
    Machine.trace_invariant (m := tunnelMachine) (I := Tunnel.InTime) Tunnel.inTime_new
      (fun _ _ _ _ _ hI hl => hI.step hl) h
  exact ⟨hin.reports, hin.le, hin.waiting⟩

/-- Three pings: one is answered, and of the others one has reached the session. -/
def threePings : List TunnelEvent :=
  [.client (.ping 1000), .toServer, .client (.ping 2000), .toClient 1040, .toServer,
    .client (.ping 3000)]

theorem pings_answered_three : ∃ t, tunnelMachine.run .new threePings = some t ∧
    pongStamps t.toClient ++ pingStamps t.toServer = [2000, 3000] ∧
    ∃ stats, t.client.state.statsTx = some stats ∧ pingsOf stats = [40] := by
  obtain ⟨t, hrun⟩ : ∃ t, tunnelMachine.run .new threePings = some t :=
    Option.isSome_iff_exists.mp rfl
  obtain ⟨⟨stats, hstats, hpings⟩, -, hwaiting⟩ := pings_answered hrun
  have hsent : sentAt (tunnelMachine.trace Tunnel.beat .new threePings) = [1000, 2000, 3000] := rfl
  have hanswered : answeredAt (tunnelMachine.trace Tunnel.beat .new threePings) = [1040] := rfl
  rw [hsent, hanswered] at hpings hwaiting
  exact ⟨t, hrun, hwaiting.symm, stats, hstats, by rw [hpings]; decide⟩

end CraftIp
