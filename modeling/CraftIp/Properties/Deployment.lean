import CraftIp.Deployment
import CraftIp.Properties.Isolation
import CraftIp.Properties.Transport

/-!
# The tenants of a server

Whatever strangers and Minecraft clients send,

* `tenant_tunnel` — a session and its proxy client are in a state that a tunnel reaches, so what
  holds of every tunnel holds of every tenant of a server
* `players_served` — a Minecraft client of a tenant gets what the local server has said to it, and
  the local server gets what it has sent
-/

namespace CraftIp

open Infra

/-! ## What a step of the server is to one session -/

namespace Host

variable {crypto : Crypto}

/-- The step of the server is this step of session `i`. -/
inductive Acts (s : Host) (i : Nat) : HostEvent → SessionEvent → Prop
  | loop (e : SessionEvent) (he : e.isLoop = true) : Acts s i (.loop i e) e
  | leave (e : Event) : Acts s i (.task i e) .leave
  | broken (e : Event) (x : String) : Acts s i (.task i e) (.broken x)
  | join {j : Nat} {c : Connection} (addr : SocketAddr) (hello : MinecraftDataPacket)
      (hc : s.server.connections[j]? = some c) (ht : c.task = .minecraft i) :
      Acts s i (.join j addr) (.join addr hello)
  | guest {j k : Nat} (e : GuestEvent) (hg : s.guests.lookup j = some (.inside i k)) :
      Acts s i (.guest j e) (e.toSession k)

/-- The step of the server is none of the loop of session `i`, nor of one of its clients. -/
def Elsewhere (s : Host) (i : Nat) (l : HostEvent) : Prop :=
  (∀ e, l ≠ .loop i e) ∧ ∀ j e k, l = .guest j e → s.guests.lookup j ≠ some (.inside i k)

/-- A connection that is registered had no session, and has a new one. -/
theorem Inv.entering {s s' : Host} (hs : s.Inv crypto) {i : Nat}
    (h : Step crypto s (.task i .register) s') :
    s.sessions.lookup i = none ∧ s'.sessions = s.sessions.insert i .new := by
  cases h with
  | task hstep hp =>
    obtain ⟨c, _, hc, -⟩ := register_eq hstep
    exact absurd (hp c hc) id
  | register hstep =>
    obtain ⟨c, hostname, hc, ht, -⟩ := register_eq hstep
    have hfits := hs.fits i c hc
    rw [ht] at hfits
    exact ⟨hfits, rfl⟩
  | dismissed hstep hc ht hg hl =>
    rcases hl with hl | ⟨addr, hl⟩ <;> cases hl
  | ends hserver hc ht he hsession hstep hr hl =>
    rcases hl with hl | ⟨-, hl⟩
    · cases hl
    · cases hl
      obtain ⟨c, hostname, hc', ht', -⟩ := register_eq hserver
      cases hc.symm.trans hc'
      rcases ht.1 with ht | ht <;> cases ht.symm.trans ht'

/-- **A session takes its own steps only.** -/
theorem Step.session {s s' : Host} {l : HostEvent} (h : Step crypto s l s') (hs : s.Inv crypto)
    {i : Nat} {t : Session} (ht : s.sessions.lookup i = some t) :
    (s'.sessions.lookup i = some t ∧ s.Elsewhere i l) ∨
      ∃ e t' out, s.Acts i l e ∧ t.step e = some (t', out) ∧
        s'.sessions.lookup i = some t' := by
  -- session `b` takes a step
  have hinsert {b : Nat} {session session' : Session} {e : SessionEvent}
      {out : List (Nat × SocketPacket)} (hsession : s.sessions.lookup b = some session)
      (hstep : session.step e = some (session', out)) (hacts : s.Acts b l e)
      (helse : i ≠ b → s.Elsewhere i l) :
      ((s.sessions.insert b session').lookup i = some t ∧ s.Elsewhere i l) ∨
        ∃ e t' out, s.Acts i l e ∧ t.step e = some (t', out) ∧
          (s.sessions.insert b session').lookup i = some t' := by
    rw [Table.lookup_insert]
    by_cases hib : i = b
    · subst hib
      cases hsession.symm.trans ht
      exact Or.inr ⟨e, session', out, hacts, hstep, if_pos rfl⟩
    · exact Or.inl ⟨by rw [if_neg hib, ht], helse hib⟩
  have htask {e : Event} {j : Nat} (hl : l = .task j e) : s.Elsewhere i l := by
    subst hl
    exact ⟨fun _ => HostEvent.noConfusion, fun _ _ _ => HostEvent.noConfusion⟩
  cases h with
  | task hstep hp => exact Or.inl ⟨ht, htask rfl⟩
  | @register b server hstep =>
    have hib : i ≠ b := by
      rintro rfl
      cases (hs.entering (.register hstep)).1.symm.trans ht
    refine Or.inl ⟨?_, htask rfl⟩
    show (s.sessions.insert b .new).lookup i = _
    rw [Table.lookup_insert, if_neg hib, ht]
  | found hstep hc htask' hl => exact Or.inl ⟨ht, htask rfl⟩
  | dismissed hstep hc htask' hg hl =>
    refine Or.inl ⟨ht, ?_⟩
    rcases hl with rfl | ⟨addr, rfl⟩
    · exact htask rfl
    · exact ⟨fun _ => HostEvent.noConfusion, fun _ _ _ => HostEvent.noConfusion⟩
  | goes hc htask' he hsession hstep hr =>
    refine hinsert hsession hstep (.loop _ he) fun hib => ⟨?_, fun _ _ _ => HostEvent.noConfusion⟩
    rintro e ⟨⟩
    exact hib rfl
  | ends hserver hc htask' he hsession hstep hr hl =>
    rcases hl with rfl | ⟨rfl | ⟨x, rfl⟩, rfl⟩
    · refine hinsert hsession hstep (.loop _ he) fun hib => ⟨?_, fun _ _ _ => HostEvent.noConfusion⟩
      rintro e ⟨⟩
      exact hib rfl
    · exact hinsert hsession hstep (.leave _) fun _ => htask rfl
    · exact hinsert hsession hstep (.broken _ x) fun _ => htask rfl
  | join hc htask' hg hsession hstep =>
    exact hinsert hsession hstep (.join _ _ hc htask') fun _ =>
      ⟨fun _ => HostEvent.noConfusion, fun _ _ _ => HostEvent.noConfusion⟩
  | guest hg hsession hstep hm =>
    refine hinsert hsession hstep (.guest _ hg) fun hib => ⟨fun _ => HostEvent.noConfusion, ?_⟩
    rintro j e k ⟨⟩ hg'
    cases hg.symm.trans hg'
    exact hib rfl
  | left hserver hg hsession hstep hm =>
    refine hinsert hsession hstep (.guest _ hg) fun hib => ⟨fun _ => HostEvent.noConfusion, ?_⟩
    rintro j e k ⟨⟩ hg'
    cases hg.symm.trans hg'
    exact hib rfl

/-- Who is a client of a session stays that client. -/
theorem Step.inside {s s' : Host} {l : HostEvent} (h : Step crypto s l s') (hs : s.Inv crypto)
    {j i k : Nat} (hj : s.guests.lookup j = some (.inside i k)) :
    s'.guests.lookup j = some (.inside i k) := by
  cases h with
  | @found b i' c packet server hstep hc ht hl =>
    have hnone : s.guests.lookup b = none := by
      refine hs.guest_none ?_
      intro c' hc'
      cases hc.symm.trans hc'
      rw [ht]
      exact ⟨fun _ => Task.noConfusion, fun _ => Task.noConfusion⟩
    have hjb : j ≠ b := by
      rintro rfl
      cases hnone.symm.trans hj
    show (s.guests.insert b _).lookup j = _
    rw [Table.lookup_insert, if_neg hjb, hj]
  | @dismissed b i' c hello result server _ hstep hc ht hg hl =>
    have hjb : j ≠ b := by
      rintro rfl
      cases hg.symm.trans hj
    show (s.guests.erase b).lookup j = _
    rw [Table.lookup_erase, if_neg hjb, hj]
  | @join b i' c hello addr session session' out hc ht hg hsession hstep =>
    have hjb : j ≠ b := by
      rintro rfl
      cases hg.symm.trans hj
    show (s.guests.insert b _).lookup j = _
    rw [Table.lookup_insert, if_neg hjb, hj]
  | _ => exact hj

/-- Only the loop sends something. -/
theorem Acts.out_nil {s : Host} {i : Nat} {l : HostEvent} {e : SessionEvent} {t t' : Session}
    {out : List (Nat × SocketPacket)} (h : s.Acts i l e) (hl : ∀ e, l ≠ .loop i e)
    (hstep : t.step e = some (t', out)) : out = [] := by
  have hs := Session.step_cases hstep
  cases h with
  | loop e he => exact absurd rfl (hl e)
  | leave => cases hs; rfl
  | broken => cases hs; rfl
  | join => exact hs.out_nil rfl
  | guest e hg => exact hs.out_nil (by cases e <;> rfl)

/-- What the loop sends in the step that it takes. -/
theorem sent_eq {s : Host} {i : Nat} {e : SessionEvent} {t t' : Session}
    {out : List (Nat × SocketPacket)} (ht : s.sessions.lookup i = some t)
    (hstep : t.step e = some (t', out)) : s.sent i e = out := by
  simp [sent, ht, hstep]

end Host

/-! ## The tunnel of a tenant -/

namespace Deployment

variable {crypto : Crypto}

theorem tunnelOf_eq_some {s : Deployment} {i : Nat} {t : Tunnel} :
    s.tunnelOf i = some t ↔ s.host.sessions.lookup i = some t.server ∧
      s.tenants.lookup i = some ⟨t.client, t.toClient, t.toServer⟩ := by
  constructor
  · intro h
    obtain ⟨tenant, htenant, h⟩ := Option.bind_eq_some_iff.mp h
    obtain ⟨session, hsession, h⟩ := Option.bind_eq_some_iff.mp h
    cases h
    exact ⟨hsession, htenant⟩
  · rintro ⟨hsession, htenant⟩
    simp [tunnelOf, htenant, hsession]

theorem lookup_send (tenants : Table Nat Tenant) (i j : Nat) (out : List (Nat × SocketPacket)) :
    (send tenants i out).lookup j = if j = i
      then (tenants.lookup i).map fun t => { t with toClient := t.toClient ++ out }
      else tenants.lookup j := by
  unfold send
  split
  · next tenant h => rw [Table.lookup_insert, h]; rfl
  · next h =>
    split
    · next hij => rw [hij, h]; rfl
    · rfl

/-- The step is this step of the tunnel of session `i`. -/
inductive Acts (s : Deployment) (i : Nat) : DeploymentEvent → TunnelEvent → Prop
  | host {l : HostEvent} {e : SessionEvent} (h : s.host.Acts i l e) : Acts s i (.host l) (.server e)
  | toServer : Acts s i (.toServer i) .toServer
  | client (e : ClientEvent) : Acts s i (.client i e) (.client e)
  | toClient (millis : Nat) : Acts s i (.toClient i millis) (.toClient millis)

/-- The step is none of session `i`, of its clients or of its proxy client. -/
def Elsewhere (s : Deployment) (i : Nat) : DeploymentEvent → Prop
  | .host l => s.host.Elsewhere i l
  | .enter j | .toServer j | .client j _ | .toClient j _ => j ≠ i

/-- **A tunnel takes its own steps only.** -/
theorem Step.tenant {s s' : Deployment} {l : DeploymentEvent} (h : Step crypto s l s')
    (hs : s.host.Inv crypto) {i : Nat} {t : Tunnel} (ht : s.tunnelOf i = some t) :
    (s'.tunnelOf i = some t ∧ s.Elsewhere i l) ∨
      ∃ e t', s.Acts i l e ∧ t.step e = some t' ∧ s'.tunnelOf i = some t' := by
  obtain ⟨hsession, htenant⟩ := tunnelOf_eq_some.mp ht
  -- the loop of session `b` takes a step
  have hloop {b : Nat} {e : SessionEvent} {host : Host}
      (h : s.host.step crypto (.loop b e) = some host) :
      (b ≠ i ∧ host.sessions.lookup i = some t.server) ∨
        ∃ server, b = i ∧ e.isLoop = true ∧ t.server.step e = some (server, s.host.sent b e) ∧
          host.sessions.lookup i = some server := by
    rcases (Host.step_cases h).session hs hsession with
      ⟨hsame, helse, -⟩ | ⟨e', server, out, hacts, hstep, hnew⟩
    · refine Or.inl ⟨?_, hsame⟩
      rintro rfl
      exact helse e rfl
    · cases hacts with
      | loop _ he =>
        exact Or.inr ⟨server, rfl, he, by rw [Host.sent_eq hsession hstep, hstep], hnew⟩
  have hother {b : Nat} (hb : b ≠ i) (tenant : Tenant) :
      (s.tenants.insert b tenant).lookup i = s.tenants.lookup i := by
    rw [Table.lookup_insert, if_neg (Ne.symm hb)]
  have hown (tenant : Tenant) : (s.tenants.insert i tenant).lookup i = some tenant := by
    rw [Table.lookup_insert, if_pos rfl]
  cases h with
  | @host l host h hl =>
    rcases (Host.step_cases h).session hs hsession with
      ⟨hsame, helse⟩ | ⟨e, server, out, hacts, hstep, hnew⟩
    · exact Or.inl ⟨tunnelOf_eq_some.mpr ⟨hsame, htenant⟩, helse⟩
    · have hout := hacts.out_nil (hl i) hstep
      subst hout
      have he (k : Nat) (packet : SocketPacket) : e ≠ .packet k packet := by
        cases hacts with
        | loop e he => exact absurd rfl (hl i e)
        | guest e hg => cases e <;> exact SessionEvent.noConfusion
        | _ => exact SessionEvent.noConfusion
      refine Or.inr ⟨_, _, .host hacts, Tunnel.step_server he hstep, tunnelOf_eq_some.mpr ⟨hnew, ?_⟩⟩
      rw [List.append_nil]
      exact htenant
  | @loop b e host h hp =>
    rcases hloop h with ⟨hb, hsame⟩ | ⟨server, rfl, he, hstep, hnew⟩
    · refine Or.inl ⟨tunnelOf_eq_some.mpr ⟨hsame, ?_⟩, ?_, fun _ _ _ => HostEvent.noConfusion⟩
      · show (send s.tenants b _).lookup i = _
        rw [lookup_send, if_neg (Ne.symm hb), htenant]
      · rintro e ⟨⟩
        exact hb rfl
    · have hpacket (k : Nat) (packet : SocketPacket) : e ≠ .packet k packet := by
        rintro rfl
        cases (hp k packet rfl).symm.trans htenant
      refine Or.inr ⟨_, _, .host (.loop e he), Tunnel.step_server hpacket hstep,
        tunnelOf_eq_some.mpr ⟨hnew, ?_⟩⟩
      show (send s.tenants b _).lookup b = _
      rw [lookup_send, if_pos rfl, htenant]
      rfl
  | @enter b host h =>
    have hb : b ≠ i := by
      rintro rfl
      cases (hs.entering (Host.step_cases h)).1.symm.trans hsession
    rcases (Host.step_cases h).session hs hsession with ⟨hsame, -⟩ | ⟨e, server, out, hacts, -, -⟩
    · exact Or.inl ⟨tunnelOf_eq_some.mpr ⟨hsame, (hother hb _).trans htenant⟩, hb⟩
    · cases hacts <;> exact absurd rfl hb
  | @toServer b tenant k packet toServer host htb hq h =>
    rcases hloop h with ⟨hb, hsame⟩ | ⟨server, rfl, he, hstep, hnew⟩
    · exact Or.inl ⟨tunnelOf_eq_some.mpr ⟨hsame, (hother hb _).trans htenant⟩, hb⟩
    · cases htenant.symm.trans htb
      exact Or.inr ⟨_, _, .toServer, Tunnel.step_toServer hq hstep,
        tunnelOf_eq_some.mpr ⟨hnew, hown _⟩⟩
  | @client b e tenant client out htb he h =>
    by_cases hb : b = i
    · subst hb
      cases htenant.symm.trans htb
      exact Or.inr ⟨_, _, .client e, Tunnel.step_client he h,
        tunnelOf_eq_some.mpr ⟨hsession, hown _⟩⟩
    · exact Or.inl ⟨tunnelOf_eq_some.mpr ⟨hsession, (hother hb _).trans htenant⟩, hb⟩
  | @toClient b millis tenant k packet toClient client out htb hq h =>
    by_cases hb : b = i
    · subst hb
      cases htenant.symm.trans htb
      exact Or.inr ⟨_, _, .toClient millis, Tunnel.step_toClient hq h,
        tunnelOf_eq_some.mpr ⟨hsession, hown _⟩⟩
    · exact Or.inl ⟨tunnelOf_eq_some.mpr ⟨hsession, (hother hb _).trans htenant⟩, hb⟩

/-- Nobody else is in the way, see `Tunnel.unmistakable`. -/
def unmistakable (s : Deployment) (i : Nat) : DeploymentEvent → Bool
  | .host (.loop j e) => j ≠ i || (s.tunnelOf i).all fun t => t.unmistakable (.server e)
  | .client j e => j ≠ i || (s.tunnelOf i).all fun t => t.unmistakable (.client e)
  | _ => true

theorem Acts.unmistakable {s : Deployment} {i : Nat} {l : DeploymentEvent} {e : TunnelEvent}
    {t : Tunnel} (h : s.Acts i l e) (ht : s.tunnelOf i = some t)
    (hc : s.unmistakable i l = true) : t.unmistakable e = true := by
  cases h with
  | host h =>
    cases h with
    | loop e he => simpa [Deployment.unmistakable, ht] using hc
    | guest e hg => cases e <;> rfl
    | _ => rfl
  | client e => simpa [Deployment.unmistakable, ht] using hc
  | toServer => rfl
  | toClient millis => rfl

/-! ## Every run -/

/-- Every tenant has a tunnel. -/
structure Inv (crypto : Crypto) (s : Deployment) : Prop where
  host : (hostMachine crypto).Reachable s.host
  tunnel : ∀ i, s.tenants.lookup i ≠ none →
    ∃ t, s.tunnelOf i = some t ∧ tunnelMachine.Reachable t

theorem inv_new (crypto : Crypto) : new.Inv crypto where
  host := .init _
  tunnel _ h := absurd rfl h

/-- Who is a tenant after a step was one before, or has entered. -/
theorem Step.before {s s' : Deployment} {l : DeploymentEvent} (h : Step crypto s l s')
    (hs : s.host.Inv crypto) {i : Nat} (hi : s'.tenants.lookup i ≠ none) :
    s.tenants.lookup i ≠ none ∨ l = .enter i ∧ s'.tunnelOf i = some .new := by
  have hinsert {b : Nat} {old new : Tenant} (hb : s.tenants.lookup b = some old)
      (hi : (s.tenants.insert b new).lookup i ≠ none) : s.tenants.lookup i ≠ none := by
    rw [Table.lookup_insert] at hi
    split at hi
    · next hib => exact hib ▸ Option.ne_none_iff_exists'.mpr ⟨old, hb⟩
    · exact hi
  cases h with
  | host h hl => exact Or.inl hi
  | @loop b e host h hp =>
    refine Or.inl ?_
    rw [lookup_send] at hi
    split at hi
    · next hib =>
      intro hnone
      exact hi (by rw [← hib, hnone]; rfl)
    · exact hi
  | @enter b host h =>
    rw [Table.lookup_insert] at hi
    split at hi
    · next hib =>
      subst hib
      refine Or.inr ⟨rfl, tunnelOf_eq_some.mpr ⟨?_, ?_⟩⟩
      · show host.sessions.lookup i = _
        rw [(hs.entering (Host.step_cases h)).2, Table.lookup_insert, if_pos rfl]
        rfl
      · rw [Table.lookup_insert, if_pos rfl]
        rfl
    · exact Or.inl hi
  | toServer ht hq h => exact Or.inl (hinsert ht hi)
  | client ht he h => exact Or.inl (hinsert ht hi)
  | toClient ht hq h => exact Or.inl (hinsert ht hi)

theorem Step.host_reachable {s s' : Deployment} {l : DeploymentEvent} (h : Step crypto s l s')
    (hs : (hostMachine crypto).Reachable s.host) : (hostMachine crypto).Reachable s'.host := by
  have hstep {e : HostEvent} {host : Host} (h : s.host.step crypto e = some host) :
      (hostMachine crypto).Reachable host := hs.step h
  cases h with
  | host h hl => exact hstep h
  | loop h hp => exact hstep h
  | enter h => exact hstep h
  | toServer ht hq h => exact hstep h
  | _ => exact hs

theorem Inv.step {s s' : Deployment} {l : DeploymentEvent} (hs : s.Inv crypto)
    (h : s.step crypto l = some s') : s'.Inv crypto where
  host := (step_cases h).host_reachable hs.host
  tunnel i hi := by
    have hhost := Host.reachable_inv hs.host
    rcases (step_cases h).before hhost hi with hold | ⟨-, hnew⟩
    · obtain ⟨t, ht, hreach⟩ := hs.tunnel i hold
      rcases (step_cases h).tenant hhost ht with ⟨hsame, -⟩ | ⟨e, t', -, hstep, hnew⟩
      · exact ⟨t, hsame, hreach⟩
      · exact ⟨t', hnew, hreach.step hstep⟩
    · exact ⟨.new, hnew, .init _⟩

theorem reachable_inv {s : Deployment} (h : (deploymentMachine crypto).Reachable s) :
    s.Inv crypto :=
  h.invariant (inv_new crypto) fun _ _ _ hs hl => hs.step hl

end Deployment

/--
**A tenant has a tunnel of its own.** In every run of the server with its proxy clients, the server
is in a state that it reaches by itself, and every session of a tenant is, with its proxy client
and what is between them, in a state that a tunnel reaches, whatever all others do.
-/
theorem tenant_tunnel (crypto : Crypto) {s : Deployment}
    (h : (deploymentMachine crypto).Reachable s) :
    (hostMachine crypto).Reachable s.host ∧
    ∀ i tenant, s.tenants.lookup i = some tenant → ∃ session,
      s.host.sessions.lookup i = some session ∧
      tunnelMachine.Reachable ⟨session, tenant.client, tenant.toClient, tenant.toServer⟩ := by
  have hs := Deployment.reachable_inv h
  refine ⟨hs.host, ?_⟩
  intro i tenant htenant
  obtain ⟨t, ht, hreach⟩ := hs.tunnel i (Option.ne_none_iff_exists'.mpr ⟨tenant, htenant⟩)
  obtain ⟨hsession, htenant'⟩ := Deployment.tunnelOf_eq_some.mp ht
  cases htenant.symm.trans htenant'
  exact ⟨t.server, hsession, hreach⟩

/-- A tenant logs in, and a Minecraft client exchanges some data with its local server. -/
def hosting : List DeploymentEvent :=
  (challenged 0 "h").map (fun l => .host (.task l.1 l.2)) ++
    [.host (.task 0 (.next (some (.ok (.ProxyAuthResponse (Vector.replicate 64 0)))))), .enter 0,
      .host (.task 0 (.flushed (.ok ()))), .host (.task 1 .accepted),
      .host (.task 1 (.next (some (.ok (.MCHello (lookingFor "h")))))), .host (.task 1 .lookup),
      .host (.join 1 (.V4 0 40000)), .host (.guest 1 .hello), .host (.loop 0 .take),
      .host (.loop 0 .take), .toClient 0 0, .toClient 0 0, .client 0 (.connected 0),
      .client 0 (.take 0), .client 0 (.read 0 [7]), .client 0 .send, .toServer 0,
      .host (.guest 1 .receive)]

theorem tenant_tunnel_hosting : ∃ s,
    (deploymentMachine ⟨fun _ _ _ => true, fun _ => "h"⟩).Reachable s ∧
    ∃ session, ∃ tenant : Tenant, s.host.sessions.lookup 0 = some session ∧
      tenant.client.spawned.keys = [0] ∧
      tunnelMachine.Reachable ⟨session, tenant.client, tenant.toClient, tenant.toServer⟩ := by
  obtain ⟨s, hrun, tenant, ht, hkeys⟩ : ∃ s,
      (deploymentMachine ⟨fun _ _ _ => true, fun _ => "h"⟩).run .new hosting = some s ∧
      ∃ tenant, s.tenants.lookup 0 = some tenant ∧ tenant.client.spawned.keys = [0] :=
    ⟨_, rfl, _, rfl, rfl⟩
  obtain ⟨session, hsession, hreach⟩ :=
    (tenant_tunnel ⟨fun _ _ _ => true, fun _ => "h"⟩ ⟨hosting, hrun⟩).2 0 tenant ht
  exact ⟨s, ⟨hosting, hrun⟩, session, tenant, hsession, hkeys, hreach⟩

/-! ## What goes over the wires -/

/-- Data at the sockets at the two ends. -/
inductive DeploymentTraffic
  /-- Written to connection `j`, which is client `k` of session `i`. -/
  | wrote (j i k : Nat) (pkg : MinecraftDataPacket)
  /-- Read by local connection `k` of the proxy client of session `i`. -/
  | read (i k : Nat) (pkg : MinecraftDataPacket)

/-- What can be seen of a step. -/
def Deployment.observe (s : Deployment) : DeploymentEvent → List DeploymentTraffic
  | .host (.guest j e) =>
    match s.host.guests.lookup j with
    | some (.inside i k) =>
      match s.host.sessions.lookup i with
      | some session => (Tunnel.gotOf session (e.toSession k) k).map (.wrote j i k)
      | none => []
    | _ => []
  | .client i (.read k data) => [.read i k ⟨data⟩]
  | _ => []

/-- What was written to connection `j`. -/
def writtenTo (j : Nat) (traffic : List DeploymentTraffic) : List MinecraftDataPacket :=
  traffic.filterMap fun
    | .wrote j' _ _ pkg => if j' = j then some pkg else none
    | _ => none

/-- What was written to client `k` of session `i`. -/
def gotAt (i k : Nat) (traffic : List DeploymentTraffic) : List MinecraftDataPacket :=
  traffic.filterMap fun
    | .wrote _ i' k' pkg => if i' = i ∧ k' = k then some pkg else none
    | _ => none

/-- What local connection `k` of the proxy client of session `i` has read. -/
def readAt (i k : Nat) (traffic : List DeploymentTraffic) : List MinecraftDataPacket :=
  traffic.filterMap fun
    | .read i' k' pkg => if i' = i ∧ k' = k then some pkg else none
    | _ => none

theorem gotAt_append (i k : Nat) (p q : List DeploymentTraffic) :
    gotAt i k (p ++ q) = gotAt i k p ++ gotAt i k q := List.filterMap_append

theorem readAt_append (i k : Nat) (p q : List DeploymentTraffic) :
    readAt i k (p ++ q) = readAt i k p ++ readAt i k q := List.filterMap_append

theorem gotAt_wrote (j i i' k k' : Nat) (packets : List MinecraftDataPacket) :
    gotAt i k (packets.map (.wrote j i' k')) = if i' = i ∧ k' = k then packets else [] := by
  rw [gotAt, List.filterMap_map]
  by_cases h : i' = i ∧ k' = k
  · simp [h]
  · simp [h]

theorem readAt_wrote (j i i' k k' : Nat) (packets : List MinecraftDataPacket) :
    readAt i k (packets.map (.wrote j i' k')) = [] := by
  simp [readAt, List.filterMap_map]

namespace Deployment

variable {crypto : Crypto}

/-- What is seen of a step of the tunnel is what the tunnel reads and writes. -/
theorem Acts.traffic {s : Deployment} {i : Nat} {l : DeploymentEvent} {e : TunnelEvent} {t : Tunnel}
    (h : s.Acts i l e) (ht : s.tunnelOf i = some t) (k : Nat) :
    gotAt i k (s.observe l) = t.gotBy e k ∧ readAt i k (s.observe l) = Tunnel.saidBy e k := by
  obtain ⟨hsession, -⟩ := tunnelOf_eq_some.mp ht
  cases h with
  | @host l e h =>
    cases h with
    | loop _ he => cases e <;> first | (cases he; done) | exact ⟨rfl, rfl⟩
    | @guest j k' e hg =>
      have hobserve : s.observe (.host (.guest j e))
          = (Tunnel.gotOf t.server (e.toSession k') k').map (.wrote j i k') := by
        simp [observe, hg, hsession]
      rw [hobserve, gotAt_wrote, readAt_wrote]
      refine ⟨?_, rfl⟩
      by_cases hk : k' = k
      · subst hk
        rw [if_pos ⟨rfl, rfl⟩]
        rfl
      · rw [if_neg fun h => hk h.2]
        exact (gotOf_toSession (Ne.symm hk)).symm
    | _ => exact ⟨rfl, rfl⟩
  | client e =>
    cases e with
    | read k' data =>
      refine ⟨rfl, ?_⟩
      show readAt i k [.read i k' ⟨data⟩] = if k' = k then [⟨data⟩] else []
      by_cases hk : k' = k <;> simp [readAt, hk]
    | _ => exact ⟨rfl, rfl⟩
  | toServer => exact ⟨rfl, rfl⟩
  | toClient millis => exact ⟨rfl, rfl⟩

/-- Nothing is seen of the others. -/
theorem Elsewhere.traffic {s : Deployment} {i : Nat} {l : DeploymentEvent} (h : s.Elsewhere i l)
    (k : Nat) : gotAt i k (s.observe l) = [] ∧ readAt i k (s.observe l) = [] := by
  cases l with
  | host l =>
    cases l with
    | guest j e =>
      simp only [observe]
      split
      · next i' k' hg =>
        split
        · rw [gotAt_wrote, readAt_wrote]
          refine ⟨if_neg ?_, rfl⟩
          rintro ⟨rfl, -⟩
          exact h.2 j e k' rfl hg
        · exact ⟨rfl, rfl⟩
      · exact ⟨rfl, rfl⟩
    | _ => exact ⟨rfl, rfl⟩
  | client j e =>
    cases e with
    | read k' data =>
      have hj : j ≠ i := h
      exact ⟨rfl, by simp [observe, readAt, hj]⟩
    | _ => exact ⟨rfl, rfl⟩
  | _ => exact ⟨rfl, rfl⟩

/-- Nothing is seen of a session before it is there. -/
theorem Step.traffic_none {s s' : Deployment} {l : DeploymentEvent} (h : Step crypto s l s')
    (hs : s.Inv crypto) {i : Nat} (hi : s.host.sessions.lookup i = none) (k : Nat) :
    gotAt i k (s.observe l) = [] ∧ readAt i k (s.observe l) = [] := by
  cases h with
  | @host l host h hl =>
    cases l with
    | guest j e =>
      simp only [observe]
      split
      · next i' k' hg =>
        split
        · next session hsession =>
          rw [gotAt_wrote, readAt_wrote]
          refine ⟨if_neg ?_, rfl⟩
          rintro ⟨rfl, -⟩
          cases hi.symm.trans hsession
        · exact ⟨rfl, rfl⟩
      · exact ⟨rfl, rfl⟩
    | _ => exact ⟨rfl, rfl⟩
  | @client j e tenant client out ht he h =>
    have hj : j ≠ i := by
      rintro rfl
      obtain ⟨t, htunnel, -⟩ := hs.tunnel j (Option.ne_none_iff_exists'.mpr ⟨tenant, ht⟩)
      cases hi.symm.trans (tunnelOf_eq_some.mp htunnel).1
    exact Elsewhere.traffic (l := .client j e) hj k
  | _ => exact ⟨rfl, rfl⟩

/-- The server takes a step of its own, or none. -/
theorem Step.host_cases {s s' : Deployment} {l : DeploymentEvent} (h : Step crypto s l s') :
    s'.host = s.host ∨ ∃ e, s.host.Step crypto e s'.host := by
  cases h with
  | host h hl => exact Or.inr ⟨_, Host.step_cases h⟩
  | loop h hp => exact Or.inr ⟨_, Host.step_cases h⟩
  | enter h => exact Or.inr ⟨_, Host.step_cases h⟩
  | toServer ht hq h => exact Or.inr ⟨_, Host.step_cases h⟩
  | _ => exact Or.inl rfl

/-- A session stays. -/
theorem Step.session_ne_none {s s' : Deployment} {l : DeploymentEvent} (h : Step crypto s l s')
    (hs : s.Inv crypto) {i : Nat} (hi : s.host.sessions.lookup i ≠ none) :
    s'.host.sessions.lookup i ≠ none := by
  obtain ⟨session, hsession⟩ := Option.ne_none_iff_exists'.mp hi
  rcases h.host_cases with heq | ⟨e, hhost⟩
  · rwa [heq]
  · rcases hhost.session (Host.reachable_inv hs.host) hsession with
      ⟨hsame, -⟩ | ⟨_, _, _, -, -, hnew⟩
    · rw [hsame]
      exact Option.some_ne_none _
    · rw [hnew]
      exact Option.some_ne_none _

/-- What went over the wires, and what is still on its way to the Minecraft clients of tenant `i`. -/
structure Served (i : Nat) (s : Deployment) (traffic : List DeploymentTraffic) : Prop where
  tunnel : ∀ t, s.tunnelOf i = some t → t.Unmistaken ∧
    ∀ k, ∃ q, t.Heard k q ∧ gotAt i k traffic ++ q = readAt i k traffic
  silent : s.host.sessions.lookup i = none → ∀ k, gotAt i k traffic = [] ∧ readAt i k traffic = []
  own : ∀ j i k pkg, .wrote j i k pkg ∈ traffic → s.host.guests.lookup j = some (.inside i k)

theorem served_new (i : Nat) : new.Served i [] where
  tunnel t h := by cases h
  silent _ _ := ⟨rfl, rfl⟩
  own j i k pkg h := by cases h

/-- The tunnel of tenant `i` takes a step. -/
theorem Served.tunnel_step {s s' : Deployment} {i : Nat} {l : DeploymentEvent}
    {traffic : List DeploymentTraffic} (h : s.Served i traffic) (hs : s.Inv crypto)
    (hc : s.unmistakable i l = true) (hstep : Step crypto s l s') (t' : Tunnel)
    (ht' : s'.tunnelOf i = some t') :
    t'.Unmistaken ∧ ∀ k, ∃ q, t'.Heard k q ∧
      gotAt i k (traffic ++ s.observe l) ++ q = readAt i k (traffic ++ s.observe l) := by
  have hhost := Host.reachable_inv hs.host
  have htenant : s'.tenants.lookup i ≠ none := by
    rw [(tunnelOf_eq_some.mp ht').2]
    exact Option.some_ne_none _
  rcases hstep.before hhost htenant with hold | ⟨rfl, hnew⟩
  · obtain ⟨t, ht, hreach⟩ := hs.tunnel i hold
    obtain ⟨hun, hall⟩ := h.tunnel t ht
    rcases hstep.tenant hhost ht with ⟨hsame, helse⟩ | ⟨e, t₁, hacts, hte, hnew⟩
    · cases hsame.symm.trans ht'
      refine ⟨hun, ?_⟩
      intro k
      obtain ⟨q, hheard, heq⟩ := hall k
      obtain ⟨hgot, hread⟩ := helse.traffic k
      exact ⟨q, hheard, by rw [gotAt_append, readAt_append, hgot, hread, List.append_nil,
        List.append_nil, heq]⟩
    · cases hnew.symm.trans ht'
      have hinv := Tunnel.reachable_inv hreach
      have hcases := Tunnel.step_cases hte
      refine ⟨hun.step hinv (hacts.unmistakable ht hc) hcases, ?_⟩
      intro k
      obtain ⟨q, hheard, heq⟩ := hall k
      obtain ⟨q', hq, hheard'⟩ := hheard.step hun hinv hcases
      obtain ⟨hgot, hread⟩ := hacts.traffic ht k
      refine ⟨q', hheard', ?_⟩
      rw [gotAt_append, readAt_append, hgot, hread, List.append_assoc, ← hq, ← List.append_assoc,
        heq]
  · -- it has just entered
    cases hnew.symm.trans ht'
    refine ⟨Tunnel.unmistaken_new, ?_⟩
    intro k
    have hnone : s.host.sessions.lookup i = none := by
      cases hstep with
      | enter h => exact (hhost.entering (Host.step_cases h)).1
    obtain ⟨hgot, hread⟩ := h.silent hnone k
    refine ⟨[], Tunnel.heard_new k, ?_⟩
    rw [gotAt_append, readAt_append, hgot, hread]
    rfl

theorem Served.step {s s' : Deployment} {i : Nat} {l : DeploymentEvent}
    {traffic : List DeploymentTraffic} (h : s.Served i traffic) (hs : s.Inv crypto)
    (hc : s.unmistakable i l = true) (hstep : Step crypto s l s') :
    s'.Served i (traffic ++ s.observe l) where
  tunnel := h.tunnel_step hs hc hstep
  silent hnone k := by
    have hbefore : s.host.sessions.lookup i = none := by
      by_contra hsome
      exact hstep.session_ne_none hs hsome hnone
    obtain ⟨hgot, hread⟩ := h.silent hbefore k
    obtain ⟨hgot', hread'⟩ := hstep.traffic_none hs hbefore k
    rw [gotAt_append, readAt_append, hgot, hread, hgot', hread']
    exact ⟨rfl, rfl⟩
  own j i k pkg hmem := by
    have hbefore : s.host.guests.lookup j = some (.inside i k) := by
      rcases List.mem_append.mp hmem with hmem | hmem
      · exact h.own j i k pkg hmem
      · revert hmem
        unfold observe
        split
        · next j' e =>
          split
          · next i' k' hg =>
            split
            · intro hmem
              obtain ⟨_, -, heq⟩ := List.mem_map.mp hmem
              cases heq
              exact hg
            · exact fun hmem => by cases hmem
          · exact fun hmem => by cases hmem
        · exact fun hmem => by cases List.mem_singleton.mp hmem
        · exact fun hmem => by cases hmem
    rcases hstep.host_cases with heq | ⟨e, hhost⟩
    · rw [heq, hbefore]
    · exact hhost.inside (Host.reachable_inv hs.host) hbefore

/-- What was written to a connection is what was written to the client that it is. -/
theorem Served.writtenTo_eq {s : Deployment} {i j k : Nat} {traffic : List DeploymentTraffic}
    (h : s.Served i traffic) (hs : s.host.Inv crypto)
    (hj : s.host.guests.lookup j = some (.inside i k)) :
    writtenTo j traffic = gotAt i k traffic := by
  refine List.filterMap_congr ?_
  intro x hx
  cases x with
  | read => rfl
  | wrote j' i' k' pkg =>
    have hown := h.own j' i' k' pkg hx
    by_cases hj' : j' = j
    · subst hj'
      cases hown.symm.trans hj
      simp
    · have hne : ¬(i' = i ∧ k' = k) := by
        rintro ⟨rfl, rfl⟩
        exact hj' (hs.unique j' j i' k' hown hj)
      simp [hj', hne]

/-- In every run without mistakes. -/
theorem run_served {i : Nat} {ls : List DeploymentEvent} {s : Deployment}
    (h : ((deploymentMachine crypto).restrict fun s e => s.unmistakable i e = true).run .new ls
      = some s) : s.Served i ((deploymentMachine crypto).trace observe .new ls) := by
  rw [← Machine.trace_restrict observe ls h]
  refine Machine.trace_invariant (I := Served i) (served_new i) ?_ h
  intro s traffic l s' hreach hI hl
  obtain ⟨hc, hstep⟩ := Machine.restrict_step.mp hl
  exact hI.step (reachable_inv hreach.of_restrict) hc (step_cases hstep)

end Deployment

/--
**A Minecraft client is served by the tenant it has asked for, and by nobody else**, whatever
strangers and other Minecraft clients send. In every run in which no id of tenant `i` is handed
out while its last holder can be heard, each client of its session has asked for a hostname that
the session was registered under, and

* what was written to it is a beginning of what the local server has said to its own local
  connection, and
* what this connection has taken for the local server is a beginning of what it has sent.
-/
theorem players_served (crypto : Crypto) {i : Nat} {ls : List DeploymentEvent} {s : Deployment}
    (h : ((deploymentMachine crypto).restrict fun s e => s.unmistakable i e = true).run .new ls
      = some s) {tenant : Tenant} (ht : s.tenants.lookup i = some tenant) {j k : Nat}
    (hj : s.host.guests.lookup j = some (.inside i k)) :
    ∃ packet c session m, s.host.Found j i packet c ∧
      s.host.server.Backed crypto i packet.hostname ∧
      s.host.sessions.lookup i = some session ∧ session.clients[k]? = some m ∧
      writtenTo j ((deploymentMachine crypto).trace Deployment.observe .new ls)
        <+: readAt i k ((deploymentMachine crypto).trace Deployment.observe .new ls) ∧
      Tunnel.takenOf tenant.client k <+: m.read := by
  have hs := Deployment.reachable_inv (Machine.Reachable.of_restrict ⟨ls, h⟩)
  have hhost := Host.reachable_inv hs.host
  have hserved := Deployment.run_served h
  obtain ⟨t, htunnel, hreach⟩ := hs.tunnel i (Option.ne_none_iff_exists'.mpr ⟨tenant, ht⟩)
  obtain ⟨hsession, htenant⟩ := Deployment.tunnelOf_eq_some.mp htunnel
  cases ht.symm.trans htenant
  have hat := hhost.guests j
  rw [hj] at hat
  obtain ⟨packet, c, session, m, hfound, hsession', hm, -⟩ := hat
  cases hsession.symm.trans hsession'
  obtain ⟨q, -, hdown⟩ := (hserved.tunnel t htunnel).2 k
  have hup := Tunnel.takenOf_prefix hreach k
  rw [Tunnel.readOf, hm] at hup
  refine ⟨packet, c, t.server, m, hfound, Server.reachable_backed hhost.server _ _ hfound.registered,
    hsession, hm, ?_, hup⟩
  rw [hserved.writtenTo_eq hhost hj, ← hdown]
  exact List.prefix_append _ _

theorem players_served_hosting : ∃ s tenant,
    ((deploymentMachine ⟨fun _ _ _ => true, fun _ => "h"⟩).restrict
      fun s e => s.unmistakable 0 e = true).run .new hosting = some s ∧
    s.tenants.lookup 0 = some tenant ∧
    writtenTo 1 ((deploymentMachine ⟨fun _ _ _ => true, fun _ => "h"⟩).trace Deployment.observe
      .new hosting) = [⟨[7]⟩] ∧
    ∃ session m, s.host.sessions.lookup 0 = some session ∧ session.clients[0]? = some m ∧
      Tunnel.takenOf tenant.client 0 <+: m.read := by
  obtain ⟨s, tenant, hrun, ht, hj⟩ : ∃ s tenant,
      ((deploymentMachine ⟨fun _ _ _ => true, fun _ => "h"⟩).restrict
        fun s e => s.unmistakable 0 e = true).run .new hosting = some s ∧
      s.tenants.lookup 0 = some tenant ∧ s.host.guests.lookup 1 = some (.inside 0 0) :=
    ⟨_, _, rfl, rfl, rfl⟩
  obtain ⟨_, _, session, m, -, -, hsession, hm, -, hup⟩ :=
    players_served ⟨fun _ _ _ => true, fun _ => "h"⟩ hrun ht hj
  exact ⟨s, tenant, hrun, ht, rfl, session, m, hsession, hm, hup⟩

end CraftIp
