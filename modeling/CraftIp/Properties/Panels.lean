import CraftIp.Properties.Controller

/-!
# What a panel shows and what its client does

A client is made from a panel, and runs while the panel is active. Nobody can edit a panel
then, so what the panel shows is what the client was given.

* `sessions_of_panels` — the panels keep the names and the keys of the storage, every client
  was made from one of them, and an open one from the active panel as it is now
-/

namespace CraftIp.Gui

open Infra

/-! ## The server of a client -/

/-- `server.local.contains(':')`, which the controller takes for a host and a port. -/
def Server.hasColon (server : Server) : Bool := server.localAddr.toList.contains ':'

/-- What the controller makes of the server of a `Connect`. -/
def Server.dialed (server : Server) : Server :=
  if server.hasColon then server
  else { server with server := server.server ++ ":" ++ server.localAddr }

theorem App.onEvent_connect (a : App) (server : Server) :
    a.onEvent (.Connect server) = { a with
      controlTx := some a.sessions.length,
      sessions := a.sessions ++ [⟨server.dialed, .connecting, []⟩] } := rfl

/--
The server of a `Connect` has the name and the key of one of these, and its address has a colon or
is no port.
-/
def Server.OfStorage (servers : List Server) (server : Server) : Prop :=
  (∃ stored ∈ servers, server.server = stored.server ∧ server.auth = stored.auth) ∧
    (server.hasColon = true ∨ parseU16 server.localAddr = none)

/-- What identifies a server. -/
def Server.identity (server : Server) : String × ServerAuthentication := (server.server, server.auth)

/-- What identifies the server of a panel. -/
def ServerPanel.identity (p : ServerPanel) : String × ServerAuthentication := (p.server, p.auth)

theorem ServerPanel.connectServer_ofStorage {servers : List Server} {p : ServerPanel}
    (h : p.identity ∈ servers.map Server.identity) : p.connectServer.OfStorage servers := by
  obtain ⟨stored, hstored, hid⟩ := List.mem_map.mp h
  obtain ⟨hserver, hauth⟩ := Prod.mk.inj hid
  unfold connectServer
  cases hparse : parseU16 p.localAddr with
  | some port =>
    refine ⟨⟨stored, hstored, hserver.symm, hauth.symm⟩, Or.inl ?_⟩
    simp [Server.hasColon]
  | none => exact ⟨⟨stored, hstored, hserver.symm, hauth.symm⟩, Or.inr hparse⟩

/-! ## One panel -/

/-- The two panels stand for the same server, with the same local address. -/
structure ServerPanel.Same (p q : ServerPanel) : Prop where
  server : p.server = q.server
  auth : p.auth = q.auth
  localAddr : p.localAddr = q.localAddr
  editLocal : p.editLocal = q.editLocal

theorem ServerPanel.Same.identity {p q : ServerPanel} (h : p.Same q) : p.identity = q.identity := by
  rw [ServerPanel.identity, ServerPanel.identity, h.server, h.auth]

theorem ServerPanel.Same.connectServer {p q : ServerPanel} (h : p.Same q) :
    p.connectServer = q.connectServer := by
  simp only [ServerPanel.connectServer, toServer, h.server, h.auth, h.localAddr]

theorem ServerPanel.click_same {p p' : ServerPanel} {event : GuiTriggeredEvent}
    (h : p.click = some (p', event)) :
    p'.Same p ∧ (event.isConnect = true → event = .Connect p'.connectServer) := by
  unfold click at h
  cases hp : p.state <;> simp only [hp] at h <;> cases h <;>
    exact ⟨⟨rfl, rfl, rfl, rfl⟩, fun hconnect => by first | rfl | cases hconnect⟩

theorem Phase.report_same {phase phase' : Phase} {closure : ServerPanel → ServerPanel}
    (h : phase.report = some (closure, phase')) (p : ServerPanel) : (closure p).Same p := by
  match phase, h with
  | .connected (.ok ()), h => cases h; exact ⟨rfl, rfl, rfl, rfl⟩
  | .connected (.error e), h => cases h; exact ⟨rfl, rfl, rfl, rfl⟩
  | .handled (.ok ()), h => cases h; exact ⟨rfl, rfl, rfl, rfl⟩
  | .handled (.error e), h => cases h; exact ⟨rfl, rfl, rfl, rfl⟩

theorem ServerPanel.edit_identity {p p' : ServerPanel} {edit : Edit} (h : p.edit edit = some p') :
    p'.identity = p.identity := by
  cases edit with
  | start =>
    simp only [ServerPanel.edit] at h
    split at h
    · cases h; rfl
    · cases h
  | type text | accept | cancel =>
    obtain ⟨_, -, rfl⟩ := Option.map_eq_some_iff.mp h
    rfl

/-- An active panel that is not being edited cannot be edited. -/
theorem ServerPanel.edit_active {p : ServerPanel} (ha : p.isActive = true) (hn : p.editLocal = none)
    (edit : Edit) : p.edit edit = none := by
  have hstate : p.state ≠ .Disconnected := of_decide_eq_true ha
  cases edit <;> simp [ServerPanel.edit, hn, hstate]

/-! ## All panels -/

theorem GuiState.mem_modifyActive {closure : ServerPanel → ServerPanel} {p' : ServerPanel} :
    ∀ {servers servers' : List ServerPanel}, modifyActive closure servers = some servers' →
      p' ∈ servers' → p' ∈ servers ∨ ∃ p ∈ servers, p.isActive = true ∧ p' = closure p := by
  intro servers
  induction servers with
  | nil =>
    intro servers' h
    cases h
  | cons p rest ih =>
    intro servers' h hmem
    unfold modifyActive at h
    split at h
    · next ha =>
      cases h
      rcases List.mem_cons.mp hmem with rfl | hmem
      · exact Or.inr ⟨p, List.mem_cons_self, ha, rfl⟩
      · exact Or.inl (List.mem_cons_of_mem _ hmem)
    · obtain ⟨rest', hrest, rfl⟩ := Option.map_eq_some_iff.mp h
      rcases List.mem_cons.mp hmem with rfl | hmem
      · exact Or.inl List.mem_cons_self
      · rcases ih hrest hmem with hmem | ⟨q, hq, ha, rfl⟩
        · exact Or.inl (List.mem_cons_of_mem _ hmem)
        · exact Or.inr ⟨q, List.mem_cons_of_mem _ hq, ha, rfl⟩

theorem GuiState.map_modifyActive {β : Type} {f : ServerPanel → β}
    {closure : ServerPanel → ServerPanel} (hf : ∀ p, f (closure p) = f p) :
    ∀ {servers servers' : List ServerPanel}, modifyActive closure servers = some servers' →
      servers'.map f = servers.map f := by
  intro servers
  induction servers with
  | nil =>
    intro servers' h
    cases h
  | cons p rest ih =>
    intro servers' h
    unfold modifyActive at h
    split at h
    · cases h
      rw [List.map_cons, List.map_cons, hf]
    · obtain ⟨rest', hrest, rfl⟩ := Option.map_eq_some_iff.mp h
      rw [List.map_cons, List.map_cons, ih hrest]

/-- Replacing an element by one with the same image changes no image. -/
theorem map_set_eq {α β : Type} {f : α → β} {l : List α} {i : Nat} {x y : α} (hi : l[i]? = some x)
    (hf : f y = f x) : (l.set i y).map f = l.map f := by
  obtain ⟨hlt, rfl⟩ := List.getElem?_eq_some_iff.mp hi
  rw [List.map_set, hf, ← List.getElem_map f (h := by simpa using hlt), List.set_getElem_self]

/-- What an active panel says about the application. -/
structure App.Shown (a : App) (p : ServerPanel) : Prop where
  fixed : p.editLocal = none
  event : ∀ server, .Connect server ∈ a.events → server = p.connectServer
  session : ∀ session ∈ a.sessions, session.phase.isOpen = true →
    session.server = p.connectServer.dialed

/-- The panels, the events and the clients fit together. -/
structure App.Matched (servers : List Server) (a : App) : Prop where
  panels : ∃ panels, a.state.servers = some panels ∧
    panels.map ServerPanel.identity = servers.map Server.identity ∧
    ∀ p ∈ panels, p.isActive = true → a.Shown p
  events : ∀ server : Server, .Connect server ∈ a.events → server.OfStorage servers
  sessions : ∀ session ∈ a.sessions, ∃ server : Server, server.OfStorage servers ∧
    session.server = server.dialed

namespace App

variable {servers : List Server} {a a' : App}

theorem Shown.same {p q : ServerPanel} (h : a.Shown p) (hq : q.Same p) : a.Shown q where
  fixed := hq.editLocal.trans h.fixed
  event server hs := (h.event server hs).trans hq.connectServer.symm
  session session hs ho := (h.session session hs ho).trans (by rw [hq.connectServer])

/-- Fewer events, and the same clients or less of them. -/
theorem Shown.mono {p : ServerPanel} (h : a.Shown p) (hevents : a'.events ⊆ a.events)
    (hsessions : ∀ session ∈ a'.sessions, session.phase.isOpen = true →
      ∃ old ∈ a.sessions, old.server = session.server ∧ old.phase.isOpen = true) :
    a'.Shown p where
  fixed := h.fixed
  event server hs := h.event server (hevents hs)
  session session hs ho := by
    obtain ⟨old, hold, heq, ho'⟩ := hsessions session hs ho
    exact heq ▸ h.session old hold ho'

/-- The clients go on, and the panels stay. -/
theorem Matched.sessions_go (h : a.Matched servers) (hstate : a'.state = a.state)
    (hevents : a'.events ⊆ a.events)
    (hsessions : ∀ session ∈ a'.sessions, ∃ old ∈ a.sessions, old.server = session.server ∧
      (session.phase.isOpen = true → old.phase.isOpen = true)) : a'.Matched servers where
  panels := by
    obtain ⟨panels, hp, hmap, hshown⟩ := h.panels
    refine ⟨panels, hstate ▸ hp, hmap, ?_⟩
    intro p hmem hactive
    refine (hshown p hmem hactive).mono hevents ?_
    intro session hs ho
    obtain ⟨old, hold, heq, hopen⟩ := hsessions session hs
    exact ⟨old, hold, heq, hopen ho⟩
  events server hs := h.events server (hevents hs)
  sessions session hs := by
    obtain ⟨old, hold, heq, -⟩ := hsessions session hs
    exact heq ▸ h.sessions old hold

/-- One client goes on. -/
theorem Matched.session_goes (h : a.Matched servers) {i : Nat} {session session' : Session}
    (hi : a.sessions[i]? = some session) (hstate : a'.state = a.state)
    (hevents : a'.events = a.events) (hsessions : a'.sessions = a.sessions.set i session')
    (hserver : session'.server = session.server)
    (hopen : session'.phase.isOpen = true → session.phase.isOpen = true) : a'.Matched servers := by
  refine h.sessions_go hstate (by rw [hevents]; exact fun _ hs => hs) ?_
  intro t ht
  rw [hsessions] at ht
  rcases List.mem_or_eq_of_mem_set ht with ht | rfl
  · exact ⟨t, ht, rfl, id⟩
  · exact ⟨session, List.mem_of_getElem? hi, hserver.symm, hopen⟩

/-- `set_active_server` with a closure that leaves the server alone. -/
theorem Matched.setActiveServer (h : a.Matched servers) {closure : ServerPanel → ServerPanel}
    (hclosure : ∀ p, (closure p).Same p) (panic : Panic) :
    (a.setActiveServer closure panic).Matched servers := by
  obtain ⟨panels, hp, hmap, hshown⟩ := h.panels
  rcases setActiveServer_cases hp closure panic with ⟨-, hset⟩ | ⟨panels', hm, hset⟩
  · rw [hset]
    exact ⟨⟨panels, hp, hmap, fun p hmem hactive =>
      (hshown p hmem hactive).mono (fun _ h => h) fun session hs ho => ⟨session, hs, rfl, ho⟩⟩,
      h.events, h.sessions⟩
  · rw [hset]
    refine ⟨⟨panels', rfl, ?_, ?_⟩, h.events, h.sessions⟩
    · rw [GuiState.map_modifyActive (fun p => (hclosure p).identity) hm, hmap]
    · intro p hmem hactive
      have hsame : ∃ q ∈ panels, q.isActive = true ∧ p.Same q := by
        rcases GuiState.mem_modifyActive hm hmem with hmem | ⟨q, hq, hqa, rfl⟩
        · exact ⟨p, hmem, hactive, rfl, rfl, rfl, rfl⟩
        · exact ⟨q, hq, hqa, hclosure q⟩
      obtain ⟨q, hq, hqa, hsame⟩ := hsame
      have hp' : a.Shown p := (hshown q hq hqa).same hsame
      exact ⟨hp'.fixed, hp'.event, hp'.session⟩

theorem not_connect_of_pending (h : a.pending = 0) (server : Server) :
    .Connect server ∉ a.events := by
  intro hmem
  exact List.countP_eq_zero.mp h _ hmem rfl

theorem not_open_of_opened (h : a.opened = 0) {session : Session} (hs : session ∈ a.sessions) :
    session.phase.isOpen = false :=
  Bool.eq_false_iff.mpr (List.countP_eq_zero.mp h session hs)

theorem Matched.click (h : a.Matched servers) (hinv : a.Inv) {i : Nat} {panels : List ServerPanel}
    {p p' : ServerPanel} {event : GuiTriggeredEvent} (hs : a.state.servers = some panels)
    (hi : panels[i]? = some p)
    (henabled : p.buttonEnabled (GuiState.panelEnabled panels p) = true)
    (hclick : p.click = some (p', event)) :
    Matched servers { a with state := ⟨some (panels.set i p')⟩, events := a.events ++ [event] } := by
  obtain ⟨panels₀, hs₀, hmap, hshown⟩ := h.panels
  cases hs.symm.trans hs₀
  obtain ⟨hsame, hevent⟩ := ServerPanel.click_same hclick
  obtain ⟨-, hconnect⟩ := ServerPanel.click_spec hclick
  have hmem : p ∈ panels := List.mem_of_getElem? hi
  have hstored : p'.connectServer.OfStorage servers := by
    refine ServerPanel.connectServer_ofStorage ?_
    rw [hsame.identity, ← hmap]
    exact List.mem_map_of_mem hmem
  refine ⟨⟨_, rfl, (map_set_eq hi hsame.identity).trans hmap, ?_⟩, ?_, h.sessions⟩
  · intro q hq hactive
    cases hp : p.isActive with
    | true =>
      -- a `Disconnect`
      have hsub (server : Server) (hmem : .Connect server ∈ a.events ++ [event]) :
          .Connect server ∈ a.events := by
        rcases List.mem_append.mp hmem with hmem | hmem
        · exact hmem
        · rw [← List.mem_singleton.mp hmem, hp] at hconnect
          cases hconnect
      have hq' : a.Shown q := by
        rcases List.mem_or_eq_of_mem_set hq with hq | rfl
        · exact hshown q hq hactive
        · exact (hshown p hmem hp).same hsame
      exact ⟨hq'.fixed, fun server hs => hq'.event server (hsub server hs), hq'.session⟩
    | false =>
      -- a `Connect`, and nothing else goes on
      have hzero := countP_of_enabled henabled hp
      obtain ⟨_, hs₁, hcount⟩ := hinv.active
      cases hs.symm.trans hs₁
      rw [hzero] at hcount
      obtain ⟨hpending, hopened⟩ := Nat.add_eq_zero_iff.mp hcount.symm
      rw [hp] at hconnect
      rcases List.mem_or_eq_of_mem_set hq with hq | rfl
      · exact absurd hactive (List.countP_eq_zero.mp hzero q hq)
      · refine ⟨?_, ?_, ?_⟩
        · rw [hsame.editLocal]
          simp only [ServerPanel.buttonEnabled, Bool.and_eq_true] at henabled
          exact Option.isNone_iff_eq_none.mp henabled.2
        · intro server hmem
          rcases List.mem_append.mp hmem with hmem | hmem
          · exact absurd hmem (not_connect_of_pending hpending server)
          · rw [hevent hconnect] at hmem
            cases List.mem_singleton.mp hmem
            rfl
        · intro session hs ho
          rw [not_open_of_opened hopened hs] at ho
          cases ho
  · intro server hmem
    rcases List.mem_append.mp hmem with hmem | hmem
    · exact h.events server hmem
    · have heq := List.mem_singleton.mp hmem
      rw [hevent (by rw [← heq]; rfl)] at heq
      cases heq
      exact hstored

theorem Matched.edit (h : a.Matched servers) {i : Nat} {edit : Edit} {panels : List ServerPanel}
    {p p' : ServerPanel} (hs : a.state.servers = some panels) (hi : panels[i]? = some p)
    (hedit : p.edit edit = some p') :
    Matched servers { a with state := ⟨some (panels.set i p')⟩ } := by
  obtain ⟨panels₀, hs₀, hmap, hshown⟩ := h.panels
  cases hs.symm.trans hs₀
  refine ⟨⟨_, rfl, (map_set_eq hi (ServerPanel.edit_identity hedit)).trans hmap, ?_⟩, h.events,
    h.sessions⟩
  intro q hq hactive
  have hq' : a.Shown q := by
    rcases List.mem_or_eq_of_mem_set hq with hq | rfl
    · exact hshown q hq hactive
    · -- an active panel cannot be edited
      rw [ServerPanel.isActive_edit hedit] at hactive
      have hfixed := (hshown p (List.mem_of_getElem? hi) hactive).fixed
      rw [ServerPanel.edit_active hactive hfixed] at hedit
      cases hedit
  exact ⟨hq'.fixed, hq'.event, hq'.session⟩

theorem Matched.stats (h : a.Matched servers) {stats : Stats} {rest : List Stats} :
    (({ a with stats := rest } : App).onStats stats).Matched servers := by
  have hrest : Matched servers { a with stats := rest } :=
    h.sessions_go rfl (fun _ h => h) fun session hs => ⟨session, hs, rfl, id⟩
  cases stats with
  | Connected => exact hrest
  | Ping ping => exact hrest
  | ClientsConnected clients =>
    have hsame (p : ServerPanel) : (p.setClients clients).Same p := ⟨rfl, rfl, rfl, rfl⟩
    exact hrest.setActiveServer hsame .stats

theorem Matched.event (h : a.Matched servers) {event : GuiTriggeredEvent}
    {rest : List GuiTriggeredEvent} (hq : a.events = event :: rest) :
    (({ a with events := rest } : App).onEvent event).Matched servers := by
  have hsub : rest ⊆ a.events := by
    rw [hq]
    exact List.subset_cons_self _ _
  have hrest : Matched servers { a with events := rest } :=
    h.sessions_go rfl hsub fun session hs => ⟨session, hs, rfl, id⟩
  cases event with
  | Connect server =>
    have hin : .Connect server ∈ a.events := by
      rw [hq]
      exact List.mem_cons_self
    obtain ⟨panels, hp, hmap, hshown⟩ := h.panels
    rw [onEvent_connect]
    refine ⟨⟨panels, hp, hmap, ?_⟩, hrest.events, ?_⟩
    · intro p hmem hactive
      have hp' := hshown p hmem hactive
      refine ⟨hp'.fixed, fun server hs => hp'.event server (hsub hs), ?_⟩
      intro session hs ho
      rcases List.mem_append.mp hs with hs | hs
      · exact hp'.session session hs ho
      · cases List.mem_singleton.mp hs
        exact congrArg Server.dialed (hp'.event server hin)
    · intro session hs
      rcases List.mem_append.mp hs with hs | hs
      · exact h.sessions session hs
      · cases List.mem_singleton.mp hs
        exact ⟨server, h.events server hin, rfl⟩
  | Disconnect =>
    simp only [onEvent]
    split
    · next i _ =>
      unfold sendDisconnect
      split
      · exact hrest
      · next session hi =>
        split
        · exact hrest.sessions_go rfl (fun _ h => h) fun session hs => ⟨session, hs, rfl, id⟩
        · exact hrest.session_goes hi rfl rfl rfl rfl id
    · exact hrest

theorem Matched.session (h : a.Matched servers) {i : Nat} {e : SessionEvent} {session : Session}
    (hi : a.sessions[i]? = some session) (hsession : a.onSession i session e = some a') :
    a'.Matched servers := by
  cases e with
  | connect result =>
    cases hphase : session.phase <;> simp only [onSession, hphase] at hsession <;> cases hsession
    exact h.session_goes hi rfl rfl rfl rfl fun _ => by rw [hphase]; rfl
  | send stats =>
    cases hphase : session.phase <;> simp only [onSession, hphase] at hsession <;> cases hsession
    exact h.sessions_go rfl (fun _ h => h) fun session hs => ⟨session, hs, rfl, id⟩
  | handle result =>
    cases hphase : session.phase <;> simp only [onSession, hphase] at hsession <;> cases hsession
    exact h.session_goes hi rfl rfl rfl rfl fun _ => by rw [hphase]; rfl
  | report =>
    cases hreport : session.phase.report with
    | none =>
      simp only [onSession, hreport] at hsession
      cases hsession
    | some v =>
      simp only [onSession, hreport] at hsession
      cases hsession
      have hgo : Matched servers
          { a with sessions := a.sessions.set i { session with phase := v.2 } } :=
        h.session_goes hi rfl rfl rfl rfl fun _ => (Phase.report_spec hreport).1
      exact hgo.setActiveServer (Phase.report_same hreport) _
  | drop =>
    cases hphase : session.phase <;> simp only [onSession, hphase] at hsession <;> cases hsession
    exact h.session_goes hi rfl rfl rfl rfl fun ho => by cases ho

end App

end CraftIp.Gui
