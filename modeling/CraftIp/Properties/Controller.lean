import CraftIp.Gui.Backend

/-!
# The controller of the GUI

A server is active from the click on `Connect` until its task has set it to `Disconnected`.
Three tasks change the panels, but at any time there is one active server at most, and it
belongs to the `Connect` that waits or to the task that is open (`App.Inv`). So a task always
finds it. The controller does when it takes its messages in time:

* `app_survives_iff` — a run has no panic exactly when the number of clients is taken while a
  server is in use, and `Disconnect` before the client is gone
-/

namespace CraftIp.Gui

open Infra

/-- Replacing an element changes the count by what it counts itself. -/
theorem countP_set_add {α : Type} {p : α → Bool} {l : List α} {i : Nat} {x : α} (y : α)
    (h : l[i]? = some x) :
    (l.set i y).countP p + (p x).toNat = l.countP p + (p y).toNat := by
  obtain ⟨hi, rfl⟩ := List.getElem?_eq_some_iff.mp h
  have hpos : p l[i] = true → 0 < l.countP p := fun hp =>
    List.countP_pos_iff.mpr ⟨_, List.getElem_mem hi, hp⟩
  rw [List.countP_set hi]
  cases hx : p l[i] with
  | true =>
    have := hpos hx
    cases p y <;> simp only [if_true, Bool.false_eq_true, if_false, Bool.toNat_true,
      Bool.toNat_false] <;> omega
  | false => cases p y <;> rfl

/-! ## The active server -/

namespace GuiState

variable {closure : ServerPanel → ServerPanel}

theorem modifyActive_eq_none_iff (servers : List ServerPanel) :
    modifyActive closure servers = none ↔ servers.countP ServerPanel.isActive = 0 := by
  induction servers with
  | nil => exact ⟨fun _ => rfl, fun _ => rfl⟩
  | cons s rest ih =>
    unfold modifyActive
    split
    · next hs => simp [hs]
    · next hs => rw [Option.map_eq_none_iff, ih, List.countP_cons_of_neg hs]

/-- Only the first active server changes. -/
theorem countP_modifyActive {k : Nat}
    (hclosure : ∀ s : ServerPanel, s.isActive = true → (closure s).isActive.toNat = k) :
    ∀ {servers servers' : List ServerPanel}, modifyActive closure servers = some servers' →
      servers'.countP ServerPanel.isActive + 1 = servers.countP ServerPanel.isActive + k := by
  intro servers
  induction servers with
  | nil => intro servers' h; cases h
  | cons s rest ih =>
    intro servers' h
    unfold modifyActive at h
    split at h
    · next hs =>
      cases h
      have hk := hclosure s hs
      rw [List.countP_cons, List.countP_cons_of_pos hs]
      cases hc : (closure s).isActive with
      | true =>
        rw [hc] at hk
        rw [if_pos rfl, ← hk]
        rfl
      | false =>
        rw [hc] at hk
        rw [if_neg (by decide), ← hk]
        rfl
    · next hs =>
      obtain ⟨rest', hrest, rfl⟩ := Option.map_eq_some_iff.mp h
      rw [List.countP_cons_of_neg hs, List.countP_cons_of_neg hs]
      exact ih hrest

end GuiState

/-- A `Connect` on its way to the controller. -/
def GuiTriggeredEvent.isConnect : GuiTriggeredEvent → Bool
  | .Connect _ => true
  | .Disconnect => false

/-- A click leaves an active server, and it is a `Connect` on one that was not. -/
theorem ServerPanel.click_spec {s s' : ServerPanel} {event : GuiTriggeredEvent}
    (h : s.click = some (s', event)) : s'.isActive = true ∧ event.isConnect = !s.isActive := by
  unfold click at h
  cases hs : s.state <;> simp only [hs] at h <;> cases h <;>
    simp [isActive, hs, GuiTriggeredEvent.isConnect]

/-- The local address has no part in it. -/
theorem ServerPanel.isActive_edit {s s' : ServerPanel} {edit : Edit} (h : s.edit edit = some s') :
    s'.isActive = s.isActive := by
  cases edit with
  | start =>
    simp only [ServerPanel.edit] at h
    split at h
    · cases h; rfl
    · cases h
  | type text | accept | cancel =>
    obtain ⟨_, -, rfl⟩ := Option.map_eq_some_iff.mp h
    rfl

/-- A panel is active after the call exactly when the task is still open. -/
theorem Phase.report_spec {phase phase' : Phase} {closure : ServerPanel → ServerPanel}
    (h : phase.report = some (closure, phase')) :
    phase.isOpen = true ∧ ∀ s : ServerPanel, (closure s).isActive = phase'.isOpen := by
  match phase, h with
  | .connected (.ok ()), h => cases h; exact ⟨rfl, fun _ => rfl⟩
  | .connected (.error e), h => cases h; exact ⟨rfl, fun _ => rfl⟩
  | .handled result, h => cases h; exact ⟨rfl, fun _ => rfl⟩

namespace App

variable {a a' : App} {e : AppEvent}

/-! ## What a step can do -/

/-- The cases of a step. -/
inductive Step (a : App) : AppEvent → App → Prop
  | click {i servers s s' event} (hs : a.state.servers = some servers) (hi : servers[i]? = some s)
      (henabled : s.buttonEnabled (GuiState.panelEnabled servers s) = true)
      (hclick : s.click = some (s', event)) :
      Step a (.click i)
        { a with state := ⟨some (servers.set i s')⟩, events := a.events ++ [event] }
  | edit {i edit servers s s'} (hs : a.state.servers = some servers) (hi : servers[i]? = some s)
      (hedit : s.edit edit = some s') :
      Step a (.edit i edit) { a with state := ⟨some (servers.set i s')⟩ }
  | stats {stats rest} (hq : a.stats = stats :: rest) :
      Step a .stats ({ a with stats := rest }.onStats stats)
  | event {event rest} (hq : a.events = event :: rest) :
      Step a .event ({ a with events := rest }.onEvent event)
  | session {i e session a'} (hi : a.sessions[i]? = some session)
      (hsession : a.onSession i session e = some a') : Step a (.session i e) a'

theorem step_cases (h : a.step e = some a') : a.panicked = none ∧ Step a e a' := by
  unfold step at h
  split at h
  · cases h
  · next hp =>
    refine ⟨Option.not_isSome_iff_eq_none.mp hp, ?_⟩
    cases e with
    | click i =>
      obtain ⟨⟨state, event⟩, hclick, h⟩ := Option.bind_eq_some_iff.mp h
      obtain ⟨servers, hs, hclick⟩ := Option.bind_eq_some_iff.mp hclick
      obtain ⟨s, hi, hclick⟩ := Option.bind_eq_some_iff.mp hclick
      split at hclick
      · next henabled =>
        obtain ⟨⟨s', event'⟩, hs', hclick⟩ := Option.bind_eq_some_iff.mp hclick
        cases hclick
        cases h
        exact .click hs hi henabled hs'
      · cases hclick
    | edit i edit =>
      obtain ⟨state, hedit, h⟩ := Option.bind_eq_some_iff.mp h
      obtain ⟨servers, hs, hedit⟩ := Option.bind_eq_some_iff.mp hedit
      obtain ⟨s, hi, hedit⟩ := Option.bind_eq_some_iff.mp hedit
      split at hedit
      · obtain ⟨s', hs', hedit⟩ := Option.bind_eq_some_iff.mp hedit
        cases hedit
        cases h
        exact .edit hs hi hs'
      · cases hedit
    | stats =>
      simp only at h
      split at h
      · cases h
      · next hq => cases h; exact .stats hq
    | event =>
      simp only at h
      split at h
      · cases h
      · next hq => cases h; exact .event hq
    | session i e =>
      obtain ⟨session, hi, h⟩ := Option.bind_eq_some_iff.mp h
      exact .session hi h

/-! ## At most one server is active -/

/-- The `Connect`s that wait. -/
def pending (a : App) : Nat := a.events.countP GuiTriggeredEvent.isConnect

/-- The tasks that have yet to set their server to `Disconnected`. -/
def opened (a : App) : Nat := a.sessions.countP fun session => session.phase.isOpen

/--
Every active server is waited for.

The number is that of the `Connect`s that wait and of the open tasks, and it is one at most.
-/
structure Inv (a : App) : Prop where
  active : ∃ servers, a.state.servers = some servers ∧
    servers.countP ServerPanel.isActive = a.pending + a.opened
  one : a.pending + a.opened ≤ 1

/-- A server is in use: its `Connect` waits, or its task is open. -/
def inUse (a : App) : Bool :=
  a.events.any GuiTriggeredEvent.isConnect || a.sessions.any fun session => session.phase.isOpen

/-- The client of the newest task is there. -/
def clientThere (a : App) : Bool :=
  match a.controlTx with
  | none => true
  | some i =>
    match a.sessions[i]? with
    | none => true
    | some session => !session.phase.isDropped

/-- The controller takes a message while what it is about is still there. -/
def timely (a : App) : AppEvent → Bool
  | .stats =>
    match a.stats with
    | .ClientsConnected _ :: _ => a.inUse
    | _ => true
  | .event =>
    match a.events with
    | .Disconnect :: _ => a.clientThere
    | _ => true
  | _ => true

theorem inUse_iff (a : App) : a.inUse = true ↔ 0 < a.pending + a.opened := by
  rw [inUse, Bool.or_eq_true, List.any_eq_true, List.any_eq_true, Nat.add_pos_iff_pos_or_pos,
    pending, opened, List.countP_pos_iff, List.countP_pos_iff]

/-- What a step has to keep. -/
def Good (a a' : App) (e : AppEvent) : Prop :=
  (a'.panicked = none ↔ a.timely e = true) ∧ (a'.panicked = none → a'.Inv)

theorem good_of_inv (htimely : a.timely e = true) (hp : a'.panicked = none) (hi : a'.Inv) :
    Good a a' e :=
  ⟨⟨fun _ => htimely, fun _ => hp⟩, fun _ => hi⟩

/-- A call of `set_active_server` panics exactly when no server is active. -/
theorem setActiveServer_cases {servers : List ServerPanel} (hs : a.state.servers = some servers)
    (closure : ServerPanel → ServerPanel) (panic : Panic) :
    (servers.countP ServerPanel.isActive = 0 ∧
      a.setActiveServer closure panic = { a with panicked := some panic }) ∨
    ∃ servers', GuiState.modifyActive closure servers = some servers' ∧
      a.setActiveServer closure panic = { a with state := ⟨some servers'⟩ } := by
  unfold setActiveServer GuiState.setActiveServer
  rw [hs]
  cases hm : GuiState.modifyActive closure servers with
  | none => exact Or.inl ⟨(GuiState.modifyActive_eq_none_iff servers).mp hm, by simp only [hm]⟩
  | some servers' => exact Or.inr ⟨servers', rfl, by simp only [hm]⟩

/-! ## What every step keeps -/

/-- A panel that is not active can be clicked only when none is. -/
theorem countP_of_enabled {servers : List ServerPanel} {s : ServerPanel}
    (henabled : s.buttonEnabled (GuiState.panelEnabled servers s) = true)
    (hs : s.isActive = false) : servers.countP ServerPanel.isActive = 0 := by
  simp only [ServerPanel.buttonEnabled, GuiState.panelEnabled, hs, Bool.or_false, Bool.and_eq_true,
    Bool.not_eq_true'] at henabled
  refine List.countP_eq_zero.mpr ?_
  intro t ht hactive
  rw [List.any_eq_false] at henabled
  exact henabled.1.1 t ht hactive

theorem Inv.click (h : a.Inv) (hp : a.panicked = none) {i : Nat} {servers : List ServerPanel}
    {s s' : ServerPanel} {event : GuiTriggeredEvent} (hs : a.state.servers = some servers)
    (hi : servers[i]? = some s)
    (henabled : s.buttonEnabled (GuiState.panelEnabled servers s) = true)
    (hclick : s.click = some (s', event)) :
    Good a { a with state := ⟨some (servers.set i s')⟩, events := a.events ++ [event] }
      (.click i) := by
  obtain ⟨_, hs', hcount⟩ := h.active
  cases hs.symm.trans hs'
  obtain ⟨hactive, hconnect⟩ := ServerPanel.click_spec hclick
  have hone := h.one
  have hset := countP_set_add s' hi (p := ServerPanel.isActive)
  have hpending : (a.events ++ [event]).countP GuiTriggeredEvent.isConnect
      = a.pending + event.isConnect.toNat := by
    rw [List.countP_append, List.countP_singleton, pending]
    cases event.isConnect <;> rfl
  rw [hactive] at hset
  refine good_of_inv rfl hp ⟨⟨_, rfl, ?_⟩, ?_⟩
  · show _ = (a.events ++ [event]).countP GuiTriggeredEvent.isConnect + a.opened
    rw [hpending, hconnect]
    cases hb : s.isActive <;> rw [hb] at hset <;> simp at hset ⊢ <;> omega
  · show (a.events ++ [event]).countP GuiTriggeredEvent.isConnect + a.opened ≤ 1
    rw [hpending, hconnect]
    cases hb : s.isActive with
    | true => simpa using hone
    | false =>
      have hnone := countP_of_enabled henabled hb
      simp
      omega

theorem Inv.edit (h : a.Inv) (hp : a.panicked = none) {i : Nat} {edit : Edit}
    {servers : List ServerPanel} {s s' : ServerPanel} (hs : a.state.servers = some servers)
    (hi : servers[i]? = some s) (hedit : s.edit edit = some s') :
    Good a { a with state := ⟨some (servers.set i s')⟩ } (.edit i edit) := by
  obtain ⟨_, hs', hcount⟩ := h.active
  cases hs.symm.trans hs'
  have hset := countP_set_add s' hi (p := ServerPanel.isActive)
  rw [ServerPanel.isActive_edit hedit] at hset
  exact good_of_inv rfl hp ⟨⟨_, rfl, (Nat.add_right_cancel hset).trans hcount⟩, h.one⟩

/-- `set_active_server` where a server is active, with a closure that keeps it so. -/
theorem setClients_cases (h : a.Inv) (clients : UInt16) :
    (a.inUse = false ∧
      a.onStats (.ClientsConnected clients) = { a with panicked := some .stats }) ∨
    (a.inUse = true ∧ ∃ servers, servers.countP ServerPanel.isActive = a.pending + a.opened ∧
      a.onStats (.ClientsConnected clients) = { a with state := ⟨some servers⟩ }) := by
  obtain ⟨servers, hs, hcount⟩ := h.active
  rcases setActiveServer_cases hs (.setClients clients) .stats
    with ⟨hzero, hset⟩ | ⟨servers', hm, hset⟩
  · refine Or.inl ⟨?_, hset⟩
    rw [Bool.eq_false_iff, ne_eq, inUse_iff, ← hcount, hzero]
    exact Nat.lt_irrefl 0
  · have hclosure (s : ServerPanel) (hactive : s.isActive = true) :
        (s.setClients clients).isActive.toNat = 1 := congrArg Bool.toNat hactive
    have hkeep := GuiState.countP_modifyActive hclosure hm
    have hpos : 0 < servers.countP ServerPanel.isActive := Nat.pos_of_ne_zero fun hzero => by
      rw [(GuiState.modifyActive_eq_none_iff servers).mpr hzero] at hm
      cases hm
    exact Or.inr ⟨(inUse_iff a).mpr (hcount ▸ hpos), servers',
      (Nat.add_right_cancel hkeep).trans hcount, hset⟩

/-- The controller writes the number of clients into the active server, if there is one. -/
theorem Inv.stats (h : a.Inv) (hp : a.panicked = none) {stats : Stats} {rest : List Stats}
    (hq : a.stats = stats :: rest) : Good a ({ a with stats := rest }.onStats stats) .stats := by
  have hrest : Inv { a with stats := rest } := ⟨h.active, h.one⟩
  cases stats with
  | Connected => exact good_of_inv (by simp only [timely, hq]) hp hrest
  | Ping ping => exact good_of_inv (by simp only [timely, hq]) hp hrest
  | ClientsConnected clients =>
    have htimely : a.timely .stats = a.inUse := by simp only [timely, hq]
    rcases setClients_cases hrest clients with ⟨hidle, hstep⟩ | ⟨hinUse, servers, hcount, hstep⟩
    · rw [hstep]
      refine ⟨?_, fun hnone => by cases hnone⟩
      rw [htimely, show a.inUse = false from hidle]
      simp
    · rw [hstep]
      exact good_of_inv (htimely.trans hinUse) hp ⟨⟨servers, rfl, hcount⟩, h.one⟩

theorem disconnect_cases (a : App) :
    (a.clientThere = false ∧ a.onEvent .Disconnect = { a with panicked := some .disconnect }) ∨
    (a.clientThere = true ∧ ∃ sessions : List Session,
      (sessions.countP fun session => session.phase.isOpen) = a.opened ∧
        a.onEvent .Disconnect = { a with sessions := sessions }) := by
  rcases Option.eq_none_or_eq_some a.controlTx with htx | ⟨i, htx⟩
  · have hstep : a.onEvent .Disconnect = a := by simp only [App.onEvent, htx]
    exact Or.inr ⟨by rw [clientThere, htx], a.sessions, rfl, hstep⟩
  · have hthere : a.clientThere = match a.sessions[i]? with
        | none => true
        | some session => !session.phase.isDropped := by rw [clientThere, htx]
    have hstep : a.onEvent .Disconnect = a.sendDisconnect i := by simp only [App.onEvent, htx]
    rw [hthere, hstep, sendDisconnect]
    cases hi : a.sessions[i]? with
    | none => exact Or.inr ⟨rfl, a.sessions, rfl, rfl⟩
    | some session =>
      simp only
      cases hdropped : session.phase.isDropped with
      | true => exact Or.inl ⟨rfl, if_pos rfl⟩
      | false =>
        have hset := countP_set_add { session with control := session.control ++ [.Disconnect] } hi
          (p := fun session => session.phase.isOpen)
        exact Or.inr ⟨rfl, _, Nat.add_right_cancel hset, if_neg (by decide)⟩

/-- The controller spawns a task, or sends to the newest one. -/
theorem Inv.event (h : a.Inv) (hp : a.panicked = none) {event : GuiTriggeredEvent}
    {rest : List GuiTriggeredEvent} (hq : a.events = event :: rest) :
    Good a ({ a with events := rest }.onEvent event) .event := by
  obtain ⟨servers, hs, hcount⟩ := h.active
  have hone := h.one
  cases event with
  | Connect server =>
    -- the `Connect` no longer waits, and its task is open
    have hpending : a.pending = rest.countP GuiTriggeredEvent.isConnect + 1 := by
      rw [pending, hq, List.countP_cons_of_pos rfl]
    have hopened (session : Session) (hsession : session.phase = .connecting) :
        (a.sessions ++ [session]).countP (fun session => session.phase.isOpen) = a.opened + 1 := by
      rw [List.countP_append, List.countP_singleton, hsession, opened]
      rfl
    refine good_of_inv (by simp only [timely, hq]) hp ⟨⟨servers, hs, ?_⟩, ?_⟩
    · show _ = rest.countP GuiTriggeredEvent.isConnect + (a.sessions ++ [_]).countP _
      rw [hopened _ rfl]
      omega
    · show rest.countP GuiTriggeredEvent.isConnect + (a.sessions ++ [_]).countP _ ≤ 1
      rw [hopened _ rfl]
      omega
  | Disconnect =>
    have htimely : a.timely .event = a.clientThere := by simp only [timely, hq]
    have hpending : a.pending = rest.countP GuiTriggeredEvent.isConnect := by
      rw [pending, hq, List.countP_cons_of_neg (by decide)]
    rcases disconnect_cases { a with events := rest } with
      ⟨hgone, hstep⟩ | ⟨hthere, sessions, hsessions, hstep⟩
    · rw [hstep]
      refine ⟨?_, fun hnone => by cases hnone⟩
      rw [htimely, show a.clientThere = false from hgone]
      simp
    · rw [hstep]
      refine good_of_inv (htimely.trans hthere) hp ⟨⟨servers, hs, ?_⟩, ?_⟩
      · show _ = rest.countP GuiTriggeredEvent.isConnect + sessions.countP _
        rw [hsessions, ← hpending]
        exact hcount
      · show rest.countP GuiTriggeredEvent.isConnect + sessions.countP _ ≤ 1
        rw [hsessions, ← hpending]
        exact hone

/-- **A task always finds its server.** -/
theorem Inv.report (h : a.Inv) (hp : a.panicked = none) {i : Nat} {session : Session}
    {closure : ServerPanel → ServerPanel} {phase : Phase} (hi : a.sessions[i]? = some session)
    (hreport : session.phase.report = some (closure, phase)) :
    Good a ({ a with sessions := a.sessions.set i { session with phase := phase } }
      |>.setActiveServer closure .session) (.session i .report) := by
  obtain ⟨servers, hs, hcount⟩ := h.active
  have hone := h.one
  obtain ⟨hopen, hclosure⟩ := Phase.report_spec hreport
  have hset := countP_set_add { session with phase := phase } hi
    (p := fun session => session.phase.isOpen)
  simp only [hopen, Bool.toNat_true] at hset
  have hopened : 1 ≤ a.opened := List.countP_pos_iff.mpr ⟨session, List.mem_of_getElem? hi, hopen⟩
  rcases setActiveServer_cases
      (a := { a with sessions := a.sessions.set i { session with phase := phase } })
      hs closure .session
    with ⟨hzero, -⟩ | ⟨servers', hm, hstep⟩
  · omega
  · have hmodify := GuiState.countP_modifyActive (k := phase.isOpen.toNat)
      (fun s _ => congrArg Bool.toNat (hclosure s)) hm
    rw [hstep]
    refine good_of_inv rfl hp ⟨⟨servers', rfl, ?_⟩, ?_⟩
    · show _ = a.pending + (a.sessions.set i _).countP _
      unfold opened at *
      omega
    · show a.pending + (a.sessions.set i _).countP _ ≤ 1
      have hle : phase.isOpen.toNat ≤ 1 := Bool.toNat_le _
      unfold opened at *
      omega

/-- A task that goes on without the panel stays open, or stays reported. -/
theorem Inv.move (h : a.Inv) (hp : a.panicked = none) {i : Nat} {e : SessionEvent}
    {session : Session} {phase : Phase} (hi : a.sessions[i]? = some session) (stats : List Stats)
    (hphase : phase.isOpen = session.phase.isOpen) :
    Good a { a with
      stats := stats, sessions := a.sessions.set i { session with phase := phase } }
      (.session i e) := by
  obtain ⟨servers, hs, hcount⟩ := h.active
  have hset := countP_set_add { session with phase := phase } hi
    (p := fun session => session.phase.isOpen)
  have hopened : (a.sessions.set i { session with phase := phase }).countP
      (fun session => session.phase.isOpen) = a.opened := by
    rw [hphase] at hset
    exact Nat.add_right_cancel hset
  refine good_of_inv rfl hp ⟨⟨servers, hs, ?_⟩, ?_⟩
  · show _ = a.pending + (a.sessions.set i _).countP _
    rw [hopened, hcount]
  · show a.pending + (a.sessions.set i _).countP _ ≤ 1
    rw [hopened]
    exact h.one

theorem Inv.session (h : a.Inv) (hp : a.panicked = none) {i : Nat} {e : SessionEvent}
    {session : Session} (hi : a.sessions[i]? = some session)
    (hsession : a.onSession i session e = some a') : Good a a' (.session i e) := by
  cases e with
  | connect result =>
    cases hphase : session.phase <;> simp only [onSession, hphase] at hsession <;> cases hsession
    exact h.move hp hi _ (by rw [hphase]; rfl)
  | send stats =>
    cases hphase : session.phase <;> simp only [onSession, hphase] at hsession <;> cases hsession
    exact good_of_inv rfl hp ⟨h.active, h.one⟩
  | handle result =>
    cases hphase : session.phase <;> simp only [onSession, hphase] at hsession <;> cases hsession
    exact h.move hp hi _ (by rw [hphase]; rfl)
  | report =>
    cases hreport : session.phase.report with
    | none =>
      simp only [onSession, hreport] at hsession
      cases hsession
    | some v =>
      simp only [onSession, hreport] at hsession
      cases hsession
      exact h.report hp hi hreport
  | drop =>
    cases hphase : session.phase <;> simp only [onSession, hphase] at hsession <;> cases hsession
    exact h.move hp hi _ (by rw [hphase]; rfl)

/--
**A step panics exactly when it is not timely**, and otherwise the active server stays
accounted for.
-/
theorem Inv.step (h : a.Inv) (hstep : a.step e = some a') : Good a a' e := by
  obtain ⟨hp, hcases⟩ := step_cases hstep
  cases hcases with
  | click hs hi henabled hclick => exact h.click hp hs hi henabled hclick
  | edit hs hi hedit => exact h.edit hp hs hi hedit
  | stats hq => exact h.stats hp hq
  | event hq => exact h.event hp hq
  | session hi hsession => exact h.session hp hi hsession

theorem inv_new (servers : List Server) : (new servers).Inv where
  active := by
    refine ⟨_, rfl, ?_⟩
    show (servers.map ServerPanel.ofServer).countP ServerPanel.isActive = 0
    refine List.countP_eq_zero.mpr ?_
    intro s hs
    obtain ⟨server, -, rfl⟩ := List.mem_map.mp hs
    exact Bool.false_ne_true
  one := Nat.zero_le 1

end App

/--
**The controller and the tasks never panic when the controller takes its messages in time.**

A run from a fresh start has no panic exactly when all of its steps are timely: the number of
clients is taken while a `Connect` waits or a task is open, and a `Disconnect` before the
client of the newest task is dropped.
-/
theorem app_survives_iff (servers : List Server) (events : List AppEvent) (a : App)
    (h : (appMachine servers).run (.new servers) events = some a) :
    a.panicked = none ↔
      ((appMachine servers).restrict fun a e => a.timely e = true).run (.new servers) events
        = some a :=
  Machine.run_restrict_iff (I := App.Inv) (G := fun a => a.panicked = none)
    (fun _ _ _ hs => (App.step_cases hs).1) (fun _ _ _ hi hs => hi.step hs) events
    (App.inv_new servers) rfl h

/-- A server of the storage. -/
def exampleServer : Server :=
  { server := "example.craftip.net", localAddr := "25565", auth := .Key [] }

/-- The user connects, and one Minecraft client joins. -/
def joined : List AppEvent :=
  [.click 0, .event, .session 0 (.connect (.ok ())), .session 0 .report,
    .session 0 (.send (.ClientsConnected 1)), .stats]

/-- And disconnects again. -/
def disconnected : List AppEvent :=
  joined ++ [.stats, .click 0, .event, .session 0 (.handle (.ok ())), .session 0 .report,
    .session 0 .drop]

theorem app_survives_disconnected : ∃ a,
    (appMachine [exampleServer]).run (.new [exampleServer]) disconnected = some a ∧
      a.panicked = none :=
  ⟨_, rfl, (app_survives_iff [exampleServer] disconnected _ rfl).mpr rfl⟩

/--
The proxy closes the connection before the controller has taken the number of clients, or
while the `Disconnect` of the user is on its way.
-/
theorem app_panics :
    (∃ a, (appMachine [exampleServer]).run (.new [exampleServer])
      (joined ++ [.session 0 (.handle (.error "Proxy has closed the connection")),
        .session 0 .report, .stats]) = some a ∧ a.panicked = some .stats) ∧
    ∃ a, (appMachine [exampleServer]).run (.new [exampleServer])
      (joined ++ [.stats, .click 0,
        .session 0 (.handle (.error "Proxy has closed the connection")), .session 0 .report,
        .session 0 .drop, .event]) = some a ∧ a.panicked = some .disconnect :=
  ⟨⟨_, rfl, rfl⟩, ⟨_, rfl, rfl⟩⟩

end CraftIp.Gui
