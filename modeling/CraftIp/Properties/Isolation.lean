import CraftIp.Infra.Simulation
import CraftIp.Properties.Downstream
import CraftIp.Properties.Host

/-!
# What the clients of the server see of each other

Whatever the proxy clients and the Minecraft clients send, and in whatever order,

* `host_coupled` — every session and the register are as they would be by themselves, and every
  Minecraft client of a session is one connection
* `host_isolated` — a Minecraft client gets nothing but what a proxy client has sent that
  registered its hostname, and a proxy client gets nothing but what such Minecraft clients sent
-/

namespace CraftIp

open Infra

/-! ## What goes over the wires -/

/-- A packet at one of the connections of the server. -/
inductive HostTraffic
  /-- A packet of the proxy client of session `i`. -/
  | heard (i : Nat) (packet : SocketPacket)
  /-- A packet for the proxy client of session `i`, about its Minecraft client `k`. -/
  | said (i k : Nat) (packet : SocketPacket)
  /-- Data for the Minecraft client of connection `j`. -/
  | wrote (j : Nat) (pkg : MinecraftDataPacket)

/-- The packet that the loop takes. -/
def SessionEvent.packets : SessionEvent → List SocketPacket
  | .packet _ p => [p]
  | _ => []

/-- What the loop of session `i` takes and sends. -/
def loopTraffic (i : Nat) (e : SessionEvent) (out : List (Nat × SocketPacket)) :
    List HostTraffic :=
  (e.packets.map fun packet => .heard i packet) ++ out.map fun p => .said i p.1 p.2

/-- What can be seen of a step. -/
def Host.observe (s : Host) : HostEvent → List HostTraffic
  | .loop i e =>
    match (s.sessions.lookup i).bind fun session => session.step e with
    | some (_, out) => loopTraffic i e out
    | none => []
  | .guest j e =>
    match s.guests.lookup j with
    | some (.inside i k) =>
      match s.sessions.lookup i with
      | some session => (Tunnel.gotOf session (e.toSession k) k).map (.wrote j)
      | none => []
    | _ => []
  | _ => []

theorem Host.observe_task (s : Host) (i : Nat) (e : Event) : s.observe (.task i e) = [] := rfl

theorem Host.observe_join (s : Host) (j : Nat) (addr : SocketAddr) :
    s.observe (.join j addr) = [] := rfl

/-- The data that the proxy client of session `i` sent. -/
def heardBy (i : Nat) (traffic : List HostTraffic) : List MinecraftDataPacket :=
  traffic.filterMap fun
    | .heard i' (.ProxyData d) => if i' = i then some d.packet else none
    | _ => none

/-- What the proxy client of session `i` was sent. -/
def saidTo (i : Nat) (traffic : List HostTraffic) : List (Nat × SocketPacket) :=
  traffic.filterMap fun
    | .said i' k packet => if i' = i then some (k, packet) else none
    | _ => none

/-- What the Minecraft client of connection `j` was sent. -/
def wroteTo (j : Nat) (traffic : List HostTraffic) : List MinecraftDataPacket :=
  traffic.filterMap fun
    | .wrote j' pkg => if j' = j then some pkg else none
    | _ => none

@[simp] theorem heardBy_append (i : Nat) (p q : List HostTraffic) :
    heardBy i (p ++ q) = heardBy i p ++ heardBy i q := List.filterMap_append

@[simp] theorem saidTo_append (i : Nat) (p q : List HostTraffic) :
    saidTo i (p ++ q) = saidTo i p ++ saidTo i q := List.filterMap_append

@[simp] theorem wroteTo_append (j : Nat) (p q : List HostTraffic) :
    wroteTo j (p ++ q) = wroteTo j p ++ wroteTo j q := List.filterMap_append

theorem saidTo_loop (i i' : Nat) (e : SessionEvent) (out : List (Nat × SocketPacket)) :
    saidTo i' (loopTraffic i e out) = if i = i' then out else [] := by
  have hheard : saidTo i' (e.packets.map fun packet => .heard i packet) = [] := by
    simp [saidTo, List.filterMap_map]
  rw [loopTraffic, saidTo_append, hheard, List.nil_append, saidTo, List.filterMap_map]
  by_cases hi : i = i' <;> simp [hi]

theorem wroteTo_loop (i j : Nat) (e : SessionEvent) (out : List (Nat × SocketPacket)) :
    wroteTo j (loopTraffic i e out) = [] := by
  simp [loopTraffic, wroteTo, List.filterMap_map]

theorem heardBy_loop (i : Nat) (src : Nat) (d : ProxyDataPacket) (out : List (Nat × SocketPacket)) :
    heardBy i (loopTraffic i (.packet src (.ProxyData d)) out) = [d.packet] := by
  simp [loopTraffic, SessionEvent.packets, heardBy, List.filterMap_map]

theorem wroteTo_wrote (j j' : Nat) (packets : List MinecraftDataPacket) :
    wroteTo j' (packets.map (.wrote j)) = if j = j' then packets else [] := by
  rw [wroteTo, List.filterMap_map]
  by_cases hj : j = j' <;> simp [hj]

theorem saidTo_wrote (i j : Nat) (packets : List MinecraftDataPacket) :
    saidTo i (packets.map (.wrote j)) = [] := by
  simp [saidTo, List.filterMap_map]

theorem heardBy_wrote (i j : Nat) (packets : List MinecraftDataPacket) :
    heardBy i (packets.map (.wrote j)) = [] := by
  simp [heardBy, List.filterMap_map]

/-! ## One session -/

/-- The loop puts the data of a packet into one channel at most. -/
theorem Session.Step.rx {s s' : Session} {e : SessionEvent} {out : List (Nat × SocketPacket)}
    (h : Session.Step s e s' out) (he : e.isLoop = true) (k : Nat) :
    Tunnel.rxOf s' k = Tunnel.rxOf s k ∨ ∃ src d, e = .packet src (.ProxyData d) ∧
      Tunnel.rxOf s' k = Tunnel.rxOf s k ++ [d.packet] := by
  cases h with
  | @deliver src d c hr hc =>
    have hrx : Tunnel.rxOf (s.modify c.tx (Session.deliver d.packet)) k = Tunnel.rxOf s k ∨
        Tunnel.rxOf (s.modify c.tx (Session.deliver d.packet)) k
          = Tunnel.rxOf s k ++ [d.packet] := by
      cases hm : s.clients[c.tx]? with
      | none =>
        left
        unfold Tunnel.rxOf
        rw [clients_modify]
        split
        · next heq => rw [← heq, hm, Option.map_none]
        · rfl
      | some m =>
        rw [Tunnel.rxOf_modify hm]
        split
        · next heq =>
          subst heq
          rw [Tunnel.rxOf_of hm, Session.deliver]
          split
          · exact Or.inl rfl
          · exact Or.inr rfl
        · exact Or.inl rfl
    exact hrx.imp_right fun h => ⟨src, d, rfl, h⟩
  | join | hello | helloClosed | read | readClosed | receive | receiveClosed | stop | drop
  | dropSilent => cases he
  | _ => exact Or.inl rfl

/-- What a Minecraft client gets comes out of its own channel. -/
theorem gotOf_toSession {s : Session} {e : GuestEvent} {k k' : Nat} (h : k' ≠ k) :
    Tunnel.gotOf s (e.toSession k) k' = [] := by
  cases e with
  | receive => exact if_neg fun heq => h heq.symm
  | _ => rfl

/-- Only the loop sends something. -/
theorem Session.Step.out_nil {s s' : Session} {e : SessionEvent} {out : List (Nat × SocketPacket)}
    (h : Session.Step s e s' out) (he : e.isLoop = false) : out = [] := by
  cases h <;> first | rfl | cases he

/-- A loop that ends sends nothing more. -/
theorem Session.Step.out_of_end {s s' : Session} {e : SessionEvent}
    {out : List (Nat × SocketPacket)} (h : Session.Step s e s' out) (he : e.isLoop = true)
    (hr : s'.result ≠ none) : out = [] := by
  cases h <;> first | rfl | (cases he; done) | exact absurd (by assumption) hr

/-! ## All sessions -/

namespace Host

open Tunnel (rxOf readOf queuedOf gotOf)

/-- What is known of the connections when this went over their wires. -/
structure Isolated (s : Host) (traffic : List HostTraffic) : Prop where
  down : ∀ j i k session, s.guests.lookup j = some (.inside i k) →
    s.sessions.lookup i = some session →
    (wroteTo j traffic ++ rxOf session k).Sublist (heardBy i traffic)
  outside : ∀ j, (∀ i k, s.guests.lookup j ≠ some (.inside i k)) → wroteTo j traffic = []
  up : ∀ i session k, s.sessions.lookup i = some session →
    (session.result = none →
      Tunnel.dataOf k (saidTo i traffic) ++ queuedOf k session.queue = readOf session k) ∧
    Tunnel.dataOf k (saidTo i traffic) <+: readOf session k
  silent : ∀ i, s.sessions.lookup i = none → saidTo i traffic = []

theorem isolated_new : new.Isolated [] where
  down j i k session h := by cases h
  outside j _ := rfl
  up i session k h := by cases h
  silent i _ := rfl

/-- Nothing goes over a wire, and the clients are the same. -/
theorem Isolated.quiet {s s' : Host} {traffic : List HostTraffic} (h : s.Isolated traffic)
    (hsessions : s'.sessions = s.sessions)
    (hguests : ∀ j i k, s'.guests.lookup j = some (.inside i k) ↔
      s.guests.lookup j = some (.inside i k)) : s'.Isolated traffic where
  down j i k session hg hs := h.down j i k session ((hguests j i k).mp hg) (hsessions ▸ hs)
  outside j hj := h.outside j fun i k hg => hj i k ((hguests j i k).mpr hg)
  up i session k hs := h.up i session k (hsessions ▸ hs)
  silent i hs := h.silent i (hsessions ▸ hs)

variable {crypto : Crypto}

/-- What a session sends is what it has read. -/
theorem Isolated.up_step {s : Host} {traffic more : List HostTraffic} (h : s.Isolated traffic)
    (hs : s.Inv crypto) {b : Nat} {session session' : Session} {e : SessionEvent}
    {out : List (Nat × SocketPacket)} (hsession : s.sessions.lookup b = some session)
    (hstep : session.step e = some (session', out))
    (hsaid : ∀ i, saidTo i more = if b = i then out else []) (i : Nat) (t : Session) (k : Nat)
    (ht : (s.sessions.insert b session').lookup i = some t) :
    (t.result = none →
      Tunnel.dataOf k (saidTo i (traffic ++ more)) ++ queuedOf k t.queue = readOf t k) ∧
    Tunnel.dataOf k (saidTo i (traffic ++ more)) <+: readOf t k := by
  rw [saidTo_append, hsaid]
  rw [Table.lookup_insert] at ht
  split at ht
  · next hib =>
    cases ht
    subst hib
    obtain ⟨hall, hbegin⟩ := h.up i session k hsession
    obtain ⟨x, hread, hopen, hclosed⟩ := Tunnel.session_flow
      (Session.reachable_inv (hs.sessions i session hsession)) (Session.step_cases hstep) k
    rw [if_pos rfl, Tunnel.dataOf_append, hread]
    by_cases hr : session'.result = none
    · obtain ⟨hr₀, hflow⟩ := hopen hr
      have heq : Tunnel.dataOf k (saidTo i traffic) ++ Tunnel.dataOf k out
          ++ queuedOf k session'.queue = readOf session k ++ x := by
        rw [List.append_assoc, hflow, ← List.append_assoc, hall hr₀]
      exact ⟨fun _ => heq, heq ▸ List.prefix_append _ _⟩
    · rw [hclosed hr, List.append_nil]
      exact ⟨fun hr' => absurd hr' hr, hbegin.trans (List.prefix_append _ _)⟩
  · next hib =>
    rw [if_neg (fun h => hib h.symm), List.append_nil]
    exact h.up i t k ht

theorem Isolated.silent_step {s : Host} {traffic more : List HostTraffic} (h : s.Isolated traffic)
    {b : Nat} {session' : Session} {out : List (Nat × SocketPacket)}
    (hsaid : ∀ i, saidTo i more = if b = i then out else []) (i : Nat)
    (hnone : (s.sessions.insert b session').lookup i = none) :
    saidTo i (traffic ++ more) = [] := by
  rw [Table.lookup_insert] at hnone
  split at hnone
  · cases hnone
  · next hib => rw [saidTo_append, hsaid, if_neg (fun h => hib h.symm), h.silent i hnone]; rfl

/-- The loop of a session takes a step. -/
theorem Isolated.loop {s s' : Host} {traffic : List HostTraffic} (h : s.Isolated traffic)
    (hs : s.Inv crypto) {b : Nat} {session session' : Session} {e : SessionEvent}
    {out : List (Nat × SocketPacket)} (hsession : s.sessions.lookup b = some session)
    (hstep : session.step e = some (session', out)) (he : e.isLoop = true)
    (hsessions : s'.sessions = s.sessions.insert b session') (hguests : s'.guests = s.guests) :
    s'.Isolated (traffic ++ loopTraffic b e out) where
  down j i k t hg ht := by
    rw [hsessions, Table.lookup_insert] at ht
    rw [hguests] at hg
    rw [wroteTo_append, wroteTo_loop, List.append_nil, heardBy_append]
    split at ht
    · next hib =>
      cases ht
      subst hib
      have hdown := h.down j i k session hg hsession
      rcases (Session.step_cases hstep).rx he k with heq | ⟨src, d, rfl, heq⟩
      · rw [heq]
        exact hdown.trans (List.sublist_append_left _ _)
      · rw [heq, heardBy_loop, ← List.append_assoc]
        exact hdown.append (List.Sublist.refl _)
    · exact (h.down j i k t hg ht).trans (List.sublist_append_left _ _)
  outside j hj := by
    rw [wroteTo_append, wroteTo_loop, List.append_nil]
    exact h.outside j fun i k hg => hj i k (hguests ▸ hg)
  up i t k ht := h.up_step hs hsession hstep (saidTo_loop b · e out) i t k (hsessions ▸ ht)
  silent i hnone := h.silent_step (saidTo_loop b · e out) i (hsessions ▸ hnone)

/-- A Minecraft client takes a step in its session. -/
theorem Isolated.guest {s s' : Host} {traffic : List HostTraffic} (h : s.Isolated traffic)
    (hs : s.Inv crypto) {j b k : Nat} {session session' : Session} {e : GuestEvent}
    {out : List (Nat × SocketPacket)} (hg : s.guests.lookup j = some (.inside b k))
    (hsession : s.sessions.lookup b = some session)
    (hstep : session.step (e.toSession k) = some (session', out))
    (hsessions : s'.sessions = s.sessions.insert b session') (hguests : s'.guests = s.guests) :
    s'.Isolated (traffic ++ (gotOf session (e.toSession k) k).map (.wrote j)) where
  down j' i k' t hg' ht := by
    rw [hsessions, Table.lookup_insert] at ht
    rw [hguests] at hg'
    rw [wroteTo_append, heardBy_append, wroteTo_wrote, heardBy_wrote, List.append_nil]
    split at ht
    · next hib =>
      cases ht
      subst hib
      have hdown := h.down j' i k' session hg' hsession
      have hchannel := Tunnel.session_channel
        (by cases e <;> exact fun _ _ => SessionEvent.noConfusion) (Session.step_cases hstep) k'
      by_cases hj : j = j'
      · subst hj
        cases hg.symm.trans hg'
        rw [if_pos rfl]
        rcases hchannel with heq | ⟨hgot, hrx, -⟩
        · rw [List.append_assoc, ← heq]
          exact hdown
        · rw [hgot, hrx, List.append_nil]
          exact (List.append_sublist_append_left _).mpr (List.nil_sublist _) |>.trans hdown
      · -- another client of the same session
        have hk : k' ≠ k := by
          rintro rfl
          exact hj (hs.unique j j' i k' hg hg')
        rw [gotOf_toSession hk, List.nil_append] at hchannel
        rw [if_neg hj, List.append_nil]
        rcases hchannel with heq | ⟨-, hrx, -⟩
        · rw [← heq]
          exact hdown
        · rw [hrx]
          exact (List.append_sublist_append_left _).mpr (List.nil_sublist _) |>.trans hdown
    · next hib =>
      have hj : j ≠ j' := by
        rintro rfl
        cases hg.symm.trans hg'
        exact hib rfl
      rw [if_neg hj, List.append_nil]
      exact h.down j' i k' t hg' ht
  outside j' hj' := by
    have hj : j ≠ j' := by
      rintro rfl
      exact hj' b k (hguests ▸ hg)
    rw [wroteTo_append, wroteTo_wrote, if_neg hj, List.append_nil]
    exact h.outside j' fun i k hg => hj' i k (hguests ▸ hg)
  up i t k' ht := by
    have hout := (Session.step_cases hstep).out_nil (by cases e <;> rfl)
    refine h.up_step hs hsession hstep ?_ i t k' (hsessions ▸ ht)
    intro i
    rw [saidTo_wrote, hout, ite_self]
  silent i hnone := by
    have hsaid : ∀ i, saidTo i ((gotOf session (e.toSession k) k).map (.wrote j))
        = if b = i then [] else [] := by
      intro i
      rw [saidTo_wrote, ite_self]
    have hnone' : (s.sessions.insert b session').lookup i = none := hsessions ▸ hnone
    exact h.silent_step hsaid i hnone'

/-- A connection becomes the session of a proxy client. -/
theorem Isolated.register {s s' : Host} {traffic : List HostTraffic} (h : s.Isolated traffic)
    (hs : s.Inv crypto) {b : Nat} (hb : s.sessions.lookup b = none)
    (hsessions : s'.sessions = s.sessions.insert b .new) (hguests : s'.guests = s.guests) :
    s'.Isolated traffic where
  down j i k t hg ht := by
    rw [hsessions, Table.lookup_insert] at ht
    rw [hguests] at hg
    split at ht
    · next hib =>
      -- nobody can have found the session
      subst hib
      have hat := hs.guests j
      rw [hg] at hat
      obtain ⟨_, _, _, _, hfound, -⟩ := hat
      exact absurd hb hfound.session
    · exact h.down j i k t hg ht
  outside j hj := h.outside j fun i k hg => hj i k (hguests ▸ hg)
  up i t k ht := by
    rw [hsessions, Table.lookup_insert] at ht
    split at ht
    · next hib =>
      cases ht
      subst hib
      rw [h.silent i hb]
      exact ⟨fun _ => rfl, List.nil_prefix⟩
    · exact h.up i t k ht
  silent i hnone := by
    rw [hsessions, Table.lookup_insert] at hnone
    split at hnone
    · cases hnone
    · exact h.silent i hnone

/-- A Minecraft client becomes the newest client of its session. -/
theorem Isolated.join {s s' : Host} {traffic : List HostTraffic} (h : s.Isolated traffic)
    (hs : s.Inv crypto) {j b : Nat} {hello hello' : MinecraftDataPacket} {addr : SocketAddr}
    {session session' : Session} {out : List (Nat × SocketPacket)}
    (hg : s.guests.lookup j = some (.arriving hello)) (hsession : s.sessions.lookup b = some session)
    (hstep : session.step (.join addr hello') = some (session', out))
    (hsessions : s'.sessions = s.sessions.insert b session')
    (hguests : s'.guests = s.guests.insert j (.inside b session.clients.length)) :
    s'.Isolated traffic where
  down j' i k t hg' ht := by
    rw [hsessions, Table.lookup_insert] at ht
    rw [hguests, Table.lookup_insert] at hg'
    split at hg'
    · next hj =>
      -- its channel is empty, and nothing was written to it
      cases hg'
      subst hj
      rw [if_pos rfl] at ht
      cases ht
      have hrx : rxOf session' session.clients.length = [] := by
        cases Session.step_cases hstep
        simp [rxOf, Session.enqueue]
      have hwrote : wroteTo j' traffic = [] := by
        refine h.outside j' ?_
        rw [hg]
        rintro i k ⟨⟩
      rw [hrx, hwrote]
      exact List.nil_sublist _
    · split at ht
      · next hib =>
        cases ht
        subst hib
        have hdown := h.down j' i k session hg' hsession
        rcases Tunnel.session_channel (fun _ _ => SessionEvent.noConfusion)
          (Session.step_cases hstep) k with heq | ⟨-, hrx, -⟩
        · have heq' : rxOf session k = rxOf session' k := heq
          rwa [← heq']
        · rw [hrx]
          exact (List.append_sublist_append_left _).mpr (List.nil_sublist _) |>.trans hdown
      · exact h.down j' i k t hg' ht
  outside j' hj' := by
    refine h.outside j' ?_
    intro i k hg'
    by_cases hj : j' = j
    · subst hj
      cases hg.symm.trans hg'
    · exact hj' i k (by rw [hguests, Table.lookup_insert, if_neg hj, hg'])
  up i t k ht := by
    have hout := (Session.step_cases hstep).out_nil rfl
    have hsaid : ∀ i, saidTo i [] = if b = i then out else [] := by
      intro i
      rw [hout, ite_self]
      rfl
    have hup := h.up_step hs hsession hstep hsaid i t k (hsessions ▸ ht)
    rwa [List.append_nil] at hup
  silent i hnone := by
    have hsaid : ∀ i, saidTo i [] = if b = i then [] else [] := by
      intro i
      rw [ite_self]
      rfl
    have hnone' : (s.sessions.insert b session').lookup i = none := hsessions ▸ hnone
    have hsilent := h.silent_step hsaid i hnone'
    rwa [List.append_nil] at hsilent

theorem Isolated.step {s s' : Host} {l : HostEvent} {traffic : List HostTraffic}
    (h : s.Isolated traffic) (hs : s.Inv crypto) (hstep : Step crypto s l s') :
    s'.Isolated (traffic ++ s.observe l) := by
  cases hstep with
  | task hserver hp =>
    rw [observe_task, List.append_nil]
    exact h.quiet rfl fun _ _ _ => Iff.rfl
  | @register i server hserver =>
    rw [observe_task, List.append_nil]
    obtain ⟨c, hostname, hc, ht, -⟩ := register_eq hserver
    have hfits := hs.fits i c hc
    rw [ht] at hfits
    exact h.register hs hfits rfl rfl
  | @found j i c packet server hserver hc ht hl =>
    rw [observe_task, List.append_nil]
    refine h.quiet rfl ?_
    intro j' i' k
    have hnone : s.guests.lookup j = none := by
      refine hs.guest_none ?_
      intro c' hc'
      cases hc.symm.trans hc'
      rw [ht]
      exact ⟨fun _ => Task.noConfusion, fun _ => Task.noConfusion⟩
    show (s.guests.insert j _).lookup j' = _ ↔ _
    rw [Table.lookup_insert]
    split
    · next hj => subst hj; simp [hnone]
    · rfl
  | @dismissed j i c hello result server _ hserver hc ht hg hl =>
    have hnil : s.observe l = [] := by
      rcases hl with rfl | ⟨addr, rfl⟩ <;> rfl
    rw [hnil, List.append_nil]
    refine h.quiet rfl ?_
    intro j' i' k
    show (s.guests.erase j).lookup j' = _ ↔ _
    rw [Table.lookup_erase]
    split
    · next hj => subst hj; simp [hg]
    · rfl
  | goes hc ht he hsession hserver hr =>
    rw [observe, hsession, Option.bind_some, hserver]
    exact h.loop hs hsession hserver he rfl rfl
  | @ends i e c hostname session session' out result e' server _ hserver hc ht he hsession hstep
      hr hl =>
    rcases hl with rfl | ⟨hend, rfl⟩
    · rw [observe, hsession, Option.bind_some, hstep]
      exact h.loop hs hsession hstep he rfl rfl
    · have hnil : loopTraffic i e out = [] := by
        have hout := (Session.step_cases hstep).out_of_end he
          (by rw [hr]; exact Option.some_ne_none _)
        rw [loopTraffic, hout]
        rcases hend with rfl | ⟨x, rfl⟩ <;> rfl
      have hobs : s.observe (.task i e') = loopTraffic i e out := by
        rw [observe_task, hnil]
      rw [hobs]
      exact h.loop hs hsession hstep he rfl rfl
  | join hc ht hg hsession hserver =>
    rw [observe_join, List.append_nil]
    exact h.join hs hg hsession hserver rfl rfl
  | guest hg hsession hserver hm =>
    rw [observe, hg]
    simp only [hsession]
    exact h.guest hs hg hsession hserver rfl rfl
  | left hserver hg hsession hstep hm =>
    rw [observe, hg]
    simp only [hsession]
    exact h.guest hs hg hsession hstep rfl rfl

theorem isolated_run {ls : List HostEvent} {s : Host}
    (h : (hostMachine crypto).run .new ls = some s) :
    s.Isolated ((hostMachine crypto).trace observe .new ls) :=
  Machine.trace_invariant (m := hostMachine crypto) (I := Isolated) isolated_new
    (fun _ _ _ _ hs hI hl => hI.step (reachable_inv hs) (step_cases hl)) h

end Host

/--
**The parts of the server are what they are by themselves.** In every run of the whole server,

* the tasks and the register are in a state that `serverMachine` reaches,
* every session is in a state that `sessionMachine` reaches, it is open exactly while its task is
  in `handle`, and its task returns what its loop returned, and
* every Minecraft client of a session is the client of one connection, and of one only.
-/
theorem host_coupled (crypto : Crypto) {s : Host} (h : (hostMachine crypto).Reachable s) :
    (serverMachine crypto).Reachable s.server ∧
    (∀ i session, s.sessions.lookup i = some session → sessionMachine.Reachable session ∧
      ∃ c, s.server.connections[i]? = some c ∧ c.task.Fits (some session)) ∧
    ∀ i session k, s.sessions.lookup i = some session → k < session.clients.length →
      ∃! j, s.guests.lookup j = some (.inside i k) := by
  have hs := Host.reachable_inv h
  refine ⟨hs.server, ?_, ?_⟩
  · intro i session hsession
    refine ⟨hs.sessions i session hsession, ?_⟩
    obtain ⟨c, hc⟩ : ∃ c, s.server.connections[i]? = some c := by
      by_contra hnone
      have hlen := List.getElem?_eq_none_iff.mp
        (Option.eq_none_iff_forall_ne_some.mpr fun c hc => hnone ⟨c, hc⟩)
      cases hsession.symm.trans (hs.fresh i hlen)
    exact ⟨c, hc, hsession ▸ hs.fits i c hc⟩
  · intro i session k hsession hk
    obtain ⟨j, hj⟩ := hs.visited i session k hsession hk
    exact ⟨j, hj, fun j' hj' => hs.unique j' j i k hj' hj⟩

/-- A proxy client logs in, and a Minecraft client visits it and gets some data. -/
def visiting : List HostEvent :=
  (loggedIn 0 "h").map (fun l => .task l.1 l.2) ++
    [.task 1 .accepted, .task 1 (.next (some (.ok (.MCHello (lookingFor "h"))))), .task 1 .lookup,
      .join 1 (.V4 0 40000), .guest 1 .hello, .loop 0 .take, .loop 0 .take,
      .loop 0 (.packet 0 (.ProxyData (.new ⟨[5]⟩ 0))), .guest 1 .receive]

theorem host_coupled_visiting : ∃ s, (hostMachine ⟨fun _ _ _ => true, fun _ => "h"⟩).Reachable s ∧
    ∃ session, s.sessions.lookup 0 = some session ∧ 0 < session.clients.length ∧
      sessionMachine.Reachable session ∧ ∃! j, s.guests.lookup j = some (.inside 0 0) := by
  obtain ⟨s, hrun, session, hsession, hlen⟩ : ∃ s,
      (hostMachine ⟨fun _ _ _ => true, fun _ => "h"⟩).run .new visiting = some s ∧
      ∃ session, s.sessions.lookup 0 = some session ∧ 0 < session.clients.length :=
    ⟨_, rfl, _, rfl, Nat.one_pos⟩
  obtain ⟨-, hsessions, hvisited⟩ := host_coupled ⟨fun _ _ _ => true, fun _ => "h"⟩ ⟨visiting, hrun⟩
  exact ⟨s, ⟨visiting, hrun⟩, session, hsession, hlen, (hsessions 0 session hsession).1,
    hvisited 0 session 0 hsession hlen⟩

/--
**The clients of the server are kept apart**, whatever they send. In every run,

* a connection that was sent data of a session has asked for a hostname that the session was
  registered under, and was sent nothing but data that the session's proxy client has sent, in
  its order, and
* a proxy client that was sent data about one of its Minecraft clients was sent what this one has
  sent, from its first byte on, and it is a connection that has asked for one of its hostnames.
-/
theorem host_isolated (crypto : Crypto) {ls : List HostEvent} {s : Host}
    (h : (hostMachine crypto).run .new ls = some s) :
    (∀ j, wroteTo j ((hostMachine crypto).trace Host.observe .new ls) ≠ [] →
      ∃ i k packet c, s.guests.lookup j = some (.inside i k) ∧ s.Found j i packet c ∧
        s.server.Backed crypto i packet.hostname ∧
        (wroteTo j ((hostMachine crypto).trace Host.observe .new ls)).Sublist
          (heardBy i ((hostMachine crypto).trace Host.observe .new ls))) ∧
    ∀ i k, Tunnel.dataOf k (saidTo i ((hostMachine crypto).trace Host.observe .new ls)) ≠ [] →
      ∃ j packet c session m, s.guests.lookup j = some (.inside i k) ∧ s.Found j i packet c ∧
        s.server.Backed crypto i packet.hostname ∧
        s.sessions.lookup i = some session ∧ session.clients[k]? = some m ∧
        Tunnel.dataOf k (saidTo i ((hostMachine crypto).trace Host.observe .new ls)) <+: m.read := by
  have hs := Host.reachable_inv ⟨ls, h⟩
  have hisolated := Host.isolated_run h
  generalize (hostMachine crypto).trace Host.observe .new ls = traffic at hisolated ⊢
  refine ⟨?_, ?_⟩
  · intro j hj
    obtain ⟨i, k, hg⟩ : ∃ i k, s.guests.lookup j = some (.inside i k) := by
      by_contra hnone
      exact hj (hisolated.outside j fun i k hg => hnone ⟨i, k, hg⟩)
    have hat := hs.guests j
    rw [hg] at hat
    obtain ⟨packet, c, session, m, hfound, hsession, -⟩ := hat
    refine ⟨i, k, packet, c, hg, hfound, Server.reachable_backed hs.server _ _ hfound.registered, ?_⟩
    exact (List.sublist_append_left _ _).trans (hisolated.down j i k session hg hsession)
  · intro i k hk
    obtain ⟨session, hsession⟩ : ∃ session, s.sessions.lookup i = some session := by
      refine Option.ne_none_iff_exists'.mp ?_
      intro hnone
      exact hk (by rw [hisolated.silent i hnone]; rfl)
    obtain ⟨-, hbegin⟩ := hisolated.up i session k hsession
    -- who has sent something is a client of the session
    obtain ⟨m, hm⟩ : ∃ m, session.clients[k]? = some m := by
      refine Option.ne_none_iff_exists'.mp ?_
      intro hnone
      rw [Tunnel.readOf, hnone] at hbegin
      exact hk (List.prefix_nil.mp hbegin)
    obtain ⟨j, hg⟩ := hs.visited i session k hsession (List.getElem?_eq_some_iff.mp hm).1
    have hat := hs.guests j
    rw [hg] at hat
    obtain ⟨packet, c, _, _, hfound, -⟩ := hat
    rw [Tunnel.readOf, hm] at hbegin
    exact ⟨j, packet, c, session, m, hg, hfound,
      Server.reachable_backed hs.server _ _ hfound.registered, hsession, hm, hbegin⟩

theorem host_isolated_visiting : ∃ s,
    (hostMachine ⟨fun _ _ _ => true, fun _ => "h"⟩).run .new visiting = some s ∧
    wroteTo 1 ((hostMachine ⟨fun _ _ _ => true, fun _ => "h"⟩).trace Host.observe .new visiting)
      = [⟨[5]⟩] ∧ ∃ i packet c, s.Found 1 i packet c := by
  obtain ⟨s, hrun⟩ : ∃ s, (hostMachine ⟨fun _ _ _ => true, fun _ => "h"⟩).run .new visiting
      = some s := Option.isSome_iff_exists.mp rfl
  have hwrote : wroteTo 1 ((hostMachine ⟨fun _ _ _ => true, fun _ => "h"⟩).trace Host.observe .new
      visiting) = [⟨[5]⟩] := rfl
  obtain ⟨hdown, -⟩ := host_isolated ⟨fun _ _ _ => true, fun _ => "h"⟩ hrun
  obtain ⟨i, k, packet, c, -, hfound, -⟩ := hdown 1 (by rw [hwrote]; simp)
  exact ⟨s, hrun, hwrote, i, packet, c, hfound⟩

end CraftIp
