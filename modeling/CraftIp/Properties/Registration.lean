import CraftIp.Infra.Path
import CraftIp.Properties.Authentication
import Mathlib.Data.List.Find

/-!
# Who keeps the register

The register belongs to the newest session of a hostname, in every run in which

* a session that is replaced leaves its loop before the one that replaced it does, and
* `close_connection` runs for the newest session, or after it has run for the newest session.

`close_connection` removes by hostname, whoever is registered: a session that was replaced
takes the registration of its successor away (`close_removes_successor`).
-/

namespace CraftIp

open Infra

/-! ## Sessions -/

/-- In the loop of `handle`, or on the way into it. -/
def Task.live : Task → Bool
  | .greeting _ | .serving _ => true
  | _ => false

/-- Its function has returned. -/
def Task.isFinished : Task → Bool
  | .finished _ => true
  | _ => false

/-- A task that has registered this hostname. -/
def Task.Registered (hostname : String) : Task → Prop
  | .greeting h | .serving h | .closing h _ => h = hostname
  | .finished _ => True
  | _ => False

namespace Server

def isLive (s : Server) (i : Nat) : Bool := s.connections[i]?.any fun c => c.task.live

def isFinished (s : Server) (i : Nat) : Bool := s.connections[i]?.any fun c => c.task.isFinished

/-- The session that registered this hostname last. -/
def newest (s : Server) (hostname : String) : Option Nat :=
  (s.history.find? fun e => e.2 = hostname).map Prod.fst

/-- The session that registered this hostname last, among those that have not left the loop. -/
def newestLive (s : Server) (hostname : String) : Option Nat :=
  (s.history.find? fun e => e.2 = hostname && s.isLive e.1).map Prod.fst

/-- When session `i` is the newest live one, no other session of the hostname is live. -/
def lastOfAll (s : Server) (i : Nat) (hostname : String) : Bool :=
  s.newestLive hostname != some i ||
    s.history.all fun e => e.2 != hostname || e.1 = i || !s.isLive e.1

/-- The newest session of the hostname is `i`, or it has closed. -/
def closesOwn (s : Server) (i : Nat) (hostname : String) : Bool :=
  (s.newest hostname).all fun j => j = i || s.isFinished j

/-- What keeps the register right: a condition on the steps that leave a session. -/
def orderly (s : Server) (l : Nat × Event) : Bool :=
  match s.connections[l.1]? with
  | some ⟨.greeting hostname, _⟩ => l.2 = .flushed (.ok ()) || s.lastOfAll l.1 hostname
  | some ⟨.serving hostname, _⟩ => s.lastOfAll l.1 hostname
  | some ⟨.closing hostname _, _⟩ => s.closesOwn l.1 hostname
  | _ => true

/-- The register names the newest live session of every hostname, and no closed one. -/
structure RegisterIsRight (s : Server) : Prop where
  live : ∀ hostname i, s.newestLive hostname = some i →
    s.register.servers.lookup hostname = some i
  notClosed : ∀ hostname i, s.register.servers.lookup hostname = some i → s.isFinished i = false

/-! ## The invariant -/

/-- What an orderly run keeps. -/
structure Orderly (s : Server) : Prop where
  /-- The history and the tasks agree. -/
  registered : ∀ i hostname, (i, hostname) ∈ s.history →
    ∃ c, s.connections[i]? = some c ∧ c.task.Registered hostname
  /-- A session is registered while it is the newest and has not closed. -/
  entry : ∀ hostname i, s.register.servers.lookup hostname = some i ↔
    s.newest hostname = some i ∧ s.isFinished i = false
  /-- When some session is live, the newest one is. -/
  newestLive : ∀ hostname i, s.newestLive hostname = some i → s.newest hostname = some i

/-! ## Reading the tasks -/

theorem isLive_eq {s : Server} {i : Nat} {c : Connection} (hc : s.connections[i]? = some c) :
    s.isLive i = c.task.live := by
  rw [isLive, hc, Option.any_some]

theorem isFinished_eq {s : Server} {i : Nat} {c : Connection} (hc : s.connections[i]? = some c) :
    s.isFinished i = c.task.isFinished := by
  rw [isFinished, hc, Option.any_some]

theorem goOn_isLive {s : Server} {i : Nat} {c : Connection} (hc : s.connections[i]? = some c)
    (task : Task) (log : List Wire) (j : Nat) :
    (s.goOn i c task log).isLive j = if j = i then task.live else s.isLive j := by
  split
  · next h => subst h; exact isLive_eq (goOn_self hc task log)
  · next h => rw [isLive, goOn_other task log h, isLive]

theorem goOn_isFinished {s : Server} {i : Nat} {c : Connection} (hc : s.connections[i]? = some c)
    (task : Task) (log : List Wire) (j : Nat) :
    (s.goOn i c task log).isFinished j = if j = i then task.isFinished else s.isFinished j := by
  split
  · next h => subst h; exact isFinished_eq (goOn_self hc task log)
  · next h => rw [isFinished, goOn_other task log h, isFinished]

theorem mem_of_newest {s : Server} {hostname : String} {i : Nat}
    (h : s.newest hostname = some i) : (i, hostname) ∈ s.history :=
  newest_mem h

theorem newestLive_spec {s : Server} {hostname : String} {i : Nat}
    (h : s.newestLive hostname = some i) :
    (i, hostname) ∈ s.history ∧ s.isLive i = true := by
  obtain ⟨⟨j, h'⟩, he, rfl⟩ := Option.map_eq_some_iff.mp h
  obtain ⟨rfl, hl⟩ : h' = hostname ∧ s.isLive j = true := by simpa using List.find?_some he
  exact ⟨List.mem_of_find?_eq_some he, hl⟩

/-- Some live session of the hostname makes a newest one. -/
theorem exists_newestLive {s : Server} {hostname : String} {i : Nat}
    (hi : (i, hostname) ∈ s.history) (hl : s.isLive i = true) :
    ∃ j, s.newestLive hostname = some j := by
  cases hf : s.history.find? fun e => e.2 = hostname && s.isLive e.1 with
  | none =>
    have hnone := List.find?_eq_none.mp hf (i, hostname) hi
    simp [hl] at hnone
  | some e => exact ⟨e.1, by rw [newestLive, hf]; rfl⟩

theorem live_not_finished {t : Task} (h : t.live = true) : t.isFinished = false := by
  cases t <;> first | rfl | cases h

theorem Orderly.right {s : Server} (h : s.Orderly) : s.RegisterIsRight where
  live hostname i hl := by
    obtain ⟨hmem, hlive⟩ := newestLive_spec hl
    obtain ⟨c, hc, -⟩ := h.registered i hostname hmem
    rw [isLive_eq hc] at hlive
    exact (h.entry hostname i).mpr
      ⟨h.newestLive hostname i hl, by rw [isFinished_eq hc]; exact live_not_finished hlive⟩
  notClosed hostname i hl := ((h.entry hostname i).mp hl).2

/-! ## Steps of one connection -/

/-- A registered task stays registered, does not become live again and does not finish by itself. -/
theorem registered_step {crypto : Crypto} {t t' : Task} {e : Event} {log : List Wire}
    {hostname : String} (hr : t.Registered hostname) (h : t.step crypto e = some (t', log)) :
    t'.Registered hostname ∧ t'.isFinished = t.isFinished ∧ (t'.live = true → t.live = true) := by
  unfold Task.step at h
  split at h
  -- only the places in and behind `handle` are registered
  any_goals first | exact False.elim hr | skip
  · cases h; exact ⟨hr, rfl, fun _ => rfl⟩
  · cases h; exact ⟨hr, rfl, fun _ => rfl⟩
  · cases h; exact ⟨hr, rfl, fun _ => rfl⟩
  · cases h

/-- The part of the invariant about tasks that a step of connection `i` keeps. -/
theorem goOn_registered {s : Server} {i : Nat} {c : Connection} {task : Task} {log : List Wire}
    (hs : s.Orderly) (hc : s.connections[i]? = some c)
    (ht : ∀ hostname, (i, hostname) ∈ s.history → task.Registered hostname) (j : Nat)
    (hostname : String) (hj : (j, hostname) ∈ s.history) :
    ∃ c', (s.goOn i c task log).connections[j]? = some c' ∧ c'.task.Registered hostname := by
  by_cases hij : j = i
  · subst hij
    exact ⟨_, goOn_self hc task log, ht hostname hj⟩
  · obtain ⟨c', hc', hr⟩ := hs.registered j hostname hj
    exact ⟨c', (goOn_other task log hij).trans hc', hr⟩

/-- A first match that is still a match for a stronger condition is the first match of it. -/
theorem find?_stronger {α : Type} {p q : α → Bool} {e : α} {l : List α}
    (hpq : ∀ x ∈ l, q x = true → p x = true) (h : l.find? p = some e) (he : q e = true) :
    l.find? q = some e := by
  induction l with
  | nil => cases h
  | cons x l ih =>
    rw [List.find?_cons] at h ⊢
    split at h
    · cases h; rw [he]
    · next hp =>
      have hq : q x = false := by
        by_contra hne
        rw [hpq x List.mem_cons_self (by simpa using hne)] at hp
        cases hp
      rw [hq]
      exact ih (fun y hy => hpq y (List.mem_cons_of_mem _ hy)) h

/-- A step that leaves the register and the history alone. -/
theorem Orderly.goOn {s : Server} {i : Nat} {c : Connection} {task : Task} {log : List Wire}
    (hs : s.Orderly) (hc : s.connections[i]? = some c)
    (ht : ∀ hostname, (i, hostname) ∈ s.history → task.Registered hostname ∧
      task.isFinished = c.task.isFinished ∧ (task.live = true → c.task.live = true) ∧
        (c.task.live = true → task.live = false → s.lastOfAll i hostname = true)) :
    (s.goOn i c task log).Orderly where
  registered := goOn_registered hs hc fun hostname hi => (ht hostname hi).1
  entry hostname j := by
    show s.register.servers.lookup hostname = some j ↔ s.newest hostname = some j ∧ _
    rw [hs.entry hostname j, goOn_isFinished hc]
    refine and_congr_right ?_
    intro hj
    split
    · next hij =>
      subst hij
      rw [isFinished_eq hc, (ht hostname (mem_of_newest hj)).2.1]
    · rfl
  newestLive hostname j hj := by
    -- the newest live session before the step is the newest one; it is still live
    obtain ⟨hmem, hlive⟩ := newestLive_spec hj
    have hback (k : Nat) (hk : (k, hostname) ∈ s.history)
        (hl : (s.goOn i c task log).isLive k = true) : s.isLive k = true := by
      rw [goOn_isLive hc] at hl
      split at hl
      · next hki => subst hki; rw [isLive_eq hc]; exact (ht hostname hk).2.2.1 hl
      · exact hl
    obtain ⟨k, hk⟩ := exists_newestLive (s := s) hmem (hback j hmem hlive)
    obtain ⟨hkmem, hklive⟩ := newestLive_spec hk
    show s.newest hostname = some j
    by_cases hki : k = i ∧ task.live = false
    · -- `i` was the newest and has left the loop: nobody else is live
      obtain ⟨rfl, htask⟩ := hki
      rw [isLive_eq hc] at hklive
      have hlast := (ht hostname hkmem).2.2.2 hklive htask
      rw [lastOfAll, hk, bne_self_eq_false, Bool.false_or, List.all_eq_true] at hlast
      have hjk : j = k := by
        have := hlast (j, hostname) hmem
        simpa [hback j hmem hlive] using this
      subst hjk
      rw [goOn_isLive hc, if_pos rfl, htask] at hlive
      cases hlive
    · have hstill : (s.goOn i c task log).isLive k = true := by
        rw [goOn_isLive hc]
        split
        · next hik => exact Bool.eq_true_of_not_eq_false fun hf => hki ⟨hik, hf⟩
        · exact hklive
      obtain ⟨⟨k', h'⟩, he, rfl⟩ := Option.map_eq_some_iff.mp hk
      have hmatch := List.find?_some he
      have hh : h' = hostname := by
        simp only [Bool.and_eq_true, decide_eq_true_eq] at hmatch
        exact hmatch.1
      have hsame : (s.goOn i c task log).newestLive hostname = some k' := by
        refine Option.map_eq_some_iff.mpr ⟨(k', h'), find?_stronger (fun x hx hq => ?_) he ?_, rfl⟩
        · obtain ⟨x, hx'⟩ := x
          simp only [Bool.and_eq_true, decide_eq_true_eq] at hq ⊢
          obtain ⟨rfl, hq⟩ := hq
          exact ⟨rfl, hback x hx hq⟩
        · simp only [hh, hstill, decide_true, Bool.and_self]
      rw [hs.newestLive hostname k' hk]
      exact hsame.symm.trans hj

/-- Registering makes the session the newest one, and it is live. -/
theorem Orderly.register {s : Server} {i : Nat} {c : Connection} {hostname : String}
    (hs : s.Orderly) (hc : s.connections[i]? = some c) (ht : c.task = .entering hostname)
    (log : List Wire) :
    Orderly { s.goOn i c (.greeting hostname) log with
      register := ⟨s.register.servers.insert hostname i⟩
      history := (i, hostname) :: s.history } := by
  -- nobody has registered on this connection before
  have hnew (h : String) : (i, h) ∉ s.history := fun hi => by
    obtain ⟨c', hc', hr⟩ := hs.registered i h hi
    cases hc.symm.trans hc'
    rw [ht] at hr
    exact hr
  have hold (j : Nat) (h : String) (hj : (j, h) ∈ s.history) : j ≠ i := fun hij =>
    hnew h (hij ▸ hj)
  constructor
  · intro j h hj
    rcases List.mem_cons.mp hj with hj | hj
    · cases hj
      exact ⟨_, goOn_self hc _ _, rfl⟩
    · obtain ⟨c', hc', hr⟩ := hs.registered j h hj
      exact ⟨c', (goOn_other _ _ (hold j h hj)).trans hc', hr⟩
  · intro h j
    show (s.register.servers.insert hostname i).lookup h = some j ↔
      Infra.newest ((i, hostname) :: s.history) h = some j ∧
        (s.goOn i c (.greeting hostname) log).isFinished j = false
    rw [Table.lookup_insert, newest_cons, goOn_isFinished hc]
    by_cases hh : hostname = h
    · subst hh
      simp only [if_true]
      constructor
      · intro hij
        cases hij
        exact ⟨rfl, by rw [if_pos rfl]; rfl⟩
      · exact fun hij => hij.1
    · rw [if_neg (fun heq => hh heq.symm), if_neg hh, hs.entry h j]
      refine and_congr_right ?_
      intro hj
      rw [if_neg (hold j h (mem_of_newest hj))]
  · intro h j hj
    have hj' : (((i, hostname) :: s.history).find? fun e => e.2 = h &&
        (s.goOn i c (.greeting hostname) log).isLive e.1).map Prod.fst = some j := hj
    show (((i, hostname) :: s.history).find? fun e => e.2 = h).map Prod.fst = some j
    rw [List.find?_cons] at hj' ⊢
    by_cases hh : hostname = h
    · subst hh
      rw [goOn_isLive hc, if_pos rfl] at hj'
      simpa [Task.live] using hj'
    · simp only [hh, decide_false, Bool.false_and] at hj' ⊢
      refine hs.newestLive h j ?_
      rw [Server.newestLive, ← hj']
      refine congrArg _ (List.find?_congr fun e he => ?_)
      rw [goOn_isLive hc, if_neg (hold e.1 e.2 he)]

/-- Closing the newest session, or one behind a newest that has closed. -/
theorem Orderly.close {s : Server} {i : Nat} {c : Connection} {hostname : String}
    {response : Except DistributorError Unit} (hs : s.Orderly) (hc : s.connections[i]? = some c)
    (ht : c.task = .closing hostname response) (hown : s.closesOwn i hostname = true) :
    Orderly { s.goOn i c (.finished response) [] with
      register := ⟨s.register.servers.erase hostname⟩ } := by
  have hhost (h : String) (hi : (i, h) ∈ s.history) : hostname = h := by
    obtain ⟨c', hc', hr⟩ := hs.registered i h hi
    cases hc.symm.trans hc'
    rw [ht] at hr
    exact hr
  have hlive (j : Nat) : (s.goOn i c (.finished response) []).isLive j = s.isLive j := by
    rw [goOn_isLive hc]
    split
    · next hij => subst hij; rw [isLive_eq hc, ht]; rfl
    · rfl
  constructor
  · exact goOn_registered hs hc fun _ _ => trivial
  · intro h j
    show (s.register.servers.erase hostname).lookup h = some j ↔ s.newest h = some j ∧
      (s.goOn i c (.finished response) []).isFinished j = false
    rw [Table.lookup_erase, goOn_isFinished hc]
    split
    · next hh =>
      subst hh
      refine ⟨fun hj => (by cases hj), ?_⟩
      rintro ⟨hj, hfin⟩
      rw [closesOwn, hj, Option.all_some, Bool.or_eq_true, decide_eq_true_eq] at hown
      split at hfin
      · cases hfin
      · next hij =>
        rw [hown.resolve_left hij] at hfin
        cases hfin
    · next hh =>
      rw [hs.entry h j]
      refine and_congr_right ?_
      intro hj
      have hij : j ≠ i := fun hij => hh (hhost h (hij ▸ mem_of_newest hj)).symm
      rw [if_neg hij]
  · intro h j hj
    refine hs.newestLive h j ?_
    rw [Server.newestLive, ← hj]
    refine congrArg _ (List.find?_congr fun e he => ?_)
    rw [← hlive]
    rfl

/-- An orderly step takes the newest live session out of its loop only when it is the last. -/
theorem orderly_leave {s : Server} {i : Nat} {c : Connection} {e : Event} {hostname : String}
    (hc : s.connections[i]? = some c) (hr : c.task.Registered hostname) (hl : c.task.live = true)
    (ho : s.orderly (i, e) = true) :
    s.lastOfAll i hostname = true ∨ c.task = .greeting hostname ∧ e = .flushed (.ok ()) := by
  obtain ⟨task, wire⟩ := c
  rw [orderly, hc] at ho
  cases task <;> try cases hl
  case greeting h =>
    obtain rfl : h = hostname := hr
    simp only [Bool.or_eq_true, decide_eq_true_eq] at ho
    exact ho.symm.imp_right fun he => ⟨rfl, he⟩
  case serving h =>
    obtain rfl : h = hostname := hr
    exact Or.inl ho

theorem accepted_get (s : Server) (j : Nat) {f : Task → Bool} (hf : f .reading = false) :
    (s.connections ++ [⟨.reading, []⟩])[j]?.any (fun c => f c.task)
      = s.connections[j]?.any fun c => f c.task := by
  rw [List.getElem?_append]
  split
  · rfl
  · next hj =>
    have hnone : s.connections[j]? = none := List.getElem?_eq_none (by omega)
    rw [hnone, List.getElem?_singleton]
    split
    · rw [Option.any_some, hf]; rfl
    · rfl

theorem Orderly.accepted {s : Server} (hs : s.Orderly) :
    Orderly { s with connections := s.connections ++ [⟨.reading, []⟩] } := by
  have hlive (j : Nat) :
      isLive { s with connections := s.connections ++ [⟨.reading, []⟩] } j = s.isLive j :=
    accepted_get s j rfl
  have hfin (j : Nat) :
      isFinished { s with connections := s.connections ++ [⟨.reading, []⟩] } j = s.isFinished j :=
    accepted_get s j rfl
  refine ⟨?_, ?_, fun h j hj => hs.newestLive h j ?_⟩
  · intro j h hj
    obtain ⟨c, hc, hr⟩ := hs.registered j h hj
    exact ⟨c, getElem?_concat_iff.mpr (Or.inl hc), hr⟩
  · intro h j
    rw [hfin]
    exact hs.entry h j
  · rw [Server.newestLive, ← hj]
    exact congrArg _ (List.find?_congr fun e _ => by rw [← hlive])

/-- **An orderly step keeps the invariant.** -/
theorem Orderly.step {crypto : Crypto} {s s' : Server} {i : Nat} {e : Event} (hs : s.Orderly)
    (ho : s.orderly (i, e) = true) (h : Server.Step crypto s i e s') : s'.Orderly := by
  have hreg {c : Connection} (hc : s.connections[i]? = some c) (hostname : String)
      (hi : (i, hostname) ∈ s.history) : c.task.Registered hostname := by
    obtain ⟨c', hc', hr⟩ := hs.registered i hostname hi
    cases hc.symm.trans hc'
    exact hr
  cases h with
  | accepted => exact hs.accepted
  | @task _ c _ task log hc ht =>
    refine hs.goOn hc ?_
    intro hostname hi
    obtain ⟨hr, hfin, hlive⟩ := registered_step (hreg hc hostname hi) ht
    refine ⟨hr, hfin, hlive, ?_⟩
    intro hl hl'
    rcases orderly_leave hc (hreg hc hostname hi) hl ho with hlast | ⟨hgreet, rfl⟩
    · exact hlast
    · -- the greeting was sent, so the session is in its loop now
      rw [hgreet] at ht
      cases ht
      cases hl'
  | register hc ht => exact hs.register hc ht _
  | @channelClosed _ c host hc ht _ =>
    refine hs.goOn hc ?_
    intro hostname hi
    have hr := hreg hc hostname hi
    have hleave := orderly_leave hc hr (by rw [ht]; rfl) ho
    rw [ht] at hr hleave
    refine ⟨hr, by rw [ht]; rfl, fun hl => (by cases hl), ?_⟩
    intro _ _
    exact hleave.resolve_right fun hg => by cases hg.1
  | @close _ c hostname response hc ht =>
    refine hs.close hc ht ?_
    obtain ⟨task, wire⟩ := c
    subst ht
    rw [orderly, hc] at ho
    exact ho
  | found hc ht _ =>
    refine hs.goOn hc ?_
    intro hostname hi
    have hr := hreg hc hostname hi
    rw [ht] at hr
    exact False.elim hr
  | notFound hc ht =>
    refine hs.goOn hc ?_
    intro hostname hi
    have hr := hreg hc hostname hi
    rw [ht] at hr
    exact False.elim hr

theorem Orderly.new : Server.new.Orderly where
  registered i hostname hi := by cases hi
  entry hostname i := by
    constructor
    · intro h; cases h
    · intro h; cases h.1
  newestLive hostname i h := by cases h

/-- Closing in an orderly way keeps what others have registered. -/
theorem Orderly.close_keeps {crypto : Crypto} {s s' : Server} {i : Nat} (hs : s.Orderly)
    (ho : s.orderly (i, .close) = true) (h : s.step crypto (i, .close) = some s')
    {hostname : String} {j : Nat} (hij : j ≠ i)
    (hj : s.register.servers.lookup hostname = some j) :
    s'.register.servers.lookup hostname = some j := by
  cases step_cases h with
  | task _ _ => exact hj
  | @close _ c host response hc ht =>
    show (s.register.servers.erase host).lookup hostname = some j
    rw [Table.lookup_erase]
    split
    · next hh =>
      subst hh
      obtain ⟨hnew, hfin⟩ := (hs.entry hostname j).mp hj
      obtain ⟨task, wire⟩ := c
      subst ht
      simp only [orderly, hc, closesOwn, hnew, Option.all_some, Bool.or_eq_true,
        decide_eq_true_eq] at ho
      rw [ho.resolve_left hij] at hfin
      cases hfin
    · exact hj

end Server

/--
**The register belongs to the newest live session** of every hostname, in every orderly run,
and no `close_connection` takes the registration of another session away.
-/
theorem register_is_right (crypto : Crypto) {s : Server}
    (h : ((serverMachine crypto).restrict fun s l => s.orderly l = true).Reachable s) :
    s.RegisterIsRight ∧
    ∀ i s', s.orderly (i, .close) = true → s.step crypto (i, .close) = some s' →
      ∀ hostname j, j ≠ i → s.register.servers.lookup hostname = some j →
        s'.register.servers.lookup hostname = some j := by
  have ho : s.Orderly := by
    refine Machine.Reachable.restrict_invariant (I := Server.Orderly) Server.Orderly.new ?_ h
    rintro s ⟨i, e⟩ s' - hs ho hl
    exact hs.step ho (Server.step_cases hl)
  exact ⟨ho.right, fun i s' hi hs' hostname j hij hj => ho.close_keeps hi hs' hij hj⟩

/-- A session ends, and its client connects again. -/
theorem register_is_right_reconnect : ∃ s,
    ((serverMachine ⟨fun _ _ _ => true, fun _ => "h"⟩).restrict
      fun s l => s.orderly l = true).Reachable s ∧
    s.register.servers.lookup "h" = some 1 ∧ s.RegisterIsRight :=
  ⟨_, ⟨loggedIn 0 "h" ++ [(0, .left (.ok ())), (0, .close)] ++ loggedIn 1 "h", rfl⟩, rfl,
    (register_is_right ⟨fun _ _ _ => true, fun _ => "h"⟩
      ⟨loggedIn 0 "h" ++ [(0, .left (.ok ())), (0, .close)] ++ loggedIn 1 "h", rfl⟩).1⟩

/-- A client connects again; its old session notices it and removes the new registration. -/
theorem close_removes_successor : ∃ s,
    (serverMachine ⟨fun _ _ _ => true, fun _ => "h"⟩).Reachable s ∧ ¬s.RegisterIsRight := by
  refine ⟨_, ⟨loggedIn 0 "h" ++ loggedIn 1 "h" ++ [(0, .channelClosed), (0, .close)], rfl⟩, ?_⟩
  intro hright
  have hentry := hright.live "h" 1 rfl
  cases hentry

end CraftIp
