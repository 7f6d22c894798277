import CraftIp.Host
import CraftIp.Tunnel

/-!
# The server and its proxy clients

The whole server, and at the other end of some of its sessions a `Client` in its `handle`. Such a
session and its client are a tunnel. The other sessions belong to strangers, who send what they
like, and so do all Minecraft clients.
-/

namespace CraftIp

open Infra

/-- A proxy client, and what is on its way between it and its session. -/
structure Tenant where
  client : Client
  toClient : List (Nat × SocketPacket)
  toServer : List (Nat × SocketPacket)

structure Deployment where
  host : Host
  /-- The proxy client of a session, if it is none of a stranger. -/
  tenants : Table Nat Tenant

/-- What can happen. -/
inductive DeploymentEvent
  /-- A step of the server; a packet that it takes is one of a stranger. -/
  | host (l : HostEvent)
  /-- Connection `i` is registered, and its peer runs `Client::handle`. -/
  | enter (i : Nat)
  /-- Session `i` takes a packet of its proxy client. -/
  | toServer (i : Nat)
  /-- The proxy client of session `i`, by itself. -/
  | client (i : Nat) (e : ClientEvent)
  /-- It receives a packet. -/
  | toClient (i millis : Nat)
  deriving DecidableEq

/-- The loop takes a packet. -/
def SessionEvent.isPacket : SessionEvent → Bool
  | .packet _ _ => true
  | _ => false

/-- What the loop of session `i` sends in a step. -/
def Host.sent (s : Host) (i : Nat) (e : SessionEvent) : List (Nat × SocketPacket) :=
  ((s.sessions.lookup i).bind fun session => session.step e).elim [] Prod.snd

namespace Deployment

variable (crypto : Crypto)

def new : Deployment := { host := .new, tenants := ∅ }

/-- The tenant of session `i`, if there is one, is sent packets. -/
def send (tenants : Table Nat Tenant) (i : Nat) (out : List (Nat × SocketPacket)) :
    Table Nat Tenant :=
  match tenants.lookup i with
  | some tenant => tenants.insert i { tenant with toClient := tenant.toClient ++ out }
  | none => tenants

def step (s : Deployment) : DeploymentEvent → Option Deployment
  | .host (.loop i e) =>
    if e.isPacket && (s.tenants.lookup i).isSome then none
    else do
      let host ← s.host.step crypto (.loop i e)
      return { host := host, tenants := send s.tenants i (s.host.sent i e) }
  | .host l => do
    let host ← s.host.step crypto l
    return { s with host := host }
  | .enter i => do
    let host ← s.host.step crypto (.task i .register)
    return { host := host, tenants := s.tenants.insert i ⟨.new, [], []⟩ }
  | .toServer i => do
    let tenant ← s.tenants.lookup i
    match tenant.toServer with
    | [] => none
    | (k, packet) :: toServer => do
      let host ← s.host.step crypto (.loop i (.packet k packet))
      let toClient := tenant.toClient ++ s.host.sent i (.packet k packet)
      return { host := host, tenants := s.tenants.insert i ⟨tenant.client, toClient, toServer⟩ }
  | .client i e =>
    match e with
    | .packet _ _ _ => none
    | e => do
      let tenant ← s.tenants.lookup i
      let (client, out) ← tenant.client.step e
      let tenant := { tenant with client := client, toServer := tenant.toServer ++ out }
      return { s with tenants := s.tenants.insert i tenant }
  | .toClient i millis => do
    let tenant ← s.tenants.lookup i
    match tenant.toClient with
    | [] => none
    | (k, packet) :: toClient => do
      let (client, out) ← tenant.client.step (.packet k packet millis)
      return { s with tenants := s.tenants.insert i ⟨client, toClient, tenant.toServer ++ out⟩ }

/-- What a step can do. -/
inductive Step (s : Deployment) : DeploymentEvent → Deployment → Prop
  | host {l host} (h : s.host.step crypto l = some host) (hl : ∀ i e, l ≠ .loop i e) :
      Step s (.host l) { s with host := host }
  | loop {i e host} (h : s.host.step crypto (.loop i e) = some host)
      (hp : ∀ k packet, e = .packet k packet → s.tenants.lookup i = none) :
      Step s (.host (.loop i e)) { host := host, tenants := send s.tenants i (s.host.sent i e) }
  | enter {i host} (h : s.host.step crypto (.task i .register) = some host) :
      Step s (.enter i) { host := host, tenants := s.tenants.insert i ⟨.new, [], []⟩ }
  | toServer {i tenant k packet toServer host} (ht : s.tenants.lookup i = some tenant)
      (hq : tenant.toServer = (k, packet) :: toServer)
      (h : s.host.step crypto (.loop i (.packet k packet)) = some host) :
      Step s (.toServer i)
        { host := host
          tenants := s.tenants.insert i
            ⟨tenant.client, tenant.toClient ++ s.host.sent i (.packet k packet), toServer⟩ }
  | client {i e tenant client out} (ht : s.tenants.lookup i = some tenant)
      (he : ∀ k packet millis, e ≠ .packet k packet millis)
      (h : tenant.client.step e = some (client, out)) :
      Step s (.client i e)
        { s with
          tenants := s.tenants.insert i
            { tenant with client := client, toServer := tenant.toServer ++ out } }
  | toClient {i millis tenant k packet toClient client out} (ht : s.tenants.lookup i = some tenant)
      (hq : tenant.toClient = (k, packet) :: toClient)
      (h : tenant.client.step (.packet k packet millis) = some (client, out)) :
      Step s (.toClient i millis)
        { s with tenants := s.tenants.insert i ⟨client, toClient, tenant.toServer ++ out⟩ }

variable {crypto}

theorem step_cases {s s' : Deployment} {l : DeploymentEvent} (h : s.step crypto l = some s') :
    Step crypto s l s' := by
  cases l with
  | host l =>
    have hother (hl : ∀ i e, l ≠ .loop i e)
        (h : (s.host.step crypto l).bind (fun host => some { s with host := host }) = some s') :
        Step crypto s (.host l) s' := by
      obtain ⟨host, hs, h⟩ := Option.bind_eq_some_iff.mp h
      cases h
      exact .host hs hl
    cases l with
    | loop i e =>
      simp only [step] at h
      split at h
      · cases h
      · next hc =>
        obtain ⟨host, hs, h⟩ := Option.bind_eq_some_iff.mp h
        cases h
        refine .loop hs ?_
        rintro k packet rfl
        simpa [SessionEvent.isPacket] using hc
    | _ => exact hother (fun _ _ => HostEvent.noConfusion) h
  | enter i =>
    obtain ⟨host, hs, h⟩ := Option.bind_eq_some_iff.mp h
    cases h
    exact .enter hs
  | toServer i =>
    obtain ⟨tenant, ht, h⟩ := Option.bind_eq_some_iff.mp h
    split at h
    · cases h
    · next hq =>
      obtain ⟨host, hs, h⟩ := Option.bind_eq_some_iff.mp h
      cases h
      exact .toServer ht hq hs
  | client i e =>
    simp only [step] at h
    split at h
    · cases h
    · next he =>
      obtain ⟨tenant, ht, h⟩ := Option.bind_eq_some_iff.mp h
      obtain ⟨⟨client, out⟩, hs, h⟩ := Option.bind_eq_some_iff.mp h
      cases h
      exact .client ht he hs
  | toClient i millis =>
    obtain ⟨tenant, ht, h⟩ := Option.bind_eq_some_iff.mp h
    split at h
    · cases h
    · next hq =>
      obtain ⟨⟨client, out⟩, hs, h⟩ := Option.bind_eq_some_iff.mp h
      cases h
      exact .toClient ht hq hs

/-! ## One tenant -/

/-- The tunnel of session `i`, if its proxy client is none of a stranger. -/
def tunnelOf (s : Deployment) (i : Nat) : Option Tunnel := do
  let tenant ← s.tenants.lookup i
  let session ← s.host.sessions.lookup i
  return { server := session, client := tenant.client, toClient := tenant.toClient,
           toServer := tenant.toServer }

end Deployment

/-- The server with its proxy clients. -/
def deploymentMachine (crypto : Crypto) : Machine Deployment DeploymentEvent where
  init := .new
  step := Deployment.step crypto

end CraftIp
