import CraftIp.Client.ConnectionHandler
import CraftIp.Server.ClientHandler

/-!
# The tunnel

One session of the server, its proxy client, and the control connection between them, which
delivers the packets of either side in the order in which they were sent. A packet carries
the number of the Minecraft client it is about; neither side sees it.

A packet is sent in the step of the loop that sends it. In the code the loop waits for that, and
takes nothing in the meantime, see `Flow`.
-/

namespace CraftIp

open Infra

structure Tunnel where
  server : Session
  client : Client
  /-- The packets in flight, the oldest first. -/
  toClient : List (Nat × SocketPacket)
  toServer : List (Nat × SocketPacket)

/-- What can happen in a tunnel. -/
inductive TunnelEvent
  /-- Something in the session that is no packet from the client. -/
  | server (e : SessionEvent)
  /-- Something in the client that is no packet from the server. -/
  | client (e : ClientEvent)
  /-- The session receives a packet. -/
  | toServer
  /-- The client receives a packet. -/
  | toClient (millis : Nat)

namespace Tunnel

def new : Tunnel := { server := .new, client := .new, toClient := [], toServer := [] }

def step (t : Tunnel) : TunnelEvent → Option Tunnel
  | .server e =>
    match e with
    | .packet _ _ => none
    | e => do
      let (server, out) ← t.server.step e
      return { t with server := server, toClient := t.toClient ++ out }
  | .client e =>
    match e with
    | .packet _ _ _ => none
    | e => do
      let (client, out) ← t.client.step e
      return { t with client := client, toServer := t.toServer ++ out }
  | .toServer =>
    match t.toServer with
    | [] => none
    | (k, packet) :: toServer => do
      let (server, out) ← t.server.step (.packet k packet)
      return { t with server := server, toServer := toServer, toClient := t.toClient ++ out }
  | .toClient millis =>
    match t.toClient with
    | [] => none
    | (k, packet) :: toClient => do
      let (client, out) ← t.client.step (.packet k packet millis)
      return { t with client := client, toClient := toClient, toServer := t.toServer ++ out }

/-- What a step can do. -/
inductive Step (t : Tunnel) : TunnelEvent → Tunnel → Prop
  | server {e server out} (he : ∀ k packet, e ≠ .packet k packet)
      (hs : Session.Step t.server e server out) :
      Step t (.server e) { t with server := server, toClient := t.toClient ++ out }
  | client {e client out} (he : ∀ k packet millis, e ≠ .packet k packet millis)
      (hs : Client.Step t.client e client out) :
      Step t (.client e) { t with client := client, toServer := t.toServer ++ out }
  | toServer {k packet toServer server out} (hq : t.toServer = (k, packet) :: toServer)
      (hs : Session.Step t.server (.packet k packet) server out) :
      Step t .toServer
        { t with server := server, toServer := toServer, toClient := t.toClient ++ out }
  | toClient {k packet toClient millis client out} (hq : t.toClient = (k, packet) :: toClient)
      (hs : Client.Step t.client (.packet k packet millis) client out) :
      Step t (.toClient millis)
        { t with client := client, toClient := toClient, toServer := t.toServer ++ out }

theorem step_cases {t t' : Tunnel} {e : TunnelEvent} (h : t.step e = some t') : Step t e t' := by
  cases e with
  | server e =>
    simp only [step] at h
    split at h
    · cases h
    · next hne =>
      obtain ⟨⟨server, out⟩, hs, heq⟩ := Option.bind_eq_some_iff.mp h
      cases heq
      exact .server hne (Session.step_cases hs)
  | client e =>
    simp only [step] at h
    split at h
    · cases h
    · next hne =>
      obtain ⟨⟨client, out⟩, hs, heq⟩ := Option.bind_eq_some_iff.mp h
      cases heq
      exact .client hne (Client.step_cases hs)
  | toServer =>
    simp only [step] at h
    split at h
    · cases h
    · next hq =>
      obtain ⟨⟨server, out⟩, hs, heq⟩ := Option.bind_eq_some_iff.mp h
      cases heq
      exact .toServer hq (Session.step_cases hs)
  | toClient millis =>
    simp only [step] at h
    split at h
    · cases h
    · next hq =>
      obtain ⟨⟨client, out⟩, hs, heq⟩ := Option.bind_eq_some_iff.mp h
      cases heq
      exact .toClient hq (Client.step_cases hs)

variable {t : Tunnel} {out : List (Nat × SocketPacket)}

theorem step_server {e : SessionEvent} {server : Session} (he : ∀ k packet, e ≠ .packet k packet)
    (h : t.server.step e = some (server, out)) :
    t.step (.server e) = some { t with server := server, toClient := t.toClient ++ out } := by
  cases e with
  | packet k packet => exact absurd rfl (he k packet)
  | _ => simp [step, h]

theorem step_client {e : ClientEvent} {client : Client}
    (he : ∀ k packet millis, e ≠ .packet k packet millis)
    (h : t.client.step e = some (client, out)) :
    t.step (.client e) = some { t with client := client, toServer := t.toServer ++ out } := by
  cases e with
  | packet k packet millis => exact absurd rfl (he k packet millis)
  | _ => simp [step, h]

theorem step_toServer {k : Nat} {packet : SocketPacket} {toServer : List (Nat × SocketPacket)}
    {server : Session} (hq : t.toServer = (k, packet) :: toServer)
    (h : t.server.step (.packet k packet) = some (server, out)) :
    t.step .toServer
      = some { t with server := server, toServer := toServer, toClient := t.toClient ++ out } := by
  simp [step, hq, h]

theorem step_toClient {k millis : Nat} {packet : SocketPacket}
    {toClient : List (Nat × SocketPacket)} {client : Client}
    (hq : t.toClient = (k, packet) :: toClient)
    (h : t.client.step (.packet k packet millis) = some (client, out)) :
    t.step (.toClient millis)
      = some { t with client := client, toClient := toClient, toServer := t.toServer ++ out } := by
  simp [step, hq, h]

end Tunnel

/-- A session and its proxy client. -/
def tunnelMachine : Machine Tunnel TunnelEvent where
  init := .new
  step := Tunnel.step

end CraftIp
