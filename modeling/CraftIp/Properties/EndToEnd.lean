import CraftIp.Properties.Socket
import CraftIp.Properties.Transport

/-!
# From socket to socket

The two simulations one after the other: what a Minecraft client, and the local server, see
of a tunnel whose packets go as frames through a socket is what they would see of pipes.

* `FramedTunnel.tunnel` — the packets that the readers will find in the bytes
* `framed_as_pipes` — the ends of a tunnel over its socket cannot tell it from pipes
-/

namespace CraftIp

open Infra

variable {bincode : Codec SocketPacket}

/-! ## The packets in the bytes -/

/-- The packets that the reader will find in its buffer and in the stream. -/
def Lane.packets (bincode : Codec SocketPacket) (lane : Lane) : List (Nat × SocketPacket) :=
  lane.numbers.zip (Receiver.drain bincode (lane.buf ++ lane.stream).length
    ⟨lane.codec, lane.buf ++ lane.stream, [], none⟩).packets

theorem Lane.Holds.packets_eq {lane : Lane} {packets : List (Nat × SocketPacket)}
    (h : lane.Holds bincode packets) : lane.packets bincode = packets := by
  obtain ⟨fs, hfs, hbytes⟩ := h.frames
  have hdrain := Receiver.drain_frames hfs _ _ [] (Nat.le_refl _) List.prefix_rfl
  rw [Lane.packets, hbytes, hdrain, arrived_all, List.nil_append, hfs.length_eq, List.take_length]
  exact (List.zip_of_prod h.numbers.symm rfl).symm

namespace FramedTunnel

/-- The tunnel, with packets instead of bytes. -/
def tunnel (bincode : Codec SocketPacket) (w : FramedTunnel) : Tunnel :=
  { server := w.server, client := w.client, toClient := w.toClient.packets bincode,
    toServer := w.toServer.packets bincode }

theorem Refines.tunnel_eq {version : UInt32} {w : FramedTunnel} {t : Tunnel}
    (h : w.Refines bincode version t) : w.tunnel bincode = t := by
  obtain ⟨server, client, toClient, toServer⟩ := t
  rw [tunnel, h.toClient.packets_eq, h.toServer.packets_eq, h.server, h.client]

/-- No data is misread, and no id is handed out while its last holder can be heard. -/
def faithful (bincode : Codec SocketPacket) (w : FramedTunnel) (e : FramedEvent) : Bool :=
  unambiguous e && (packets e).all (w.tunnel bincode).unmistakable

/-- What the two ends see of a step. -/
def observe (bincode : Codec SocketPacket) (w : FramedTunnel) (e : FramedEvent) : List Traffic :=
  (packets e).flatMap (w.tunnel bincode).observe

theorem run_packets {t t' : Tunnel} {e : FramedEvent}
    (h : tunnelMachine.run t (packets e) = some t')
    (he : (packets e).all t.unmistakable = true) :
    (tunnelMachine.restrict fun t e => t.unmistakable e = true).run t (packets e) = some t' ∧
      (tunnelMachine.restrict fun t e => t.unmistakable e = true).trace Tunnel.observe t (packets e)
        = (packets e).flatMap t.observe := by
  have hone : ∀ te : TunnelEvent, tunnelMachine.run t [te] = some t' →
      [te].all t.unmistakable = true →
      (tunnelMachine.restrict fun t e => t.unmistakable e = true).run t [te] = some t' ∧
        (tunnelMachine.restrict fun t e => t.unmistakable e = true).trace Tunnel.observe t [te]
          = [te].flatMap t.observe := by
    intro te hrun hte
    obtain ⟨t₁, ht₁, hrun⟩ := Option.bind_eq_some_iff.mp hrun
    cases hrun
    have hclear : t.unmistakable te = true := by simpa using hte
    have hstep : (tunnelMachine.restrict fun t e => t.unmistakable e = true).step t te = some t' :=
      Machine.restrict_step.mpr ⟨hclear, ht₁⟩
    constructor
    · rw [Machine.run, hstep]
      rfl
    · rw [Machine.trace_cons hstep, List.flatMap_cons]
      rfl
  cases e with
  | serverFills n => exact ⟨h, rfl⟩
  | clientFills n => exact ⟨h, rfl⟩
  | _ => exact hone _ h he

/-- The tunnel without cross-talk simulates its realisation over a socket. -/
def faithfully (hb : FixintLayout bincode) (version : UInt32) :
    Simulation ((framedMachine bincode version).restrict fun w e => w.faithful bincode e = true)
      (tunnelMachine.restrict fun t e => t.unmistakable e = true) where
  see _ e := packets e
  rel w t := tunnelMachine.Reachable t ∧ w.Refines bincode version t
  init := ⟨.init _, refines_new version⟩
  step _ h hs := by
    obtain ⟨he, hs⟩ := Machine.restrict_step.mp hs
    rw [faithful, Bool.and_eq_true, h.2.tunnel_eq] at he
    obtain ⟨t', hrun, h'⟩ := h.2.step hb (Tunnel.reachable_inv h.1) he.1 hs
    exact ⟨t', (run_packets hrun he.2).1, h.1.run hrun, h'⟩

/-- The pipes simulate the tunnel over its socket. -/
def pipes (hb : FixintLayout bincode) (version : UInt32) :
    Simulation ((framedMachine bincode version).restrict fun w e => w.faithful bincode e = true)
      (Pipes.machine (Direction × Nat) MinecraftDataPacket) :=
  (faithfully hb version).comp Tunnel.pipes (observe bincode) <| by
    intro w e w' t h hs
    obtain ⟨he, hs⟩ := Machine.restrict_step.mp hs
    rw [faithful, Bool.and_eq_true, h.2.tunnel_eq] at he
    obtain ⟨t', hrun, -⟩ := h.2.step hb (Tunnel.reachable_inv h.1) he.1 hs
    rw [observe, h.2.tunnel_eq]
    exact (run_packets hrun he.2).2.symm

end FramedTunnel

/-- The bytes that were read for a pipe, or that came out of it. -/
def bytesIn (d : Direction) (k : Nat) (es : List Traffic) : Bytes := bytesOf (Pipes.puts (d, k) es)

def bytesOut (d : Direction) (k : Nat) (es : List Traffic) : Bytes := bytesOf (Pipes.gets (d, k) es)

/--
**The ends of a tunnel over its socket cannot tell it from pipes.**

The hypotheses are those of `framed_refines` and of `tunnel_as_pipes`: no data is misread,
and no id is handed out while its last holder can be heard. Then, however the streams are cut
into reads, the bytes that come out for a Minecraft client, and for its local connection, are
at every time a beginning of the bytes that were read at the other end.
-/
theorem framed_as_pipes (hb : FixintLayout bincode) {version : UInt32} {es : List FramedEvent}
    {w : FramedTunnel}
    (h : ((framedMachine bincode version).restrict fun w e => w.faithful bincode e = true).run
      (.new version) es = some w) :
    ∀ pre d k, pre <+: (framedMachine bincode version).trace (FramedTunnel.observe bincode)
        (.new version) es →
      Pipes.gets (d, k) pre <+: Pipes.puts (d, k) pre ∧ bytesOut d k pre <+: bytesIn d k pre := by
  obtain ⟨q, hrun, -⟩ := (FramedTunnel.pipes hb version).run h
  have htrace := Machine.trace_restrict (FramedTunnel.observe bincode) es h
  have hq : (Pipes.machine (Direction × Nat) MinecraftDataPacket).run
      (Pipes.machine (Direction × Nat) MinecraftDataPacket).init
      ((framedMachine bincode version).trace (FramedTunnel.observe bincode) (.new version) es)
        = some q := by
    rw [← htrace]
    exact hrun
  intro pre d k hpre
  have hbegin := (Pipes.run_iff _).mp ⟨q, hq⟩ pre (d, k) hpre
  exact ⟨hbegin, bytesOf_prefix hbegin⟩

theorem framed_as_pipes_piecemeal :
    (framedMachine SocketPacket.bincode 1).trace (FramedTunnel.observe SocketPacket.bincode)
        (.new 1) piecemeal =
      [.put (.down, 0) ⟨[7]⟩, .put (.up, 0) ⟨[16]⟩, .get (.down, 0) ⟨[7]⟩, .get (.up, 0) ⟨[16]⟩] ∧
    ∀ pre d k, pre <+: (framedMachine SocketPacket.bincode 1).trace
        (FramedTunnel.observe SocketPacket.bincode) (.new 1) piecemeal →
      Pipes.gets (d, k) pre <+: Pipes.puts (d, k) pre ∧ bytesOut d k pre <+: bytesIn d k pre :=
  ⟨rfl, @framed_as_pipes _ fixintLayout_bincode 1 piecemeal _ rfl⟩

end CraftIp
