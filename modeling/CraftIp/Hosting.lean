import CraftIp.Deployment
import CraftIp.Flow

/-!
# A server with loops whose sends take their time

The server with its proxy clients, where the arms of the loops of all sessions and of all proxy
clients take their time, see `Flow`. What a stranger's session does with the packets of a stranger
is taken at once.
-/

namespace CraftIp

open Infra

/-- The arm of a loop, and whose it is. -/
def DeploymentEvent.arm : DeploymentEvent → Option (Nat × TunnelEvent)
  | .host (.loop i e) => some (i, .server e)
  | .toServer i => some (i, .toServer)
  | .client i e => some (i, .client e)
  | .toClient i millis => some (i, .toClient millis)
  | _ => none

/-- The loop that has the arm. -/
def DeploymentEvent.party (l : DeploymentEvent) : Option (Nat × Side) :=
  l.arm.bind fun (i, e) => e.side.map fun side => (i, side)

/-- A server with its proxy clients, and the arm that each loop has started. -/
abbrev Hosting := Busy (Nat × Side) Deployment DeploymentEvent

namespace Hosting

/-- The arm that a loop of tenant `i` has started. -/
def armOf (s : Hosting) (i : Nat) (side : Side) : Option TunnelEvent :=
  (s.hand (i, side)).bind fun l => l.arm.map Prod.snd

/-- The tunnel of session `i`, with the arms its loops have started. -/
def flowOf (s : Hosting) (i : Nat) : Option Flow :=
  (s.state.tunnelOf i).map fun t => ⟨t, s.armOf i⟩

end Hosting

end CraftIp
