import CraftIp.Infra.Table

/-!
# `shared/src/addressing.rs` and `SocketAddr`

The register of the server and the errors of its tasks.

A sender of a channel is a number: the channel belongs to the task with that number. What
was sent is kept with the task that owns the channel.
-/

namespace CraftIp

open Infra

/-- `std::net::SocketAddr`. Addresses are compared and used as keys only. -/
inductive SocketAddr
  | V4 (ip : BitVec 32) (port : UInt16)
  | V6 (ip : BitVec 128) (port : UInt16) (flowinfo scopeId : UInt32)
  deriving DecidableEq, Repr

/-- `DistributorError`. An `io::Error` is its debug text. -/
inductive DistributorError
  | ClientNotFound
  | ServerNotFound (hostname : String)
  | ServerAlreadyConnected
  | ServerNotConnected (hostname : String)
  | AuthError
  | Timeout
  | WrongPacket
  | TooManyClients
  | UnknownError (message : String)
  | IoError (error : String)
  deriving DecidableEq, Repr

/-- `distributor_error!` at line `line` of `file`. -/
def distributorError (file : String) (line : Nat) (text e : String) : DistributorError :=
  .UnknownError (file ++ ":" ++ toString line ++ " " ++ text ++ ": " ++ e)

/-- The derived `Debug`, for texts without characters that need an escape. -/
def DistributorError.debug : DistributorError → String
  | ClientNotFound => "ClientNotFound"
  | ServerNotFound hostname => "ServerNotFound(\"" ++ hostname ++ "\")"
  | ServerAlreadyConnected => "ServerAlreadyConnected"
  | ServerNotConnected hostname => "ServerNotConnected(\"" ++ hostname ++ "\")"
  | AuthError => "AuthError"
  | Timeout => "Timeout"
  | WrongPacket => "WrongPacket"
  | TooManyClients => "TooManyClients"
  | UnknownError message => "UnknownError(\"" ++ message ++ "\")"
  | IoError error => "IoError(" ++ error ++ ")"

/-- `Tx`: the sender of the channel of a proxy session, named by the session's connection. -/
abbrev Tx := Nat

/-- `Register`. -/
structure Register where
  servers : Table String Tx

/-- `Register::new`. -/
def Register.new : Register := { servers := ∅ }

end CraftIp
