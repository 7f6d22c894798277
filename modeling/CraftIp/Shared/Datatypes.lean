import CraftIp.Infra.Bytes

/-!
# `shared/src/datatypes.rs`

The errors of the parsers, the varint reader and the protocol of a connection.

A call of the source has three outcomes: `Ok`, `Err` and a panic. `Outcome` keeps all
three, so that what never panics is proved and not assumed.
-/

namespace CraftIp

open Infra

/-- `PacketError`. -/
inductive PacketError
  | TooSmall
  | NotValid
  | NotValidStringEncoding
  | NotValidFirstPacket
  | NotMatching
  | EncodingError
  deriving DecidableEq, Repr

/-- Why a call did not return `Ok`: it returned an `Err`, or it panicked. -/
inductive Fault
  | error (e : PacketError)
  | panic
  deriving DecidableEq, Repr

abbrev Outcome (α : Type) := Except Fault α

/-- `v as usize` for an `i32`: negative numbers become huge ones. -/
def asUsize (v : Int32) : Nat := (v.toInt % 2 ^ 64).toNat

/--
The loop of `get_varint`.

The first argument counts the bytes that may still be read; it is zero exactly when the
source leaves the loop through `size >= 5`.
-/
def getVarintLoop (buf : Bytes) (start : Nat) :
    Nat → Nat → Int32 → Int32 → Except PacketError (Int32 × Nat)
  | 0, _, _, _ => .error .NotValid
  | left + 1, size, position, value =>
    match buf[size + start]? with
    | none => .error .NotValid
    | some currentByte =>
      let value := value ||| (currentByte &&& 0x7F).toUInt32.toInt32 <<< position
      if currentByte &&& 0x80 = 0 then .ok (value, size + 1)
      else getVarintLoop buf start left (size + 1) (position + 7) value

/-- `get_varint`: the number that starts at `start`, and how many bytes it takes. -/
def getVarint (buf : Bytes) (start : Nat) : Except PacketError (Int32 × Nat) :=
  getVarintLoop buf start 5 0 0 0

/-- `Protocol`: what a connection speaks. -/
inductive Protocol
  | Unknown
  | MC (version : UInt32)
  | Proxy (version : UInt32)
  deriving DecidableEq, Repr

end CraftIp
