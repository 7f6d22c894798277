import CraftIp.Infra.Utf16
import CraftIp.Shared.Datatypes

/-!
# `shared/src/cursor.rs`

`CustomCursor` is a `Cursor<Vec<u8>>`: the whole buffer and a position in it. The
methods run in `CursorM`, which threads the cursor and stops at the first error or panic.
The position after an error is not kept: every caller drops the cursor there.

The reads of the `bytes` crate panic when too few bytes remain, and so does an index or
a slice that is out of range.
-/

namespace CraftIp

open Infra

/-- `CustomCursor`. -/
structure Cursor where
  buf : Bytes
  pos : Nat
  deriving DecidableEq, Repr

abbrev CursorM := StateT Cursor (Except Fault)

namespace Cursor

/-- `CustomCursor::new`. -/
def new (buf : Bytes) : Cursor := ⟨buf, 0⟩

/-- `Buf::remaining`. -/
def remaining (c : Cursor) : Nat := c.buf.length - c.pos

def position : CursorM Nat := fun c => .ok (c.pos, c)

def setPosition (pos : Nat) : CursorM Unit := fun c => .ok ((), { c with pos := pos })

/-- Leave with an `Err`. -/
def fail {α : Type} (e : PacketError) : CursorM α := fun _ => .error (.error e)

/-- `if cond { return Err(e) }`. -/
def failIf (cond : Prop) [Decidable cond] (e : PacketError) : CursorM Unit :=
  if cond then fail e else pure ()

/-- `self.get_ref()[a..b]`. -/
def slice (a b : Nat) : CursorM Bytes := fun c =>
  if a ≤ b ∧ b ≤ c.buf.length then .ok ((c.buf.take b).drop a, c) else .error .panic

/-- `Buf::copy_to_slice`: take `n` bytes and advance. -/
def getBytes (n : Nat) : CursorM Bytes := fun c =>
  if n ≤ c.remaining then .ok ((c.buf.drop c.pos).take n, { c with pos := c.pos + n })
  else .error .panic

/-- `Buf::get_u8`. -/
def getU8 : CursorM UInt8 := do
  return UInt8.ofNat (beValue (← getBytes 1))

/-- `Buf::get_u16`. -/
def getU16 : CursorM UInt16 := do
  return UInt16.ofNat (beValue (← getBytes 2))

/-- `Buf::get_u32`. -/
def getU32 : CursorM UInt32 := do
  return UInt32.ofNat (beValue (← getBytes 4))

/-- `throw_error_if_smaller`. -/
def throwErrorIfSmaller (size : Nat) : CursorM Unit := fun c =>
  if c.remaining < size then .error (.error .TooSmall) else .ok ((), c)

/-- `CustomCursor::get_varint`. -/
def getVarint : CursorM Int32 := fun c =>
  match CraftIp.getVarint c.buf c.pos with
  | .error e => .error (.error e)
  | .ok (value, size) => .ok (value, { c with pos := c.pos + size })

/-- `get_utf8_string`. -/
def getUtf8String : CursorM String := do
  let startPosition ← position
  let size := asUsize (← getVarint)
  throwErrorIfSmaller size
  let blob ← slice (← position) ((← position) + size)
  setPosition ((← position) + size)
  match fromUtf8 blob with
  | some s => return s
  | none => do
    setPosition startPosition
    fail .NotValidStringEncoding

/-- `(0..size).map(|_| self.get_u16())`. -/
def getUnits : Nat → CursorM (List UInt16)
  | 0 => return []
  | n + 1 => do
    let u ← getU16
    return u :: (← getUnits n)

/-- `get_utf16_string`. -/
def getUtf16String : CursorM String := do
  let cursorStart ← position
  throwErrorIfSmaller 2
  let size := (← getU16).toNat
  failIf ((← get).remaining ≤ size * 2) .TooSmall
  throwErrorIfSmaller (size * 2)
  match decodeUtf16 (← getUnits size) with
  | some s => return String.ofList s
  | none => do
    setPosition cursorStart
    fail .NotValidStringEncoding

/-- `match_bytes`. -/
def matchBytes (bytes : Bytes) : CursorM Bool := fun c =>
  if c.remaining < bytes.length then .ok (false, c)
  else if (c.buf.drop c.pos).take bytes.length ≠ bytes then .ok (false, c)
  else .ok (true, { c with pos := c.pos + bytes.length })

end Cursor

end CraftIp
