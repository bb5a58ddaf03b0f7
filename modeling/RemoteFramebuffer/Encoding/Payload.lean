/-
# `RemoteFramebuffer.Encoding.Payload` — reading a rectangle's data, once to its end and once more

A `Capture` reads just enough of the data to know where it ends.  What it reads is
recorded byte for byte, so that a rectangle can be passed on without decoding it.

A `Payload` reader takes from bytes that are all there.  It either gets what it asks
for and leaves the rest, or fails and says how much was missing.
-/
import RemoteFramebuffer.Encoding.Error

namespace RemoteFramebuffer

/-! ## To its end -/

abbrev Capture := Reader DecodeCause

namespace Capture

def fail (cause : DecodeCause) : Capture Unit := Reader.fail cause

def u8 : Capture UInt8 := Reader.u8.mapError .wire

def u16 : Capture UInt16 := Reader.u16.mapError .wire

def u32 : Capture UInt32 := Reader.u32.mapError .wire

def i32 : Capture Int32 := Reader.i32.mapError .wire

def pieceSize : Nat := 4096

def skip (count : Nat) : Capture Unit :=
  (fun _ => ()) <$> (Reader.pieces pieceSize count).mapError .wire

end Capture

/-! ## From front to back -/

abbrev Payload := StateT Bytes (Except DecodeError)

namespace Payload

def fail {α : Type} (cause : DecodeCause) : Payload α := throw (DecodeError.of cause)

def take (count : Nat) : Payload Bytes := fun data =>
  let piece := data.take count
  if piece.length < count then .error (DecodeError.of (.payloadEnd count data.length))
  else .ok (piece, data.drop count)

/-- A value whose steps may not all be possible. -/
def guarded {α : Type} (g : Guarded α) : Payload α := StateT.lift g.orFault

def word (width : Nat) : Payload Nat := do
  let piece ← take width
  return Bytes.toNat (← guarded (Guarded.first width piece))

def u8 : Payload UInt8 := UInt8.ofNat <$> word 1

def u16 : Payload Nat := word 2

def u32 : Payload Nat := word 4

def within {α : Type} (context : DecodeContext) (p : Payload α) : Payload α := fun data =>
  (p data).mapError (DecodeError.within context)

/-- `count` values of one kind after those `seen`, last first. -/
def valuesOnto {α : Type} (item : Payload α) (seen : List α) : (count : Nat) → Payload (List α)
  | 0 => pure seen.reverse
  | count + 1 => do
    let a ← item
    valuesOnto item (a :: seen) count

def values {α : Type} (item : Payload α) (count : Nat) : Payload (List α) :=
  valuesOnto item [] count

end Payload

def chunksOf (size : Nat) : (count : Nat) → Bytes → List Bytes
  | 0, _ => []
  | count + 1, bytes => bytes.take size :: chunksOf size count (bytes.drop size)

/-- All whole pieces of `size` bytes; a size of 0 counts as 1. -/
def chunks (size : Nat) (bytes : Bytes) : List Bytes :=
  chunksOf (max size 1) (bytes.length / max size 1) bytes

end RemoteFramebuffer
