/-
# `RemoteFramebuffer.Wire.Reader` — reading from a byte stream, one piece at a time

A `Reader` either has a result or asks for a piece of so many bytes and goes on with
them.  A piece is all or nothing: when fewer bytes are left the reader fails, told
how many there are, and consumes none of them.  Where the bytes come from is left
open: `Reader.run` draws them from a list, and a session feeds them as they arrive.

Long runs are asked for in pieces, so that a false length fails at the end of the
stream instead of demanding everything at once.
-/
import RemoteFramebuffer.Wire.Error

namespace RemoteFramebuffer

/-- A description of what to read.  `take count short next` asks for `count` bytes and fails
with `short got` if only `got` are left. -/
inductive Reader (ε α : Type) where
  | done (result : Except ε α)
  | take (count : Nat) (short : Nat → ε) (next : Bytes → Reader ε α)

namespace Reader

variable {ε ε' α β : Type}

def fail (e : ε) : Reader ε α := .done (.error e)

def bind : Reader ε α → (α → Reader ε β) → Reader ε β
  | .done (.ok a), f => f a
  | .done (.error e), _ => .done (.error e)
  | .take count short next, f => .take count short fun piece => (next piece).bind f

instance : Monad (Reader ε) where
  pure a := .done (.ok a)
  bind := bind

/-- The same reader with its errors, those of a short stream included, reworded. -/
def mapError (f : ε → ε') : Reader ε α → Reader ε' α
  | .done result => .done (result.mapError f)
  | .take count short next => .take count (fun got => f (short got)) fun piece => (next piece).mapError f

/-- The same reader giving, with its result or error, the pieces it drew, last first, on top
of `seen`. -/
def recorded (seen : List Bytes) : Reader ε α → Reader (ε × List Bytes) (α × List Bytes)
  | .done (.ok a) => .done (.ok (a, seen))
  | .done (.error e) => .done (.error (e, seen))
  | .take count short next =>
    .take count (fun got => (short got, seen)) fun piece => (next piece).recorded (piece :: seen)

/-- The result over a byte string, and the bytes left. -/
def run : Reader ε α → Bytes → Except ε α × Bytes
  | .done result, input => (result, input)
  | .take count short next, input =>
    let piece := input.take count
    if piece.length < count then (.error (short input.length), input)
    else (next piece).run (input.drop count)

/-- The reader after the pieces that `input` holds in full, and what is left of it. -/
def resume : Reader ε α → Bytes → Reader ε α × Bytes
  | .done result, input => (.done result, input)
  | .take count short next, input =>
    if count ≤ input.length then (next (input.take count)).resume (input.drop count)
    else (.take count short next, input)

/-! ## Words -/

def bytes (count : Nat) : Reader WireError Bytes :=
  .take count (.endOfStream count) pure

def number (width : Nat) : Reader WireError Nat := Bytes.toNat <$> bytes width

def u8 : Reader WireError UInt8 := UInt8.ofNat <$> number 1

def u16 : Reader WireError UInt16 := UInt16.ofNat <$> number 2

def u32 : Reader WireError UInt32 := UInt32.ofNat <$> number 4

def u64 : Reader WireError UInt64 := UInt64.ofNat <$> number 8

def i16 : Reader WireError Int16 := UInt16.toInt16 <$> u16

def i32 : Reader WireError Int32 := UInt32.toInt32 <$> u32

def i64 : Reader WireError Int64 := UInt64.toInt64 <$> u64

/-- One byte, any value but 0 counting as set. -/
def flag : Reader WireError Bool := (· != 0) <$> u8

/-! ## Long runs -/

/-- Bytes asked for at a time by `run` readers of open length. -/
def pieceSize : Nat := 65536

/-- `whole` pieces of `size` bytes and one of `last`, on top of the pieces `seen`, last first. -/
def piecesOnto (size last : Nat) (seen : List Bytes) : (whole : Nat) → Reader WireError Bytes
  | 0 => (fun piece => (piece :: seen).reverse.flatten) <$> bytes last
  | whole + 1 => do
    let piece ← bytes size
    piecesOnto size last (piece :: seen) whole

def pieces (size count : Nat) : Reader WireError Bytes :=
  piecesOnto size (count % size) [] (count / size)

def vec (count : Nat) : Reader WireError Bytes := pieces pieceSize count

/-- `count` bytes, unless there would be more than `limit`. -/
def vecLimited (count limit : Nat) : Reader WireError Bytes :=
  if limit < count then fail (.lengthLimit count limit) else vec count

def skip (count : Nat) : Reader WireError Unit := (fun _ => ()) <$> vec count

/-- `count` values of one kind after those `seen`, last first. -/
def valuesOnto (item : Reader ε α) (seen : List α) : (count : Nat) → Reader ε (List α)
  | 0 => pure seen.reverse
  | count + 1 => do
    let a ← item
    valuesOnto item (a :: seen) count

def values (item : Reader ε α) (count : Nat) : Reader ε (List α) := valuesOnto item [] count

end Reader

/-- Longest name, reason or credential that is read from a peer. -/
def maxStringLength : Nat := 65536

/-- Longest cut text that is read from a peer. -/
def maxCutTextLength : Nat := 16777216

end RemoteFramebuffer
