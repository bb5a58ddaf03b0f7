/-
# `RemoteFramebuffer.Deflate.Inflater` — a zlib stream that stays open between payloads

An inflater keeps a window of the last 32 KiB written.  Decoding stops where the
window is full; what it holds is handed out before decoding goes on, and goes on only
if input is left.  So a payload may end while output that it already determines is
still owed, and that output comes with the next payload.

A broken stream stays broken.  After the end of a stream further input is ignored.
-/
import RemoteFramebuffer.Deflate.Block
import RemoteFramebuffer.StreamDecoder

namespace RemoteFramebuffer
namespace Deflate

/-! ## Checksum -/

/-- The two sums of an Adler-32 checksum. -/
structure Adler where
  low : Nat
  high : Nat

namespace Adler

def start : Adler := ⟨1, 0⟩

def modulus : Nat := 65521

def add (a : Adler) (byte : UInt8) : Adler :=
  let low := (a.low + byte.toNat) % modulus
  ⟨low, (a.high + low) % modulus⟩

def value (a : Adler) : Nat := a.high * 65536 + a.low

end Adler

/-! ## Window -/

/-- A ring of the last bytes written, zeros at first, and the place of the next one. -/
structure Window where
  bytes : Array UInt8
  position : Nat

namespace Window

def size : Nat := 32768

def empty : Window := ⟨Array.replicate size 0, 0⟩

def push (w : Window) (byte : UInt8) : Window :=
  ⟨w.bytes.setIfInBounds w.position byte, (w.position + 1) % size⟩

/-- The byte written `distance` bytes ago. -/
def back (w : Window) (distance : Nat) : UInt8 :=
  w.bytes.getD ((w.position + size - distance) % size) 0

end Window

/-! ## Decoding -/

inductive Status
  | running
  | ended
  | broken
deriving DecidableEq, Repr

structure Inflater where
  phase : Phase
  /-- Bits at hand that do not complete a step. -/
  bits : Bits
  window : Window
  checksum : Adler
  /-- What the last step has still to write. -/
  owed : Option Output
  /-- What is decoded and not yet handed out. -/
  ready : Bytes
  status : Status

namespace Inflater

def fresh : Inflater :=
  { phase := .header
    bits := []
    window := Window.empty
    checksum := Adler.start
    owed := none
    ready := []
    status := .running }

instance : Inhabited Inflater := ⟨fresh⟩

/-- Why a run of steps stopped: for want of input, for want of space, or at the end or a
breach of the stream. -/
inductive Stop
  | starved
  | full
  | ended
  | broken
deriving DecidableEq, Repr

def write (f : Inflater) (byte : UInt8) : Inflater :=
  { f with window := f.window.push byte, checksum := f.checksum.add byte }

/-- Copies the bytes from `distance` before the end, one by one, putting each on `out`. -/
def copyBack (f : Inflater) (distance : Nat) (out : Bytes) : (count : Nat) → Inflater × Bytes
  | 0 => (f, out)
  | count + 1 =>
    let byte := f.window.back distance
    copyBack (f.write byte) distance (byte :: out) count

/-- Writes what is owed into the space there is.  Gives the space and output after it. -/
def settle (f : Inflater) (space : Nat) (out : Bytes) : Inflater × Nat × Bytes :=
  match f.owed with
  | none => (f, space, out)
  | some (.literal byte) =>
    if space = 0 then (f, 0, out)
    else ({ f.write byte with owed := none }, space - 1, byte :: out)
  | some (.copy length distance) =>
    let count := min space length
    let left := length - count
    let (f, out) := f.copyBack distance out count
    ({ f with owed := if left = 0 then none else some (.copy left distance) }, space - count, out)

/-- A stored byte is not read before there is space for it. -/
def mustWait (f : Inflater) (space : Nat) : Bool :=
  match f.phase with
  | .stored _ _ => space == 0
  | _ => false

/-- Takes steps, `fuel` at most, until one is short or the space is used up.  The output
comes last first. -/
def decode : (fuel : Nat) → Inflater → (space : Nat) → (out : Bytes) → Inflater × Stop × Bytes
  | 0, f, _, out => (f, .starved, out)
  | fuel + 1, f, space, out =>
    let (f, space, out) := f.settle space out
    if f.owed.isSome || f.mustWait space then (f, .full, out)
    else match f.phase with
      | .finished sum => (f, if sum = f.checksum.value then .ended else .broken, out)
      | phase =>
        match phase.step f.bits with
        | .short => (f, .starved, out)
        | .invalid => (f, .broken, out)
        | .next phase rest owed => decode fuel { f with phase, bits := rest, owed } space out

/-- Gives back the whole bytes that a stopped run has not used. -/
def giveBack (f : Inflater) (stop : Stop) (input : Bytes) : Inflater × Bytes :=
  match stop with
  | .starved => (f, [])
  | _ =>
    let unused := f.bits.length / 8
    ({ f with bits := f.bits.take (f.bits.length % 8) }, input.drop (input.length - unused))

def feed (f : Inflater) (input : Bytes) : Inflater :=
  { f with bits := f.bits ++ input.flatMap bitsOfByte }

/-- Feeds input and decodes until it is used up or the window is full. -/
def advance (f : Inflater) (input : Bytes) : Inflater × Stop × Bytes :=
  let f := f.feed input
  let (f, stop, out) := decode (f.bits.length + 2) f (Window.size - f.window.position) []
  let (f, rest) := f.giveBack stop input
  let status := match stop with
    | .ended => Status.ended
    | .broken => .broken
    | _ => .running
  ({ f with ready := out.reverse, status }, stop, rest)

/-! ## Handing out -/

/-- Moves what is ready into `room` bytes of output. -/
def handOut (f : Inflater) (room : Nat) : Inflater × Bytes :=
  ({ f with ready := f.ready.drop room }, f.ready.take room)

/-- Decodes and hands out, `fuel` windows at most, until the input or the room is used up. -/
def callLoop : (fuel : Nat) → Inflater → (input : Bytes) → (room : Nat) → (output : Bytes) →
    Option Portion × Inflater
  | 0, f, input, _, output => (some ⟨output, input, false⟩, f)
  | fuel + 1, f, input, room, output =>
    let (f, stop, rest) := f.advance input
    let (f, piece) := f.handOut room
    let output := output ++ piece
    let room := room - piece.length
    if stop = .broken then (none, f)
    else if stop = .ended ∨ rest.isEmpty ∨ room = 0 ∨ ¬ f.ready.isEmpty then
      (some ⟨output, rest, stop = .ended && f.ready.isEmpty⟩, f)
    else callLoop fuel f rest room output

/-- One call with `room` bytes of space. -/
def call (room : Nat) (f : Inflater) (input : Bytes) : Option Portion × Inflater :=
  if f.status = .broken then (none, f)
  else if f.ready.isEmpty then callLoop (room + 1) f input room []
  else
    let (f, output) := f.handOut room
    (some ⟨output, input, f.status = .ended && f.ready.isEmpty⟩, f)

end Inflater

end Deflate
end RemoteFramebuffer
