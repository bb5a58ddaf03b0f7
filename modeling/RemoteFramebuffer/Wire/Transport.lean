/-
# `RemoteFramebuffer.Wire.Transport` — bytes on their way

A pipe holds what was written at one end and not yet read at the other.  Either end may
close it: the writer because it has said all, the reader because it has gone.  What is in
a closed pipe can still be read, but nothing more can be written.

What is put into a sink waits in memory until it is flushed, so that a message leaves in
one run or not at all.

A source hands out at most one chunk per read and no more than there is room for.
`Buffered` keeps what has been drawn and not yet asked for; a reader run over it is
answered from the buffer, which is filled until the next piece is complete.
-/
import RemoteFramebuffer.Bytes
import RemoteFramebuffer.Wire.Reader

namespace RemoteFramebuffer

/-! ## Pipes -/

structure Pipe where
  bytes : Bytes
  isClosed : Bool
deriving DecidableEq, Repr

namespace Pipe

def fresh : Pipe := ⟨[], false⟩

instance : Inhabited Pipe := ⟨fresh⟩

def close (p : Pipe) : Pipe := { p with isClosed := true }

/-- The pipe after a write, unless it is closed. -/
def write (p : Pipe) (bytes : Bytes) : Option Pipe :=
  if p.isClosed then none else some { p with bytes := p.bytes ++ bytes }

/-- The pipe after all of its bytes were read. -/
def drain (p : Pipe) : Pipe := { p with bytes := [] }

end Pipe

/-! ## Sinks -/

structure Sink where
  waiting : Bytes
  written : Bytes

namespace Sink

def empty : Sink := ⟨[], []⟩

def put (s : Sink) (bytes : Bytes) : Sink := { s with waiting := s.waiting ++ bytes }

def flush (s : Sink) : Sink := ⟨[], s.written ++ s.waiting⟩

end Sink

/-! ## Sources -/

structure Buffered where
  /-- What the source has still to give, one entry per read. -/
  source : List Bytes
  buffer : Bytes
  /-- Bytes that the buffer has space for, those in it included. -/
  capacity : Nat

namespace Buffered

/-- Least growth of a full buffer. -/
def growth : Nat := 64

/-- A source cut into chunks of the given sizes and one last chunk. -/
def cut : List Nat → Bytes → List Bytes
  | [], input => [input]
  | size :: sizes, input => input.take size :: cut sizes (input.drop size)

def ofChunks (chunks : List Bytes) (capacity : Nat) : Buffered :=
  ⟨chunks.filter (!·.isEmpty), [], capacity⟩

/-- How much is still to come, counting each read as one more. -/
def pending (b : Buffered) : Nat := b.source.flatten.length + b.source.length

/-- The bytes that can still be read. -/
def rest (b : Buffered) : Bytes := b.buffer ++ b.source.flatten

/-- Space for one read: what is free, or `growth` if nothing is. -/
def room (b : Buffered) : Nat :=
  if b.capacity ≤ b.buffer.length then growth else b.capacity - b.buffer.length

theorem room_pos (b : Buffered) : 0 < b.room := by
  unfold room growth
  split <;> omega

/-- One read of the source. -/
def draw (b : Buffered) : Buffered :=
  match b.source with
  | [] => b
  | chunk :: source =>
    let left := chunk.drop b.room
    { source := if left.isEmpty then source else left :: source
      buffer := b.buffer ++ chunk.take b.room
      capacity := max b.capacity (b.buffer.length + b.room) }

theorem pending_draw (b : Buffered) (h : b.source ≠ []) : b.draw.pending < b.pending := by
  have room := b.room_pos
  match hs : b.source with
  | [] => exact absurd hs h
  | chunk :: source =>
    simp only [draw, hs, pending, List.flatten_cons, List.length_append, List.length_cons]
    split
    · omega
    · rename_i left
      have : chunk.length ≠ 0 := by
        intro empty
        simp [List.length_eq_zero_iff.mp empty] at left
      simp only [List.flatten_cons, List.length_append, List.length_cons, List.length_drop]
      omega

/-- Reads until `count` bytes are buffered or the source ends. -/
def fill (count : Nat) (b : Buffered) : Buffered :=
  if b.buffer.length < count then
    if _ended : b.source = [] then b else fill count b.draw
  else b
termination_by b.pending
decreasing_by exact pending_draw b _ended

/-- Makes sure that the buffer can hold `count` bytes. -/
def reserve (count : Nat) (b : Buffered) : Buffered := { b with capacity := max b.capacity count }

/-- Gives up the first `count` buffered bytes and their space. -/
def consume (count : Nat) (b : Buffered) : Buffered :=
  { b with buffer := b.buffer.drop count, capacity := b.capacity - count }

end Buffered

/-- The result over a chunked stream, and what is left of it. -/
def Reader.runBuffered {ε α : Type} : Reader ε α → Buffered → Except ε α × Buffered
  | .done result, b => (result, b)
  | .take count short next, b =>
    let b := (b.reserve count).fill count
    let piece := b.buffer.take count
    if piece.length < count then (.error (short b.buffer.length), b)
    else (next piece).runBuffered (b.consume count)

end RemoteFramebuffer
