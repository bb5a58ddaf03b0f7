/-
# `RemoteFramebuffer.Fault` — steps that a program cannot take

Indexing past the end of an array, shifting a word by its width or more, cutting data into
pieces of no bytes, subtracting below zero: a program that gets there stops.  A `Guarded` value
is computed by steps that may be of this kind, each of them tested before it is taken.
-/
import RemoteFramebuffer.Bytes

namespace RemoteFramebuffer

/-- What kind of step could not be taken. -/
inductive Fault
  | index
  | slice
  | shift
  | emptyPiece
  | underflow
deriving DecidableEq, Repr

def Fault.message : Fault → String
  | .index => "index out of bounds"
  | .slice => "slice out of bounds"
  | .shift => "shift past the width of the word"
  | .emptyPiece => "pieces of no bytes"
  | .underflow => "subtraction below zero"

abbrev Guarded := Except Fault

namespace Guarded

variable {α : Type}

def require (can : Bool) (fault : Fault) : Guarded Unit := if can then .ok () else .error fault

def index (i size : Nat) : Guarded Unit := require (i < size) .index

/-- The slice from `start` to `stop` of so many elements. -/
def slice (start stop size : Nat) : Guarded Unit := require (start ≤ stop && stop ≤ size) .slice

def shift (amount bits : Nat) : Guarded Unit := require (amount < bits) .shift

def pieces (size : Nat) : Guarded Unit := require (size != 0) .emptyPiece

def sub (a b : Nat) : Guarded Nat := do
  require (b ≤ a) .underflow
  return a - b

def get [Inhabited α] (elements : Array α) (i : Nat) : Guarded α := do
  index i elements.size
  return elements[i]?.getD default

def extract (elements : Array α) (start stop : Nat) : Guarded (Array α) := do
  slice start stop elements.size
  return elements.extract start stop

/-- The first `count` bytes of a piece, taken one by one. -/
def first (count : Nat) (piece : Bytes) : Guarded Bytes := do
  require (count ≤ piece.length) .index
  return piece.take count

end Guarded

end RemoteFramebuffer
