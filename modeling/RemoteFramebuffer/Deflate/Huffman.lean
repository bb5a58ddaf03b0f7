/-
# `RemoteFramebuffer.Deflate.Huffman` — canonical prefix codes

A code is given by the length of each symbol's word, 0 for a symbol without one.
Words are dealt out by length and then by symbol, each the next free one.  `PrefixCode.ofLengths`
builds the two trees of a code, one for each first bit, in which the places of unused words
are `dead`.  No word of a code is empty.
-/

namespace RemoteFramebuffer

inductive Huffman
  | dead
  | symbol (value : Nat)
  | fork (zero one : Huffman)
deriving Repr

namespace Huffman

def insert (value : Nat) : List Bool → Huffman → Huffman
  | [], _ => .symbol value
  | false :: word, .fork zero one => .fork (insert value word zero) one
  | true :: word, .fork zero one => .fork zero (insert value word one)
  | false :: word, _ => .fork (insert value word .dead) .dead
  | true :: word, _ => .fork .dead (insert value word .dead)

/-- What the front of a string of bits spells. -/
inductive Walk
  | found (value : Nat) (rest : List Bool)
  | short
  | invalid

def walk : Huffman → List Bool → Walk
  | .symbol value, bits => .found value bits
  | .dead, _ => .invalid
  | .fork _ _, [] => .short
  | .fork zero one, b :: bits => (if b then one else zero).walk bits

end Huffman

/-- The words that go on from each first bit. -/
structure PrefixCode where
  zero : Huffman
  one : Huffman
deriving Repr

namespace PrefixCode

def maxLength : Nat := 15

def empty : PrefixCode := ⟨.dead, .dead⟩

def insert (value : Nat) : List Bool → PrefixCode → PrefixCode
  | [], code => code
  | false :: word, code => { code with zero := code.zero.insert value word }
  | true :: word, code => { code with one := code.one.insert value word }

/-- The words of a length, as a share of those of the longest. -/
def share (length : Nat) : Nat := 1 <<< (maxLength - length)

/-- The word of a length that starts at a share. -/
def word (start length : Nat) : List Bool :=
  (List.range length).map fun i => start.testBit (maxLength - 1 - i)

/-- Deals words of one length to the symbols that have it, from `start` on. -/
def dealLength (length : Nat) : (symbols : List (Nat × Nat)) → Nat × PrefixCode → Nat × PrefixCode
  | [], dealt => dealt
  | (l, value) :: symbols, (start, code) =>
    if l = length then
      dealLength length symbols (start + share length, code.insert value (word start length))
    else dealLength length symbols (start, code)

def ofLengths (lengths : List Nat) : PrefixCode :=
  ((List.range' 1 maxLength).foldl (fun dealt length => dealLength length lengths.zipIdx dealt)
    (0, empty)).2

def total (lengths : List Nat) : Nat := ((lengths.filter (· ≠ 0)).map share).foldr (· + ·) 0

def used (lengths : List Nat) : Nat := lengths.countP (· ≠ 0)

/-- Every string of bits starts with exactly one word. -/
def isComplete (lengths : List Nat) : Bool := total lengths == 1 <<< maxLength

def walk (code : PrefixCode) : List Bool → Huffman.Walk
  | [] => .short
  | b :: bits => (if b then code.one else code.zero).walk bits

end PrefixCode

end RemoteFramebuffer
