/-
# `RemoteFramebuffer.Deflate.Block` — the grammar of a zlib stream, one step at a time

A stream is a header of two bytes, blocks, and a checksum of four bytes.  A block is
stored as it is or coded with two prefix codes, which are fixed or come with it.
`Phase` is the place in the grammar and `Phase.step` reads the next piece: it is
`short` while the bits at hand do not complete one, and what it writes is a literal
byte or a match, which repeats bytes written before.

Bits are taken from each byte lowest first; a number has its lowest bit first too.
-/
import RemoteFramebuffer.Bytes
import RemoteFramebuffer.Deflate.Huffman

namespace RemoteFramebuffer
namespace Deflate

abbrev Bits := List Bool

def bitsOfByte (b : UInt8) : Bits := (List.range 8).map b.toNat.testBit

def number (bits : Bits) : Nat := bits.foldr (fun b n => b.toNat + 2 * n) 0

/-- Splits off a number of `width` bits, if they are there. -/
def take? (width : Nat) (bits : Bits) : Option (Nat × Bits) :=
  let piece := bits.take width
  if piece.length < width then none else some (number piece, bits.drop width)

/-- The bits from the next byte boundary on. -/
def align (bits : Bits) : Bits := bits.drop (bits.length % 8)

/-! ## Tables of the format -/

/-- The order in which the lengths of the code for code lengths come. -/
def lengthOrder : List Nat := [16, 17, 18, 0, 8, 7, 9, 6, 10, 5, 11, 4, 12, 3, 13, 2, 14, 1, 15]

/-- Shortest match and number of extra bits for each length symbol from 257 on. -/
def matchLengths : List (Nat × Nat) :=
  [(3, 0), (4, 0), (5, 0), (6, 0), (7, 0), (8, 0), (9, 0), (10, 0), (11, 1), (13, 1), (15, 1),
   (17, 1), (19, 2), (23, 2), (27, 2), (31, 2), (35, 3), (43, 3), (51, 3), (59, 3), (67, 4),
   (83, 4), (99, 4), (115, 4), (131, 5), (163, 5), (195, 5), (227, 5), (258, 0)]

/-- Least distance and number of extra bits for each distance symbol. -/
def matchDistances : List (Nat × Nat) :=
  [(1, 0), (2, 0), (3, 0), (4, 0), (5, 1), (7, 1), (9, 2), (13, 2), (17, 3), (25, 3), (33, 4),
   (49, 4), (65, 5), (97, 5), (129, 6), (193, 6), (257, 7), (385, 7), (513, 8), (769, 8),
   (1025, 9), (1537, 9), (2049, 10), (3073, 10), (4097, 11), (6145, 11), (8193, 12), (12289, 12),
   (16385, 13), (24577, 13)]

/-- The prefix codes of a coded block. -/
structure Codes where
  literals : PrefixCode
  distances : PrefixCode

/-- The codes of a block that comes with none. -/
def fixedCodes : Codes :=
  { literals := PrefixCode.ofLengths
      (List.replicate 144 8 ++ List.replicate 112 9 ++ List.replicate 24 7 ++ List.replicate 8 8)
    distances := PrefixCode.ofLengths (List.replicate 32 5) }

/-- Sizes of the two codes that come with a block. -/
structure CodeSizes where
  literals : Nat
  distances : Nat

namespace CodeSizes

def total (s : CodeSizes) : Nat := s.literals + s.distances

/-- The codes whose word lengths, one after the other, are `lengths`.  An incomplete code is
allowed only if it has at most one word. -/
def codes? (s : CodeSizes) (lengths : List Nat) : Option Codes :=
  let literals := lengths.take s.literals
  let distances := lengths.drop s.literals
  let usable (code : List Nat) : Bool := PrefixCode.isComplete code || PrefixCode.used code ≤ 1
  if lengths.length = s.total ∧ usable literals ∧ usable distances then
    some ⟨PrefixCode.ofLengths literals, PrefixCode.ofLengths distances⟩
  else none

end CodeSizes

/-! ## Steps -/

/-- A place in the stream; `last` tells whether the block is the last one. -/
inductive Phase
  | header
  | blockHeader
  | storedLength (last : Bool)
  | stored (last : Bool) (left : Nat)
  | codeSizes (last : Bool)
  | lengthCode (last : Bool) (sizes : CodeSizes) (left : Nat) (lengths : List Nat)
  | codeLengths (last : Bool) (sizes : CodeSizes) (code : PrefixCode) (lengths : List Nat)
  | symbols (last : Bool) (codes : Codes)
  | checksum
  | finished (checksum : Nat)

inductive Output
  | literal (byte : UInt8)
  | copy (length distance : Nat)

inductive Step
  | next (phase : Phase) (rest : Bits) (output : Option Output)
  | short
  | invalid

namespace Phase

def afterBlock (last : Bool) : Phase := if last then .checksum else .blockHeader

/-- The two bytes of a zlib header: deflate with a window of at most 32 KiB, no preset
dictionary, and a check value. -/
def headerValid (method flags : Nat) : Bool :=
  (method * 256 + flags) % 31 == 0 && flags / 32 % 2 == 0 && method % 16 == 8 && method / 16 ≤ 7

/-- Where a stream goes on after a block header. -/
def ofBlockHeader (bits : Nat) : Option Phase :=
  let last := bits % 2 == 1
  match bits / 2 with
  | 0 => some (.storedLength last)
  | 1 => some (.symbols last fixedCodes)
  | 2 => some (.codeSizes last)
  | _ => none

/-- Lengths of the words of the code for code lengths, from those that came in their order. -/
def arrange (lengths : List Nat) : List Nat :=
  (List.range 19).map fun symbol => (lengths.getD (lengthOrder.idxOf symbol) 0)

/-- The phase that reads `left` more lengths, or the code once there are none to read. -/
def readLengthCode (last : Bool) (sizes : CodeSizes) (lengths : List Nat) :
    (left : Nat) → Option Phase
  | left + 1 => some (.lengthCode last sizes (left + 1) lengths)
  | 0 =>
    let code := arrange lengths
    if PrefixCode.isComplete code then some (.codeLengths last sizes (PrefixCode.ofLengths code) [])
    else none

/-- The phase that reads more code lengths, or the symbols once all are there.  The lengths
come last first. -/
def readCodeLengths (last : Bool) (sizes : CodeSizes) (code : PrefixCode) (lengths : List Nat) :
    Option Phase :=
  if lengths.length < sizes.total then some (.codeLengths last sizes code lengths)
  else (sizes.codes? lengths.reverse).map (.symbols last)

/-- A step that writes nothing, unless there is no phase to go on with. -/
def quiet (phase : Option Phase) (rest : Bits) : Step :=
  match phase with
  | some phase => .next phase rest none
  | none => .invalid

/-- The step that reads a number of `width` bits. -/
def withNumber (width : Nat) (bits : Bits) (next : Nat → Bits → Step) : Step :=
  match take? width bits with
  | some (n, rest) => next n rest
  | none => .short

def withSymbol (code : PrefixCode) (bits : Bits) (next : Nat → Bits → Step) : Step :=
  match code.walk bits with
  | .found value rest => next value rest
  | .short => .short
  | .invalid => .invalid

/-- The distance of a match of `length` bytes, and the match. -/
def stepDistance (last : Bool) (codes : Codes) (length : Nat) (bits : Bits) : Step :=
  withSymbol codes.distances bits fun symbol rest =>
    match matchDistances[symbol]? with
    | none => .invalid
    | some (least, extra) => withNumber extra rest fun more rest =>
      .next (.symbols last codes) rest (some (.copy length (least + more)))

/-- One symbol of a coded block: a literal, the end of the block, or the start of a match. -/
def stepSymbol (last : Bool) (codes : Codes) (bits : Bits) : Step :=
  withSymbol codes.literals bits fun symbol rest =>
    if symbol < 256 then .next (.symbols last codes) rest (some (.literal (UInt8.ofNat symbol)))
    else if symbol = 256 then .next (afterBlock last) rest none
    else match matchLengths[symbol - 257]? with
      | none => .invalid
      | some (least, extra) => withNumber extra rest fun more rest =>
        stepDistance last codes (least + more) rest

def stepCodeLength (last : Bool) (sizes : CodeSizes) (code : PrefixCode) (lengths : List Nat)
    (bits : Bits) : Step :=
  withSymbol code bits fun symbol rest =>
    let run (width least value : Nat) (rest : Bits) : Step :=
      withNumber width rest fun more rest =>
        quiet (readCodeLengths last sizes code (List.replicate (least + more) value ++ lengths)) rest
    match symbol with
    | 16 =>
      match lengths with
      | [] => .invalid
      | previous :: _ => run 2 3 previous rest
    | 17 => run 3 3 0 rest
    | 18 => run 7 11 0 rest
    | length => quiet (readCodeLengths last sizes code (length :: lengths)) rest

def step : Phase → Bits → Step
  | .header, bits => withNumber 8 bits fun method rest => withNumber 8 rest fun flags rest =>
    quiet (if headerValid method flags then some .blockHeader else none) rest
  | .blockHeader, bits => withNumber 3 bits fun header rest => quiet (ofBlockHeader header) rest
  | .storedLength last, bits => withNumber 16 (align bits) fun length rest =>
    withNumber 16 rest fun complement rest =>
      if length + complement ≠ 65535 then .invalid
      else .next (if length = 0 then afterBlock last else .stored last length) rest none
  | .stored last left, bits => withNumber 8 bits fun byte rest =>
    .next (if left ≤ 1 then afterBlock last else .stored last (left - 1)) rest
      (some (.literal (UInt8.ofNat byte)))
  | .codeSizes last, bits => withNumber 5 bits fun literals rest =>
    withNumber 5 rest fun distances rest => withNumber 4 rest fun lengths rest =>
      let sizes : CodeSizes := ⟨literals + 257, distances + 1⟩
      if 286 < sizes.literals ∨ 30 < sizes.distances then .invalid
      else quiet (readLengthCode last sizes [] (lengths + 4)) rest
  | .lengthCode last sizes left lengths, bits => withNumber 3 bits fun length rest =>
    quiet (readLengthCode last sizes (lengths ++ [length]) (left - 1)) rest
  | .codeLengths last sizes code lengths, bits => stepCodeLength last sizes code lengths bits
  | .symbols last codes, bits => stepSymbol last codes bits
  | .checksum, bits => withNumber 32 (align bits) fun sum rest =>
    -- the checksum alone has its bytes highest first
    .next (.finished (Bytes.toNat (Bytes.ofNat 4 sum).reverse)) rest none
  | .finished _, _ => .short

end Phase

end Deflate
end RemoteFramebuffer
