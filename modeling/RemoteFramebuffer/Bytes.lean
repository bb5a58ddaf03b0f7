/-
# `RemoteFramebuffer.Bytes` — byte strings and the big-endian words in them

Every multi-byte number of the protocol is sent most significant byte first.
`Bytes.ofNat` writes the lowest digits of a number in that order and `Bytes.toNat`
reads them back; the fixed-width words below are both at a width of 2, 4 or 8.
-/

namespace RemoteFramebuffer

abbrev Bytes := List UInt8

namespace Bytes

/-- The lowest `width` base-256 digits of `n`, most significant first. -/
def ofNat : (width n : Nat) → Bytes
  | 0, _ => []
  | width + 1, n => ofNat width (n / 256) ++ [UInt8.ofNat n]

/-- The number whose base-256 digits, most significant first, are `bytes`. -/
def toNat (bytes : Bytes) : Nat := bytes.foldl (fun n b => n * 256 + b.toNat) 0

def ofUInt16 (w : UInt16) : Bytes := ofNat 2 w.toNat

def ofUInt32 (w : UInt32) : Bytes := ofNat 4 w.toNat

def ofInt32 (w : Int32) : Bytes := ofNat 4 w.toUInt32.toNat

def ofInt64 (w : Int64) : Bytes := ofNat 8 w.toUInt64.toNat

def zeros (n : Nat) : Bytes := List.replicate n 0

def ofBool (b : Bool) : Bytes := [if b then 1 else 0]

def ofString (s : String) : Bytes := s.toUTF8.toList

@[simp] theorem length_ofNat (width n : Nat) : (ofNat width n).length = width := by
  induction width generalizing n <;> simp [ofNat, *]

end Bytes

end RemoteFramebuffer
