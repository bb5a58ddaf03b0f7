/-
# `RemoteFramebuffer.Text.Utf8` — reading text from bytes that may not be UTF-8

Names and reasons on the wire are bytes of no declared charset.  `decode` reads
them as UTF-8 and puts one U+FFFD for every maximal run of bytes that starts a
character but does not complete one, and for every byte that cannot start one.
-/
import RemoteFramebuffer.Bytes

namespace RemoteFramebuffer
namespace Text

/-- What stands for bytes that spell no character. -/
def replacement : Char := '\uFFFD'

/-- A character begun: the bytes still due after the next one, the bounds on the next one,
and the bits so far. -/
structure Partial where
  due : Nat
  low : UInt8
  high : UInt8
  bits : Nat

namespace Partial

/-- What the first byte of a character of several bytes begins. -/
def begin? (b : UInt8) : Option Partial :=
  if 0xC2 ≤ b && b ≤ 0xDF then some ⟨0, 0x80, 0xBF, b.toNat - 0xC0⟩
  else if b == 0xE0 then some ⟨1, 0xA0, 0xBF, 0⟩
  else if b == 0xED then some ⟨1, 0x80, 0x9F, 0xD⟩
  else if 0xE1 ≤ b && b ≤ 0xEF then some ⟨1, 0x80, 0xBF, b.toNat - 0xE0⟩
  else if b == 0xF0 then some ⟨2, 0x90, 0xBF, 0⟩
  else if 0xF1 ≤ b && b ≤ 0xF3 then some ⟨2, 0x80, 0xBF, b.toNat - 0xF0⟩
  else if b == 0xF4 then some ⟨2, 0x80, 0x8F, 4⟩
  else none

def admits (p : Partial) (b : UInt8) : Bool := p.low ≤ b && b ≤ p.high

def bitsWith (p : Partial) (b : UInt8) : Nat := p.bits * 64 + b.toNat % 64

end Partial

/-- The characters that a byte completes where a character may begin, and what it begins. -/
def first (b : UInt8) : List Char × Option Partial :=
  if b < 0x80 then ([Char.ofNat b.toNat], none)
  else match Partial.begin? b with
    | some p => ([], some p)
    | none => ([replacement], none)

/-- The characters that one more byte completes, and the character it leaves begun. -/
def step : Option Partial → UInt8 → List Char × Option Partial
  | none, b => first b
  | some p, b =>
    if p.admits b then
      match p.due with
      | 0 => ([Char.ofNat (p.bitsWith b)], none)
      | due + 1 => ([], some ⟨due, 0x80, 0xBF, p.bitsWith b⟩)
    else (replacement :: (first b).1, (first b).2)

/-- The characters of a text, given the character that was begun before it. -/
def decodeFrom : Option Partial → Bytes → List Char
  | none, [] => []
  | some _, [] => [replacement]
  | p, b :: rest => (step p b).1 ++ decodeFrom (step p b).2 rest

/-- The text that bytes spell, with U+FFFD wherever they spell none. -/
def decode (bytes : Bytes) : String := String.ofList (decodeFrom none bytes)

end Text
end RemoteFramebuffer
