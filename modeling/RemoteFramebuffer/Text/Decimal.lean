/-
# `RemoteFramebuffer.Text.Decimal` — reading an unsigned decimal number

A number is one or more ASCII digits, after one plus sign at most, and may be bounded.
The first character at which reading cannot go on decides the error.
-/

namespace RemoteFramebuffer
namespace Decimal

inductive Error
  | empty
  | invalidDigit
  | overflow
deriving DecidableEq, Repr

def Error.message : Error → String
  | .empty => "cannot parse integer from empty string"
  | .invalidDigit => "invalid digit found in string"
  | .overflow => "number too large to fit in target type"

def digit? (c : Char) : Option Nat :=
  if '0' ≤ c && c ≤ '9' then some (c.toNat - '0'.toNat) else none

/-- The number that digits spell after those of `value`. -/
def digitsFrom (limit value : Nat) : List Char → Except Error Nat
  | [] => .ok value
  | c :: rest =>
    match digit? c with
    | none => .error .invalidDigit
    | some d =>
      if limit < value * 10 + d then .error .overflow
      else digitsFrom limit (value * 10 + d) rest

def parse (limit : Nat) : List Char → Except Error Nat
  | [] => .error .empty
  | '+' :: rest => if rest.isEmpty then .error .invalidDigit else digitsFrom limit 0 rest
  | text => digitsFrom limit 0 text

end Decimal
end RemoteFramebuffer
