/-
# `RemoteFramebuffer.Config.Toml.Number` — numbers and dates

A number is an integer of 64 bits, in one of four bases, or a fraction.  A date, a time,
or both together must be possible ones.  Only integers have a value here, since no
setting takes anything else; the rest is checked and then void.
-/
import RemoteFramebuffer.Config.Toml.Scan
import RemoteFramebuffer.Config.Value

namespace RemoteFramebuffer
namespace Toml

open Scan Config

/-! ## Digits -/

def isDigit (c : Char) : Bool := '0' ≤ c && c ≤ '9'

/-- Digits of a kind with single underscores between them. -/
def digits (p : Char → Bool) : Scan (List Char) := fun s => do
  let (first, s) ← one p s
  let (more, s) := many (orTry (one p) fun s => (exactly '_' s).bind fun (_, s) => one p s) s
  some (first :: more, s)

def spelled (base : Nat) (run : List Char) : Nat :=
  run.foldl (fun n c => base * n + hexDigit c) 0

/-- A sign, if there is one: whether it is a minus. -/
def sign : List Char → Bool × List Char
  | '+' :: rest => (false, rest)
  | '-' :: rest => (true, rest)
  | s => (false, s)

/-- Decimal digits, of which a zero can be first only if it is alone. -/
def wholeDigits : Scan (List Char)
  | '0' :: rest => some (['0'], rest)
  | s => digits isDigit s

/-! ## Numbers -/

/-- An integer within 64 bits. -/
def within64 (n : Int) (rest : List Char) : Option (Value × List Char) :=
  if -9223372036854775808 ≤ n ∧ n ≤ 9223372036854775807 then some (.number n, rest) else none

def basedInteger (base : Nat) (p : Char → Bool) : Scan Value := fun s => do
  let (run, rest) ← digits p s
  within64 (spelled base run) rest

def integer : Scan Value
  | '0' :: 'x' :: rest => basedInteger 16 isHexDigit rest
  | '0' :: 'o' :: rest => basedInteger 8 (fun c => '0' ≤ c && c ≤ '7') rest
  | '0' :: 'b' :: rest => basedInteger 2 (fun c => c == '0' || c == '1') rest
  | s => do
    let (isNegative, s) := sign s
    let (run, rest) ← wholeDigits s
    let n : Int := spelled 10 run
    within64 (if isNegative then -n else n) rest

/-- The least number that is too large for a binary fraction of 64 bits. -/
def fractionLimit : Nat := 1 <<< 1024 - 1 <<< 970

/-- Whether decimal digits with an exponent are too large for a binary fraction. -/
def isTooLarge (run : List Char) (exponent : Int) : Bool :=
  let n := spelled 10 run
  if n = 0 ∨ run.length + exponent < 300 then false
  else if 400 ≤ exponent then true
  else if 0 ≤ exponent then fractionLimit ≤ n * Nat.pow 10 exponent.toNat
  else fractionLimit * Nat.pow 10 (-exponent).toNat ≤ n

def exponent : Scan Int := fun s => do
  let (_, s) ← one (fun c => c == 'e' || c == 'E') s
  let (isNegative, s) := sign s
  let (run, rest) ← digits isDigit s
  let n : Int := spelled 10 run
  some (if isNegative then -n else n, rest)

def places : Scan (List Char) := fun s => (exactly '.' s).bind fun (_, s) => digits isDigit s

def fractionTail : Scan (List Char × Int) :=
  orTry (fun s => (exponent s).map fun (e, rest) => (([], e), rest))
    fun s => (places s).map fun (run, rest) =>
      match exponent rest with
      | some (e, rest) => ((run, e), rest)
      | none => ((run, 0), rest)

def fraction : Scan Value := fun s => do
  let (isNegative, s) := sign s
  let (whole, s) ← wholeDigits s
  let ((run, e), rest) ← fractionTail s
  if !isNegative && isTooLarge (whole ++ run) (e - run.length) then none else some (.other, rest)

def specialFraction : Scan Value := fun s =>
  let s := (sign s).2
  (orTry (word ['i', 'n', 'f']) (word ['n', 'a', 'n']) s).map fun (_, rest) => (.other, rest)

/-! ## Dates and times -/

/-- A number of exactly so many digits between two bounds. -/
def bounded (count low high : Nat) : Scan Nat := fun s =>
  let run := s.take count
  let n := spelled 10 run
  if run.length = count ∧ run.all isDigit ∧ low ≤ n ∧ n ≤ high then some (n, s.drop count) else none

def isLeapYear (year : Nat) : Bool := year % 4 == 0 && (year % 100 != 0 || year % 400 == 0)

def daysIn (year month : Nat) : Nat :=
  if month = 2 then (if isLeapYear year then 29 else 28)
  else if month ∈ [4, 6, 9, 11] then 30
  else 31

def date : Scan Unit := fun s => do
  let (year, s) ← bounded 4 0 9999 s
  let (_, s) ← exactly '-' s
  let (month, s) ← bounded 2 1 12 s
  let (_, s) ← exactly '-' s
  let (day, s) ← bounded 2 1 31 s
  if day ≤ daysIn year month then some ((), s) else none

def time : Scan Unit := fun s => do
  let (_, s) ← bounded 2 0 23 s
  let (_, s) ← exactly ':' s
  let (_, s) ← bounded 2 0 59 s
  let (_, s) ← exactly ':' s
  let (_, s) ← bounded 2 0 60 s
  some ((), skipIf (fun s => (exactly '.' s).bind fun (_, s) =>
    (one isDigit s).map fun (_, rest) => ((), rest.dropWhile isDigit)) s)

def offset : Scan Unit := fun s =>
  match s with
  | 'Z' :: rest | 'z' :: rest => some ((), rest)
  | c :: rest =>
    if c == '+' || c == '-' then do
      let (_, s) ← bounded 2 0 23 rest
      let (_, s) ← exactly ':' s
      let (_, s) ← bounded 2 0 59 s
      some ((), s)
    else none
  | [] => none

def timeOfDay : Scan Unit := fun s => do
  let (_, s) ← one (fun c => c == 'T' || c == 't' || c == ' ') s
  let (_, s) ← time s
  some ((), skipIf offset s)

/-- A date, a time, or both; as a group of settings it is empty. -/
def moment : Scan Value := fun s =>
  (orTry (fun s => (date s).map fun (_, rest) => ((), skipIf timeOfDay rest)) time s).map
    fun (_, rest) => (.table [], rest)

def number : Scan Value := orTry moment (orTry fraction (orTry specialFraction integer))

end Toml
end RemoteFramebuffer
