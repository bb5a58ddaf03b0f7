/-
# `RemoteFramebuffer.Config.Toml.Scan` — taking a text apart from the left

A scanner takes something off the front of a text and leaves the rest, or refuses.
Spaces, comments, line ends, strings and keys of TOML are scanned here.
-/

namespace RemoteFramebuffer
namespace Toml

/-- What is at the front of a text, and the rest. -/
abbrev Scan (α : Type) := List Char → Option (α × List Char)

namespace Scan

variable {α β : Type}

def one (p : Char → Bool) : Scan Char
  | c :: rest => if p c then some (c, rest) else none
  | [] => none

def exactly (c : Char) : Scan Unit := fun s => (one (· == c) s).map fun (_, rest) => ((), rest)

def word : List Char → Scan Unit
  | [], s => some ((), s)
  | c :: cs, s => (exactly c s).bind fun (_, rest) => word cs rest

/-- As many items as there are, up to a limit. -/
def upTo (item : Scan α) : (limit : Nat) → List Char → List α × List Char
  | 0, s => ([], s)
  | limit + 1, s =>
    match item s with
    | none => ([], s)
    | some (a, rest) =>
      let (more, rest) := upTo item limit rest
      (a :: more, rest)

def many (item : Scan α) (s : List Char) : List α × List Char := upTo item s.length s

/-- One or the other, the first for preference. -/
def orTry (first second : Scan α) : Scan α := fun s => (first s).orElse fun _ => second s

/-- Whether something is at the front, and the rest. -/
def skipIf (item : Scan α) (s : List Char) : List Char :=
  match item s with
  | some (_, rest) => rest
  | none => s

end Scan

open Scan

/-! ## Space and comments -/

def isBlank (c : Char) : Bool := c == ' ' || c == '\t'

/-- Whether a character may stand in a line: no control character but the tab. -/
def isInline (c : Char) : Bool := c == '\t' || (0x20 ≤ c.toNat && c.toNat != 0x7F)

def skipBlanks (s : List Char) : List Char := s.dropWhile isBlank

def newline : Scan Unit
  | '\n' :: rest => some ((), rest)
  | '\r' :: '\n' :: rest => some ((), rest)
  | _ => none

def comment : Scan Unit
  | '#' :: rest => some ((), rest.dropWhile isInline)
  | _ => none

/-- The end of a line or of the text, after blanks and a comment. -/
def lineEnd : Scan Unit := fun s =>
  let s := skipIf comment (skipBlanks s)
  if s.isEmpty then some ((), s) else newline s

def skipLines (s : List Char) : List Char :=
  skipBlanks (many (fun s => newline (skipIf comment (skipBlanks s))) s).2

/-! ## Strings -/

def isHexDigit (c : Char) : Bool :=
  ('0' ≤ c && c ≤ '9') || ('a' ≤ c && c ≤ 'f') || ('A' ≤ c && c ≤ 'F')

def hexDigit (c : Char) : Nat :=
  if c ≤ '9' then c.toNat - '0'.toNat
  else if c ≤ 'F' then c.toNat - 'A'.toNat + 10
  else c.toNat - 'a'.toNat + 10

/-- A character by the number that so many hexadecimal digits spell. -/
def codePoint (digits : Nat) : Scan Char := fun s =>
  let (run, rest) := (s.take digits, s.drop digits)
  let value := run.foldl (fun n c => 16 * n + hexDigit c) 0
  if run.length = digits ∧ run.all isHexDigit ∧ value.isValidChar then some (Char.ofNat value, rest)
  else none

def escaped : Scan Char
  | '\\' :: 'b' :: rest => some ('\x08', rest)
  | '\\' :: 't' :: rest => some ('\t', rest)
  | '\\' :: 'n' :: rest => some ('\n', rest)
  | '\\' :: 'f' :: rest => some ('\x0c', rest)
  | '\\' :: 'r' :: rest => some ('\r', rest)
  | '\\' :: '"' :: rest => some ('"', rest)
  | '\\' :: '\\' :: rest => some ('\\', rest)
  | '\\' :: 'u' :: rest => codePoint 4 rest
  | '\\' :: 'U' :: rest => codePoint 8 rest
  | _ => none

/-- A character that stands for itself between double quotes. -/
def plain : Scan Char := one fun c => isInline c && c != '"' && c != '\\'

/-- A character that stands for itself between single quotes. -/
def literal : Scan Char := one fun c => isInline c && c != '\''

def lineString (quote : Char) (item : Scan Char) : Scan (List Char) := fun s => do
  let (_, s) ← exactly quote s
  let (run, s) := many item s
  let (_, s) ← exactly quote s
  some (run, s)

/-- A backslash at the end of a line, with the white space that follows. -/
def lineContinuation : Scan (List Char)
  | '\\' :: rest => do
    let (_, rest) ← newline (skipBlanks rest)
    some ([], skipBlanks (many (fun s => newline (skipBlanks s)) rest).2)
  | _ => none

/-- One or two quotes that do not end the string. -/
def looseQuotes (quote : Char) : Scan (List Char)
  | a :: b :: c :: rest =>
    if a != quote then none
    else if b != quote then some ([a], b :: c :: rest)
    else if c != quote then some ([a, b], c :: rest)
    else none
  | [a, b] => if a == quote && b != quote then some ([a], [b]) else none
  | _ => none

/-- Three quotes that end a string, after one or two that belong to it. -/
def closingQuotes (quote : Char) : Scan (List Char) := fun s =>
  let count := min (s.takeWhile (· == quote)).length 5
  if count < 3 then none else some (List.replicate (count - 3) quote, s.drop count)

/-- A string of several lines between triple quotes; a line end at its start is dropped. -/
def blockString (quote : Char) (item : Scan (List Char)) : Scan (List Char) := fun s => do
  let (_, s) ← word [quote, quote, quote] s
  let (runs, s) := many item (skipIf newline s)
  let (loose, s) ← closingQuotes quote s
  some (runs.flatten ++ loose, s)

/-- A scanner of one character as one of a run. -/
def single (item : Scan Char) : Scan (List Char) := fun s =>
  (item s).map fun (c, rest) => ([c], rest)

/-- A line end in a string of several lines; it counts as one character. -/
def innerNewline : Scan (List Char) := fun s => (newline s).map fun (_, rest) => (['\n'], rest)

def string : Scan (List Char) :=
  orTry (blockString '"'
      (orTry (single plain) (orTry lineContinuation (orTry (single escaped)
        (orTry innerNewline (looseQuotes '"'))))))
    (orTry (lineString '"' (orTry plain escaped))
      (orTry (blockString '\'' (orTry (single literal) (orTry innerNewline (looseQuotes '\''))))
        (lineString '\'' literal)))

/-! ## Keys -/

def isBareKey (c : Char) : Bool :=
  ('a' ≤ c && c ≤ 'z') || ('A' ≤ c && c ≤ 'Z') || ('0' ≤ c && c ≤ '9') || c == '_' || c == '-'

def simpleKey : Scan String := fun s =>
  match s with
  | '"' :: _ => (lineString '"' (orTry plain escaped) s).map fun (run, rest) => (String.ofList run, rest)
  | '\'' :: _ => (lineString '\'' literal s).map fun (run, rest) => (String.ofList run, rest)
  | _ =>
    let (run, rest) := many (one isBareKey) s
    if run.isEmpty then none else some (String.ofList run, rest)

/-- One part of a key with the blanks around it. -/
def spacedKey : Scan String := fun s =>
  (simpleKey (skipBlanks s)).map fun (part, rest) => (part, skipBlanks rest)

/-- Nothing is nested deeper than this. -/
def maxDepth : Nat := 80

/-- A key of parts between dots: the path to it, and its last part. -/
def key : Scan (List String × String) := fun s => do
  let (first, s) ← spacedKey s
  let (more, s) := many (fun s => (exactly '.' s).bind fun (_, s) => spacedKey s) s
  let parts := first :: more
  if parts.length < maxDepth then some ((parts.dropLast, parts.getLast?.getD ""), s) else none

end Toml
end RemoteFramebuffer
