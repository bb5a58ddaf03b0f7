/-
# `RemoteFramebuffer.Config.Toml` — settings written in TOML

A document is a line of keys and values after another, under headers that say which
table they belong to.  `Toml.parse` gives the tree of its values, or nothing if any rule
of the language is broken.
-/
import RemoteFramebuffer.Config.Toml.Number
import RemoteFramebuffer.Config.Toml.Tree

namespace RemoteFramebuffer
namespace Toml

open Scan Config

/-! ## Values -/

/-- What is between two brackets: items with commas between them, and perhaps one after the
last. -/
def array (item : Scan Value) : Scan Value := fun s => do
  let (_, s) ← exactly '[' s
  let spaced : Scan Value := fun s => (item (skipLines s)).map fun (v, rest) => (v, skipLines rest)
  let (items, s) :=
    match spaced s with
    | none => ([], s)
    | some (first, s) =>
      let (more, s) := many (fun s => (exactly ',' s).bind fun (_, s) => spaced s) s
      (first :: more, skipIf (exactly ',') s)
  let (_, s) ← exactly ']' (skipLines s)
  some (.list items, s)

/-- A key and a value with an equals sign between them. -/
def pair (item : Scan Value) : Scan ((List String × String) × Value) := fun s => do
  let (k, s) ← key s
  let (_, s) ← exactly '=' s
  let (v, s) ← item (skipBlanks s)
  some ((k, v), skipBlanks s)

def tableOfPairs (pairs : List ((List String × String) × Value)) : Option Value :=
  (pairs.foldlM (fun es ((path, k), v) => Entries.insert path k v .header es) ([] : Entries)).map
    fun es => .table (entriesToValues es)

/-- What is between two braces: pairs with commas between them, on one line. -/
def inlineTable (item : Scan Value) : Scan Value := fun s => do
  let (_, s) ← exactly '{' s
  let (pairs, s) :=
    match pair item s with
    | none => ([], s)
    | some (first, s) =>
      let (more, s) := many (fun s => (exactly ',' s).bind fun (_, s) => pair item s) s
      (first :: more, s)
  let (_, s) ← exactly '}' (skipBlanks s)
  let v ← tableOfPairs pairs
  some (v, s)

/-- A value with brackets nested no deeper than so many times. -/
def value : (depth : Nat) → Scan Value
  | 0, _ => none
  | depth + 1, s =>
    match s with
    | '"' :: _ | '\'' :: _ => (string s).map fun (run, rest) => (.text (String.ofList run), rest)
    | '[' :: _ => if depth = 0 then none else array (value depth) s
    | '{' :: _ => if depth = 0 then none else inlineTable (value depth) s
    | 't' :: _ => (word ['t', 'r', 'u', 'e'] s).map fun (_, rest) => (.other, rest)
    | 'f' :: _ => (word ['f', 'a', 'l', 's', 'e'] s).map fun (_, rest) => (.other, rest)
    | _ => number s

/-! ## Documents -/

inductive Line
  | blank
  | pair (path : List String) (k : String) (v : Value)
  | header (path : List String) (k : String)
  | rowHeader (path : List String) (k : String)

def header : Scan Line
  | '[' :: '[' :: s => do
    let ((path, k), s) ← key s
    let (_, s) ← word [']', ']'] s
    some (.rowHeader path k, s)
  | '[' :: s => do
    let ((path, k), s) ← key s
    let (_, s) ← exactly ']' s
    some (.header path k, s)
  | _ => none

def line : Scan Line := fun s =>
  let s := skipBlanks s
  match s with
  | [] | '#' :: _ | '\n' :: _ | '\r' :: _ => (lineEnd s).map fun (_, rest) => (.blank, rest)
  | '[' :: _ => do
    let (l, s) ← header s
    let (_, rest) ← lineEnd s
    some (l, rest)
  | _ => do
    let (((path, k), v), s) ← Toml.pair (value maxDepth) s
    let (_, rest) ← lineEnd s
    some (.pair path k v, rest)

/-- A document as far as it was read: its tree, and the table that pairs belong to. -/
structure Draft where
  entries : Entries
  current : List String

namespace Draft

def add (d : Draft) : Line → Option Draft
  | .blank => some d
  | .pair path k v =>
    (Entries.alter false (Entries.insert path k v) d.current .header d.entries).map
      fun entries => { d with entries }
  | .header path k => (d.entries.define path k).map fun entries => ⟨entries, path ++ [k]⟩
  | .rowHeader path k => (d.entries.openRow path k).map fun entries => ⟨entries, path ++ [k]⟩

/-- Reads the lines that are left, at most so many. -/
def addLines : (limit : Nat) → Draft → List Char → Option Draft
  | 0, d, s => if s.isEmpty then some d else none
  | limit + 1, d, s =>
    if s.isEmpty then some d
    else match line s with
      | none => none
      | some (l, rest) => (d.add l).bind fun d => addLines limit d rest

end Draft

/-- The values of a document; a byte order mark at its start is no part of it. -/
def parse (text : String) : Option Value :=
  let s := skipIf (exactly '\uFEFF') text.toList
  (Draft.addLines s.length ⟨[], []⟩ s).map fun d => .table (entriesToValues d.entries)

end Toml
end RemoteFramebuffer
