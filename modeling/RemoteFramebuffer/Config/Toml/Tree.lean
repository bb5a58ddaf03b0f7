/-
# `RemoteFramebuffer.Config.Toml.Tree` — tables as they grow

A document fills a tree of tables, one entry at a time.  A table knows how it came about:
by a header of its own, on the way to another header, or on the way to a dotted key.
That decides who may still add to it, and nothing is ever defined twice.
-/
import RemoteFramebuffer.Config.Value

namespace RemoteFramebuffer
namespace Toml

open Config

inductive Origin
  | header
  | implied
  | dotted
deriving DecidableEq, Repr

inductive Node
  /-- A value, which is complete. -/
  | leaf (v : Value)
  | table (origin : Origin) (entries : List (String × Node))
  /-- The tables of a repeated header, the last first. -/
  | tables (rows : List (List (String × Node)))

abbrev Entries := List (String × Node)

namespace Entries

/-- The entries with another node under a key that is there. -/
def replace (es : Entries) (k : String) (n : Node) : Entries :=
  es.map fun (k', n') => if k' == k then (k, n) else (k', n')

/-- Changes the table at the end of a path, given its origin; tables on the way come about as
needed.  Dotted paths do not lead into tables that have headers. -/
def alter (isDotted : Bool) (f : Origin → Entries → Option Entries) :
    (path : List String) → Origin → Entries → Option Entries
  | [], origin, es => f origin es
  | k :: path, _, es =>
    match es.lookup k with
    | none =>
      let origin : Origin := if isDotted then .dotted else .implied
      (alter isDotted f path origin []).map fun sub => es ++ [(k, .table origin sub)]
    | some (.leaf _) => none
    | some (.table origin sub) =>
      if isDotted && origin = .header then none
      else (alter isDotted f path origin sub).map fun sub => es.replace k (.table origin sub)
    | some (.tables []) => none
    | some (.tables (last :: earlier)) =>
      (alter isDotted f path .header last).map fun last => es.replace k (.tables (last :: earlier))

/-- Adds a value under a new key of a table that the path may add to. -/
def insert (path : List String) (k : String) (v : Value) (origin : Origin) (es : Entries) :
    Option Entries :=
  alter true (fun target es =>
    if !path.isEmpty && target != .dotted then none
    else if (es.lookup k).isSome then none
    else some (es ++ [(k, .leaf v)])) path origin es

def define (path : List String) (k : String) (es : Entries) : Option Entries :=
  alter false (fun _ es =>
    match es.lookup k with
    | none => some (es ++ [(k, .table .header [])])
    | some (.table .implied sub) => some (es.replace k (.table .header sub))
    | some _ => none) path .header es

/-- Begins one more table of a repeated header. -/
def openRow (path : List String) (k : String) (es : Entries) : Option Entries :=
  alter false (fun _ es =>
    match es.lookup k with
    | none => some (es ++ [(k, .tables [[]])])
    | some (.tables rows) => some (es.replace k (.tables ([] :: rows)))
    | some _ => none) path .header es

end Entries

/-! ## Finished trees -/

mutual

def Node.toValue : Node → Value
  | .leaf v => v
  | .table _ es => .table (entriesToValues es)
  | .tables rows => .list (rowsToValues rows).reverse

def entriesToValues : List (String × Node) → List (String × Value)
  | [] => []
  | (k, n) :: es => (k, n.toValue) :: entriesToValues es

def rowsToValues : List (List (String × Node)) → List Value
  | [] => []
  | es :: rows => .table (entriesToValues es) :: rowsToValues rows

end

end Toml
end RemoteFramebuffer
