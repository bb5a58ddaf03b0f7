/-
# `RemoteFramebuffer.Config.Value` — settings before they have a meaning

A settings file and a settings message both come to a tree of values.  Reading settings
from the tree is strict about types and ranges and lenient about names: what nobody asks
for is ignored.  A group of settings may also be a list, in the order of their names.
-/

namespace RemoteFramebuffer
namespace Config

inductive Value
  | null
  | text (s : String)
  | number (n : Int)
  /-- A value that no setting takes: a truth value or a fraction. -/
  | other
  | list (items : List Value)
  | table (entries : List (String × Value))
deriving Inhabited

namespace Value

variable {α : Type}

def text? : Value → Option String
  | .text s => some s
  | _ => none

def number? (low high : Int) : Value → Option Int
  | .number n => if low ≤ n && n ≤ high then some n else none
  | _ => none

def u8? (v : Value) : Option UInt8 := (v.number? 0 255).map fun n => UInt8.ofNat n.toNat

def u16? (v : Value) : Option UInt16 := (v.number? 0 65535).map fun n => UInt16.ofNat n.toNat

def u64? (v : Value) : Option UInt64 :=
  (v.number? 0 18446744073709551615).map fun n => UInt64.ofNat n.toNat

def i32? (v : Value) : Option Int32 := (v.number? (-2147483648) 2147483647).map Int32.ofInt

def list? (item : Value → Option α) : Value → Option (List α)
  | .list items => items.mapM item
  | _ => none

def size : Value → Nat
  | .list items => items.length
  | _ => 0

end Value

abbrev Group := List (String × Value)

namespace Group

variable {α : Type}

/-- A table is a group as it stands; a list gives its items to the names in order. -/
def ofValue? (names : List String) : Value → Option Group
  | .table entries => some entries
  | .list items => some (names.zip items)
  | _ => none

def required (g : Group) (name : String) (read : Value → Option α) : Option α :=
  (g.lookup name).bind read

/-- A setting that has a value when it is not there. -/
def orElse (g : Group) (name : String) (read : Value → Option α) (standard : α) : Option α :=
  match g.lookup name with
  | none => some standard
  | some v => read v

def optional (g : Group) (name : String) (read : Value → Option α) : Option (Option α) :=
  match g.lookup name with
  | none | some .null => some none
  | some v => (read v).map some

end Group

end Config
end RemoteFramebuffer
