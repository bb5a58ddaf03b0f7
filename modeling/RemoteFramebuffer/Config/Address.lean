/-
# `RemoteFramebuffer.Config.Address` — the address of a server, as people write it

A host alone has the standard port.  A number behind a colon is a port, or a display if
it is below 100, and displays have the ports from the standard one on.  A host with
colons of its own goes in brackets if a number follows it.
-/
import RemoteFramebuffer.Text.Decimal

namespace RemoteFramebuffer

structure Address where
  host : String
  port : UInt16
deriving DecidableEq, Repr

namespace Address

inductive Error
  | unterminated (address : String)
  | missingHost (address : String)
  | port (text : String) (cause : Decimal.Error)
deriving DecidableEq, Repr

def Error.message : Error → String
  | .unterminated address => "Unterminated IPv6 address: " ++ address
  | .missingHost address => "Missing host in server address: " ++ address
  | .port text cause => s!"Invalid port or display number: {text}: {cause.message}"

def standardPort : Nat := 5900

/-- Numbers below this are displays. -/
def displayLimit : Nat := 100

/-- What stands before the first of a certain character, and what behind it. -/
def splitAt (c : Char) (s : List Char) : Option (List Char × List Char) :=
  match s.dropWhile (· != c) with
  | [] => none
  | _ :: rest => some (s.takeWhile (· != c), rest)

/-- The host of an address and, if there is one, the number behind its colon. -/
def split (s : List Char) : Option (List Char × Option (List Char)) :=
  match s with
  | '[' :: rest =>
    (splitAt ']' rest).map fun (host, tail) =>
      match tail with
      | ':' :: number => (host, some number)
      | _ => (host, none)
  | _ =>
    if 1 < s.count ':' then some (s, none)
    else match splitAt ':' s with
      | some (host, number) => some (host, some number)
      | none => some (s, none)

def portOf (number : Nat) : Nat :=
  if number < displayLimit then standardPort + number else number

def parse (text : String) : Except Error Address :=
  match split text.toList with
  | none => .error (.unterminated text)
  | some (host, number) =>
    if host.isEmpty then .error (.missingHost text)
    else match number with
      | none => .ok ⟨String.ofList host, UInt16.ofNat standardPort⟩
      | some number =>
        match Decimal.parse 65535 number with
        | .ok n => .ok ⟨String.ofList host, UInt16.ofNat (portOf n)⟩
        | .error e => .error (.port (String.ofList number) e)

end Address

end RemoteFramebuffer
