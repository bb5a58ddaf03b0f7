/-
# `RemoteFramebuffer.Handshake.Version` — the three protocol versions

A version is announced in twelve bytes, `RFB xxx.yyy` and a line feed.  Both numbers
are read as decimals; 3.3, 3.7 and 3.8 are the only ones that go on.
-/
import RemoteFramebuffer.Handshake.Error
import RemoteFramebuffer.Text.Decimal

namespace RemoteFramebuffer

inductive Version
  | v33
  | v37
  | v38
deriving DecidableEq, Repr, Inhabited

namespace Version

def size : Nat := 12

def bytes : Version → Bytes
  | .v33 => Bytes.ofString "RFB 003.003\n"
  | .v37 => Bytes.ofString "RFB 003.007\n"
  | .v38 => Bytes.ofString "RFB 003.008\n"

def label : Version → String
  | .v33 => "3.3"
  | .v37 => "3.7"
  | .v38 => "3.8"

/-- The number in a part of an announcement, if it is one. -/
def part? (raw : Bytes) : Option Nat :=
  (Decimal.parse 4294967295 (raw.map fun b => Char.ofNat b.toNat)).toOption

def parse (raw : Bytes) : Except ProtocolError Version :=
  let framed := raw.take 4 = Bytes.ofString "RFB " ∧ raw[7]? = some 0x2E ∧ raw[11]? = some 0x0A
  if framed then
    match part? ((raw.drop 4).take 3), part? ((raw.drop 8).take 3) with
    | some 3, some 3 => .ok .v33
    | some 3, some 7 => .ok .v37
    | some 3, some 8 => .ok .v38
    | _, _ => .error (.unsupportedVersion raw)
  else .error (.unsupportedVersion raw)

/-- Whether the acceptor offers a list of security types to choose from. -/
def usesSecurityList : Version → Bool
  | .v33 => false
  | _ => true

/-- Whether a reason follows a failed security result. -/
def sendsFailureReason : Version → Bool
  | .v38 => true
  | _ => false

/-- Whether a security result follows authentication of a type. -/
def expectsSecurityResult (v : Version) (handler : SecurityHandler) : Bool :=
  v == .v38 || handler != .none

end Version

end RemoteFramebuffer
