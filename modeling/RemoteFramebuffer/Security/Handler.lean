/-
# `RemoteFramebuffer.Security.Handler` — how a peer proves who it is

One handler serves both ends: it holds what the initiator presents and what the
acceptor compares with.

A password is not sent but answers a challenge.  The acceptor sends sixteen bytes and the
initiator sends them back encrypted, eight bytes at a time, under a key of the password's
first eight bytes.  Each key byte is used with its bits in reverse order.  Which cipher it
is makes no difference to how the two talk, and is left to a `BlockCipher`.
-/
import RemoteFramebuffer.Text.Utf8

namespace RemoteFramebuffer

/-! ## Challenges -/

/-- A cipher of blocks of eight bytes under keys of eight bytes. -/
class BlockCipher where
  encrypt (key block : Bytes) : Bytes
  length_encrypt (key block : Bytes) : (encrypt key block).length = 8

namespace Challenge

def size : Nat := 16

def reverseBits (b : UInt8) : UInt8 :=
  UInt8.ofNat (((List.range 8).map b.toNat.testBit).foldl (fun n bit => 2 * n + bit.toNat) 0)

/-- The key of a password; one of fewer than eight bytes is filled up with zeros. -/
def key (password : Bytes) : Bytes :=
  let used := password.take 8
  (used ++ Bytes.zeros (8 - used.length)).map reverseBits

def response [BlockCipher] (password challenge : Bytes) : Bytes :=
  BlockCipher.encrypt (key password) (challenge.take 8)
    ++ BlockCipher.encrypt (key password) (challenge.drop 8)

end Challenge

/-! ## Handlers -/

inductive SecurityHandler
  | none
  | vncAuth (password : Bytes)
  | vencryptPlain (username password : Bytes)
deriving DecidableEq, Repr

namespace SecurityHandler

def code : SecurityHandler → UInt8
  | .none => 1
  | .vncAuth _ => 2
  | .vencryptPlain _ _ => 19

/-- The VeNCrypt sub-type of a plain user name and password. -/
def plainSubType : UInt32 := 256

def subType? : SecurityHandler → Option UInt32
  | .vencryptPlain _ _ => some plainSubType
  | _ => Option.none

def label : SecurityHandler → String
  | .none => "None"
  | .vncAuth _ => "VncAuth"
  | .vencryptPlain username _ => s!"VeNCryptPlain({Text.decode username})"

end SecurityHandler

end RemoteFramebuffer
