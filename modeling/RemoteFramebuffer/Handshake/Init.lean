/-
# `RemoteFramebuffer.Handshake.Init` — versions first, the desktop last

The acceptor announces 3.8 and takes the initiator's version; the initiator echoes
whatever it is offered.  After the security step the initiator says whether it shares
the desktop and the acceptor describes it.
-/
import RemoteFramebuffer.Handshake.Exchange
import RemoteFramebuffer.Handshake.Version
import RemoteFramebuffer.Message.Field

namespace RemoteFramebuffer

structure Desktop where
  name : String
  width : UInt16
  height : UInt16
  format : PixelFormat
deriving DecidableEq, Repr

namespace Desktop

/-- The desktop of a server that was told nothing else. -/
def standard : Desktop := ⟨"Vprix VNC Proxy", 1024, 768, PixelFormat.rgb888⟩

instance : Inhabited Desktop := ⟨standard⟩

def encode (d : Desktop) : Bytes :=
  Bytes.ofUInt16 d.width ++ Bytes.ofUInt16 d.height ++ d.format.encode ++ Name.encode d.name

def read : Reader WireError Desktop := do
  let width ← Reader.u16
  let height ← Reader.u16
  let format ← PixelFormat.read
  let name ← Name.read
  return { name, width, height, format }

/-- The desktop of an Aten remote-management board: size and format as sent are void, and
twelve bytes follow the name. -/
def readAten : Reader WireError Desktop := do
  Reader.skip 4
  Reader.skip 16
  let name ← Name.read
  Reader.skip 12
  return { name, width := 800, height := 600, format := PixelFormat.aten }

end Desktop

namespace Handshake

def clientVersion : Exchange Version := do
  let raw ← Exchange.read (Reader.bytes Version.size)
  let version ← Exchange.ofExcept (Version.parse raw)
  Exchange.write version.bytes
  return version

def serverVersion : Exchange Version := do
  Exchange.write Version.v38.bytes
  let raw ← Exchange.read (Reader.bytes Version.size)
  Exchange.ofExcept (Version.parse raw)

/-- The initiator says whether others may stay connected. -/
def clientInit (shared : Bool) : Exchange Unit := Exchange.write (Bytes.ofBool shared)

def serverClientInit : Exchange Bool := Exchange.read Reader.flag

def serverInit (desktop : Desktop) : Exchange Unit := Exchange.write desktop.encode

def clientServerInit (aten : Bool) : Exchange Desktop :=
  Exchange.read (if aten then Desktop.readAten else Desktop.read)

end Handshake

end RemoteFramebuffer
