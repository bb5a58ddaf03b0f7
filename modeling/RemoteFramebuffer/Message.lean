/-
# `RemoteFramebuffer.Message` — what a server sends, and a message of either side

A message is a type byte and a body.  The rectangles of an update are read in a pixel
format and must have encodings from a set; nothing else depends on the session.

Clients and servers have tables of their own.  Where a stream or a queue carries one or
the other, it carries a `Message`.
-/
import RemoteFramebuffer.Encoding.Update
import RemoteFramebuffer.Message.Client
import RemoteFramebuffer.Session.Error

namespace RemoteFramebuffer

inductive ServerMessage
  | framebufferUpdate (update : FramebufferUpdate)
  | setColorMapEntries (first : UInt16) (colors : List Color)
  | bell
  | cutText (text : Bytes)
  | endOfContinuousUpdates
  | fence (body : Fence)
deriving DecidableEq, Repr

namespace ServerMessage

def code : ServerMessage → UInt8
  | .framebufferUpdate _ => 0
  | .setColorMapEntries _ _ => 1
  | .bell => 2
  | .cutText _ => 3
  | .endOfContinuousUpdates => 150
  | .fence _ => 248

/-! ## Wire form -/

def encodeBody : ServerMessage → Bytes
  | .framebufferUpdate update => update.encodeBody
  | .setColorMapEntries first colors =>
    Bytes.zeros 1 ++ Bytes.ofUInt16 first ++ Bytes.ofNat 2 colors.length ++ colors.flatMap Color.encode
  | .bell | .endOfContinuousUpdates => []
  | .cutText text => CutText.encode text
  | .fence body => body.encode

def encode (m : ServerMessage) : Bytes := m.code :: m.encodeBody

def readColorMapEntries : Reader WireError ServerMessage := do
  Reader.skip 1
  let first ← Reader.u16
  let count ← Reader.u16
  return .setColorMapEntries first (← Reader.values Color.read count.toNat)

def readBody (format : PixelFormat) (accepted : EncodingSet) (code : UInt8) :
    Reader SessionError ServerMessage :=
  match code with
  | 0 => .framebufferUpdate <$> (FramebufferUpdate.readBody format accepted).mapError .ofDecode
  | 1 => readColorMapEntries.mapError .transport
  | 2 => pure .bell
  | 3 => .cutText <$> CutText.read.mapError .transport
  | 150 => pure .endOfContinuousUpdates
  | 248 => .fence <$> Fence.read.mapError .transport
  | code => Reader.fail (.protocol (.unsupportedMessage code))

end ServerMessage

/-! ## Either side -/

inductive Message
  | client (m : ClientMessage)
  | server (m : ServerMessage)
deriving DecidableEq, Repr

namespace Message

def code : Message → UInt8
  | .client m => m.code
  | .server m => m.code

def encode : Message → Bytes
  | .client m => m.encode
  | .server m => m.encode

end Message

end RemoteFramebuffer
