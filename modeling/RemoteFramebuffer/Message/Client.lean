/-
# `RemoteFramebuffer.Message.Client` — what a client sends once a session is open

A message is a type byte and a body.  `ClientMessage.encode` writes both;
`ClientMessage.readBody` reads the body of a type byte already seen.  A type that is
not in the table cannot be skipped, so it is an error.
-/
import RemoteFramebuffer.Handshake.Error
import RemoteFramebuffer.Message.Field

namespace RemoteFramebuffer

inductive ClientMessage
  | setPixelFormat (format : PixelFormat)
  | setEncodings (encodings : List Int32)
  | framebufferUpdateRequest (incremental : Bool) (area : Area)
  | keyEvent (down : Bool) (key : UInt32)
  | pointerEvent (buttons : UInt8) (x y : UInt16)
  | cutText (text : Bytes)
  | enableContinuousUpdates (enable : Bool) (area : Area)
  | fence (body : Fence)
  | setDesktopSize (width height : UInt16) (screens : List Screen)
  | qemuExtendedKeyEvent (subType : UInt8) (down : Bool) (keysym keycode : UInt32)
deriving DecidableEq, Repr

namespace ClientMessage

def code : ClientMessage → UInt8
  | .setPixelFormat _ => 0
  | .setEncodings _ => 2
  | .framebufferUpdateRequest _ _ => 3
  | .keyEvent _ _ => 4
  | .pointerEvent _ _ _ => 5
  | .cutText _ => 6
  | .enableContinuousUpdates _ _ => 150
  | .fence _ => 248
  | .setDesktopSize _ _ _ => 251
  | .qemuExtendedKeyEvent _ _ _ _ => 255

def fullUpdateRequest (incremental : Bool) (width height : UInt16) : ClientMessage :=
  .framebufferUpdateRequest incremental ⟨0, 0, width, height⟩

/-- The format that the message asks for, if it asks for one. -/
def pixelFormatChange : ClientMessage → Option PixelFormat
  | .setPixelFormat format => some format
  | _ => none

/-! ## Wire form -/

def encodeBody : ClientMessage → Bytes
  | .setPixelFormat format => Bytes.zeros 3 ++ format.encode
  | .setEncodings encodings =>
    Bytes.zeros 1 ++ Bytes.ofNat 2 encodings.length ++ encodings.flatMap Bytes.ofInt32
  | .framebufferUpdateRequest incremental area => Bytes.ofBool incremental ++ area.encode
  | .keyEvent down key => Bytes.ofBool down ++ Bytes.zeros 2 ++ Bytes.ofUInt32 key
  | .pointerEvent buttons x y => [buttons] ++ Bytes.ofUInt16 x ++ Bytes.ofUInt16 y
  | .cutText text => CutText.encode text
  | .enableContinuousUpdates enable area => Bytes.ofBool enable ++ area.encode
  | .fence body => body.encode
  | .setDesktopSize width height screens =>
    Bytes.zeros 1 ++ Bytes.ofUInt16 width ++ Bytes.ofUInt16 height
      ++ Bytes.ofNat 1 screens.length ++ Bytes.zeros 1 ++ screens.flatMap Screen.encode
  | .qemuExtendedKeyEvent subType down keysym keycode =>
    [subType] ++ Bytes.ofUInt16 (if down then 1 else 0)
      ++ Bytes.ofUInt32 keysym ++ Bytes.ofUInt32 keycode

def encode (m : ClientMessage) : Bytes := m.code :: m.encodeBody

def readBody? : UInt8 → Option (Reader WireError ClientMessage)
  | 0 => some do
    Reader.skip 3
    return .setPixelFormat (← PixelFormat.read)
  | 2 => some do
    Reader.skip 1
    let count ← Reader.u16
    return .setEncodings (← Reader.values Reader.i32 count.toNat)
  | 3 => some do
    let incremental ← Reader.flag
    return .framebufferUpdateRequest incremental (← Area.read)
  | 4 => some do
    let down ← Reader.flag
    Reader.skip 2
    return .keyEvent down (← Reader.u32)
  | 5 => some do
    let buttons ← Reader.u8
    let x ← Reader.u16
    let y ← Reader.u16
    return .pointerEvent buttons x y
  | 6 => some do return .cutText (← CutText.read)
  | 150 => some do
    let enable ← Reader.flag
    return .enableContinuousUpdates enable (← Area.read)
  | 248 => some do return .fence (← Fence.read)
  | 251 => some do
    Reader.skip 1
    let width ← Reader.u16
    let height ← Reader.u16
    let count ← Reader.u8
    Reader.skip 1
    return .setDesktopSize width height (← Reader.values Screen.read count.toNat)
  | 255 => some do
    let subType ← Reader.u8
    let down ← Reader.u16
    let keysym ← Reader.u32
    let keycode ← Reader.u32
    return .qemuExtendedKeyEvent subType (down != 0) keysym keycode
  | _ => none

/-- Reads the body of a message of a known type. -/
def readBody (code : UInt8) : Reader ProtocolError ClientMessage :=
  match readBody? code with
  | some body => body.mapError .io
  | none => Reader.fail (.unsupportedMessage code)

def read : Reader ProtocolError ClientMessage := do
  let code ← Reader.u8.mapError .io
  readBody code

end ClientMessage

end RemoteFramebuffer
