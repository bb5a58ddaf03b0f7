/-
# `RemoteFramebuffer.Encoding.Basic` — the encodings that are known, and their numbers

A rectangle names its encoding by a signed number.  Negative numbers are pseudo-encodings:
some carry a rectangle that is no picture, the others only tell what a client can do.
-/

namespace RemoteFramebuffer

inductive Encoding
  | raw
  | copyRect
  | rre
  | coRre
  | hextile
  | zlib
  | tight
  | zrle
  | h264
  | tightPng
  | desktopSize
  | lastRect
  | pointerPos
  | cursor
  | xCursor
  | qemuExtendedKeyEvent
  | ledState
  | desktopName
  | extendedDesktopSize
  | fence
  | continuousUpdates
  | cursorWithAlpha
  | compressLevel (level : Fin 10)
  | qualityLevel (level : Fin 10)
deriving DecidableEq, Repr

namespace Encoding

def number : Encoding → Int
  | .raw => 0
  | .copyRect => 1
  | .rre => 2
  | .coRre => 4
  | .hextile => 5
  | .zlib => 6
  | .tight => 7
  | .zrle => 16
  | .h264 => 50
  | .tightPng => -260
  | .desktopSize => -223
  | .lastRect => -224
  | .pointerPos => -232
  | .cursor => -239
  | .xCursor => -240
  | .qemuExtendedKeyEvent => -258
  | .ledState => -261
  | .desktopName => -307
  | .extendedDesktopSize => -308
  | .fence => -312
  | .continuousUpdates => -313
  | .cursorWithAlpha => -314
  | .compressLevel level => level - 256
  | .qualityLevel level => level - 32

def wire (e : Encoding) : Int32 := Int32.ofInt e.number

def plain : List Encoding :=
  [.raw, .copyRect, .rre, .coRre, .hextile, .zlib, .tight, .zrle, .h264, .tightPng, .desktopSize,
   .lastRect, .pointerPos, .cursor, .xCursor, .qemuExtendedKeyEvent, .ledState, .desktopName,
   .extendedDesktopSize, .fence, .continuousUpdates, .cursorWithAlpha]

def known : List Encoding :=
  plain ++ (List.finRange 10).map .compressLevel ++ (List.finRange 10).map .qualityLevel

def ofWire? (value : Int32) : Option Encoding := known.find? (·.wire == value)

def label : Encoding → String
  | .raw => "Raw"
  | .copyRect => "CopyRect"
  | .rre => "RRE"
  | .coRre => "CoRRE"
  | .hextile => "Hextile"
  | .zlib => "Zlib"
  | .tight => "Tight"
  | .zrle => "ZRLE"
  | .h264 => "H264"
  | .tightPng => "TightPNG"
  | .desktopSize => "DesktopSize"
  | .lastRect => "LastRect"
  | .pointerPos => "PointerPos"
  | .cursor => "Cursor"
  | .xCursor => "XCursor"
  | .qemuExtendedKeyEvent => "QEMUExtendedKeyEvent"
  | .ledState => "LEDState"
  | .desktopName => "DesktopName"
  | .extendedDesktopSize => "ExtendedDesktopSize"
  | .fence => "Fence"
  | .continuousUpdates => "ContinuousUpdates"
  | .cursorWithAlpha => "CursorWithAlpha"
  | .compressLevel level => s!"CompressLevel{level}"
  | .qualityLevel level => s!"QualityLevel{level}"

def isPseudo (e : Encoding) : Bool := e.number < 0

/-- Whether a rectangle can have this encoding. -/
def carriesRectangle : Encoding → Bool
  | .compressLevel _ | .qualityLevel _ | .qemuExtendedKeyEvent | .fence | .continuousUpdates => false
  | _ => true

end Encoding

end RemoteFramebuffer
